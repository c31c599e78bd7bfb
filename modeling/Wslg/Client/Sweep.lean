/-
What a sync collects at its start and deletes at its end.

The walk and the sweep are loops that read the disk while they change it. Run on
a client with a sync database they never fail, and they are functions of the
state of Windows they start in (`walk`, `sweep`): the calls they make and the
state they leave. The two databases are then a matter of sets of paths: the walk
inserts what its calls found (`addAllSubFolderFiles_eq`), and the sweep visits
each id that is there once (`deleteAllFileIdFiles_eq`).
-/

import Wslg.Client.Sync

namespace Wslg.Client

open Wslg.Protocol Wslg.StateExcept

variable {ω : Type} {os : Os ω}

/-! ### Reading a log -/

/-- The paths a call puts into the sync database: a link, and the icon file it
points to. -/
def Action.found : Action → List WStr
  | .getIconFile link icon => link :: icon.toList
  | _ => []

/-- The path a call of the sweep deletes. -/
def Action.swept : Action → List WStr
  | .deleteFile .deleteAllFileIdFiles path => [path]
  | _ => []

def found (calls : List (Call ω)) : List WStr := calls.flatMap (·.action.found)

def swept (calls : List (Call ω)) : List WStr := calls.flatMap (·.action.swept)

/-! ### The walk -/

/-- The calls of the walk below a folder, and the state of Windows after it. -/
def walk (os : Os ω) : Listing → WStr → ω → List (Call ω) × ω
  | .done, _, w => ([], w)
  | .file name rest, path, w =>
      let link := below path name
      let r := walk os rest path w
      if pathFindExtensionW name.chars = lnkExtension then
        (⟨.getIconFile link (os.loadIconLocation w link).toOption, w⟩ :: r.1, r.2)
      else r
  | .dir name sub rest, path, w =>
      let dir := below path name
      if name.isSpecial then walk os rest path w
      else if os.pathIsDirectoryEmptyW w dir then
        let r := walk os rest path (os.removeDirectory dir w).2
        (⟨.removeDirectory .addAllSubFolderFiles dir, w⟩ :: r.1, r.2)
      else
        let inner := walk os sub dir w
        let r := walk os rest path inner.2
        (inner.1 ++ r.1, r.2)

/-- The client with another sync database. -/
def Machine.withSyncDB (m : Machine ω) (db : FileDB) (w : ω) (calls : List (Call ω)) :
    Machine ω :=
  { m with cb := { m.cb with spFileDBSync := some db }, world := w, log := m.log ++ calls }

theorem Machine.withSyncDB_withSyncDB (m : Machine ω) (db db' : FileDB) (w w' : ω)
    (calls calls' : List (Call ω)) :
    (m.withSyncDB db w calls).withSyncDB db' w' calls' = m.withSyncDB db' w' (calls ++ calls') := by
  simp only [Machine.withSyncDB, List.append_assoc]

theorem Machine.eq_withSyncDB {m : Machine ω} {db : FileDB} (sync : m.cb.spFileDBSync = some db) :
    m = m.withSyncDB db m.world [] := by
  obtain ⟨cb, heap, world, log⟩ := m
  simp only [Machine.withSyncDB, List.append_nil] at sync ⊢
  rw [← sync]

/-- The database with more ids. -/
def FileDB.insertFileIds (db : FileDB) (fileIds : List WStr) : FileDB :=
  fileIds.foldl insertFileId db

theorem FileDB.insertFileIds_append (db : FileDB) (fileIds fileIds' : List WStr) :
    db.insertFileIds (fileIds ++ fileIds') = (db.insertFileIds fileIds).insertFileIds fileIds' :=
  List.foldl_append

theorem FileDB.mem_insertFileIds {db : FileDB} {fileIds : List WStr} {k : WStr} :
    k ∈ (db.insertFileIds fileIds).fileIds ↔ k ∈ fileIds ∨ k ∈ db.fileIds := by
  induction fileIds generalizing db with
  | nil => simp [insertFileIds]
  | cons fileId rest ih =>
      rw [insertFileIds, List.foldl_cons]
      show k ∈ ((db.insertFileId fileId).insertFileIds rest).fileIds ↔ _
      rw [ih, mem_fileIds_insertFileId, List.mem_cons, or_left_comm, or_assoc]

/-- A step on the sync database that is there. -/
theorem withSync_apply {f : FileDB → FileDB} {m : Machine ω} {db : FileDB}
    (sync : m.cb.spFileDBSync = some db) :
    withSync f m = .ok () { m with cb := { m.cb with spFileDBSync := some (f db) } } := by
  rw [withSync, members_bind, sync]
  rfl

theorem removeDirectory_eq {m : Machine ω} {db : FileDB} (sync : m.cb.spFileDBSync = some db)
    {caller : Caller} {dir : WStr} :
    removeDirectory os caller dir m =
      .ok () (m.withSyncDB db (os.removeDirectory dir m.world).2
        [⟨.removeDirectory caller dir, m.world⟩]) := by
  obtain ⟨cb, heap, world, log⟩ := m
  rw [Machine.withSyncDB, ← show cb.spFileDBSync = some db from sync]
  rfl

theorem onLnkFileAdded_eq {m : Machine ω} {db : FileDB} (sync : m.cb.spFileDBSync = some db)
    (link : WStr) :
    let call : Call ω := ⟨.getIconFile link (os.loadIconLocation m.world link).toOption, m.world⟩
    onLnkFileAdded os link m =
      .ok () (m.withSyncDB (db.insertFileIds call.action.found) m.world [call]) := by
  intro call
  rw [onLnkFileAdded, bind_of_ok (withSync_apply sync)]
  have read : getIconFileFromShellLink os link
        { m with cb := { m.cb with spFileDBSync := some (db.insertFileId link) } } =
      .ok (os.loadIconLocation m.world link).toOption
        (m.withSyncDB (db.insertFileId link) m.world [call]) := rfl
  rw [bind_of_ok read]
  cases icon : (os.loadIconLocation m.world link).toOption with
  | none => simp only [call, icon]; rfl
  | some iconFile => simp only [call, icon]; rfl

/-- The walk is the function `walk`, and inserts what its calls found. -/
theorem addAllSubFolderFiles_eq (entries : Listing) (path : WStr) {m : Machine ω} {db : FileDB}
    (sync : m.cb.spFileDBSync = some db) :
    addAllSubFolderFiles os entries path m =
      .ok () (m.withSyncDB (db.insertFileIds (found (walk os entries path m.world).1))
        (walk os entries path m.world).2 (walk os entries path m.world).1) := by
  induction entries generalizing path m db with
  | done => exact congrArg _ (Machine.eq_withSyncDB sync)
  | file name rest ih =>
      rw [addAllSubFolderFiles, walk]
      by_cases lnk : pathFindExtensionW name.chars = lnkExtension
      · rw [if_pos lnk, if_pos lnk, bind_of_ok (onLnkFileAdded_eq sync _), ih path rfl,
          Machine.withSyncDB_withSyncDB, ← FileDB.insertFileIds_append]
        rfl
      · rw [if_neg lnk, if_neg lnk, pure_bind_apply, ih path sync]
  | dir name sub rest ihSub ih =>
      rw [addAllSubFolderFiles, walk]
      by_cases special : name.isSpecial
      · rw [if_pos special, if_pos special, pure_bind_apply, ih path sync]
      · rw [if_neg special, if_neg special, bind_assoc, isEmptyDirectory, query_bind]
        by_cases empty : os.pathIsDirectoryEmptyW m.world (below path name)
        · rw [if_pos empty, if_pos empty]
          rw [bind_of_ok (removeDirectory_eq sync), ih path rfl, Machine.withSyncDB_withSyncDB]
          rfl
        · rw [if_neg empty, if_neg empty, bind_of_ok (ihSub _ sync), ih path rfl,
            Machine.withSyncDB_withSyncDB, ← FileDB.insertFileIds_append]
          simp only [found, List.flatMap_append]
          rfl

namespace Listing

/-- The files at any depth, a folder's own entries `.` and `..` apart. -/
def files : Listing → WStr → List WStr
  | done, _ => []
  | file name rest, path => below path name :: rest.files path
  | dir name sub rest, path =>
      (if name.isSpecial then [] else sub.files (below path name)) ++ rest.files path

/-- The shortcuts among them. -/
def lnkFiles (entries : Listing) (path : WStr) : List WStr :=
  (entries.files path).filter fun p => pathFindExtensionW p = lnkExtension

end Listing

/-- The extension of a path is that of its last name. -/
theorem pathFindExtensionW_below (path : WStr) (name : FileName) :
    pathFindExtensionW (below path name) = pathFindExtensionW name.chars := by
  have keep : ∀ (c : WCHAR) (cs : WStr), ¬ (c = dot ∧ cs.all fun d => d ≠ space ∧ d ≠ backslash) →
      pathFindExtensionW (c :: cs) = pathFindExtensionW cs := by
    intro c cs stopped
    rw [pathFindExtensionW, if_neg stopped]
    split
    · rfl
    · rename_i none_
      exact (not_not.mp none_).symm
  rw [below]
  induction path with
  | nil => exact keep _ _ fun h => absurd h.1 (by decide)
  | cons c path ih =>
      rw [List.cons_append, keep _ _ fun h => ?_, ih]
      exact (of_decide_eq_true (List.all_eq_true.mp h.2 backslash (by simp))).2 rfl

/-- A call of the walk below a folder with these shortcuts: it reads one, or removes
a folder found empty. -/
def WalkCall (os : Os ω) (links : List WStr) (call : Call ω) : Prop :=
  (∃ link ∈ links, call.action =
      .getIconFile link (os.loadIconLocation call.world link).toOption) ∨
    ∃ dir, call.action = .removeDirectory .addAllSubFolderFiles dir ∧
      os.pathIsDirectoryEmptyW call.world dir = true

theorem WalkCall.mono {links links' : List WStr} {call : Call ω} (h : WalkCall os links call)
    (more : ∀ link ∈ links, link ∈ links') : WalkCall os links' call :=
  h.imp_left fun ⟨link, mem, action⟩ => ⟨link, more link mem, action⟩

theorem walkCall_of_mem {entries : Listing} {path : WStr} {w : ω} {call : Call ω}
    (mem : call ∈ (walk os entries path w).1) : WalkCall os (entries.lnkFiles path) call := by
  induction entries generalizing path w with
  | done => cases mem
  | file name rest ih =>
      have later : ∀ link ∈ rest.lnkFiles path, link ∈ (Listing.file name rest).lnkFiles path :=
        fun link inRest => List.mem_filter.mpr
          ((List.mem_filter.mp inRest).imp_left (List.mem_cons_of_mem _))
      rw [walk] at mem
      split at mem
      · rename_i lnk
        rcases List.mem_cons.mp mem with rfl | tail
        · refine Or.inl ⟨below path name, List.mem_filter.mpr ⟨List.mem_cons_self, ?_⟩, rfl⟩
          rw [pathFindExtensionW_below, lnk]
          exact decide_eq_true rfl
        · exact (ih tail).mono later
      · exact (ih mem).mono later
  | dir name sub rest ihSub ih =>
      have later : ∀ link ∈ rest.lnkFiles path,
          link ∈ (Listing.dir name sub rest).lnkFiles path :=
        fun link inRest => List.mem_filter.mpr
          ((List.mem_filter.mp inRest).imp_left (List.mem_append_right _))
      rw [walk] at mem
      split at mem
      · exact (ih mem).mono later
      rename_i special
      split at mem
      · rename_i empty
        rcases List.mem_cons.mp mem with rfl | tail
        · exact Or.inr ⟨_, rfl, empty⟩
        · exact (ih tail).mono later
      · rcases List.mem_append.mp mem with inner | tail
        · refine (ihSub inner).mono fun link inSub => List.mem_filter.mpr
            ((List.mem_filter.mp inSub).imp_left fun file => List.mem_append_left _ ?_)
          rw [if_neg special]
          exact file
        · exact (ih tail).mono later

/-! ### The sweep -/

/-- The calls of one turn of the sweep, and the state of Windows after it. -/
def sweepFile (os : Os ω) (fileId : WStr) (w : ω) : List (Call ω) × ω :=
  let call : Call ω := ⟨.deleteFile .deleteAllFileIdFiles fileId, w⟩
  let deleted := os.deleteFileW fileId w
  match parentFolder fileId with
  | none => ([call], deleted.2)
  | some dir =>
      if deleted.1 ∧ os.pathIsDirectoryEmptyW deleted.2 dir then
        ([call, ⟨.removeDirectory .deleteAllFileIdFiles dir, deleted.2⟩],
          (os.removeDirectory dir deleted.2).2)
      else ([call], deleted.2)

def sweep (os : Os ω) : List WStr → ω → List (Call ω) × ω
  | [], w => ([], w)
  | fileId :: rest, w =>
      let first := sweepFile os fileId w
      let r := sweep os rest first.2
      (first.1 ++ r.1, r.2)

theorem deleteFileId_eq {m : Machine ω} {db : FileDB} (sync : m.cb.spFileDBSync = some db)
    (fileId : WStr) :
    deleteFileId os fileId m = .ok () (m.withSyncDB (db.erase fileId)
      (sweepFile os fileId m.world).2 (sweepFile os fileId m.world).1) := by
  set call : Call ω := ⟨.deleteFile .deleteAllFileIdFiles fileId, m.world⟩ with call_eq
  set w := (os.deleteFileW fileId m.world).2 with w_eq
  have deleted : deleteFile os .deleteAllFileIdFiles fileId m =
      .ok (os.deleteFileW fileId m.world).1 (m.withSyncDB db w [call]) := by
    conv_lhs => rw [Machine.eq_withSyncDB sync]
    rw [w_eq, call_eq]
    simp only [Machine.withSyncDB, List.append_nil]
    rfl
  rw [deleteFileId, bind_of_ok deleted]
  -- the folder of the file, if it has one that is empty now
  have parent : ((if (os.deleteFileW fileId m.world).1 then removeParent os fileId else pure ()) :
      Handler ω Unit) (m.withSyncDB db w [call]) =
      .ok () (m.withSyncDB db (sweepFile os fileId m.world).2 (sweepFile os fileId m.world).1) := by
    rw [sweepFile, removeParent]
    cases (os.deleteFileW fileId m.world).1 with
    | false => cases parentFolder fileId <;> rfl
    | true =>
        cases parentFolder fileId with
        | none => rfl
        | some dir =>
            simp only [if_true, isEmptyDirectory, query_bind, true_and]
            show (if os.pathIsDirectoryEmptyW w dir then _ else _ : Handler ω Unit) _ = _
            by_cases empty : os.pathIsDirectoryEmptyW w dir
            · rw [if_pos empty, if_pos empty, removeDirectory_eq rfl,
                Machine.withSyncDB_withSyncDB]
              rfl
            · rw [if_neg empty, if_neg empty]
              rfl
  rw [bind_of_ok parent, withSync_apply rfl]
  rfl

/-- The sweep is the function `sweep`. -/
theorem deleteFileIds_eq (fileIds : List WStr) {m : Machine ω} {db : FileDB}
    (sync : m.cb.spFileDBSync = some db) :
    deleteFileIds os fileIds m = .ok () (m.withSyncDB (fileIds.foldl (·.erase) db)
      (sweep os fileIds m.world).2 (sweep os fileIds m.world).1) := by
  induction fileIds generalizing m db with
  | nil => exact congrArg _ (Machine.eq_withSyncDB sync)
  | cons fileId rest ih =>
      rw [deleteFileIds, bind_of_ok (deleteFileId_eq sync fileId), ih rfl,
        Machine.withSyncDB_withSyncDB]
      rfl

/-- Every id is deleted once, in order. -/
theorem swept_sweep (fileIds : List WStr) (w : ω) : swept (sweep os fileIds w).1 = fileIds := by
  induction fileIds generalizing w with
  | nil => rfl
  | cons fileId rest ih =>
      have first : swept (sweepFile os fileId w).1 = [fileId] := by
        rw [sweepFile]
        split
        · rfl
        · split <;> rfl
      rw [sweep, swept, List.flatMap_append]
      show swept (sweepFile os fileId w).1 ++ swept (sweep os rest _).1 = _
      rw [first, ih]
      rfl

theorem mem_sweepFile {fileId : WStr} {w : ω} {call : Call ω}
    (mem : call ∈ (sweepFile os fileId w).1) :
    call.action = .deleteFile .deleteAllFileIdFiles fileId ∨
      ∃ dir, parentFolder fileId = some dir ∧
        call.action = .removeDirectory .deleteAllFileIdFiles dir ∧
        os.pathIsDirectoryEmptyW call.world dir = true := by
  rw [sweepFile] at mem
  split at mem
  · rw [List.mem_singleton.mp mem]
    exact Or.inl rfl
  · rename_i dir parent
    split at mem
    · rename_i empty
      rcases List.mem_cons.mp mem with rfl | tail
      · exact Or.inl rfl
      · rw [List.mem_singleton.mp tail]
        exact Or.inr ⟨dir, parent, rfl, empty.2⟩
    · rw [List.mem_singleton.mp mem]
      exact Or.inl rfl

/-- The sweep deletes ids, and removes the folder of one that leaves it empty. -/
theorem mem_sweep {fileIds : List WStr} {w : ω} {call : Call ω}
    (mem : call ∈ (sweep os fileIds w).1) :
    ∃ fileId ∈ fileIds, call.action = .deleteFile .deleteAllFileIdFiles fileId ∨
      ∃ dir, parentFolder fileId = some dir ∧
        call.action = .removeDirectory .deleteAllFileIdFiles dir ∧
        os.pathIsDirectoryEmptyW call.world dir = true := by
  induction fileIds generalizing w with
  | nil => cases mem
  | cons fileId rest ih =>
      rcases List.mem_append.mp mem with first | later
      · exact ⟨fileId, List.mem_cons_self, mem_sweepFile first⟩
      · obtain ⟨fileId', inRest, done⟩ := ih later
        exact ⟨fileId', List.mem_cons_of_mem _ inRest, done⟩

/-! ### Start and end -/

/-- The walk of `OnSyncStart`. -/
def startWalk (os : Os ω) (m : Machine ω) : List (Call ω) × ω :=
  walk os (os.listing m.world m.cb.appMenuPath) m.cb.appMenuPath m.world

/-- The client after a sync has been started. -/
def startedSync (os : Os ω) (m : Machine ω) : Machine ω :=
  m.withSyncDB (FileDB.insertFileIds ∅ (found (startWalk os m).1)) (startWalk os m).2
    (startWalk os m).1

/-- `OnSyncStart` starts a sync or does nothing. -/
theorem onSyncStart_cases (os : Os ω) (m : Machine ω) :
    (∃ e, onSyncStart os m = .error e m) ∨
      (m.cb.spFileDBSync = none ∧ onSyncStart os m = .ok () (startedSync os m)) := by
  cases sync : m.cb.spFileDBSync with
  | some db =>
      refine Or.inl ⟨.hresult E_FAIL, ?_⟩
      simp [onSyncStart, sync]
  | none =>
      cases created : os.createFileDB m.world with
      | error hr =>
          refine Or.inl ⟨.hresult hr, ?_⟩
          simp [onSyncStart, sync, created]
      | ok u =>
          refine Or.inr ⟨rfl, ?_⟩
          simp only [onSyncStart, members_bind, sync, Option.isNone_none, require_bind, if_true,
            query_bind, created, check_bind, setMembers_bind, addAllFilesAsFileIdAt]
          exact addAllSubFolderFiles_eq _ _ rfl

/-- `OnSyncEnd` with a database sweeps it when asked to, and drops it. -/
theorem onSyncEnd_eq {m : Machine ω} {db : FileDB} (sync : m.cb.spFileDBSync = some db)
    (cleanupFiles : Bool) :
    onSyncEnd os cleanupFiles m =
      .ok () { m with
        cb := { m.cb with spFileDBSync := none }
        world := if cleanupFiles then (sweep os db.fileIds m.world).2 else m.world
        log := m.log ++ if cleanupFiles then (sweep os db.fileIds m.world).1 else [] } := by
  cases cleanupFiles with
  | false => simp [onSyncEnd, sync, setMembers]
  | true =>
      have swept : deleteAllFileIdFiles os m =
          .ok () (m.withSyncDB (db.fileIds.foldl (·.erase) db) (sweep os db.fileIds m.world).2
            (sweep os db.fileIds m.world).1) := by
        rw [deleteAllFileIdFiles, members_bind, sync]
        exact deleteFileIds_eq _ sync
      simp only [onSyncEnd, members_bind, sync, Option.isSome_some, if_true]
      rw [bind_of_ok swept]
      rfl

end Wslg.Client
