/-
`RemoveAppProvider` of `dllmain.cpp`: the menu folder of a provider is emptied without a
channel.

It walks the folder and sweeps what it has found, as a sync does, with a database of its own.
So it asks for the deletion of the shortcuts of the folder and the icon files they point to,
and of nothing else, and goes on past a deletion that fails (`removes_exactly`); and of what
the updates of a run have put into the folder only the shortcuts are left that Windows has
refused to delete, whatever happened in between (`removes_installed`). The name it is called
with is not checked.
-/

import Wslg.Client.DeleteAlone
import Wslg.Client.SyncFiles

namespace Wslg.Client

open Wslg.Protocol Wslg.StateExcept

variable {ω : Type} {os : Os ω} {attributes : ω → WStr → Option UInt32}

/-! ### The function -/

def E_INVALIDARG : HRESULT := 0x80070057

def FILE_ATTRIBUTE_DIRECTORY : UInt32 := 0x10

/-- `IsDirectoryPresent`; `GetFileAttributes` answers with nothing for
`INVALID_FILE_ATTRIBUTES`. -/
def isDirectoryPresent (attributes : ω → WStr → Option UInt32) (w : ω) (path : WStr) : Bool :=
  match attributes w path with
  | some attrib => attrib &&& FILE_ATTRIBUTE_DIRECTORY ≠ 0
  | none => false

/-- `BuildMenuPath` with `isCreateDir` false. -/
def buildMenuPathOnly (os : Os ω) (provider : WStr) : Handler ω WStr :=
  query os.knownFolderStartMenu >>= fun folder =>
  match folder with
  | none => fail E_FAIL
  | some startMenu =>
      let path := menuPath startMenu provider
      require (path.length < maxPath) >>= fun _ => pure path

/-- From `WSLDVCFileDB_CreateInstance` to `OnClose`. The database is a local variable, for
which the one of the sync stands here. -/
def emptyFolder (os : Os ω) (appMenuPath : WStr) : Handler ω Unit :=
  query os.createFileDB >>= fun created =>
  check created >>= fun _ =>
  setMembers (fun cb => { cb with spFileDBSync := some ∅ }) >>= fun _ =>
  addAllFilesAsFileIdAt os appMenuPath >>= fun _ =>
  deleteAllFileIdFiles os >>= fun _ =>
  setMembers fun cb => { cb with spFileDBSync := none }

def removeAppProvider (os : Os ω) (attributes : ω → WStr → Option UInt32)
    (appProvider : Option WStr) : Handler ω Unit :=
  match appProvider with
  | none => fail E_INVALIDARG
  | some provider =>
      buildMenuPathOnly os provider >>= fun appMenuPath =>
      query (fun w => isDirectoryPresent attributes w appMenuPath) >>= fun present =>
      if present then emptyFolder os appMenuPath else pure ()

/-- What a call leaves: the calls it has made, and Windows. -/
structure Removal (ω : Type) where
  calls : List (Call ω)
  world : ω

/-- A call with nothing but Windows, however it ends. -/
def removal (os : Os ω) (attributes : ω → WStr → Option UInt32) (appProvider : Option WStr)
    (w : ω) : Removal ω :=
  let m := final (removeAppProvider os attributes appProvider ⟨{}, {}, w, []⟩)
  ⟨m.log, m.world⟩

/-! ### How it ends -/

/-- The folder that is emptied, where the call gets that far. -/
def removedFolder (os : Os ω) (attributes : ω → WStr → Option UInt32)
    (appProvider : Option WStr) (w : ω) : Option WStr := do
  let provider ← appProvider
  let startMenu ← os.knownFolderStartMenu w
  let path := menuPath startMenu provider
  if path.length < maxPath ∧ isDirectoryPresent attributes w path ∧ (os.createFileDB w).isOk then
    some path
  else none

/-- The walk of a folder and the sweep of what it has found. -/
def emptied (os : Os ω) (path : WStr) (w : ω) : Removal ω :=
  let walked := walk os (os.listing w path) path w
  let swept := sweep os (FileDB.insertFileIds ∅ (found walked.1)).fileIds walked.2
  ⟨walked.1 ++ swept.1, swept.2⟩

/-- With its database the call walks and sweeps the folder. -/
theorem emptyFolder_eq {path : WStr} {m : Machine ω} (created : os.createFileDB m.world = .ok ()) :
    emptyFolder os path m = .ok ()
      { m with
        cb := { m.cb with spFileDBSync := none }
        world := (emptied os path m.world).world
        log := m.log ++ (emptied os path m.world).calls } := by
  set walked := walk os (os.listing m.world path) path m.world with walked_eq
  set ids := FileDB.insertFileIds ∅ (found walked.1)
  have walks : addAllSubFolderFiles os _ path
      { m with cb := { m.cb with spFileDBSync := some ∅ } } = _ :=
    addAllSubFolderFiles_eq (os.listing m.world path) path rfl
  have sweeps : deleteFileIds os _ _ = _ :=
    deleteFileIds_eq ids.fileIds (m := m.withSyncDB ids walked.2 walked.1) rfl
  rw [Machine.withSyncDB_withSyncDB] at sweeps
  simp only [emptyFolder, query_bind, created, check_bind, setMembers_bind]
  rw [addAllFilesAsFileIdAt, bind_assoc, query_bind, bind_of_ok walks, deleteAllFileIdFiles,
    bind_assoc, members_bind]
  exact bind_of_ok sweeps

theorem removeAppProvider_some (provider : WStr) (m : Machine ω) :
    removeAppProvider os attributes (some provider) m =
      match os.knownFolderStartMenu m.world with
      | none => .error (.hresult E_FAIL) m
      | some startMenu =>
          if (menuPath startMenu provider).length < maxPath then
            if isDirectoryPresent attributes m.world (menuPath startMenu provider) then
              emptyFolder os (menuPath startMenu provider) m
            else .ok () m
          else .error (.hresult E_FAIL) m := by
  rw [removeAppProvider, buildMenuPathOnly, bind_assoc, query_bind]
  cases os.knownFolderStartMenu m.world with
  | none => rfl
  | some startMenu =>
      simp only [bind_assoc, require_bind, pure_bind, query_bind]
      split_ifs <;> rfl

/-- A call empties the folder or leaves everything as it is. -/
theorem removal_eq (appProvider : Option WStr) (w : ω) :
    removal os attributes appProvider w =
      match removedFolder os attributes appProvider w with
      | some path => emptied os path w
      | none => ⟨[], w⟩ := by
  cases appProvider with
  | none => rfl
  | some provider =>
      simp only [removal, removeAppProvider_some, removedFolder, Option.bind_eq_bind,
        Option.bind_some]
      cases os.knownFolderStartMenu w with
      | none => rfl
      | some startMenu =>
          simp only [Option.bind_some]
          by_cases fits : (menuPath startMenu provider).length < maxPath
          swap
          · simp only [fits, false_and, if_false, final_error]
          cases present : isDirectoryPresent attributes w (menuPath startMenu provider) with
          | false => simp only [fits, Bool.false_eq_true, false_and, and_false, if_false, if_true,
              final_ok]
          | true =>
              cases created : os.createFileDB w with
              | error hr =>
                  simp only [fits, emptyFolder, query_bind, created, check_bind, final_error,
                    Except.isOk, Except.toBool, Bool.false_eq_true, and_false, if_false, if_true]
              | ok u =>
                  have emptied := @emptyFolder_eq _ os (menuPath startMenu provider)
                    ⟨{}, {}, w, []⟩ created
                  simp only [fits, emptied, final_ok, Except.isOk, Except.toBool, and_true,
                    if_true, List.nil_append]

/-! ### The files -/

/-- A file system in which the deletion of a file may fail and then leaves everything. -/
structure Store (os : Os ω) extends FileSystem os where
  same : WStr → WStr → Prop
  same_refl : ∀ path, same path path
  isFile_deleteFileW : ∀ w path p, isFile (os.deleteFileW path w).2 p ↔
    isFile w p ∧ ¬ ((os.deleteFileW path w).1 = true ∧ same path p)

/-- `DeleteFileW` answers a call of the sweep for a file with `succeeded`. -/
def Call.Deletes (os : Os ω) (call : Call ω) (fileId : WStr) (succeeded : Bool) : Prop :=
  call.action = .deleteFile .deleteAllFileIdFiles fileId ∧
    (os.deleteFileW fileId call.world).1 = succeeded

instance (call : Call ω) (fileId : WStr) (succeeded : Bool) :
    Decidable (call.Deletes os fileId succeeded) :=
  inferInstanceAs (Decidable (_ ∧ _))

/-- A shortcut below a folder, or the icon file one points to. -/
def ShortcutFile (store : Store os) (path : WStr) (w : ω) (p : WStr) : Prop :=
  ∃ link, store.isFile w link ∧ Below path link ∧ pathFindExtensionW link = lnkExtension ∧
    (p = link ∨ os.loadIconLocation w link = .ok p)

/-- The walk of a folder is told of the files below it. -/
def Told (store : Store os) (path : WStr) (w : ω) : Prop :=
  ∀ p, p ∈ (os.listing w path).files path ↔ store.isFile w p ∧ Below path p

variable {store : Store os} {path p : WStr} {w : ω}

/-- The first call of a turn is the deletion, and there is no other. -/
theorem deletes_sweepFile_iff {fileId q : WStr} {succeeded : Bool} :
    (∃ call ∈ (sweepFile os fileId w).1, call.Deletes os q succeeded) ↔
      q = fileId ∧ (os.deleteFileW fileId w).1 = succeeded := by
  set deletion : Call ω := ⟨.deleteFile .deleteAllFileIdFiles fileId, w⟩ with deletion_eq
  have first : deletion ∈ (sweepFile os fileId w).1 := by
    rw [sweepFile]
    split
    · exact List.mem_cons_self
    · split <;> exact List.mem_cons_self
  constructor
  · rintro ⟨call, mem, action, answer⟩
    rw [sweepFile] at mem
    have same : call = deletion := by
      split at mem
      · exact List.mem_singleton.mp mem
      · split at mem
        · rcases List.mem_cons.mp mem with rfl | tail
          · rfl
          · rw [List.mem_singleton.mp tail] at action
            cases action
        · exact List.mem_singleton.mp mem
    rw [same, deletion_eq] at action answer
    cases action
    exact ⟨rfl, answer⟩
  · rintro ⟨rfl, answer⟩
    exact ⟨deletion, first, rfl, answer⟩

theorem isFile_sweepFile {fileId : WStr} :
    store.isFile (sweepFile os fileId w).2 p ↔ store.isFile w p ∧
      ∀ q, (∃ call ∈ (sweepFile os fileId w).1, call.Deletes os q true) → ¬ store.same q p := by
  have deleted : store.isFile (sweepFile os fileId w).2 p ↔
      store.isFile (os.deleteFileW fileId w).2 p := by
    rw [sweepFile]
    split
    · rfl
    · split
      · exact store.isFile_removeDirectory _ _ _
      · rfl
  rw [deleted, store.isFile_deleteFileW]
  refine and_congr_right fun _ => ?_
  simp only [deletes_sweepFile_iff]
  constructor
  · rintro spared q ⟨rfl, answer⟩ same
    exact spared ⟨answer, same⟩
  · rintro spared ⟨answer, same⟩
    exact spared fileId ⟨rfl, answer⟩ same

/-- The sweep takes away the files whose deletion succeeds. -/
theorem isFile_sweep {fileIds : List WStr} :
    store.isFile (sweep os fileIds w).2 p ↔ store.isFile w p ∧
      ∀ q, (∃ call ∈ (sweep os fileIds w).1, call.Deletes os q true) → ¬ store.same q p := by
  induction fileIds generalizing w with
  | nil => simp [sweep]
  | cons fileId rest ih =>
      rw [sweep, ih, isFile_sweepFile, and_assoc]
      refine and_congr_right fun _ => ?_
      simp only [List.mem_append, or_and_right, exists_or, or_imp, forall_and]

theorem mem_swept_action {action : Action} :
    p ∈ action.swept ↔ action = .deleteFile .deleteAllFileIdFiles p := by
  unfold Action.swept
  split
  · rename_i path
    rw [List.mem_singleton, Action.deleteFile.injEq]
    exact ⟨fun same => ⟨rfl, same.symm⟩, fun same => same.2.symm⟩
  · rename_i other
    exact ⟨fun mem => absurd mem List.not_mem_nil, fun same => absurd same (other p)⟩

/-- Every file swept has its call, which succeeds or fails. -/
theorem mem_swept_iff {calls : List (Call ω)} :
    p ∈ swept calls ↔ ∃ call ∈ calls, ∃ succeeded, call.Deletes os p succeeded := by
  refine List.mem_flatMap.trans (exists_congr fun call => and_congr_right fun _ => ?_)
  exact mem_swept_action.trans ⟨fun action => ⟨_, action, rfl⟩, fun ⟨_, action, _⟩ => action⟩

theorem mem_found_iff (told : Told store path w) :
    p ∈ found (walk os (os.listing w path) path w).1 ↔ ShortcutFile store path w p := by
  refine (store.mem_found_walk (fun q mem => ((told q).mp mem).1) p).trans
    (exists_congr fun link => ?_)
  rw [Listing.mem_lnkFiles, told, and_assoc, and_assoc]

theorem mem_fileIds_iff (told : Told store path w) :
    p ∈ (FileDB.insertFileIds ∅ (found (walk os (os.listing w path) path w).1)).fileIds ↔
      ShortcutFile store path w p := by
  rw [FileDB.mem_insertFileIds, mem_found_iff told, or_iff_left_iff_imp]
  intro none_
  cases none_

/-- What an emptied folder has lost: `deleted` are the files Windows is asked to delete, and
`files` those that are left, with what it has refused. -/
structure Emptied (store : Store os) (path : WStr) (w : ω) (r : Removal ω) : Prop where
  once : (swept r.calls).Nodup
  deleted : ∀ p, p ∈ swept r.calls ↔ ShortcutFile store path w p
  files : ∀ p, store.isFile r.world p ↔ store.isFile w p ∧
    ∀ q, (∃ call ∈ r.calls, call.Deletes os q true) → ¬ store.same q p
  folders : ∀ call ∈ r.calls, ∀ caller dir, call.action = .removeDirectory caller dir →
    ∀ p, Below dir p → ¬ store.isFile call.world p ∧ ¬ store.isFolder call.world p

theorem swept_walk (entries : Listing) : swept (walk os entries path w).1 = [] := by
  refine List.flatMap_eq_nil_iff.mpr fun call mem => ?_
  obtain ⟨link, -, action⟩ | ⟨dir, action, -⟩ := walkCall_of_mem mem <;> rw [action] <;> rfl

/-- Every folder removed on the way is empty. -/
theorem empty_of_mem_emptied {call : Call ω} (mem : call ∈ (emptied os path w).calls)
    {caller : Caller} {dir : WStr} (action : call.action = .removeDirectory caller dir) :
    os.pathIsDirectoryEmptyW call.world dir = true := by
  rcases List.mem_append.mp mem with walked | swept
  · rcases walkCall_of_mem walked with ⟨link, -, other⟩ | ⟨dir', same, empty⟩
    · cases action.symm.trans other
    · cases action.symm.trans same
      exact empty
  · obtain ⟨fileId, -, other | ⟨dir', -, same, empty⟩⟩ := mem_sweep swept
    · cases action.symm.trans other
    · cases action.symm.trans same
      exact empty

/-- The walk deletes no file. -/
theorem deletes_emptied_iff {q : WStr} {succeeded : Bool} :
    (∃ call ∈ (emptied os path w).calls, call.Deletes os q succeeded) ↔
      ∃ call ∈ (sweep os (FileDB.insertFileIds ∅
          (found (walk os (os.listing w path) path w).1)).fileIds
        (walk os (os.listing w path) path w).2).1, call.Deletes os q succeeded := by
  constructor
  · rintro ⟨call, made, deletes⟩
    rcases List.mem_append.mp made with walked | swept
    · have none_ : q ∈ swept (walk os (os.listing w path) path w).1 :=
        mem_swept_iff.mpr ⟨call, walked, succeeded, deletes⟩
      rw [swept_walk] at none_
      cases none_
    · exact ⟨call, swept, deletes⟩
  · rintro ⟨call, made, deletes⟩
    exact ⟨call, List.mem_append_right _ made, deletes⟩

/-- What is still there of the files to delete is what Windows has refused to delete. -/
theorem Emptied.refused {r : Removal ω} (emptied : Emptied store path w r)
    (file : ShortcutFile store path w p) (left : store.isFile r.world p) :
    ∃ call ∈ r.calls, call.Deletes os p false := by
  obtain ⟨call, made, succeeded, deletes⟩ := mem_swept_iff.mp ((emptied.deleted p).mpr file)
  cases succeeded with
  | false => exact ⟨call, made, deletes⟩
  | true =>
      exact absurd (store.same_refl p) (((emptied.files p).mp left).2 p ⟨call, made, deletes⟩)

theorem emptied_of_told (told : Told store path w) :
    Emptied store path w (emptied os path w) := by
  have deleted : swept (emptied os path w).calls =
      (FileDB.insertFileIds ∅ (found (walk os (os.listing w path) path w).1)).fileIds := by
    rw [emptied, swept_append, swept_walk, List.nil_append, swept_sweep]
  constructor
  · rw [deleted]
    exact FileDB.nodup_fileIds _
  · intro p
    rw [deleted]
    exact mem_fileIds_iff told
  · intro p
    refine isFile_sweep.trans (and_congr ((store.walk_leaves _ _ _).1 p) ?_)
    exact forall_congr' fun q => imp_congr_left deletes_emptied_iff.symm
  · intro call mem caller dir action p inside
    exact store.empty (empty_of_mem_emptied mem action) inside

/-- A call either leaves everything as it is or, when the folder's files are enumerated as
they are, asks for the deletion of exactly the shortcuts in the folder and the icon files they
point to, each once, takes away those for which that succeeds, and removes folders only when
they are empty. -/
theorem removes_exactly (store : Store os) (appProvider : Option WStr) (w : ω)
    (told : ∀ path, removedFolder os attributes appProvider w = some path → Told store path w) :
    match removedFolder os attributes appProvider w with
    | some path => Emptied store path w (removal os attributes appProvider w)
    | none => removal os attributes appProvider w = ⟨[], w⟩ := by
  rw [removal_eq]
  cases folder : removedFolder os attributes appProvider w with
  | some path => exact emptied_of_told (told path folder)
  | none => rfl

/-- A `Disk` some files of which are held open by others and cannot be deleted. -/
def heldOs (held : List WStr) : Os Disk :=
  { diskOs with
    deleteFileW := fun path d => if held.contains path then (false, d) else diskOs.deleteFileW path d }

/-- The files of such a `Disk`, each with one path. -/
def heldStore (held : List WStr) : Store (heldOs held) where
  isFile := diskFiles.isFile
  isFolder := diskFiles.isFolder
  empty := diskFiles.empty
  isFile_removeDirectory := diskFiles.isFile_removeDirectory
  icon_removeDirectory := diskFiles.icon_removeDirectory
  same := Eq
  same_refl := fun _ => rfl
  isFile_deleteFileW := by
    intro d path p
    show diskFiles.isFile (if held.contains path then (false, d) else diskOs.deleteFileW path d).2 p ↔
      _ ∧ ¬ ((if held.contains path then (false, d) else diskOs.deleteFileW path d).1 = true ∧ _)
    split
    · simp
    · refine (diskDeletion.isFile_deleteFileW d path p).trans (and_congr_right fun there => ?_)
      have deleted : path = p → (diskOs.deleteFileW path d).1 = true := by
        rintro rfl
        obtain ⟨file, mem, same⟩ := List.mem_map.mp there
        exact List.any_eq_true.mpr ⟨file, mem, decide_eq_true same⟩
      exact not_congr ⟨fun same => ⟨deleted same, same⟩, And.right⟩

def diskAttributes (d : Disk) (path : WStr) : Option UInt32 :=
  if d.folders.contains path then some FILE_ATTRIBUTE_DIRECTORY else none

/-- A `Disk` with one file below a folder tells of it. -/
theorem told_of_one {held : List WStr} {d : Disk} {path : WStr} (file : WStr)
    (listed : (diskOs.listing d path).files path = [file])
    (inside : (d.files.map (·.1)).filter (Below path) = [file]) :
    Told (heldStore held) path d := by
  intro p
  show p ∈ (diskOs.listing d path).files path ↔ _
  rw [listed, ← inside, List.mem_filter, decide_eq_true_iff]
  rfl

/-- The menu folder of `U` has a shortcut to `C:\\doc`. -/
def oldDisk : Disk where
  files := [(wide "M\\Programs\\U\\old.lnk", wide "C:\\doc"), (wide "C:\\doc", []),
    (wide "C:\\other", [])]
  folders := [wide "M\\Programs\\U"]

theorem removedFolder_oldDisk {held : List WStr} :
    removedFolder (heldOs held) diskAttributes (some (wide "U")) oldDisk =
      some (wide "M\\Programs\\U") := by
  show removedFolder diskOs diskAttributes (some (wide "U")) oldDisk = _
  decide +kernel

/-- While `C:\\doc` is held open only the shortcut goes. -/
theorem removes_exactly_oldDisk :
    Emptied (heldStore [wide "C:\\doc"]) (wide "M\\Programs\\U") oldDisk
        (removal (heldOs [wide "C:\\doc"]) diskAttributes (some (wide "U")) oldDisk) ∧
      (removal (heldOs [wide "C:\\doc"]) diskAttributes (some (wide "U")) oldDisk).world.files =
        [(wide "C:\\doc", []), (wide "C:\\other", [])] := by
  have told : ∀ path, removedFolder (heldOs [wide "C:\\doc"]) diskAttributes (some (wide "U"))
      oldDisk = some path → Told (heldStore [wide "C:\\doc"]) path oldDisk := by
    intro path folder
    cases removedFolder_oldDisk.symm.trans folder
    exact told_of_one (wide "M\\Programs\\U\\old.lnk") (by decide +kernel) (by decide +kernel)
  have exact_ := removes_exactly (heldStore [wide "C:\\doc"]) (some (wide "U")) oldDisk told
  rw [removedFolder_oldDisk] at exact_
  exact ⟨exact_, by decide +kernel⟩

/-! ### What updates have installed -/

theorem pathFindExtensionW_append_lnk (front : WStr) :
    pathFindExtensionW (front ++ lnkExtension) = lnkExtension := by
  induction front with
  | nil => decide
  | cons c front ih =>
      have later : pathFindExtensionW (front ++ lnkExtension) ≠ [] := by
        rw [ih]
        decide
      rw [List.cons_append, pathFindExtensionW, if_pos later, ih]

theorem below_linkPathOf (cb : Callback) (u : UpdateAppListPdu) :
    Below cb.appMenuPath (linkPathOf cb u) :=
  ⟨u.groupPrefix ++ u.appDesc.str ++ lnkExtension, by rw [linkPathOf]; simp⟩

theorem pathFindExtensionW_linkPathOf (cb : Callback) (u : UpdateAppListPdu) :
    pathFindExtensionW (linkPathOf cb u) = lnkExtension := by
  rw [linkPathOf, ← List.cons_append, ← List.append_assoc]
  exact pathFindExtensionW_append_lnk _

/-- The shortcuts a run writes are in the menu folder of that moment. -/
theorem below_of_createShellLink {t : Step ω} (taken : Runs.Taken (step os) t) {call : Call ω}
    (made : call ∈ t.output.calls) {link : WStr} {done : Bool}
    (action : call.action = .createShellLink link done) :
    Below t.before.cb.appMenuPath link ∧ pathFindExtensionW link = lnkExtension := by
  cases callOf_of_mem taken made with
  | walk walked =>
      rcases walked with ⟨_, -, other⟩ | ⟨_, other, -⟩ <;> cases action.symm.trans other
  | icon _ _ _ other => cases action.symm.trans other
  | link applied plain same =>
      cases action.symm.trans same
      exact ⟨below_linkPathOf _ _, pathFindExtensionW_linkPathOf _ _⟩
  | entry ofEntry =>
      obtain ⟨_, _, _, _, _, _, _, _, other⟩ := ofEntry
      cases action.symm.trans other
  | sweep swept whole =>
      obtain ⟨_, -, other | ⟨_, -, other, -⟩⟩ := mem_sweep swept <;> cases action.symm.trans other

/-- A shortcut that a run has put into the folder is not there any more once the folder is
emptied, nor is the icon file it points to by then, whatever has happened in between, unless
Windows has refused to delete it. -/
theorem removes_installed (store : Store os) {w : ω} {es : List (Event ω)} {t : Step ω}
    (mem : t ∈ Runs.transitions (step os) (.fresh w) es) {call : Call ω}
    (made : call ∈ t.output.calls) {link : WStr} {done : Bool}
    (action : call.action = .createShellLink link done) {appProvider : Option WStr} {w' : ω}
    (folder : removedFolder os attributes appProvider w' = some t.before.cb.appMenuPath)
    (told : Told store t.before.cb.appMenuPath w') :
    let r := removal os attributes appProvider w'
    (store.isFile r.world link → ∃ call ∈ r.calls, call.Deletes os link false) ∧
      ∀ icon, store.isFile w' link → os.loadIconLocation w' link = .ok icon →
        store.isFile r.world icon → ∃ call ∈ r.calls, call.Deletes os icon false := by
  intro r
  obtain ⟨inside, lnk⟩ := below_of_createShellLink (Runs.taken_of_mem mem) made action
  have emptied : Emptied store t.before.cb.appMenuPath w' r := by
    rw [show r = _ from removal_eq appProvider w', folder]
    exact emptied_of_told told
  constructor
  · intro left
    have there : store.isFile w' link := ((emptied.files link).mp left).1
    exact emptied.refused ⟨link, there, inside, lnk, .inl rfl⟩ left
  · intro icon there points left
    exact emptied.refused ⟨link, there, inside, lnk, .inr points⟩ left

/-- An update of the provider `U` without an icon. -/
def installRun : List (Event Disk) := [caps "U", update 0 "a" "App"]

def installStep : Step Disk :=
  Runs.take (step (heldOs [])) (Runs.finish (step (heldOs [])) (.fresh {}) [caps "U"])
    (update 0 "a" "App")

theorem removes_installed_installRun :
    installStep ∈ Runs.transitions (step (heldOs [])) (.fresh {}) installRun ∧
      (heldStore []).isFile installStep.after.world (wide "M\\Programs\\U\\App.lnk") ∧
      ¬ (heldStore []).isFile
        (removal (heldOs []) diskAttributes (some (wide "U")) installStep.after.world).world
        (wide "M\\Programs\\U\\App.lnk") := by
  have mem : installStep ∈ Runs.transitions (step (heldOs [])) (.fresh {}) installRun := by
    have split : installRun = [caps "U"] ++ update 0 "a" "App" :: [] := rfl
    rw [split]
    exact Runs.mem_transitions _ _ _ _
  have menu : installStep.before.cb.appMenuPath = wide "M\\Programs\\U" := by decide +kernel
  have made : ∃ call ∈ installStep.output.calls,
      call.action = .createShellLink (wide "M\\Programs\\U\\App.lnk") true := by decide +kernel
  obtain ⟨call, made, action⟩ := made
  have there : wide "M\\Programs\\U\\App.lnk" ∈ installStep.after.world.files.map (·.1) := by
    decide +kernel
  have granted : ¬ ∃ call ∈ (removal (heldOs []) diskAttributes (some (wide "U"))
      installStep.after.world).calls,
        call.Deletes (heldOs []) (wide "M\\Programs\\U\\App.lnk") false := by
    decide +kernel
  have folder : removedFolder (heldOs []) diskAttributes (some (wide "U"))
      installStep.after.world = some installStep.before.cb.appMenuPath := by
    rw [menu]
    decide +kernel
  have told : Told (heldStore []) installStep.before.cb.appMenuPath installStep.after.world := by
    rw [menu]
    exact told_of_one (wide "M\\Programs\\U\\App.lnk") (by decide +kernel) (by decide +kernel)
  have removed := removes_installed (heldStore []) mem made action folder told
  exact ⟨mem, there, fun left => granted (removed.1 left)⟩

end Wslg.Client
