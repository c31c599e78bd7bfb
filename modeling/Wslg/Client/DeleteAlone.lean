/-
What a delete request takes from the other applications.

An application is named by its group and its id. The database knows it by a key made of
both, its icon file is named by the id and its shortcut by the description, so two
applications may share any of the three. The register of a run says which applications
are registered, each with the entry its update was accepted with. `DeletesAlone` says
that a delete request took the entry of its application and nothing of another one;
`deletes_alone` that it did so exactly if nothing was shared (`Apart`).
-/

import Wslg.Client.Disk
import Wslg.Client.Steps
import Wslg.Logic.KeyedStore

namespace Wslg.Client

open Wslg.LittleEndian Wslg.Protocol Wslg.StateExcept Wslg.KeyedStore

variable {ω : Type} {os : Os ω}

/-! ### Applications -/

/-- The name of an application: the group, if it has one, and the id. -/
structure AppName where
  group : Option WStr
  id : WStr
deriving DecidableEq

namespace AppName

/-- The name two strings of a PDU give. -/
def of (group id : PduString) : AppName :=
  ⟨if group.length ≠ 0 then some group.str else none, id.str⟩

/-- The key of an application in the database. -/
def key (n : AppName) : WStr :=
  match n.group with
  | some group => group ++ backslash :: n.id
  | none => n.id

end AppName

def UpdateAppListPdu.name (u : UpdateAppListPdu) : AppName := .of u.appGroup u.appId

def DeleteAppListPdu.name (d : DeleteAppListPdu) : AppName := .of d.appGroup d.appId

theorem keyOf_eq (u : UpdateAppListPdu) : keyOf u = u.name.key := by
  unfold keyOf UpdateAppListPdu.groupPrefix UpdateAppListPdu.HasGroup UpdateAppListPdu.name
    AppName.of AppName.key
  by_cases grouped : u.appGroup.length ≠ 0
  · simp [grouped]
  · simp [grouped]

theorem buildFindKey_eq_ok {group id : PduString} {m m' : Machine ω} {k : WStr}
    (run : buildFindKey group id m = .ok k m') : k = (AppName.of group id).key := by
  unfold AppName.of AppName.key
  by_cases grouped : group.length ≠ 0
  · rw [buildFindKey, if_pos grouped] at run
    obtain ⟨first, m₁, copy, rest⟩ := bind_eq_ok.mp run
    obtain ⟨-, first_eq, -⟩ := wcscat_eq_ok.mp copy
    obtain ⟨separated, m₂, separator, last⟩ := bind_eq_ok.mp rest
    obtain ⟨-, separated_eq, -⟩ := wcscat_eq_ok.mp separator
    obtain ⟨-, key_eq, -⟩ := wcscat_eq_ok.mp last
    rw [if_pos grouped, key_eq, separated_eq, first_eq]
    simp
  · rw [buildFindKey, if_neg grouped] at run
    obtain ⟨-, key_eq, -⟩ := wcscat_eq_ok.mp run
    rw [if_neg grouped, key_eq]
    rfl

/-! ### The register -/

/-- The delete request a step takes: the channel is open, the handshake complete, and
the PDU could be read. -/
def deleteOf (t : Step ω) : Option DeleteAppListPdu :=
  match t.input with
  | .pdu cmdId c =>
      if cmdId = cmdIdDeleteAppList ∧ t.before.cb.channelClosed = false ∧
          t.before.cb.handShakeComplated = true then
        match readAppListDelete {} c with
        | (.ok _, d) => some d
        | (.error _, _) => none
      else none
  | _ => none

/-- The step is a delete request that returned `S_OK`. -/
def Deleted (t : Step ω) (d : DeleteAppListPdu) : Prop :=
  t.output.failure = none ∧ deleteOf t = some d

instance (t : Step ω) (d : DeleteAppListPdu) : Decidable (Deleted t d) :=
  inferInstanceAs (Decidable (_ ∧ _))

/-- The entry an update registers. -/
def entryOf (cb : Callback) (u : UpdateAppListPdu) : FileEntry :=
  ⟨linkPathOf cb u, iconPathOf cb u, cb.expandedPathObj, exeArgsOf cb u⟩

/-- Applications with their entries. -/
abbrev Registry := List (AppName × FileEntry)

/-- The registry after a step. -/
def Registry.after (os : Os ω) (reg : Registry) (t : Step ω) : Registry :=
  if t.output.failure = none then
    match updateOf os t, deleteOf t with
    | some u, _ => put u.name (entryOf t.before.cb u) reg
    | none, some d => drop d.name reg
    | none, none => reg
  else reg

/-- The applications a run has registered and not deleted since. -/
def registry (os : Os ω) (ts : List (Step ω)) : Registry := ts.foldl (Registry.after os) []

theorem registry_concat (os : Os ω) (ts : List (Step ω)) (t : Step ω) :
    registry os (ts ++ [t]) = (registry os ts).after os t := by
  simp [registry]

theorem updateOf_of_deleteOf {t : Step ω} {d : DeleteAppListPdu} (delete : deleteOf t = some d) :
    updateOf os t = none := by
  unfold deleteOf at delete
  unfold updateOf arrived
  cases input : t.input with
  | pdu cmdId c =>
      simp only [input] at delete ⊢
      split at delete
      · rename_i isDelete
        rw [if_neg, Option.map_none]
        rintro ⟨isUpdate, -⟩
        exact absurd (isDelete.1.symm.trans isUpdate) (by decide)
      · cases delete
  | world w => rfl
  | close => rfl

section After

variable {reg : Registry} {t : Step ω}

theorem Registry.after_applied {u : UpdateAppListPdu} (applied : Applied os t u) :
    reg.after os t = put u.name (entryOf t.before.cb u) reg := by
  rw [Registry.after, if_pos applied.1, applied.2]

theorem Registry.after_deleted {d : DeleteAppListPdu} (deleted : Deleted t d) :
    reg.after os t = drop d.name reg := by
  rw [Registry.after, if_pos deleted.1, updateOf_of_deleteOf deleted.2, deleted.2]

theorem Registry.after_other (noUpdate : ∀ u, ¬ Applied os t u) (noDelete : ∀ d, ¬ Deleted t d) :
    reg.after os t = reg := by
  rw [Registry.after]
  split
  · rename_i ok
    split
    · rename_i u update
      exact absurd ⟨ok, update⟩ (noUpdate u)
    · rename_i d _ delete
      exact absurd ⟨ok, delete⟩ (noDelete d)
    · rfl
  · rfl

end After

/-! ### What a step does to the database -/

/-- The files of an entry. -/
def FileEntry.files (e : FileEntry) : List WStr :=
  [e.linkFilePath, e.iconFilePath].filter (· ≠ [])

theorem FileEntry.mem_files {e : FileEntry} {path : WStr} :
    path ∈ e.files ↔ (path = e.linkFilePath ∨ path = e.iconFilePath) ∧ path ≠ [] := by
  simp [files]

/-- A delete request that returns `S_OK` found an entry, deleted its files and dropped
it. -/
theorem applyDelete_eq_ok {d : DeleteAppListPdu} {m m' : Machine ω} {r : Unit}
    (run : applyDelete os d m = .ok r m') :
    ∃ db e, m.cb.spFileDB = some db ∧ db[d.name.key]? = some e ∧
      m'.cb.spFileDB = some (db.onFileRemoved d.name.key).2 ∧
      m'.world = deletePath os e.iconFilePath (deletePath os e.linkFilePath m.world) := by
  rcases applyDelete_cases os d m with ⟨e, failed⟩ | ⟨db, k, e, calls, there, built, entry, ran, -⟩
  · cases failed.symm.trans run
  · have isKey : k = d.name.key := buildFindKey_eq_ok built
    subst isKey
    cases ran.symm.trans run
    exact ⟨db, e, there, entry, rfl, rfl⟩

/-- One that fails changed nothing. -/
theorem applyDelete_eq_error {d : DeleteAppListPdu} {m m' : Machine ω} {e : Failure}
    (run : applyDelete os d m = .error e m') : m'.cb = m.cb := by
  rcases applyDelete_cases os d m with ⟨e, failed⟩ | ⟨db, k, e, calls, there, built, entry, ran, -⟩
  · cases failed.symm.trans run
    rfl
  · cases ran.symm.trans run

/-- A database with the entries of another one, if it is there. -/
def SameEntries (before after : Option FileDB) : Prop :=
  ∀ db', after = some db' → ∃ db, before = some db ∧ ∀ k : WStr, db'[k]? = db[k]?

theorem SameEntries.of_eq {before after : Option FileDB} (same : after = before) :
    SameEntries before after := by
  intro db' there
  exact ⟨db', same.symm.trans there, fun _ => rfl⟩

/-- An update that returns `S_OK` was registered. -/
theorem registered_of_applyUpdate {u : UpdateAppListPdu} {icon : IconData} {m m' : Machine ω}
    {r : Unit} (run : applyUpdate os u icon m = .ok r m') :
    ∃ db, m.cb.spFileDB = some db ∧
      succeeded (registered m.cb db (preparedOf m.cb u)).1 = true ∧
      m'.cb.spFileDB = some (registered m.cb db (preparedOf m.cb u)).2 := by
  obtain ⟨db, hasIcon, calls, w, fileDB, -, left⟩ := (published_of_applyUpdate run).left
  refine ⟨db, fileDB, ?_, ?_⟩
  · obtain ⟨_, m₁, start, run⟩ := bind_eq_ok.mp run
    rcases startSync_cases os u.flags m with ⟨-, -, e, failed⟩ | ⟨-, ok⟩
    · cases failed.symm.trans start
    cases ok.symm.trans start
    obtain ⟨p, m₂, prepared, run⟩ := bind_eq_ok.mp run
    obtain ⟨rfl, -, -⟩ := prepare_eq_ok prepared
    have same : m₂.cb = (afterStart os u.flags m).cb := ((quiet_prepare os u).of_ok prepared).cb
    obtain ⟨_, m₃, registration, -⟩ := bind_eq_ok.mp run
    rw [register_apply ((congrArg Callback.spFileDB same).trans fileDB), same] at registration
    simp only at registration
    split at registration
    · rename_i succeeded_
      exact succeeded_
    · cases registration
  · rw [left, spFileDB_settled]
    rfl

/-- One that fails was not. -/
theorem sameEntries_of_applyUpdate {u : UpdateAppListPdu} {icon : IconData} {m m' : Machine ω}
    {e : Failure} (run : applyUpdate os u icon m = .error e m') :
    SameEntries m.cb.spFileDB m'.cb.spFileDB := by
  have kept := congrArg Callback.spFileDB (quiet_of_applyUpdate_error run).cb
  apply SameEntries.of_eq
  rcases startSync_cases os u.flags m with ⟨-, -, e', start⟩ | ⟨-, start⟩
  · rw [start] at kept
    exact kept
  · rw [start] at kept
    exact kept

/-- What a step did to the database: an update registered its application, a delete
request took an entry and its files, or nothing. -/
inductive Books (os : Os ω) (t : Step ω) : Prop where
  | updated {u : UpdateAppListPdu} {db : FileDB} (applied : Applied os t u)
      (before : t.before.cb.spFileDB = some db)
      (ok : succeeded (registered t.before.cb db (preparedOf t.before.cb u)).1 = true)
      (after : t.after.cb.spFileDB =
        some (registered t.before.cb db (preparedOf t.before.cb u)).2)
  | deleted {d : DeleteAppListPdu} {db : FileDB} {e : FileEntry} (deleted : Deleted t d)
      (before : t.before.cb.spFileDB = some db) (entry : db[d.name.key]? = some e)
      (after : t.after.cb.spFileDB = some (db.onFileRemoved d.name.key).2)
      (world : t.after.world =
        deletePath os e.iconFilePath (deletePath os e.linkFilePath t.before.world))
  | kept (noUpdate : ∀ u, ¬ Applied os t u) (noDelete : ∀ d, ¬ Deleted t d)
      (entries : SameEntries t.before.cb.spFileDB t.after.cb.spFileDB)

/-- The other commands leave the database alone. -/
theorem keepsFileDB_dispatch {cmdId : UInt32} (noUpdate : cmdId ≠ cmdIdUpdateAppList)
    (noDelete : cmdId ≠ cmdIdDeleteAppList) (c : Cursor) :
    Guarantees (Keeps (·.spFileDB)) (dispatch os cmdId c) := by
  by_cases caps : cmdId = cmdIdCaps
  · rw [dispatch, if_pos caps]
    exact (handshakes_onCaps os c).weaken fun _ _ h => congrArg Session.spFileDB h.session
  · rw [dispatch, if_neg caps]
    refine guarantees_members.bind fun cb => Guarantees.ite (guarantees_fail _) ?_
    rw [handle, if_neg noUpdate, if_neg noDelete]
    refine Guarantees.ite (Guarantees.pure _) (Guarantees.ite ?_ (guarantees_fail _))
    exact (quiet_onAssociateWindowId os c).weaken fun _ _ h => congrArg Callback.spFileDB h.cb

section Books

variable {s : ClientState ω} {cmdId : UInt32} {c : Cursor}

theorem update_of_updateOf {u : UpdateAppListPdu}
    (update : updateOf os (Runs.take (step os) s (.pdu cmdId c)) = some u) :
    cmdId = cmdIdUpdateAppList ∧ s.cb.channelClosed = false ∧ s.cb.handShakeComplated = true := by
  unfold updateOf arrived Runs.take at update
  simp only at update
  split at update
  · rename_i served
    exact served
  · cases update

theorem delete_of_deleteOf {d : DeleteAppListPdu}
    (delete : deleteOf (Runs.take (step os) s (.pdu cmdId c)) = some d) :
    cmdId = cmdIdDeleteAppList ∧ s.cb.channelClosed = false ∧ s.cb.handShakeComplated = true := by
  unfold deleteOf Runs.take at delete
  simp only at delete
  split at delete
  · rename_i served
    exact served
  · cases delete

theorem books_update (s : ClientState ω) (c : Cursor) (isOpen : s.cb.channelClosed = false)
    (handshake : s.cb.handShakeComplated = true) :
    Books os (Runs.take (step os) s (.pdu cmdIdUpdateAppList c)) := by
  have noDelete : ∀ d, ¬ Deleted (Runs.take (step os) s (.pdu cmdIdUpdateAppList c)) d := by
    rintro d ⟨-, delete⟩
    exact absurd (delete_of_deleteOf delete).1 (by decide)
  cases updateTaken s c isOpen handshake with
  | unread update failed calls after =>
      refine Books.kept ?_ noDelete (SameEntries.of_eq (congrArg (·.cb.spFileDB) after))
      rintro u ⟨ok, -⟩
      cases failed.symm.trans ok
  | applied update run ok calls after =>
      obtain ⟨db, before, registered_, left⟩ := registered_of_applyUpdate run
      refine Books.updated ⟨ok, ?_⟩ before registered_ ?_
      · rw [updateOf, update]
        rfl
      · exact (congrArg (·.cb.spFileDB) after).trans left
  | refused update run failed calls after =>
      refine Books.kept ?_ noDelete ?_
      · rintro u ⟨ok, -⟩
        cases failed.symm.trans ok
      · rw [after]
        exact sameEntries_of_applyUpdate run

theorem books_delete (s : ClientState ω) (c : Cursor) (isOpen : s.cb.channelClosed = false)
    (handshake : s.cb.handShakeComplated = true) :
    Books os (Runs.take (step os) s (.pdu cmdIdDeleteAppList c)) := by
  have noUpdate : ∀ u, ¬ Applied os (Runs.take (step os) s (.pdu cmdIdDeleteAppList c)) u := by
    rintro u ⟨-, update⟩
    exact absurd (update_of_updateOf update).1 (by decide)
  have run : dispatch os cmdIdDeleteAppList c s.start = onDeleteAppList os c s.start := by
    rw [dispatch_handshaken (by decide) handshake, handle, if_neg (by decide), if_pos rfl]
  cases body : readAppListDelete {} c with
  | mk read d =>
  cases read with
  | error e =>
      have read : readDelete c s.start = .error e s.start := by rw [readDelete, body]
      have stepped := step_of_error isOpen (run.trans (bind_of_error read))
      refine Books.kept noUpdate ?_ (SameEntries.of_eq (congrArg (·.2.cb.spFileDB) stepped))
      rintro d ⟨ok, -⟩
      cases ok.symm.trans (congrArg (·.1.failure) stepped)
  | ok c' =>
      have read : readDelete c s.start = .ok (c', d) s.start := by rw [readDelete, body]
      have here : deleteOf (Runs.take (step os) s (.pdu cmdIdDeleteAppList c)) = some d := by
        simp only [deleteOf, Runs.take, isOpen, handshake, and_self, if_true, body]
      cases applied : applyDelete os d s.start with
      | ok _ m =>
          have stepped := step_of_ok isOpen
            (run.trans ((bind_of_ok read).trans (bind_of_ok applied)))
          obtain ⟨db, e, before, entry, after, world⟩ := applyDelete_eq_ok applied
          refine Books.deleted ⟨congrArg (·.1.failure) stepped, here⟩ before entry ?_ ?_
          · exact (congrArg (·.2.cb.spFileDB) stepped).trans after
          · exact (congrArg (·.2.world) stepped).trans world
      | error e m =>
          have stepped := step_of_error isOpen
            (run.trans ((bind_of_ok read).trans (bind_of_error applied)))
          have same := applyDelete_eq_error applied
          refine Books.kept noUpdate ?_ (SameEntries.of_eq ?_)
          · rintro d ⟨ok, -⟩
            cases ok.symm.trans (congrArg (·.1.failure) stepped)
          · exact (congrArg (·.2.cb.spFileDB) stepped).trans (congrArg Callback.spFileDB same)

/-- Every step kept the books so. -/
theorem books_of_taken {t : Step ω} (taken : Runs.Taken (step os) t) : Books os t := by
  rw [taken.eq_take]
  set s := t.before
  cases t.input with
  | world w => exact Books.kept nofun nofun (SameEntries.of_eq rfl)
  | close =>
      refine Books.kept nofun nofun ?_
      intro db' there
      cases (congrArg (·.cb.spFileDB) (step_close os s).2).symm.trans there
  | pdu cmdId c =>
      by_cases served : s.cb.channelClosed = false ∧ s.cb.handShakeComplated = true ∧
          (cmdId = cmdIdUpdateAppList ∨ cmdId = cmdIdDeleteAppList)
      · obtain ⟨isOpen, handshake, rfl | rfl⟩ := served
        · exact books_update s c isOpen handshake
        · exact books_delete s c isOpen handshake
      refine Books.kept ?_ ?_ (SameEntries.of_eq ?_)
      · rintro u ⟨-, update⟩
        obtain ⟨isUpdate, isOpen, handshake⟩ := update_of_updateOf update
        exact served ⟨isOpen, handshake, Or.inl isUpdate⟩
      · rintro d ⟨-, delete⟩
        obtain ⟨isDelete, isOpen, handshake⟩ := delete_of_deleteOf delete
        exact served ⟨isOpen, handshake, Or.inr isDelete⟩
      cases closed : s.cb.channelClosed with
      | true => exact congrArg (·.2.cb.spFileDB) (step_of_closed closed)
      | false =>
          have kept : (final (dispatch os cmdId c s.start)).cb.spFileDB = s.cb.spFileDB := by
            by_cases other : cmdId = cmdIdUpdateAppList ∨ cmdId = cmdIdDeleteAppList
            · have early : s.start.cb.handShakeComplated = false :=
                Bool.eq_false_iff.mpr fun on => served ⟨closed, on, other⟩
              rw [dispatch_apply, if_pos early]
              · rfl
              · rcases other with rfl | rfl <;> decide
            · exact keepsFileDB_dispatch (fun h => other (Or.inl h)) (fun h => other (Or.inr h)) c _
          obtain ⟨-, after⟩ := runHandler_eq (dispatch os cmdId c) c s
          rw [← step_of_open closed] at after
          exact (congrArg (·.cb.spFileDB) after).trans kept

end Books

/-! ### Deleting one application alone -/

/-- The files in a state of Windows when every deletion succeeds: `DeleteFileW` takes away
the file of a path, under all the paths that name it, and no other file. -/
structure Deletion (os : Os ω) where
  isFile : ω → WStr → Prop
  same : WStr → WStr → Prop
  same_refl : ∀ path, same path path
  isFile_deleteFileW : ∀ w path p,
    isFile (os.deleteFileW path w).2 p ↔ isFile w p ∧ ¬ same path p

/-- The delete request of a step took the entry that an update of the same application
registered, and no entry and no file of another registered application. -/
structure DeletesAlone (on : Deletion os) (reg : Registry) (t : Step ω) (n : AppName) :
    Prop where
  entry : ∃ db db' e, t.before.cb.spFileDB = some db ∧ t.after.cb.spFileDB = some db' ∧
    (n, e) ∈ reg ∧ db[n.key]? = some e ∧
      ∀ k : WStr, db'[k]? = if k = n.key then none else db[k]?
  others : ∀ db', t.after.cb.spFileDB = some db' →
    ∀ n' e', (n', e') ∈ reg → n' ≠ n → db'[n'.key]? = some e'
  files : ∀ n' e', (n', e') ∈ reg → n' ≠ n → ∀ path ∈ e'.files,
    on.isFile t.before.world path → on.isFile t.after.world path

/-- No other registered application has the key of this one, and no file that is there
belongs to another one and to the entry of this one. -/
def Apart (on : Deletion os) (reg : Registry) (s : ClientState ω) (n : AppName) : Prop :=
  ∀ db e, s.cb.spFileDB = some db → db[n.key]? = some e →
    ∀ n' e', (n', e') ∈ reg → n' ≠ n → n'.key ≠ n.key ∧
      ∀ path ∈ e'.files, on.isFile s.world path → ∀ p ∈ e.files, ¬ on.same p path

/-- The database holds the registry. -/
def HoldsRegistry (reg : Registry) (s : ClientState ω) : Prop :=
  ∀ db, s.cb.spFileDB = some db → Image AppName.key reg fun k => db[k]?

variable {on : Deletion os} {reg : Registry} {t : Step ω}

theorem isFile_deletePath (on : Deletion os) (path p : WStr) (w : ω) :
    on.isFile (deletePath os path w) p ↔ on.isFile w p ∧ (path ≠ [] → ¬ on.same path p) := by
  rw [deletePath]
  split
  · rename_i any
    rw [on.isFile_deleteFileW]
    simp [any]
  · rename_i none_
    simp [none_]

/-- Deleting the files of an entry. -/
theorem isFile_deleted (on : Deletion os) (e : FileEntry) (p : WStr) (w : ω) :
    on.isFile (deletePath os e.iconFilePath (deletePath os e.linkFilePath w)) p ↔
      on.isFile w p ∧ ∀ path ∈ e.files, ¬ on.same path p := by
  rw [isFile_deletePath, isFile_deletePath, and_assoc]
  refine and_congr_right fun _ => ?_
  constructor
  · rintro ⟨link, icon⟩ path mem
    obtain ⟨rfl | rfl, any⟩ := FileEntry.mem_files.mp mem
    · exact link any
    · exact icon any
  · intro none_
    exact ⟨fun any => none_ _ (FileEntry.mem_files.mpr ⟨Or.inl rfl, any⟩),
      fun any => none_ _ (FileEntry.mem_files.mpr ⟨Or.inr rfl, any⟩)⟩

/-- Updates always keep the registry in the database, delete requests if the deleted
application is apart. -/
theorem holdsRegistry_step (taken : Runs.Taken (step os) t)
    (apart : ∀ d, Deleted t d → Apart on reg t.before d.name)
    (holds : HoldsRegistry reg t.before) : HoldsRegistry (reg.after os t) t.after := by
  intro db' there
  cases books_of_taken taken with
  | @updated u db applied before ok after =>
      rw [Registry.after_applied applied]
      have image := holds db before
      have isKey : (preparedOf t.before.cb u).key = u.name.key := keyOf_eq u
      cases after.symm.trans there
      rw [registered, isKey] at ok ⊢
      cases entry : db[u.name.key]? with
      | none => exact image.put_new entry (FileDB.onFileAdded_new entry)
      | some e =>
          obtain ⟨kept, same⟩ := @FileDB.onFileAdded_present db u.name.key _ _ _ _ e entry
          have stays : Image AppName.key (put u.name e reg) fun k => db[k]? := image.put_same entry
          rw [same ok] at stays
          simp only [kept]
          exact stays
  | @deleted d db e isDeleted before entry after world =>
      rw [Registry.after_deleted isDeleted]
      cases after.symm.trans there
      refine (holds db before).drop ?_ FileDB.getElem?_onFileRemoved
      intro n' e' mem other
      exact (apart d isDeleted db e before entry n' e' mem other).1
  | kept noUpdate noDelete entries =>
      rw [Registry.after_other noUpdate noDelete]
      obtain ⟨db, before, same⟩ := entries db' there
      simp only [same]
      exact holds db before

/-- With the registry in the database, a delete request deletes its application alone
exactly if it is apart. -/
theorem deletesAlone_iff (taken : Runs.Taken (step os) t) (holds : HoldsRegistry reg t.before)
    {d : DeleteAppListPdu} (deleted : Deleted t d) :
    DeletesAlone on reg t d.name ↔ Apart on reg t.before d.name := by
  cases books_of_taken taken with
  | updated applied before ok after =>
      cases (updateOf_of_deleteOf deleted.2).symm.trans applied.2
  | kept noUpdate noDelete entries => exact absurd deleted (noDelete d)
  | @deleted d' db e deleted' before entry after world =>
      cases deleted.2.symm.trans deleted'.2
      have image := holds db before
      have removed := @FileDB.getElem?_onFileRemoved db d.name.key
      constructor
      · intro alone db₁ e₁ before₁ entry₁ n' e' mem other
        cases before.symm.trans before₁
        cases entry.symm.trans entry₁
        constructor
        · intro same
          have left := alone.others _ after n' e' mem other
          rw [removed, if_pos same] at left
          cases left
        · intro path inFiles there
          have left := alone.files n' e' mem other path inFiles there
          rw [world, isFile_deleted] at left
          exact left.2
      · intro apart
        have apart := apart db e before entry
        constructor
        · -- the entry has the key of this application only, so it is its own
          obtain ⟨n, mem, same⟩ := (image _ _).mp entry
          have own : n = d.name := by
            by_contra other
            exact (apart n e mem other).1 same
          rw [own] at mem
          exact ⟨db, _, e, before, after, mem, entry, removed⟩
        · intro db' there n' e' mem other
          cases after.symm.trans there
          rw [removed, if_neg (apart n' e' mem other).1]
          exact image.holds mem
        · intro n' e' mem other path inFiles there
          rw [world, isFile_deleted]
          exact ⟨there, (apart n' e' mem other).2 path inFiles there⟩

/-- Every delete request of a run that returns `S_OK` is for an application apart. -/
def AlwaysApart (on : Deletion os) (w : ω) (es : List (Event ω)) : Prop :=
  ∀ ts t ts', Runs.transitions (step os) (.fresh w) es = ts ++ t :: ts' →
    ∀ d, Deleted t d → Apart on (registry os ts) t.before d.name

/-- Each of them deletes its application alone. -/
def AlwaysAlone (on : Deletion os) (w : ω) (es : List (Event ω)) : Prop :=
  ∀ ts t ts', Runs.transitions (step os) (.fresh w) es = ts ++ t :: ts' →
    ∀ d, Deleted t d → DeletesAlone on (registry os ts) t d.name

theorem holdsRegistry_finish {w : ω} {es : List (Event ω)} (apart : AlwaysApart on w es) :
    HoldsRegistry (registry os (Runs.transitions (step os) (.fresh w) es))
      (Runs.finish (step os) (.fresh w) es) := by
  have kept := @Runs.invariant_history _ _ _ (step os)
    (fun ts s => (∀ ts₁ t ts₂, ts = ts₁ ++ t :: ts₂ → ∀ d, Deleted t d →
      Apart on (registry os ts₁) t.before d.name) → HoldsRegistry (registry os ts) s)
    ?_ (.fresh w) ?_ es
  · exact kept apart
  · intro ts t taken ih apart
    rw [registry_concat]
    refine holdsRegistry_step taken (apart ts t [] rfl) (ih fun ts₁ t₁ ts₂ split => ?_)
    refine apart ts₁ t₁ (ts₂ ++ [t]) ?_
    rw [split, List.append_assoc, List.cons_append]
  · intro _ db empty k e
    cases empty
    simp [registry]

/-- In every run whose delete requests are all for applications apart, each of them
deletes its application alone; and the next one does exactly if its application is
apart. -/
theorem deletes_alone (on : Deletion os) (w : ω) (es : List (Event ω))
    (apart : AlwaysApart on w es) :
    AlwaysAlone on w es ∧
      ∀ e d, Deleted (Runs.take (step os) (Runs.finish (step os) (.fresh w) es) e) d →
        (DeletesAlone on (registry os (Runs.transitions (step os) (.fresh w) es))
            (Runs.take (step os) (Runs.finish (step os) (.fresh w) es) e) d.name ↔
          Apart on (registry os (Runs.transitions (step os) (.fresh w) es))
            (Runs.finish (step os) (.fresh w) es) d.name) := by
  constructor
  · intro ts t ts' split d deleted
    obtain ⟨es₁, es₂, rfl, rfl, isNext⟩ := Runs.split_transitions split
    have front : AlwaysApart on w es₁ := by
      intro ts₁ t₁ ts₂ split₁
      refine apart ts₁ t₁ (ts₂ ++ t :: ts') ?_
      rw [split, split₁, List.append_assoc, List.cons_append]
    have taken : Runs.Taken (step os) t := by
      rw [isNext]
      exact Runs.taken_take _ _
    have holds : HoldsRegistry (registry os (Runs.transitions (step os) (.fresh w) es₁))
        t.before := by
      rw [isNext]
      exact holdsRegistry_finish front
    exact (deletesAlone_iff taken holds deleted).mpr (apart _ t ts' split d deleted)
  · intro e d deleted
    exact deletesAlone_iff (Runs.taken_take _ _) (holdsRegistry_finish apart) deleted

/-! ### Two applications of one description -/

/-- On a `Disk` a file has one path. -/
def diskDeletion : Deletion diskOs where
  isFile d path := path ∈ d.files.map (·.1)
  same := Eq
  same_refl _ := rfl
  isFile_deleteFileW d path p := by
    simp only [diskOs, List.mem_map, List.mem_filter, decide_eq_true_eq]
    constructor
    · rintro ⟨f, ⟨mem, other⟩, rfl⟩
      exact ⟨⟨f, mem, rfl⟩, Ne.symm other⟩
    · rintro ⟨⟨f, mem, rfl⟩, other⟩
      exact ⟨f, ⟨mem, Ne.symm other⟩, rfl⟩

/-- A delete request. -/
def deletion (id : String) : Event Disk :=
  .pdu cmdIdDeleteAppList (.of (word32 fieldId ++ pduText id))

/-- The start of a channel on which `a` and `b` are registered. -/
def twoApps (descA descB : String) : List (Event Disk) :=
  [caps "U", update 0 "a" descA, update 0 "b" descB]

instance (d : Disk) (path : WStr) : Decidable (diskDeletion.isFile d path) :=
  inferInstanceAs (Decidable (_ ∈ _))

instance (path p : WStr) : Decidable (diskDeletion.same path p) :=
  inferInstanceAs (Decidable (_ = _))

instance (reg : Registry) (s : ClientState Disk) (n : AppName) :
    Decidable (Apart diskDeletion reg s n) :=
  decidable_of_iff
    (∀ e ∈ s.cb.spFileDB.bind (·[n.key]?), ∀ x ∈ reg, x.1 ≠ n → x.1.key ≠ n.key ∧
      ∀ path ∈ x.2.files, diskDeletion.isFile s.world path →
        ∀ p ∈ e.files, ¬ diskDeletion.same p path)
    ⟨fun all db e there entry n' e' mem => all e (by rw [there]; exact entry) (n', e') mem,
      fun apart e found x mem => by
        obtain ⟨db, there, entry⟩ := Option.bind_eq_some_iff.mp found
        exact apart db e there entry x.1 x.2 mem⟩

/-- The name a delete request of `a` gives. -/
def appA : AppName := ⟨none, wide "a"⟩

/-- `a` is deleted. -/
def deletedA (descA descB : String) : Step Disk :=
  Runs.take (step diskOs) (Runs.finish (step diskOs) (.fresh {}) (twoApps descA descB))
    (deletion "a")

theorem deletes_alone_twoApps :
    AlwaysAlone diskDeletion {} (twoApps "A" "B") ∧
      DeletesAlone diskDeletion
        (registry diskOs (Runs.transitions (step diskOs) (.fresh {}) (twoApps "A" "B")))
        (deletedA "A" "B") appA := by
  have apart : AlwaysApart diskDeletion {} (twoApps "A" "B") := by
    intro ts t ts' split d deleted
    have mem : t ∈ Runs.transitions (step diskOs) (.fresh {}) (twoApps "A" "B") := by
      rw [split]
      exact List.mem_append_right _ List.mem_cons_self
    have none_ : ∀ t ∈ Runs.transitions (step diskOs) (.fresh {}) (twoApps "A" "B"),
        deleteOf t = none := by decide +kernel
    cases (none_ t mem).symm.trans deleted.2
  obtain ⟨alone, next⟩ := deletes_alone diskDeletion {} (twoApps "A" "B") apart
  refine ⟨alone, ?_⟩
  have named : (deleteOf (deletedA "A" "B")).map (·.name) = some appA := by decide +kernel
  obtain ⟨d, delete, isA⟩ := Option.map_eq_some_iff.mp named
  have isNext := next (deletion "a") d ⟨by decide +kernel, delete⟩
  rw [isA] at isNext
  exact isNext.mpr (by decide +kernel)

/-- Deleting `a` takes the shortcut of `b` when both have one description. -/
theorem sameDescription_not_alone :
    ¬ ∀ es : List (Event Disk), (∀ e ∈ es, ∃ cmdId c, e = .pdu cmdId c) →
      AlwaysAlone diskDeletion {} es := by
  intro all
  have isPdu : ∀ e ∈ twoApps "App" "App" ++ [deletion "a"], ∃ cmdId c, e = .pdu cmdId c := by
    simp [twoApps, caps, update, deletion]
  have split : Runs.transitions (step diskOs) (.fresh {}) (twoApps "App" "App" ++ [deletion "a"]) =
      Runs.transitions (step diskOs) (.fresh {}) (twoApps "App" "App") ++
        [deletedA "App" "App"] := by
    rw [Runs.transitions_append]
    rfl
  have named : (deleteOf (deletedA "App" "App")).map (·.name) = some appA := by decide +kernel
  obtain ⟨d, delete, isA⟩ := Option.map_eq_some_iff.mp named
  have alone := all _ isPdu _ _ [] split d ⟨by decide +kernel, delete⟩
  rw [isA] at alone
  have registered_ : ∃ x ∈ registry diskOs
      (Runs.transitions (step diskOs) (.fresh {}) (twoApps "App" "App")), x.1 ≠ appA ∧
        ∃ path ∈ x.2.files, diskDeletion.isFile (deletedA "App" "App").before.world path ∧
          ¬ diskDeletion.isFile (deletedA "App" "App").after.world path := by decide +kernel
  obtain ⟨x, mem, other, path, inFiles, there, gone⟩ := registered_
  exact gone (alone.files x.1 x.2 mem other path inFiles there)

end Wslg.Client
