/-
An update of an application that is registered already.

A PDU is well formed for a client when nothing in front of the registration can
refuse it: its names pass, its strings fit, the folders can be created and a sync
is there where the flags need one. Such an update gets as far as `OnFileAdded`
(`prepare_of_wellFormed`), which keeps the first entry of a key for good. So it
puts the new entry in place of the old one exactly when the two are the same.
-/

import Wslg.Client.DeleteAlone
import Wslg.Client.Rejection

namespace Wslg.Client

open Wslg.LittleEndian Wslg.Protocol Wslg.StateExcept

variable {ω : Type} {os : Os ω}

/-! ### Well-formed updates -/

/-- The folders an update creates below a base: the base, and in it the group's. -/
def groupFolders (base : WStr) (u : UpdateAppListPdu) : List WStr :=
  base :: if u.HasGroup then [base ++ backslash :: u.appGroup.str] else []

/-- The folders of its icon, if it has one. -/
def iconFoldersOf (cb : Callback) (u : UpdateAppListPdu) : List WStr :=
  if has u.flags fieldIcon then groupFolders cb.iconPath u else []

/-- Every folder an update creates, in order. -/
def foldersOf (cb : Callback) (u : UpdateAppListPdu) : List WStr :=
  iconFoldersOf cb u ++ groupFolders cb.appMenuPath u

/-- Windows after some folders have been created. -/
def createAll (os : Os ω) : List WStr → ω → ω
  | [], w => w
  | path :: rest, w => createAll os rest (os.createDirectoryW path w).2

/-- Each of the folders can be created, or is there. -/
def CanCreate (os : Os ω) : List WStr → ω → Prop
  | [], _ => True
  | path :: rest, w =>
      (os.createDirectoryW path w).1 ≠ .failed ∧ CanCreate os rest (os.createDirectoryW path w).2

theorem canCreate_append {paths paths' : List WStr} {w : ω} :
    CanCreate os (paths ++ paths') w ↔
      CanCreate os paths w ∧ CanCreate os paths' (createAll os paths w) := by
  induction paths generalizing w with
  | nil => simp [CanCreate, createAll]
  | cons path rest ih => simp only [List.cons_append, CanCreate, createAll, ih, and_assoc]

theorem createAll_append (paths paths' : List WStr) (w : ω) :
    createAll os (paths ++ paths') w = createAll os paths' (createAll os paths w) := by
  induction paths generalizing w with
  | nil => rfl
  | cons path rest ih => exact ih _

/-- Nothing in front of the registration refuses the update. -/
structure WellFormed (os : Os ω) (m : Machine ω) (u : UpdateAppListPdu) : Prop where
  plain : u.PlainNames
  link : (linkPathOf m.cb u).length < maxPath
  icon : (iconPathOf m.cb u).length < maxPath
  exe : m.cb.expandedPathObj.length < maxPath
  args : (exeArgsOf m.cb u).length < maxPath
  key : (keyOf u).length < maxPath
  syncStart : has u.flags hintSyncStart = true →
    m.cb.spFileDBSync = none ∧ os.createFileDB m.world = .ok ()
  inSync : has u.flags (hintSync ||| hintSyncEnd) = true →
    m.cb.spFileDBSync.isSome = true ∨ has u.flags hintSyncStart = true
  folders : CanCreate os (foldersOf m.cb u) (afterStart os u.flags m).world

/-! ### It is prepared -/

theorem createDirectory_of_can {path : WStr} {m : Machine ω}
    (can : (os.createDirectoryW path m.world).1 ≠ .failed) :
    createDirectory os path m = .ok () { m with world := (os.createDirectoryW path m.world).2 } :=
  createDirectory_eq_ok.mpr ⟨_, ⟨can, rfl⟩, rfl⟩

theorem wcscat_of_fits {dest src : WStr} (m : Machine ω)
    (fits : (dest ++ src).length < maxPath) : wcscat dest src m = .ok (dest ++ src) m :=
  wcscat_eq_ok.mpr ⟨List.length_append ▸ fits, rfl, rfl⟩

theorem enterFolders_of_can {base : WStr} {u : UpdateAppListPdu} {m : Machine ω}
    (fits : (base ++ backslash :: u.groupPrefix).length < maxPath)
    (can : CanCreate os (groupFolders base u) m.world) :
    enterFolders os base u m =
      .ok (base ++ if u.HasGroup then backslash :: u.appGroup.str else [])
        { m with world := createAll os (groupFolders base u) m.world } := by
  rw [List.length_append, List.length_cons] at fits
  have baseFits : ([] ++ base).length < maxPath := by rw [List.nil_append]; omega
  rw [enterFolders, bind_of_ok (wcscat_of_fits m baseFits), List.nil_append]
  by_cases group : u.HasGroup
  · rw [UpdateAppListPdu.groupPrefix, if_pos group, List.length_append,
      List.length_singleton] at fits
    rw [groupFolders, if_pos group] at can ⊢
    obtain ⟨outer, inner, -⟩ := can
    have separated : (base ++ [backslash]).length < maxPath := by
      rw [List.length_append, List.length_singleton]
      omega
    have named : (base ++ [backslash] ++ u.appGroup.str).length < maxPath := by
      rw [List.length_append, List.length_append, List.length_singleton]
      omega
    have path : base ++ backslash :: u.appGroup.str = base ++ [backslash] ++ u.appGroup.str := by
      rw [List.append_assoc, List.singleton_append]
    rw [bind_of_ok (createDirectory_of_can outer), if_pos group, if_pos group,
      bind_of_ok (wcscat_of_fits _ separated), bind_of_ok (wcscat_of_fits _ named), ← path,
      bind_of_ok (createDirectory_of_can inner)]
    rfl
  · rw [groupFolders, if_neg group] at can ⊢
    rw [bind_of_ok (createDirectory_of_can can.1), if_neg group, if_neg group, List.append_nil]
    rfl

theorem catFile_of_fits {path name extension : WStr} (m : Machine ω)
    (fits : (path ++ backslash :: (name ++ extension)).length < maxPath) :
    catFile path name extension m = .ok (path ++ backslash :: (name ++ extension)) m := by
  rw [List.length_append, List.length_cons, List.length_append] at fits
  have separated : (path ++ [backslash]).length < maxPath := by
    rw [List.length_append, List.length_singleton]
    omega
  have named : (path ++ [backslash] ++ name).length < maxPath := by
    rw [List.length_append, List.length_append, List.length_singleton]
    omega
  have whole : (path ++ [backslash] ++ name ++ extension).length < maxPath := by
    rw [List.length_append, List.length_append, List.length_append, List.length_singleton]
    omega
  rw [catFile, bind_of_ok (wcscat_of_fits m separated), bind_of_ok (wcscat_of_fits m named),
    wcscat_of_fits m whole]
  simp

/-- A file below the folders of an update. -/
theorem fileBelow_of_can {base name extension : WStr} {u : UpdateAppListPdu} {m : Machine ω}
    (fits : (base ++ backslash :: (u.groupPrefix ++ name ++ extension)).length < maxPath)
    (can : CanCreate os (groupFolders base u) m.world) :
    (enterFolders os base u >>= fun path => catFile path name extension) m =
      .ok (base ++ backslash :: (u.groupPrefix ++ name ++ extension))
        { m with world := createAll os (groupFolders base u) m.world } := by
  have folderFits : (base ++ backslash :: u.groupPrefix).length < maxPath := by
    simp only [List.length_append, List.length_cons] at fits ⊢
    omega
  have path : (base ++ if u.HasGroup then backslash :: u.appGroup.str else []) ++
      backslash :: (name ++ extension) =
        base ++ backslash :: (u.groupPrefix ++ name ++ extension) := by
    rw [UpdateAppListPdu.groupPrefix]
    split <;> simp
  rw [← path] at fits ⊢
  rw [bind_of_ok (enterFolders_of_can folderFits can), catFile_of_fits _ fits]

theorem checkNames_of_plain {u : UpdateAppListPdu} (plain : u.PlainNames) (m : Machine ω) :
    checkNames u m = .ok () m := by
  simp only [checkNames, require_bind, if_pos plain.appGroup, if_pos plain.appId,
    if_pos plain.appDesc]
  exact require_eq_ok.mpr ⟨plain.appWorkingDir, rfl⟩

theorem buildFindKey_of_fits {group id : PduString} (m : Machine ω)
    (fits : (AppName.of group id).key.length < maxPath) :
    buildFindKey group id m = .ok (AppName.of group id).key m := by
  rw [AppName.key, AppName.of] at fits ⊢
  by_cases grouped : group.length ≠ 0
  · rw [if_pos grouped] at fits ⊢
    simp only [List.length_append, List.length_cons] at fits
    have named : ([] ++ group.str).length < maxPath := by rw [List.nil_append]; omega
    have separated : (group.str ++ [backslash]).length < maxPath := by
      rw [List.length_append, List.length_singleton]
      omega
    have whole : (group.str ++ [backslash] ++ id.str).length < maxPath := by
      rw [List.length_append, List.length_append, List.length_singleton]
      omega
    rw [buildFindKey, if_pos grouped, bind_of_ok (wcscat_of_fits m named), List.nil_append,
      bind_of_ok (wcscat_of_fits m separated), wcscat_of_fits m whole, List.append_assoc,
      List.singleton_append]
  · rw [if_neg grouped] at fits ⊢
    rw [buildFindKey, if_neg grouped]
    exact wcscat_of_fits m fits

theorem buildKey_of_fits {u : UpdateAppListPdu} (m : Machine ω)
    (fits : (keyOf u).length < maxPath) : buildKey u m = .ok (keyOf u) m := by
  rw [keyOf_eq] at fits ⊢
  exact buildFindKey_of_fits m fits

theorem buildExeArgs_of_fits {u : UpdateAppListPdu} {m : Machine ω}
    (fits : (exeArgsOf m.cb u).length < maxPath) :
    buildExeArgs u m = .ok (exeArgsOf m.cb u) m := by
  rw [buildExeArgs, members_bind, require_bind, if_pos fits]
  rfl

theorem buildLinkPath_of_can {u : UpdateAppListPdu} {m : Machine ω}
    (fits : (linkPathOf m.cb u).length < maxPath)
    (can : CanCreate os (groupFolders m.cb.appMenuPath u) m.world) :
    buildLinkPath os u m = .ok (linkPathOf m.cb u)
      { m with world := createAll os (groupFolders m.cb.appMenuPath u) m.world } := by
  rw [buildLinkPath, members_bind]
  exact fileBelow_of_can fits can

theorem buildIconFilePath_of_can {u : UpdateAppListPdu} {m : Machine ω}
    (fits : (iconPathOf m.cb u).length < maxPath)
    (can : CanCreate os (iconFoldersOf m.cb u) m.world) :
    buildIconFilePath os u m = .ok (iconPathOf m.cb u)
      { m with world := createAll os (iconFoldersOf m.cb u) m.world } := by
  by_cases flagged : has u.flags fieldIcon
  · rw [iconPathOf, if_pos flagged] at fits ⊢
    rw [iconFoldersOf, if_pos flagged] at can ⊢
    rw [buildIconFilePath, if_pos flagged, members_bind]
    exact fileBelow_of_can fits can
  · rw [iconPathOf, iconFoldersOf, buildIconFilePath, if_neg flagged, if_neg flagged,
      if_neg flagged]
    rfl

/-- A well-formed update is prepared: its strings are built and its folders made. -/
theorem prepare_of_wellFormed {u : UpdateAppListPdu} {m : Machine ω}
    (wellFormed : WellFormed os m u) :
    prepare os u (afterStart os u.flags m) = .ok (preparedOf m.cb u)
      { afterStart os u.flags m with
        world := createAll os (foldersOf m.cb u) (afterStart os u.flags m).world } := by
  obtain ⟨canIcon, canLink⟩ := canCreate_append.mp wellFormed.folders
  set started := afterStart os u.flags m
  set iconMade : Machine ω :=
    { started with world := createAll os (iconFoldersOf m.cb u) started.world }
  set linkMade : Machine ω :=
    { started with world := createAll os (groupFolders m.cb.appMenuPath u) iconMade.world }
  have mode : checkSyncMode u.flags started = .ok () started := by
    rw [checkSyncMode, members_bind]
    refine require_eq_ok.mpr ⟨fun need => ?_, rfl⟩
    show (startDB os u.flags m).isSome = true
    rw [startDB]
    split
    · rfl
    · rename_i unasked
      exact (wellFormed.inSync need).resolve_right unasked
  -- the strings are made of members that a sync leaves alone
  have icon : buildIconFilePath os u started = .ok (iconPathOf m.cb u) iconMade :=
    buildIconFilePath_of_can wellFormed.icon canIcon
  have link : buildLinkPath os u iconMade = .ok (linkPathOf m.cb u) linkMade :=
    buildLinkPath_of_can wellFormed.link canLink
  have args : buildExeArgs u linkMade = .ok (exeArgsOf m.cb u) linkMade :=
    buildExeArgs_of_fits wellFormed.args
  rw [prepare, bind_of_ok mode, bind_of_ok (checkNames_of_plain wellFormed.plain _),
    bind_of_ok icon, bind_of_ok link, bind_of_ok args,
    bind_of_ok (buildKey_of_fits _ wellFormed.key), foldersOf, createAll_append]
  rfl

/-- A well-formed update succeeds if its registration does. -/
theorem isOk_applyUpdate {u : UpdateAppListPdu} (icon : IconData) {m : Machine ω} {db : FileDB}
    (wellFormed : WellFormed os m u) (there : m.cb.spFileDB = some db) :
    isOk (applyUpdate os u icon m) = succeeded (registered m.cb db (preparedOf m.cb u)).1 := by
  have start : startSync os u.flags m = .ok () (afterStart os u.flags m) := by
    rcases startSync_cases os u.flags m with ⟨flagged, unstarted, -⟩ | ⟨-, started⟩
    · rw [(isOk_onSyncStart os m).mpr (wellFormed.syncStart flagged)] at unstarted
      cases unstarted
    · exact started
  have prepared := prepare_of_wellFormed wellFormed
  obtain ⟨-, -, inSync⟩ := prepare_eq_ok prepared
  rw [applyUpdate_eq, bind_of_ok start, bind_of_ok prepared]
  set ready := { afterStart os u.flags m with
    world := createAll os (foldersOf m.cb u) (afterStart os u.flags m).world }
  have register := register_apply (p := preparedOf m.cb u) (m := ready) there
  have same : registered ready.cb db (preparedOf m.cb u) =
      registered m.cb db (preparedOf m.cb u) := rfl
  simp only [same] at register
  cases outcome : succeeded (registered m.cb db (preparedOf m.cb u)).1 with
  | true =>
      rw [outcome, if_pos rfl] at register
      rw [bind_of_ok register]
      obtain ⟨hasIcon, calls, w, -, published⟩ := @publish_succeeds _ os u icon
        (preparedOf m.cb u) { ready with cb := { ready.cb with
          spFileDB := some (registered m.cb db (preparedOf m.cb u)).2 } } _ rfl inSync
      exact congrArg isOk published
  | false =>
      rw [outcome, if_neg Bool.false_ne_true] at register
      rw [bind_of_error register]
      rfl

/-! ### The entry afterwards -/

/-- A step that takes an update as far as `OnSyncStart`, with what was read and the
client then. -/
structure TakesUpdate (os : Os ω) (t : Step ω) (r : UpdateRead) (m : Machine ω) : Prop where
  taken : Runs.Taken (step os) t
  arrived : arrived os t = some (r, m)

theorem TakesUpdate.read {t : Step ω} {r : UpdateRead} {m : Machine ω}
    (takes : TakesUpdate os t r m) :
    ∃ c, t.input = .pdu cmdIdUpdateAppList c ∧ t.before.cb.channelClosed = false ∧
      t.before.cb.handShakeComplated = true ∧ readUpdate os c t.before.start = .ok r m := by
  have arrived_ := takes.arrived
  rw [Client.arrived] at arrived_
  split at arrived_
  · rename_i cmdId c input
    split at arrived_
    · rename_i here
      obtain ⟨rfl, isOpen, handshake⟩ := here
      split at arrived_ <;> cases arrived_
      rename_i read
      exact ⟨c, input, isOpen, handshake, read⟩
    · cases arrived_
  · cases arrived_

theorem TakesUpdate.cb {t : Step ω} {r : UpdateRead} {m : Machine ω}
    (takes : TakesUpdate os t r m) : m.cb = t.before.cb := by
  obtain ⟨c, -, -, -, read⟩ := takes.read
  have onlyHeap := reads_only_heap os c t.before.start
  rw [read] at onlyHeap
  exact congrArg (·.cb) onlyHeap

/-- It returns `S_OK` if what follows the reading does. -/
theorem TakesUpdate.failure_eq_none {t : Step ω} {r : UpdateRead} {m : Machine ω}
    (takes : TakesUpdate os t r m) :
    t.output.failure = none ↔ isOk (applyUpdate os r.update r.icon m) = true := by
  obtain ⟨c, update, isOpen, handshake, -⟩ := takes.read
  have here := takes.arrived
  rw [takes.taken.eq_take, update] at here ⊢
  cases @updateTaken _ os t.before c isOpen handshake with
  | unread none_ => cases none_.symm.trans here
  | applied there run ok =>
      cases there.symm.trans here
      rw [run]
      exact iff_of_true ok rfl
  | refused there run failed =>
      cases there.symm.trans here
      rw [run]
      refine iff_of_false (fun ok => ?_) Bool.false_ne_true
      cases failed.symm.trans ok

theorem TakesUpdate.applied {t : Step ω} {r : UpdateRead} {m : Machine ω}
    (takes : TakesUpdate os t r m) (ok : t.output.failure = none) : Applied os t r.update :=
  ⟨ok, by rw [updateOf, takes.arrived]; rfl⟩

/-- Buffers for all four strings of an entry. -/
def wholeBuffers : FileDB.FindBuffers :=
  ⟨some maxPath, some maxPath, some maxPath, some maxPath⟩

/-- The update took the place of the entry its key had: it returned `S_OK`, `FindFiles`
returns its strings, and the other keys have the entries they had. -/
structure Replaces (t : Step ω) (u : UpdateAppListPdu) : Prop where
  ok : t.output.failure = none
  entry : ∃ db db', t.before.cb.spFileDB = some db ∧ t.after.cb.spFileDB = some db' ∧
    db'.findFiles (keyOf u) wholeBuffers = (S_OK, entryOf t.before.cb u) ∧
    ∀ k : WStr, k ≠ keyOf u → db'[k]? = db[k]?

/-- `OnFileAdded` with the strings that are there. -/
theorem FileDB.onFileAdded_same {db : FileDB} {key link icon exe args : WStr}
    (present : db[key]? = some ⟨link, icon, exe, args⟩) :
    (db.onFileAdded key (some link) (some icon) (some exe) (some args)).1 = S_OK := by
  simp only [onFileAdded, present, Option.getD_some, if_pos]

theorem findFiles_whole {db : FileDB} {key : WStr} {e : FileEntry} (found : db[key]? = some e)
    (link : e.linkFilePath.length < maxPath) (icon : e.iconFilePath.length < maxPath)
    (exe : e.exeFilePath.length < maxPath) (args : e.exeFileArgs.length < maxPath) :
    db.findFiles key wholeBuffers = (S_OK, e) := by
  simp only [FileDB.findFiles, found, wholeBuffers, FileDB.copyOut, if_pos link, if_pos icon,
    if_pos exe, if_pos args]

/-- A well-formed update of a registered key replaces its entry exactly if there is
nothing to replace. -/
theorem replaces_iff_same (os : Os ω) {t : Step ω} {r : UpdateRead} {m : Machine ω}
    {db : FileDB} {e : FileEntry} (takes : TakesUpdate os t r m)
    (wellFormed : WellFormed os m r.update) (there : t.before.cb.spFileDB = some db)
    (present : db[keyOf r.update]? = some e) :
    Replaces t r.update ↔ e = entryOf t.before.cb r.update := by
  have ok_iff : t.output.failure = none ↔
      succeeded (registered t.before.cb db (preparedOf t.before.cb r.update)).1 = true := by
    rw [takes.failure_eq_none, isOk_applyUpdate r.icon wellFormed (takes.cb ▸ there), takes.cb]
  constructor
  · intro replaces
    exact (FileDB.onFileAdded_present present).2 (ok_iff.mp replaces.ok)
  · rintro rfl
    have ok := ok_iff.mpr (congrArg succeeded (FileDB.onFileAdded_same present))
    cases books_of_taken takes.taken with
    | @updated u db' applied before registered_ after =>
        cases (takes.applied ok).2.symm.trans applied.2
        cases there.symm.trans before
        have kept : ∀ k : WStr,
            (registered t.before.cb db (preparedOf t.before.cb r.update)).2[k]? = db[k]? :=
          (FileDB.onFileAdded_present present).1
        refine ⟨ok, db, _, before, after, ?_, fun k _ => kept k⟩
        refine findFiles_whole ((kept _).trans present) ?_ ?_ ?_ ?_
        · exact takes.cb ▸ wellFormed.link
        · exact takes.cb ▸ wellFormed.icon
        · exact takes.cb ▸ wellFormed.exe
        · exact takes.cb ▸ wellFormed.args
    | deleted isDeleted =>
        cases (updateOf_of_deleteOf isDeleted.2).symm.trans (takes.applied ok).2
    | kept noUpdate => exact absurd (takes.applied ok) (noUpdate _)

theorem canCreate_diskOs (paths : List WStr) (d : Disk) : CanCreate diskOs paths d := by
  induction paths generalizing d with
  | nil => trivial
  | cons path rest ih =>
      refine ⟨?_, ih _⟩
      simp only [diskOs]
      split <;> rintro ⟨⟩

/-- `a` is registered as `A`, and an update of it arrives. -/
def known (desc : String) : Step Disk :=
  Runs.take (step diskOs)
    (Runs.finish (step diskOs) (.fresh {}) [caps "U", update 0 "a" "A"]) (update 0 "a" desc)

/-- An update that is well formed on a `Disk` on which no sync is running. -/
def WellFormedHere (u : UpdateAppListPdu) (cb : Callback) : Prop :=
  ((u.HasGroup → PlainName u.appGroup.str) ∧ PlainName u.appId.str ∧ PlainName u.appDesc.str ∧
    wcsstr u.appWorkingDir.str [quote] = false) ∧
  ((linkPathOf cb u).length < maxPath ∧ (iconPathOf cb u).length < maxPath ∧
    cb.expandedPathObj.length < maxPath ∧ (exeArgsOf cb u).length < maxPath ∧
    (keyOf u).length < maxPath) ∧
  has u.flags (hintSyncStart ||| (hintSync ||| hintSyncEnd)) = false

instance (u : UpdateAppListPdu) (cb : Callback) : Decidable (WellFormedHere u cb) :=
  inferInstanceAs (Decidable (_ ∧ _ ∧ _))

theorem WellFormedHere.wellFormed {u : UpdateAppListPdu} {m : Machine Disk}
    (here : WellFormedHere u m.cb) : WellFormed diskOs m u := by
  obtain ⟨⟨group, id, desc, workingDir⟩, ⟨link, icon, exe, args, key⟩, noSync⟩ := here
  have unasked : ¬ has u.flags hintSyncStart = true := fun asked =>
    absurd (noSync.symm.trans (has_or_left _ asked)) (by decide)
  have unneeded : ¬ has u.flags (hintSync ||| hintSyncEnd) = true := fun need =>
    absurd (noSync.symm.trans (has_or_right _ need)) (by decide)
  exact ⟨⟨group, id, desc, workingDir⟩, link, icon, exe, args, key,
    fun asked => absurd asked unasked, fun need => absurd need unneeded, canCreate_diskOs _ _⟩

/-- The step takes a well-formed update of a key that has the entry `e`. -/
structure Known (t : Step Disk) (r : UpdateRead) (m : Machine Disk) (e : FileEntry) : Prop where
  takes : TakesUpdate diskOs t r m
  wellFormed : WellFormed diskOs m r.update
  present : ∃ db, t.before.cb.spFileDB = some db ∧ db[keyOf r.update]? = some e

theorem exists_known {desc : String} {P : UpdateAppListPdu → FileEntry → Prop}
    (looked : ∃ x ∈ arrived diskOs (known desc), WellFormedHere x.1.update x.2.cb ∧
      ∃ db ∈ (known desc).before.cb.spFileDB, ∃ e ∈ db[keyOf x.1.update]?, P x.1.update e) :
    ∃ r m e, Known (known desc) r m e ∧ P r.update e := by
  obtain ⟨⟨r, m⟩, arrived_, here, db, there, e, present, holds⟩ := looked
  exact ⟨r, m, e, ⟨⟨Runs.taken_take _ _, arrived_⟩, here.wellFormed, db, there, present⟩, holds⟩

/-- The same update again is one of nothing new. -/
theorem replaces_iff_same_known :
    ∃ r m e, Known (known "A") r m e ∧ Replaces (known "A") r.update := by
  obtain ⟨r, m, e, isKnown, same⟩ := @exists_known "A"
    (fun u e => e = entryOf (known "A").before.cb u) (by decide +kernel)
  obtain ⟨db, there, present⟩ := isKnown.present
  exact ⟨r, m, e, isKnown,
    (replaces_iff_same diskOs isKnown.takes isKnown.wellFormed there present).mpr same⟩

/-- An update with another description is refused, and the key keeps the shortcut it
had. -/
theorem newDescription_refused : ∃ r m e, Known (known "B") r m e ∧
    linkPathOf (known "B").before.cb r.update ≠ e.linkFilePath ∧
    (known "B").output.failure = some (.hresult E_FAIL) ∧
    (∃ db ∈ (known "B").after.cb.spFileDB, db[keyOf r.update]? = some e) ∧
    ¬ Replaces (known "B") r.update := by
  have failed : (known "B").output.failure = some (.hresult E_FAIL) := by decide +kernel
  obtain ⟨r, m, e, isKnown, other, kept⟩ := @exists_known "B"
    (fun u e => linkPathOf (known "B").before.cb u ≠ e.linkFilePath ∧
      ∃ db ∈ (known "B").after.cb.spFileDB, db[keyOf u]? = some e) (by decide +kernel)
  refine ⟨r, m, e, isKnown, other, failed, kept, fun replaces => ?_⟩
  cases failed.symm.trans replaces.ok

end Wslg.Client
