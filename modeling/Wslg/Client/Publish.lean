/-
What an update does, phase by phase.

`OnUpdateAppList` may fail while it starts a sync, while it builds its paths and
while it registers the application; each such failure leaves the disk and the log
of calls alone. Behind the registration nothing fails any more (`publish_succeeds`). So
an update that returns `S_OK` has written the files it was to write, and only such
an update takes paths out of a sync or ends one.
-/

import Wslg.Client.OnUpdateAppList
import Wslg.Client.Sweep

namespace Wslg.Client

open Wslg.Protocol Wslg.StateExcept

variable {ω : Type} {os : Os ω}

/-! ### Preparation -/

/-- What an update is registered with. -/
def preparedOf (cb : Callback) (u : UpdateAppListPdu) : Prepared :=
  ⟨keyOf u, linkPathOf cb u, iconPathOf cb u, exeArgsOf cb u⟩

theorem enterFolders_eq_ok {base path : WStr} {u : UpdateAppListPdu} {m m' : Machine ω}
    (run : enterFolders os base u m = .ok path m') :
    path = base ++ if u.HasGroup then backslash :: u.appGroup.str else [] := by
  obtain ⟨folder, m₁, copy, made⟩ := bind_eq_ok.mp run
  obtain ⟨-, folder_eq, -⟩ := wcscat_eq_ok.mp copy
  obtain ⟨_, m₂, -, inside⟩ := bind_eq_ok.mp made
  by_cases group : u.HasGroup
  · rw [if_pos group] at inside ⊢
    obtain ⟨separated, m₃, separator, named⟩ := bind_eq_ok.mp inside
    obtain ⟨-, separated_eq, -⟩ := wcscat_eq_ok.mp separator
    obtain ⟨grouped, m₄, name, last⟩ := bind_eq_ok.mp named
    obtain ⟨-, grouped_eq, -⟩ := wcscat_eq_ok.mp name
    obtain ⟨_, m₅, -, result⟩ := bind_eq_ok.mp last
    cases result
    rw [grouped_eq, separated_eq, folder_eq]
    simp
  · rw [if_neg group] at inside ⊢
    cases inside
    rw [folder_eq]
    simp

/-- A file name behind a path, with `wcscat_s` one piece after the other. -/
theorem catFile_eq_ok {path name extension file : WStr} {m m' : Machine ω}
    (run : catFile path name extension m = .ok file m') :
    file = path ++ backslash :: (name ++ extension) := by
  obtain ⟨separated, m₁, separator, rest⟩ := bind_eq_ok.mp run
  obtain ⟨-, separated_eq, -⟩ := wcscat_eq_ok.mp separator
  obtain ⟨named, m₂, cat, last⟩ := bind_eq_ok.mp rest
  obtain ⟨-, named_eq, -⟩ := wcscat_eq_ok.mp cat
  obtain ⟨-, file_eq, -⟩ := wcscat_eq_ok.mp last
  rw [file_eq, named_eq, separated_eq]
  simp

theorem buildLinkPath_eq_ok {u : UpdateAppListPdu} {link : WStr} {m m' : Machine ω}
    (run : buildLinkPath os u m = .ok link m') : link = linkPathOf m.cb u := by
  rw [buildLinkPath, members_bind] at run
  obtain ⟨path, m₁, folders, file⟩ := bind_eq_ok.mp run
  rw [catFile_eq_ok file, enterFolders_eq_ok folders, linkPathOf, UpdateAppListPdu.groupPrefix]
  split <;> simp

theorem buildIconFilePath_eq_ok {u : UpdateAppListPdu} {icon : WStr} {m m' : Machine ω}
    (run : buildIconFilePath os u m = .ok icon m') : icon = iconPathOf m.cb u := by
  rw [iconPathOf]
  by_cases flagged : has u.flags fieldIcon
  · rw [buildIconFilePath, if_pos flagged, members_bind] at run
    obtain ⟨path, m₁, folders, file⟩ := bind_eq_ok.mp run
    rw [if_pos flagged, catFile_eq_ok file, enterFolders_eq_ok folders,
      UpdateAppListPdu.groupPrefix]
    split <;> simp
  · rw [buildIconFilePath, if_neg flagged] at run
    cases run
    rw [if_neg flagged]

theorem buildKey_eq_ok {u : UpdateAppListPdu} {key : WStr} {m m' : Machine ω}
    (run : buildKey u m = .ok key m') : key = keyOf u := by
  rw [keyOf, UpdateAppListPdu.groupPrefix]
  by_cases group : u.HasGroup
  · rw [buildKey, if_pos group] at run
    obtain ⟨grouped, m₁, first, rest⟩ := bind_eq_ok.mp run
    obtain ⟨-, grouped_eq, -⟩ := wcscat_eq_ok.mp first
    obtain ⟨separated, m₂, separator, last⟩ := bind_eq_ok.mp rest
    obtain ⟨-, separated_eq, -⟩ := wcscat_eq_ok.mp separator
    obtain ⟨-, key_eq, -⟩ := wcscat_eq_ok.mp last
    rw [if_pos group, key_eq, separated_eq, grouped_eq]
    simp
  · rw [buildKey, if_neg group] at run
    obtain ⟨-, key_eq, -⟩ := wcscat_eq_ok.mp run
    rw [if_neg group, key_eq]

theorem buildExeArgs_eq_ok {u : UpdateAppListPdu} {args : WStr} {m m' : Machine ω}
    (run : buildExeArgs u m = .ok args m') : args = exeArgsOf m.cb u := by
  rw [buildExeArgs, members_bind, require_bind] at run
  split at run <;> cases run
  rfl

theorem checkNames_eq_ok {u : UpdateAppListPdu} {m m' : Machine ω} {r : Unit}
    (run : checkNames u m = .ok r m') : u.PlainNames := by
  simp only [checkNames, require_bind] at run
  split at run
  · rename_i group
    split at run
    · rename_i id
      split at run
      · rename_i desc
        exact ⟨group, id, desc, (require_eq_ok.mp run).1⟩
      · cases run
    · cases run
  · cases run

/-- An update that is prepared has plain names, is registered with the paths made of
them, and finds a sync where it needs one. -/
theorem prepare_eq_ok {u : UpdateAppListPdu} {p : Prepared} {m m' : Machine ω}
    (run : prepare os u m = .ok p m') :
    p = preparedOf m.cb u ∧ u.PlainNames ∧
      (has u.flags (hintSync ||| hintSyncEnd) = true → m.cb.spFileDBSync.isSome = true) := by
  obtain ⟨_, m₁, mode, afterMode⟩ := bind_eq_ok.mp run
  rw [checkSyncMode, members_bind] at mode
  obtain ⟨inSync, rfl⟩ := require_eq_ok.mp mode
  obtain ⟨_, m₂, names, afterNames⟩ := bind_eq_ok.mp afterMode
  obtain ⟨icon, m₃, iconPath, afterIcon⟩ := bind_eq_ok.mp afterNames
  obtain ⟨link, m₄, linkPath, afterLink⟩ := bind_eq_ok.mp afterIcon
  obtain ⟨args, m₅, exeArgs, afterArgs⟩ := bind_eq_ok.mp afterLink
  obtain ⟨key, m₆, keyString, result⟩ := bind_eq_ok.mp afterArgs
  cases result
  refine ⟨?_, checkNames_eq_ok names, inSync⟩
  -- the members stay what they were while the strings are built
  have cb₂ : m₂.cb = m₁.cb := ((quiet_checkNames u).of_ok names).cb
  have cb₃ : m₃.cb = m₁.cb := ((quiet_buildIconFilePath os u).of_ok iconPath).cb.trans cb₂
  have cb₄ : m₄.cb = m₁.cb := ((quiet_buildLinkPath os u).of_ok linkPath).cb.trans cb₃
  rw [buildIconFilePath_eq_ok iconPath, buildLinkPath_eq_ok linkPath,
    buildExeArgs_eq_ok exeArgs, buildKey_eq_ok keyString, cb₂, cb₃, cb₄]
  rfl

/-! ### Registration -/

/-- The database has no entry that was not there. -/
def NoNewEntries (db db' : Option FileDB) : Prop :=
  ∀ d', db' = some d' →
    ∃ d, db = some d ∧ ∀ (k : WStr) (e : FileEntry), d'[k]? = some e → d[k]? = some e

theorem NoNewEntries.refl (db : Option FileDB) : NoNewEntries db db :=
  fun d' same => ⟨d', same, fun _ _ found => found⟩

/-- What `OnFileAdded` makes of the database for an update. -/
def registered (cb : Callback) (db : FileDB) (p : Prepared) : HRESULT × FileDB :=
  db.onFileAdded p.key (some p.linkPath) (some p.iconPath) (some cb.expandedPathObj)
    (some p.exeArgs)

theorem register_apply {p : Prepared} {m : Machine ω} {db : FileDB}
    (fileDB : m.cb.spFileDB = some db) :
    register p m =
      let m' := { m with cb := { m.cb with spFileDB := some (registered m.cb db p).2 } }
      if succeeded (registered m.cb db p).1 then .ok () m'
      else .error (.hresult (registered m.cb db p).1) m' := by
  rw [register, members_bind, fileDB]
  show (setMembers _ >>= fun _ => _) m = _
  rw [setMembers_bind]
  show (if succeeded (registered m.cb db p).1 then _ else _ : Handler ω Unit) _ = _
  split <;> rfl

/-- A registration that fails registers nothing. -/
theorem register_eq_error {p : Prepared} {m m' : Machine ω} {e : Failure}
    (run : register p m = .error e m') : m' = m := by
  cases fileDB : m.cb.spFileDB with
  | none =>
      rw [register, members_bind, fileDB] at run
      cases run
      rfl
  | some db =>
      rw [register_apply fileDB] at run
      simp only at run
      split at run
      · cases run
      · rename_i failed
        cases run
        rw [registered, FileDB.onFileAdded_failed (Bool.eq_false_iff.mpr failed), ← fileDB]

/-! ### Files and the sync -/

/-- The calls an update writes its files with. -/
structure FilesWritten (u : UpdateAppListPdu) (p : Prepared) (hasIcon : Bool)
    (calls : List (Call ω)) : Prop where
  actions : ∃ done, calls.map (·.action) =
    (if has u.flags fieldIcon then [.createIconFile p.iconPath hasIcon] else []) ++
      [.createShellLink p.linkPath done]
  noIcon : has u.flags fieldIcon = false → hasIcon = false

theorem createIconFile_eq (os : Os ω) (buffer : List BYTE) (path : WStr) (m : Machine ω) :
    ∃ done w call, createIconFile os buffer path m =
        .ok done { m with world := w, log := m.log ++ [call] } ∧
      call.action = .createIconFile path done := by
  rw [createIconFile, perform_bind]
  cases (os.createFileW path m.world).1 with
  | true => exact ⟨_, _, _, rfl, rfl⟩
  | false => exact ⟨_, _, _, rfl, rfl⟩

theorem FilesWritten.action_of_mem {u : UpdateAppListPdu} {p : Prepared} {hasIcon : Bool}
    {calls : List (Call ω)} (files : FilesWritten u p hasIcon calls) {call : Call ω}
    (mem : call ∈ calls) :
    (has u.flags fieldIcon = true ∧ call.action = .createIconFile p.iconPath hasIcon) ∨
      ∃ done, call.action = .createShellLink p.linkPath done := by
  obtain ⟨done, actions⟩ := files.actions
  have action : call.action ∈ calls.map (·.action) := List.mem_map_of_mem mem
  rw [actions] at action
  rcases List.mem_append.mp action with icon | link
  · split at icon
    · rename_i flagged
      exact Or.inl ⟨flagged, List.mem_singleton.mp icon⟩
    · cases icon
  · exact Or.inr ⟨done, List.mem_singleton.mp link⟩

theorem writeIcon_eq (os : Os ω) (u : UpdateAppListPdu) (icon : IconData) (path : WStr)
    (m : Machine ω) :
    ∃ hasIcon w calls, writeIcon os u icon path m =
        .ok hasIcon { m with world := w, log := m.log ++ calls } ∧
      calls.map (·.action) =
        (if has u.flags fieldIcon then [.createIconFile path hasIcon] else []) ∧
      (has u.flags fieldIcon = false → hasIcon = false) := by
  by_cases flagged : has u.flags fieldIcon
  · obtain ⟨done, w, call, run, action⟩ :=
      createIconFile_eq os ((icon.iconFileData.map (·.bytes)).getD []) path m
    refine ⟨done, w, [call], ?_, ?_, fun off => absurd (flagged.symm.trans off) (by decide)⟩
    · rw [writeIcon, if_pos flagged]
      exact run
    · rw [if_pos flagged, List.map_singleton, action]
  · refine ⟨false, m.world, [], ?_, ?_, fun _ => rfl⟩
    · rw [writeIcon, if_neg flagged, List.append_nil]
      rfl
    · rw [if_neg flagged, List.map_nil]

theorem writeLink_eq (os : Os ω) (u : UpdateAppListPdu) (p : Prepared) (hasIcon : Bool)
    (m : Machine ω) :
    ∃ done w call, writeLink os u p hasIcon m =
        .ok () { m with world := w, log := m.log ++ [call] } ∧
      call.action = .createShellLink p.linkPath done :=
  ⟨_, _, _, rfl, rfl⟩

/-- The paths an update takes out of a sync. -/
def keptPaths (flags : UInt32) (p : Prepared) (hasIcon : Bool) : List WStr :=
  if has flags hintSync then p.linkPath :: if hasIcon then [p.iconPath] else [] else []

/-- The database without some ids. -/
def FileDB.removeFileIds (db : FileDB) (fileIds : List WStr) : FileDB :=
  fileIds.foldl (fun db fileId => (db.onFileRemoved fileId).2) db

theorem FileDB.mem_removeFileIds {db : FileDB} {fileIds : List WStr} {k : WStr} :
    k ∈ (db.removeFileIds fileIds).fileIds ↔ k ∈ db.fileIds ∧ k ∉ fileIds := by
  induction fileIds generalizing db with
  | nil => simp [removeFileIds]
  | cons fileId rest ih =>
      show k ∈ ((db.onFileRemoved fileId).2.removeFileIds rest).fileIds ↔ _
      rw [ih, mem_fileIds_onFileRemoved, List.mem_cons, not_or]
      exact ⟨fun h => ⟨h.1.2, h.1.1, h.2⟩, fun h => ⟨⟨h.2.1, h.1⟩, h.2.2⟩⟩

/-- The client after the books of the sync: the paths are out, and a sync that ends
is swept. -/
def settled (os : Os ω) (flags : UInt32) (kept : List WStr) (m : Machine ω) : Machine ω :=
  match m.cb.spFileDBSync with
  | none => m
  | some db =>
      let left := db.removeFileIds kept
      if has flags hintSyncEnd then
        { m with
          cb := { m.cb with spFileDBSync := none }
          world := (sweep os left.fileIds m.world).2
          log := m.log ++ (sweep os left.fileIds m.world).1 }
      else { m with cb := { m.cb with spFileDBSync := some left } }

theorem settled_of_end {flags : UInt32} {kept : List WStr} {m : Machine ω} {db : FileDB}
    (sync : m.cb.spFileDBSync = some db) (ends : has flags hintSyncEnd = true) :
    settled os flags kept m = { m with
      cb := { m.cb with spFileDBSync := none }
      world := (sweep os (db.removeFileIds kept).fileIds m.world).2
      log := m.log ++ (sweep os (db.removeFileIds kept).fileIds m.world).1 } := by
  rw [settled, sync]
  exact if_pos ends

theorem settled_of_not_end {flags : UInt32} {kept : List WStr} {m : Machine ω} {db : FileDB}
    (sync : m.cb.spFileDBSync = some db) (goesOn : ¬ has flags hintSyncEnd = true) :
    settled os flags kept m =
      { m with cb := { m.cb with spFileDBSync := some (db.removeFileIds kept) } } := by
  rw [settled, sync]
  exact if_neg goesOn

theorem mem_keptPaths {flags : UInt32} {p : Prepared} {hasIcon : Bool} {k : WStr} :
    k ∈ keptPaths flags p hasIcon ↔
      has flags hintSync = true ∧ (k = p.linkPath ∨ hasIcon = true ∧ k = p.iconPath) := by
  rw [keptPaths]
  by_cases on : has flags hintSync
  · rw [if_pos on, List.mem_cons]
    cases hasIcon <;> simp [on]
  · simp [on]

theorem spFileDB_settled (os : Os ω) (flags : UInt32) (kept : List WStr) (m : Machine ω) :
    (settled os flags kept m).cb.spFileDB = m.cb.spFileDB := by
  rw [settled]
  split
  · rfl
  · split <;> rfl

theorem log_settled {flags : UInt32} {kept : List WStr} {m : Machine ω} {call : Call ω}
    (mem : call ∈ m.log) : call ∈ (settled os flags kept m).log := by
  rw [settled]
  split
  · exact mem
  · split
    · exact List.mem_append_left _ mem
    · exact mem

/-- The books of a sync only add the calls of a sweep. -/
theorem mem_log_settled {flags : UInt32} {kept : List WStr} {m : Machine ω} {call : Call ω}
    (mem : call ∈ (settled os flags kept m).log) :
    call ∈ m.log ∨ ∃ fileIds w, call ∈ (sweep os fileIds w).1 ∧
      (sweep os fileIds w).1 ⊆ (settled os flags kept m).log := by
  rw [settled] at mem ⊢
  split at mem
  · exact Or.inl mem
  · rename_i db _
    simp only at mem ⊢
    split at mem
    · rename_i ends
      rw [if_pos ends]
      exact (List.mem_append.mp mem).imp_right fun swept =>
        ⟨_, _, swept, List.subset_append_right ..⟩
    · exact Or.inl mem

/-- With the sync there where the flags need it, keeping its books never fails. -/
theorem keepInSync_endSync_eq (os : Os ω) {flags : UInt32} {m : Machine ω}
    (inSync : has flags (hintSync ||| hintSyncEnd) = true → m.cb.spFileDBSync.isSome = true)
    (p : Prepared) (hasIcon : Bool) :
    (keepInSync flags p hasIcon >>= fun _ => endSync os flags) m =
      .ok () (settled os flags (keptPaths flags p hasIcon) m) := by
  cases sync : m.cb.spFileDBSync with
  | none =>
      rw [sync] at inSync
      have off : ¬ has flags hintSync = true := fun on => by cases inSync (has_or_left _ on)
      have off' : ¬ has flags hintSyncEnd = true := fun on => by cases inSync (has_or_right _ on)
      rw [keepInSync_eq, if_neg off, pure_bind_apply, endSync, if_neg off', settled, sync]
      rfl
  | some db =>
      have kept : keepInSync flags p hasIcon m = .ok () { m with
          cb := { m.cb with
            spFileDBSync := some (db.removeFileIds (keptPaths flags p hasIcon)) } } := by
        rw [keepInSync_eq, keptPaths]
        by_cases on : has flags hintSync
        · rw [if_pos on, if_pos on, removeFromSync, bind_of_ok (withSync_apply sync)]
          cases hasIcon with
          | true => exact withSync_apply rfl
          | false => rfl
        · rw [if_neg on, if_neg on]
          exact congrArg _ (by rw [FileDB.removeFileIds, List.foldl_nil, ← sync])
      rw [bind_of_ok kept, endSync, settled, sync]
      by_cases on : has flags hintSyncEnd
      · simp only [if_pos on]
        exact onSyncEnd_eq rfl true
      · simp only [if_neg on]
        rfl

/-- Behind the registration an update does not fail. -/
theorem publish_succeeds {u : UpdateAppListPdu} {icon : IconData} {p : Prepared} {m : Machine ω}
    {r : EStateM.Result Failure (Machine ω) Unit} (run : publish os u icon p m = r)
    (inSync : has u.flags (hintSync ||| hintSyncEnd) = true → m.cb.spFileDBSync.isSome = true) :
    ∃ hasIcon calls w, FilesWritten u p hasIcon calls ∧
      r = .ok () (settled os u.flags (keptPaths u.flags p hasIcon)
        { m with world := w, log := m.log ++ calls }) := by
  obtain ⟨hasIcon, w₁, calls, iconRun, iconActions, noIcon⟩ :=
    writeIcon_eq os u icon p.iconPath m
  obtain ⟨done, w₂, call, linkRun, linkAction⟩ :=
    writeLink_eq os u p hasIcon { m with world := w₁, log := m.log ++ calls }
  refine ⟨hasIcon, calls ++ [call], w₂, ⟨⟨done, ?_⟩, noIcon⟩, ?_⟩
  · rw [List.map_append, iconActions, List.map_singleton, linkAction]
  · have books := keepInSync_endSync_eq os
      (m := { m with world := w₂, log := m.log ++ calls ++ [call] }) inSync p hasIcon
    rw [← List.append_assoc, ← run, publish_eq]
    exact (bind_of_ok iconRun).trans ((bind_of_ok linkRun).trans books)

/-! ### A whole update -/

/-- The calls of the walk, if a sync is to be started. -/
def startCalls (os : Os ω) (flags : UInt32) (m : Machine ω) : List (Call ω) :=
  if has flags hintSyncStart then (startWalk os m).1 else []

theorem walkCall_of_mem_startCalls {flags : UInt32} {m : Machine ω} {call : Call ω}
    (mem : call ∈ startCalls os flags m) :
    WalkCall os ((os.listing m.world m.cb.appMenuPath).lnkFiles m.cb.appMenuPath) call := by
  rw [startCalls] at mem
  split at mem
  · exact walkCall_of_mem mem
  · cases mem

/-- The sync database once a sync that is asked for has been started. -/
def startDB (os : Os ω) (flags : UInt32) (m : Machine ω) : Option FileDB :=
  if has flags hintSyncStart then some (FileDB.insertFileIds ∅ (found (startWalk os m).1))
  else m.cb.spFileDBSync

/-- The client then. -/
def afterStart (os : Os ω) (flags : UInt32) (m : Machine ω) : Machine ω :=
  { m with
    cb := { m.cb with spFileDBSync := startDB os flags m }
    world := if has flags hintSyncStart then (startWalk os m).2 else m.world
    log := m.log ++ startCalls os flags m }

/-- A sync that is asked for is started, or nothing is changed. -/
theorem startSync_cases (os : Os ω) (flags : UInt32) (m : Machine ω) :
    (has flags hintSyncStart = true ∧ isOk (onSyncStart os m) = false ∧
        ∃ e, startSync os flags m = .error e m) ∨
      ((has flags hintSyncStart = true → isOk (onSyncStart os m) = true) ∧
        startSync os flags m = .ok () (afterStart os flags m)) := by
  by_cases flagged : has flags hintSyncStart
  · rw [startSync_eq, if_pos flagged]
    rcases onSyncStart_cases os m with ⟨e, failed⟩ | ⟨-, started⟩
    · exact Or.inl ⟨flagged, by rw [failed]; rfl, e, failed⟩
    · refine Or.inr ⟨fun _ => by rw [started, isOk], ?_⟩
      rw [started]
      simp only [afterStart, startDB, startCalls, if_pos flagged]
      rfl
  · refine Or.inr ⟨fun on => absurd on flagged, ?_⟩
    rw [startSync_eq, if_neg flagged]
    simp only [afterStart, startDB, startCalls, if_neg flagged, List.append_nil]
    rfl

theorem register_eq_ok {p : Prepared} {m m' : Machine ω} {r : Unit}
    (run : register p m = .ok r m') :
    ∃ db, m.cb.spFileDB = some db ∧
      m' = { m with cb := { m.cb with spFileDB := some (registered m.cb db p).2 } } := by
  cases fileDB : m.cb.spFileDB with
  | none =>
      rw [register, members_bind, fileDB] at run
      cases run
  | some db =>
      rw [register_apply fileDB] at run
      simp only at run
      split at run
      · cases run
        exact ⟨db, rfl, rfl⟩
      · cases run

/-- The client behind the files of an update. -/
def written (os : Os ω) (u : UpdateAppListPdu) (m : Machine ω) (db : FileDB) (w : ω)
    (calls : List (Call ω)) : Machine ω :=
  { m with
    cb := { m.cb with
      spFileDB := some (registered m.cb db (preparedOf m.cb u)).2
      spFileDBSync := startDB os u.flags m }
    world := w
    log := m.log ++ startCalls os u.flags m ++ calls }

/-- What an update that returns `S_OK` did. -/
structure Published (os : Os ω) (u : UpdateAppListPdu) (m m' : Machine ω) : Prop where
  plain : u.PlainNames
  started : has u.flags hintSyncStart = true → isOk (onSyncStart os m) = true
  inSync : has u.flags (hintSync ||| hintSyncEnd) = true →
    (startDB os u.flags m).isSome = true
  left : ∃ db hasIcon calls w, m.cb.spFileDB = some db ∧
    FilesWritten u (preparedOf m.cb u) hasIcon calls ∧
    m' = settled os u.flags (keptPaths u.flags (preparedOf m.cb u) hasIcon)
      (written os u m db w calls)

theorem published_of_applyUpdate {u : UpdateAppListPdu} {icon : IconData} {m m' : Machine ω}
    {r : Unit} (run : applyUpdate os u icon m = .ok r m') : Published os u m m' := by
  obtain ⟨_, m₁, start, run⟩ := bind_eq_ok.mp run
  rcases startSync_cases os u.flags m with ⟨-, -, e, failed⟩ | ⟨started, ok⟩
  · cases failed.symm.trans start
  cases ok.symm.trans start
  obtain ⟨p, m₂, prepared, run⟩ := bind_eq_ok.mp run
  obtain ⟨rfl, plain, inSync⟩ := prepare_eq_ok prepared
  have same := ((quiet_prepare os u).of_ok prepared).eq
  obtain ⟨_, m₃, registration, run⟩ := bind_eq_ok.mp run
  rw [same] at registration
  obtain ⟨db, fileDB, rfl⟩ := register_eq_ok registration
  obtain ⟨hasIcon, calls, w, files, published⟩ := publish_succeeds run inSync
  cases published
  exact ⟨plain, started, inSync, db, hasIcon, calls, w, fileDB, files, rfl⟩

/-- What an update that fails may have done: started a sync. -/
structure Rejected (os : Os ω) (u : UpdateAppListPdu) (m m' : Machine ω) : Prop where
  noNewEntries : NoNewEntries m.cb.spFileDB m'.cb.spFileDB
  left : (has u.flags hintSyncStart = true ∧ isOk (onSyncStart os m) = false ∧
      m'.cb.spFileDBSync = m.cb.spFileDBSync ∧ m'.log = m.log) ∨
    ((has u.flags hintSyncStart = true → isOk (onSyncStart os m) = true) ∧
      m'.cb.spFileDBSync = startDB os u.flags m ∧ m'.log = m.log ++ startCalls os u.flags m)

/-- An update that fails leaves the members as they were after the start of the sync. -/
theorem quiet_of_applyUpdate_error {u : UpdateAppListPdu} {icon : IconData} {m m' : Machine ω}
    {e : Failure} (run : applyUpdate os u icon m = .error e m') :
    Quiet (final (startSync os u.flags m)) m' := by
  rw [applyUpdate_eq] at run
  rcases bind_eq_error.mp run with failed | ⟨_, m₁, start, run⟩
  · rw [failed, final_error]
    exact ⟨rfl, rfl, rfl⟩
  rw [start, final_ok]
  rcases bind_eq_error.mp run with failed | ⟨p, m₂, prepared, run⟩
  · exact (quiet_prepare os u).of_error failed
  have quiet := (quiet_prepare os u).of_ok prepared
  obtain ⟨rfl, -, inSync⟩ := prepare_eq_ok prepared
  rcases bind_eq_error.mp run with failed | ⟨_, m₃, registration, run⟩
  · rw [register_eq_error failed]
    exact quiet
  · -- behind the registration nothing fails
    obtain ⟨db, -, rfl⟩ := register_eq_ok registration
    rw [← quiet.cb] at inSync
    obtain ⟨hasIcon, calls, w, -, published⟩ := publish_succeeds run inSync
    cases published

theorem rejected_of_applyUpdate {u : UpdateAppListPdu} {icon : IconData} {m m' : Machine ω}
    {e : Failure} (run : applyUpdate os u icon m = .error e m') : Rejected os u m m' := by
  have quiet := quiet_of_applyUpdate_error run
  rcases startSync_cases os u.flags m with ⟨asked, unstarted, e', start⟩ | ⟨started, start⟩
  · rw [start, final_error] at quiet
    rw [quiet.eq]
    exact ⟨NoNewEntries.refl _, Or.inl ⟨asked, unstarted, rfl, rfl⟩⟩
  · rw [start, final_ok] at quiet
    rw [quiet.eq]
    exact ⟨NoNewEntries.refl _, Or.inr ⟨started, rfl, rfl⟩⟩

end Wslg.Client
