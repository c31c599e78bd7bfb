/-
The command a window of a registered application is started again with.

An update keeps the executable and its arguments apart, each in an array of
`MAX_PATH`; `OnAssociateWindowId` prints the two into one such array. Every entry of
a run is one `FindFiles` can copy out (`entriesFit_of_mem`), so the request succeeds
with the whole command exactly if the provider's CAPS is of version 4 and the two
strings fit together (`relaunches_iff_fits`).
-/

import Wslg.Client.Replacement

namespace Wslg.Client

open Wslg.LittleEndian Wslg.Protocol Wslg.StateExcept

variable {ω : Type} {os : Os ω}

/-! ### Entries that can be copied out -/

theorem wcscat_fits {dest src s : WStr} {m m' : Machine ω} (run : wcscat dest src m = .ok s m') :
    s.length < maxPath := by
  obtain ⟨fits, rfl, -⟩ := wcscat_eq_ok.mp run
  rw [List.length_append]
  exact fits

theorem buildKey_fits {u : UpdateAppListPdu} {key : WStr} {m m' : Machine ω}
    (run : buildKey u m = .ok key m') : key.length < maxPath := by
  by_cases group : u.HasGroup
  · rw [buildKey, if_pos group] at run
    obtain ⟨grouped, m₁, -, rest⟩ := bind_eq_ok.mp run
    obtain ⟨separated, m₂, -, last⟩ := bind_eq_ok.mp rest
    exact wcscat_fits last
  · rw [buildKey, if_neg group] at run
    exact wcscat_fits run

theorem catFile_fits {path name extension file : WStr} {m m' : Machine ω}
    (run : catFile path name extension m = .ok file m') : file.length < maxPath := by
  obtain ⟨separated, m₁, -, rest⟩ := bind_eq_ok.mp run
  obtain ⟨named, m₂, -, last⟩ := bind_eq_ok.mp rest
  exact wcscat_fits last

theorem buildIconFilePath_fits {u : UpdateAppListPdu} {icon : WStr} {m m' : Machine ω}
    (run : buildIconFilePath os u m = .ok icon m') : icon.length < maxPath := by
  by_cases flagged : has u.flags fieldIcon
  · rw [buildIconFilePath, if_pos flagged, members_bind] at run
    obtain ⟨path, m₁, -, file⟩ := bind_eq_ok.mp run
    exact catFile_fits file
  · rw [buildIconFilePath, if_neg flagged] at run
    cases run
    decide

/-- The key and the icon path an update is registered with fit their arrays. -/
theorem prepare_fits {u : UpdateAppListPdu} {p : Prepared} {m m' : Machine ω}
    (run : prepare os u m = .ok p m') :
    p.key.length < maxPath ∧ p.iconPath.length < maxPath := by
  obtain ⟨_, m₁, -, run⟩ := bind_eq_ok.mp run
  obtain ⟨_, m₂, -, run⟩ := bind_eq_ok.mp run
  obtain ⟨icon, m₃, iconPath, run⟩ := bind_eq_ok.mp run
  obtain ⟨link, m₄, -, run⟩ := bind_eq_ok.mp run
  obtain ⟨args, m₅, -, run⟩ := bind_eq_ok.mp run
  obtain ⟨key, m₆, keyString, result⟩ := bind_eq_ok.mp run
  cases result
  exact ⟨buildKey_fits keyString, buildIconFilePath_fits iconPath⟩

/-- Every entry has a key and an icon path that fit. -/
def EntriesFit (s : ClientState ω) : Prop :=
  ∀ db, s.cb.spFileDB = some db → ∀ (k : WStr) (e : FileEntry), db[k]? = some e →
    k.length < maxPath ∧ e.iconFilePath.length < maxPath

/-- What an update that returns `S_OK` registers. -/
theorem prepared_fits_of_applied {t : Step ω} {u : UpdateAppListPdu}
    (taken : Runs.Taken (step os) t) (applied : Applied os t u) :
    (keyOf u).length < maxPath ∧ (iconPathOf t.before.cb u).length < maxPath := by
  obtain ⟨⟨r, m⟩, arrived_, rfl⟩ := Option.map_eq_some_iff.mp applied.2
  have takes : TakesUpdate os t r m := ⟨taken, arrived_⟩
  obtain ⟨_, m', run⟩ := exists_of_isOk (takes.failure_eq_none.mp applied.1)
  obtain ⟨_, m₁, start, run⟩ := bind_eq_ok.mp run
  rcases startSync_cases os r.update.flags m with ⟨-, -, e, failed⟩ | ⟨-, ok⟩
  · cases failed.symm.trans start
  cases ok.symm.trans start
  obtain ⟨p, m₂, prepared, -⟩ := bind_eq_ok.mp run
  obtain ⟨rfl, -, -⟩ := prepare_eq_ok prepared
  have fits := prepare_fits prepared
  rw [← takes.cb]
  exact fits

theorem entriesFit_step {t : Step ω} (taken : Runs.Taken (step os) t)
    (fit : EntriesFit t.before) : EntriesFit t.after := by
  intro db' there k e' found
  cases books_of_taken taken with
  | @updated u db applied before ok after =>
      cases after.symm.trans there
      cases entry : db[(preparedOf t.before.cb u).key]? with
      | none =>
          rw [registered, FileDB.onFileAdded_new entry] at found
          split at found
          · rename_i same
            cases found
            rw [same]
            exact prepared_fits_of_applied taken applied
          · exact fit db before k e' found
      | some e =>
          rw [registered, (FileDB.onFileAdded_present entry).1] at found
          exact fit db before k e' found
  | @deleted d db e isDeleted before entry after world =>
      cases after.symm.trans there
      rw [FileDB.getElem?_onFileRemoved] at found
      split at found
      · cases found
      · exact fit db before k e' found
  | kept noUpdate noDelete entries =>
      obtain ⟨db, before, same⟩ := entries db' there
      rw [same] at found
      exact fit db before k e' found

theorem entriesFit_of_mem {w : ω} {es : List (Event ω)} {t : Step ω}
    (mem : t ∈ Runs.transitions (step os) (.fresh w) es) : EntriesFit t.before := by
  refine (@Runs.invariant_transitions _ _ _ _ EntriesFit (fun _ => True)
    (fun t taken _ fit => entriesFit_step taken fit) _ _ ?_ (fun _ _ => trivial) t mem).1
  intro db empty k e found
  cases empty
  simp at found

/-! ### What is handed to the windows -/

/-- `OnAssociateWindowId` up to the call of `EnumWindows`: what it hands over. -/
def windowData (a : AssociateWindowIdPdu) : Handler ω WslgWindowData :=
  members >>= fun cb =>
  require (fullWindowId cb.appProviderGUID a.appWindowId ≠ 0) >>= fun _ =>
  buildFindKey a.appGroup a.appId >>= fun key =>
  fileDB >>= fun db =>
  buildExePath cb a (db.findFiles key associateBuffers) >>= fun exePath =>
  pure
    { windowId := fullWindowId cb.appProviderGUID a.appWindowId
      displayName := nonEmpty a.appDesc.str
      relaunchCommandline := nonEmpty exePath
      iconPath := nonEmpty (db.findFiles key associateBuffers).2.iconFilePath }

theorem applyAssociate_eq (os : Os ω) (a : AssociateWindowIdPdu) :
    applyAssociate os a = windowData a >>= fun d => perform fun w => ((), os.enumWindows d w) := by
  simp only [applyAssociate, windowData, bind_assoc, pure_bind]

/-- The command of a registered application. -/
def FileEntry.command (e : FileEntry) : WStr := e.exeFilePath ++ space :: e.exeFileArgs

theorem buildExePath_fits {cb : Callback} {a : AssociateWindowIdPdu} {found : HRESULT × FileEntry}
    {exePath : WStr} {m m' : Machine ω} (run : buildExePath cb a found m = .ok exePath m') :
    exePath.length < maxPath := by
  rw [buildExePath] at run
  split at run
  · rw [require_bind] at run
    split at run <;> cases run
    assumption
  split at run
  · rw [require_bind] at run
    split at run <;> cases run
    assumption
  · cases run
    decide

theorem eq_of_nonEmpty {s s' : WStr} (some_ : nonEmpty s = some s') : s = s' := by
  rw [nonEmpty] at some_
  split at some_
  · cases some_
  · exact Option.some.inj some_

/-- `FindFiles` copies out what fits. -/
theorem findFiles_associate {db : FileDB} {key : WStr} {e : FileEntry} (entry : db[key]? = some e)
    (icon : e.iconFilePath.length < maxPath) (exe : e.exeFilePath.length < maxPath)
    (args : e.exeFileArgs.length < maxPath) :
    db.findFiles key associateBuffers = (S_OK, { e with linkFilePath := [] }) := by
  simp only [FileDB.findFiles, entry, associateBuffers, FileDB.copyOut, if_pos icon, if_pos exe,
    if_pos args]

/-- A registered application's command is handed over in full exactly if it fits. -/
theorem windowData_command_iff {a : AssociateWindowIdPdu} {m : Machine ω} {db : FileDB}
    {e : FileEntry} (there : m.cb.spFileDB = some db)
    (entry : db[(AppName.of a.appGroup a.appId).key]? = some e)
    (key : (AppName.of a.appGroup a.appId).key.length < maxPath)
    (icon : e.iconFilePath.length < maxPath)
    (nonzero : fullWindowId m.cb.appProviderGUID a.appWindowId ≠ 0) :
    (∃ d, windowData a m = .ok d m ∧ d.relaunchCommandline = some e.command) ↔
      e.command.length < maxPath := by
  have db_ : fileDB m = .ok db m := by
    rw [fileDB, members_bind, there]
    rfl
  have reached : windowData a m = (buildExePath m.cb a
      (db.findFiles (AppName.of a.appGroup a.appId).key associateBuffers) >>= fun exePath =>
        pure (⟨fullWindowId m.cb.appProviderGUID a.appWindowId, nonEmpty a.appDesc.str,
          nonEmpty exePath, nonEmpty (db.findFiles (AppName.of a.appGroup a.appId).key
            associateBuffers).2.iconFilePath⟩ : WslgWindowData)) m := by
    rw [windowData, members_bind, require_bind, if_pos nonzero,
      bind_of_ok (buildFindKey_of_fits m key), bind_of_ok db_]
  rw [reached]
  constructor
  · rintro ⟨d, run, command⟩
    obtain ⟨exePath, m₁, built, last⟩ := bind_eq_ok.mp run
    cases last
    rw [← eq_of_nonEmpty command]
    exact buildExePath_fits built
  · intro fits
    have some_ : e.command ≠ [] := by simp [FileEntry.command]
    have parts := fits
    simp only [FileEntry.command, List.length_append, List.length_cons] at parts
    rw [findFiles_associate entry icon (by omega) (by omega)]
    have built : buildExePath m.cb a (S_OK, { e with linkFilePath := [] }) m =
        .ok e.command m := by
      rw [buildExePath, if_pos (show succeeded S_OK = true by decide)]
      exact (require_bind m _ _).trans (if_pos fits)
    rw [bind_of_ok built]
    exact ⟨_, rfl, if_neg some_⟩

/-! ### The request -/

/-- The request returned `S_OK`, and the windows were handed the command of the entry. -/
structure Relaunches (os : Os ω) (t : Step ω) (a : AssociateWindowIdPdu) (e : FileEntry) :
    Prop where
  ok : t.output.failure = none
  command : ∃ d, windowData a t.before.start = .ok d t.before.start ∧
    d.relaunchCommandline = some e.command ∧
    t.after.world = os.enumWindows d t.before.world

/-- In every run, a request behind the handshake for a registered application, with a
window id, hands over its command in full exactly if the CAPS is of version 4 and the
command fits. -/
theorem relaunches_iff_fits (os : Os ω) (w : ω) (es : List (Event ω)) {t : Step ω} {c c' : Cursor}
    {a : AssociateWindowIdPdu} {db : FileDB} {e : FileEntry}
    (mem : t ∈ Runs.transitions (step os) (.fresh w) es)
    (input : t.input = .pdu cmdIdAssociateWindowId c)
    (isOpen : t.before.cb.channelClosed = false)
    (handshake : t.before.cb.handShakeComplated = true)
    (read : readAssociateWindowId {} c = (.ok c', a))
    (there : t.before.cb.spFileDB = some db)
    (entry : db[(AppName.of a.appGroup a.appId).key]? = some e)
    (nonzero : fullWindowId t.before.cb.appProviderGUID a.appWindowId ≠ 0) :
    Relaunches os t a e ↔
      4 ≤ t.before.cb.serverCaps.version ∧ e.command.length < maxPath := by
  obtain ⟨key, icon⟩ := entriesFit_of_mem mem db there _ e entry
  rw [← @windowData_command_iff _ a t.before.start db e there entry key icon nonzero]
  have run : dispatch os cmdIdAssociateWindowId c t.before.start =
      onAssociateWindowId os c t.before.start := by
    rw [dispatch_handshaken (by decide) handshake]
    rfl
  have taken : t = Runs.take (step os) t.before (.pdu cmdIdAssociateWindowId c) := by
    rw [← input]
    exact (Runs.taken_of_mem mem).eq_take
  have readRun : (readAssociate c : Handler ω _) t.before.start = .ok (c', a) t.before.start := by
    rw [readAssociate, read]
  rw [onAssociateWindowId, members_bind, require_bind] at run
  constructor
  · rintro ⟨ok, d, data, command, -⟩
    refine ⟨?_, d, data, command⟩
    by_cases version : ¬ t.before.cb.serverCaps.version < 4
    · exact UInt16.not_lt.mp version
    · have stepped := step_of_error isOpen (run.trans (if_neg version))
      rw [taken] at ok
      cases (congrArg (·.1.failure) stepped).symm.trans ok
  · rintro ⟨version, d, data, command⟩
    have applied : applyAssociate os a t.before.start =
        .ok () { t.before.start with world := os.enumWindows d t.before.world } := by
      rw [applyAssociate_eq, bind_of_ok data]
      rfl
    have handled := run.trans ((if_pos (UInt16.not_lt.mpr version)).trans
      ((bind_of_ok readRun).trans (bind_of_ok applied)))
    have stepped := step_of_ok isOpen handled
    refine ⟨?_, d, data, command, ?_⟩
    · rw [taken]
      exact congrArg (·.1.failure) stepped
    · rw [taken]
      exact congrArg (·.2.world) stepped

/-! ### A command that fits and one that does not -/

/-- A request for the window 1 of `a`. -/
def requestBody : Cursor := .of (word32 (fieldId ||| fieldWindowId) ++ (word32 1 ++ pduText "a"))

def request : AssociateWindowIdPdu := (readAssociateWindowId {} requestBody).2

/-- An update of `a` with a command of `n` characters. -/
def updateRunning (n : Nat) : Event Disk :=
  .pdu cmdIdUpdateAppList (.of (word32 (fieldId ||| fieldExecPath ||| fieldDesc) ++
    (pduText "a" ++ (word16 (UInt16.ofNat (2 * n)) ++ bytes (List.replicate n 0x78) ++
      pduText "A"))))

/-- `a` is registered, and the request arrives. -/
def requested (n : Nat) : Step Disk :=
  Runs.take (step diskOs) (Runs.finish (step diskOs) (.fresh {}) [caps "U", updateRunning n])
    (.pdu cmdIdAssociateWindowId requestBody)

theorem requested_mem (n : Nat) : requested n ∈ Runs.transitions (step diskOs) (.fresh {})
    [caps "U", updateRunning n, .pdu cmdIdAssociateWindowId requestBody] :=
  List.mem_cons_of_mem _ (List.mem_cons_of_mem _ List.mem_cons_self)

theorem request_read : ∃ c', readAssociateWindowId {} requestBody = (.ok c', request) := by
  have ok : (readAssociateWindowId {} requestBody).1.isOk = true := by decide +kernel
  rw [request]
  cases read : readAssociateWindowId {} requestBody with
  | mk result a =>
      rw [read] at ok
      cases result with
      | ok c' => exact ⟨c', rfl⟩
      | error e => cases ok

theorem relaunches_iff_fits_short : ∃ e, Relaunches diskOs (requested 1) request e := by
  obtain ⟨c', read⟩ := request_read
  have entry : ∃ db ∈ (requested 1).before.cb.spFileDB,
      ∃ e ∈ db[(AppName.of request.appGroup request.appId).key]?,
        4 ≤ (requested 1).before.cb.serverCaps.version ∧ e.command.length < maxPath := by
    decide +kernel
  obtain ⟨db, there, e, entry, fits⟩ := entry
  exact ⟨e, (relaunches_iff_fits diskOs {} _ (requested_mem 1) rfl (by decide +kernel)
    (by decide +kernel) read there entry (by decide +kernel)).mpr fits⟩

/-- A command of 240 characters is registered, and does not fit behind the executable. -/
theorem longCommand_not_relaunched :
    (Runs.take (step diskOs) (Runs.finish (step diskOs) (.fresh {}) [caps "U"])
      (updateRunning 240)).output.failure = none ∧
    (requested 240).before.cb.handShakeComplated = true ∧
    fullWindowId (requested 240).before.cb.appProviderGUID request.appWindowId ≠ 0 ∧
    (requested 240).output.failure = some (.hresult E_FAIL) ∧
    ∃ db e, (requested 240).before.cb.spFileDB = some db ∧
      db[(AppName.of request.appGroup request.appId).key]? = some e ∧
      ¬ Relaunches diskOs (requested 240) request e := by
  have failed : (requested 240).output.failure = some (.hresult E_FAIL) := by decide +kernel
  have entry : ∃ db ∈ (requested 240).before.cb.spFileDB,
      ∃ e ∈ db[(AppName.of request.appGroup request.appId).key]?, True := by
    decide +kernel
  obtain ⟨db, there, e, entry, -⟩ := entry
  refine ⟨by decide +kernel, by decide +kernel, by decide +kernel, failed, db, e, there, entry,
    fun relaunches => ?_⟩
  cases failed.symm.trans relaunches.ok

end Wslg.Client
