/-
What a step does to the files and to the two databases.

Only an update adds entries, writes files and moves a sync; only a delete request
calls `DeleteFileW` on the paths of an entry; the end of the channel drops a sync.
`did_of_taken` says so once, with everything such a step can have done, and the
results about runs are read off it.
-/

import Wslg.Client.Dispatch
import Wslg.Client.Publish

namespace Wslg.Client

open Wslg.Protocol Wslg.StateExcept

variable {ω : Type} {os : Os ω}

/-! ### The update of a step -/

/-- The update a step takes as far as `OnSyncStart`, and the client then: the channel
is open, the handshake complete, and the PDU could be read. -/
def arrived (os : Os ω) (t : Step ω) : Option (UpdateRead × Machine ω) :=
  match t.input with
  | .pdu cmdId c =>
      if cmdId = cmdIdUpdateAppList ∧ t.before.cb.channelClosed = false ∧
          t.before.cb.handShakeComplated = true then
        match readUpdate os c t.before.start with
        | .ok r m => some (r, m)
        | .error _ _ => none
      else none
  | _ => none

def updateOf (os : Os ω) (t : Step ω) : Option UpdateAppListPdu :=
  (arrived os t).map (·.1.update)

/-- The step is an update that returned `S_OK`. -/
def Applied (os : Os ω) (t : Step ω) (u : UpdateAppListPdu) : Prop :=
  t.output.failure = none ∧ updateOf os t = some u

/-- The client at the start of a step, with another heap. -/
def ClientState.startWith (s : ClientState ω) (heap : Heap) : Machine ω := ⟨s.cb, heap, s.world, []⟩

/-! ### Deleting -/

/-- The call deletes a file of an entry of the database. -/
def OfEntry (db : Option FileDB) (action : Action) : Prop :=
  ∃ d, db = some d ∧ ∃ (k : WStr) (e : FileEntry), d[k]? = some e ∧
    ∃ path ∈ [e.linkFilePath, e.iconFilePath], path ≠ [] ∧
      action = .deleteFile .onDeleteAppList path

/-- The sync is what it was, the database has no new entries, and nothing but files of
its entries is deleted. -/
structure Spares (m m' : Machine ω) : Prop where
  sync : m'.cb.spFileDBSync = m.cb.spFileDBSync
  noNewEntries : NoNewEntries m.cb.spFileDB m'.cb.spFileDB
  calls : ∃ calls, m'.log = m.log ++ calls ∧
    ∀ call ∈ calls, OfEntry m.cb.spFileDB call.action

theorem spares_of_log {m m' : Machine ω} (sync : m'.cb.spFileDBSync = m.cb.spFileDBSync)
    (fileDB : m'.cb.spFileDB = m.cb.spFileDB) (log : m'.log = m.log) : Spares m m' :=
  ⟨sync, by rw [fileDB]; exact NoNewEntries.refl _, [], by rw [log, List.append_nil], nofun⟩

theorem Quiet.spares {m m' : Machine ω} (h : Quiet m m') : Spares m m' :=
  spares_of_log (congrArg _ h.cb) (congrArg _ h.cb) h.log

theorem Handshakes.spares {m m' : Machine ω} (h : Handshakes m m') : Spares m m' :=
  spares_of_log (congrArg Session.spFileDBSync h.session) (congrArg Session.spFileDB h.session)
    h.log

/-- Windows without a file, if the path is one. -/
def deletePath (os : Os ω) (path : WStr) (w : ω) : ω :=
  if path ≠ [] then (os.deleteFileW path w).2 else w

theorem deleteIfAny_eq (os : Os ω) (path : WStr) (m : Machine ω) :
    ∃ calls, deleteIfAny os path m =
        .ok () { m with world := deletePath os path m.world, log := m.log ++ calls } ∧
      ∀ call ∈ calls, path ≠ [] ∧ call.action = .deleteFile .onDeleteAppList path := by
  by_cases any : path ≠ []
  · refine ⟨[⟨.deleteFile .onDeleteAppList path, m.world⟩], ?_, fun call mem => ?_⟩
    · rw [deleteIfAny, deletePath, if_pos any, if_pos any]
      rfl
    · rw [List.mem_singleton.mp mem]
      exact ⟨any, rfl⟩
  · refine ⟨[], ?_, nofun⟩
    rw [deleteIfAny, deletePath, if_neg any, if_neg any, List.append_nil]
    rfl

theorem findFiles_of_succeeded {db : FileDB} {key : WStr} {size : FileDB.FindBuffers}
    (ok : succeeded (db.findFiles key size).1 = true) : (db.findFiles key size).1 = S_OK := by
  have cases : (db.findFiles key size).1 = S_OK ∨ (db.findFiles key size).1 = E_FAIL := by
    rw [FileDB.findFiles]
    repeat' split
    all_goals first | exact Or.inl rfl | exact Or.inr rfl
  rcases cases with found | failed
  · exact found
  · rw [failed] at ok
    cases ok

/-- A delete request that finds no entry changes nothing; one that does deletes its files
and then the entry, and returns `S_OK`. -/
theorem applyDelete_cases (os : Os ω) (d : DeleteAppListPdu) (m : Machine ω) :
    (∃ e, applyDelete os d m = .error e m) ∨
      ∃ db k e calls, m.cb.spFileDB = some db ∧
        (buildFindKey d.appGroup d.appId : Handler ω WStr) m = .ok k m ∧ db[k]? = some e ∧
        applyDelete os d m = .ok ()
          { m with
            cb := { m.cb with spFileDB := some (db.onFileRemoved k).2 }
            world := deletePath os e.iconFilePath (deletePath os e.linkFilePath m.world)
            log := m.log ++ calls } ∧
        ∀ call ∈ calls, ∃ path ∈ [e.linkFilePath, e.iconFilePath], path ≠ [] ∧
          call.action = .deleteFile .onDeleteAppList path := by
  have key : Guarantees Eq (buildFindKey d.appGroup d.appId : Handler ω WStr) :=
    guarantees_buildFindKey _ _
  cases built : (buildFindKey d.appGroup d.appId : Handler ω WStr) m with
  | error e m₁ =>
      cases key.of_error built
      exact Or.inl ⟨e, bind_of_error built⟩
  | ok k m₁ =>
      cases key.of_ok built
      rw [applyDelete, bind_of_ok built, fileDB, bind_assoc, members_bind]
      cases there : m.cb.spFileDB with
      | none => exact Or.inl ⟨_, rfl⟩
      | some db =>
          rw [pure_bind_apply, require_bind]
          split
          · rename_i found
            obtain ⟨e, entry, link, icon⟩ :=
              FileDB.entry_of_findFiles_both rfl rfl (findFiles_of_succeeded found)
            obtain ⟨calls, linkRun, linkCalls⟩ := deleteIfAny_eq os e.linkFilePath m
            obtain ⟨calls', iconRun, iconCalls⟩ := deleteIfAny_eq os e.iconFilePath
              { m with world := deletePath os e.linkFilePath m.world, log := m.log ++ calls }
            rw [link, icon, bind_of_ok linkRun, bind_of_ok iconRun]
            refine Or.inr ⟨db, k, e, calls ++ calls', rfl, rfl, entry, ?_, fun call mem => ?_⟩
            · rw [← List.append_assoc]
              rfl
            · rcases List.mem_append.mp mem with first | second
              · exact ⟨_, List.mem_cons_self, linkCalls call first⟩
              · exact ⟨_, List.mem_cons_of_mem _ List.mem_cons_self, iconCalls call second⟩
          · exact Or.inl ⟨_, rfl⟩

theorem spares_applyDelete (os : Os ω) (d : DeleteAppListPdu) (m : Machine ω) :
    Spares m (final (applyDelete os d m)) := by
  rcases applyDelete_cases os d m with ⟨e, run⟩ | ⟨db, k, e, calls, there, -, entry, run, deletes⟩
  · rw [run]
    exact spares_of_log rfl rfl rfl
  · rw [run]
    refine ⟨rfl, ?_, calls, rfl, fun call mem => ⟨db, there, k, e, entry, deletes call mem⟩⟩
    rintro d' ⟨⟩
    exact ⟨db, there, fun k' e' left => FileDB.entry_of_onFileRemoved left⟩

theorem spares_onDeleteAppList (c : Cursor) (m : Machine ω) :
    Spares m (final (onDeleteAppList os c m)) := by
  rw [onDeleteAppList]
  cases read : readDelete c m with
  | error e m₁ =>
      rw [bind_of_error read]
      rw [readDelete] at read
      split at read <;> cases read
      exact spares_of_log rfl rfl rfl
  | ok r m₁ =>
      rw [bind_of_ok read]
      have same : m₁ = m := by
        rw [readDelete] at read
        split at read <;> cases read
        rfl
      have deleted := spares_applyDelete os r.2 m
      subst same
      cases run : applyDelete os r.2 m₁ with
      | ok u m₂ =>
          rw [run] at deleted
          rw [bind_of_ok run]
          exact deleted
      | error e m₂ =>
          rw [run] at deleted
          rw [bind_of_error run]
          exact deleted

/-- Every command but an update spares what is not the file of an entry. -/
theorem spares_dispatch {cmdId : UInt32} (other : cmdId ≠ cmdIdUpdateAppList) (c : Cursor)
    (m : Machine ω) : Spares m (final (dispatch os cmdId c m)) := by
  by_cases caps : cmdId = cmdIdCaps
  · rw [dispatch, if_pos caps]
    exact (handshakes_onCaps os c m).spares
  rw [dispatch_apply caps]
  split
  · exact spares_of_log rfl rfl rfl
  rw [handle, if_neg other]
  split
  · exact spares_onDeleteAppList c m
  split
  · exact spares_of_log rfl rfl rfl
  split
  · exact (quiet_onAssociateWindowId os c m).spares
  · exact spares_of_log rfl rfl rfl

/-! ### Every step -/

/-- What a step did: an update that returned `S_OK`, one that was read and failed, the
end of the channel, or anything else. -/
inductive Did (os : Os ω) (t : Step ω) : Prop where
  | published {r : UpdateRead} {heap : Heap} {m : Machine ω} (ok : t.output.failure = none)
      (update : arrived os t = some (r, t.before.startWith heap))
      (did : Published os r.update (t.before.startWith heap) m)
      (calls : t.output.calls = m.log) (after : t.after = m.state)
  | rejected {r : UpdateRead} {heap : Heap} {m : Machine ω} (failed : t.output.failure ≠ none)
      (update : arrived os t = some (r, t.before.startWith heap))
      (did : Rejected os r.update (t.before.startWith heap) m)
      (calls : t.output.calls = m.log) (after : t.after = m.state)
  | closed (input : t.input = .close) (calls : t.output.calls = [])
      (sync : t.after.cb.spFileDBSync = none)
      (noNewEntries : NoNewEntries t.before.cb.spFileDB t.after.cb.spFileDB)
  | spared {m : Machine ω} (input : t.input ≠ .close) (noUpdate : arrived os t = none)
      (did : Spares t.before.start m) (calls : t.output.calls = m.log) (after : t.after = m.state)

/-- The end of the channel drops the sync and both databases, and makes no call. -/
theorem did_close (os : Os ω) (s : ClientState ω) : Did os (Runs.take (step os) s .close) := by
  obtain ⟨calls, after⟩ := step_close os s
  refine Did.closed rfl calls (congrArg (·.cb.spFileDBSync) after) fun db' there => ?_
  cases (congrArg (·.cb.spFileDB) after).symm.trans there

/-- What became of an update: it could not be read, it was applied, or it was refused. -/
inductive UpdateTaken (os : Os ω) (t : Step ω) : Prop where
  | unread {e : Failure} {heap : Heap} (update : arrived os t = none)
      (failed : t.output.failure = some e) (calls : t.output.calls = [])
      (after : t.after = (t.before.startWith heap).state)
  | applied {r : UpdateRead} {heap : Heap} {m : Machine ω}
      (update : arrived os t = some (r, t.before.startWith heap))
      (run : applyUpdate os r.update r.icon (t.before.startWith heap) = .ok () m)
      (ok : t.output.failure = none) (calls : t.output.calls = m.log) (after : t.after = m.state)
  | refused {r : UpdateRead} {heap : Heap} {e : Failure} {m : Machine ω}
      (update : arrived os t = some (r, t.before.startWith heap))
      (run : applyUpdate os r.update r.icon (t.before.startWith heap) = .error e m)
      (failed : t.output.failure = some e) (calls : t.output.calls = m.log)
      (after : t.after = m.state)

theorem updateTaken (s : ClientState ω) (c : Cursor) (isOpen : s.cb.channelClosed = false)
    (handshake : s.cb.handShakeComplated = true) :
    UpdateTaken os (Runs.take (step os) s (.pdu cmdIdUpdateAppList c)) := by
  have run : dispatch os cmdIdUpdateAppList c s.start = onUpdateAppList os c s.start := by
    rw [dispatch_handshaken (by decide) handshake, handle, if_pos rfl]
  have onlyHeap := reads_only_heap os c s.start
  cases read : readUpdate os c s.start with
  | error e m =>
      rw [read] at onlyHeap
      have stepped := step_of_error isOpen (run.trans (bind_of_error read))
      refine @UpdateTaken.unread _ _ _ e m.heap ?_ (congrArg (·.1.failure) stepped) ?_ ?_
      · simp only [arrived, Runs.take, isOpen, handshake, and_self, if_true, read]
      · exact (congrArg (·.1.calls) stepped).trans (congrArg Machine.log onlyHeap)
      · exact (congrArg Prod.snd stepped).trans (congrArg Machine.state onlyHeap)
  | ok r m =>
      have here : arrived os (Runs.take (step os) s (.pdu cmdIdUpdateAppList c)) =
          some (r, m) := by
        simp only [arrived, Runs.take, isOpen, handshake, and_self, if_true, read]
      rw [read] at onlyHeap
      have start : m = s.startWith m.heap := onlyHeap
      cases applied : applyUpdate os r.update r.icon m with
      | ok _ m' =>
          have stepped := step_of_ok isOpen
            (run.trans ((bind_of_ok read).trans (bind_of_ok applied)))
          rw [start] at here applied
          exact UpdateTaken.applied here applied (congrArg (·.1.failure) stepped)
            (congrArg (·.1.calls) stepped) (congrArg Prod.snd stepped)
      | error e m' =>
          have stepped := step_of_error isOpen
            (run.trans ((bind_of_ok read).trans (bind_of_error applied)))
          rw [start] at here applied
          exact UpdateTaken.refused here applied (congrArg (·.1.failure) stepped)
            (congrArg (·.1.calls) stepped) (congrArg Prod.snd stepped)

theorem did_update (s : ClientState ω) (c : Cursor) (isOpen : s.cb.channelClosed = false)
    (handshake : s.cb.handShakeComplated = true) :
    Did os (Runs.take (step os) s (.pdu cmdIdUpdateAppList c)) := by
  cases updateTaken s c isOpen handshake with
  | @unread e heap update failed calls after =>
      exact Did.spared (m := s.startWith heap) (fun isClose => by cases isClose) update
        (spares_of_log rfl rfl rfl) calls after
  | applied update run ok calls after =>
      exact Did.published ok update (published_of_applyUpdate run) calls after
  | refused update run failed calls after =>
      refine Did.rejected (fun ok => ?_) update (rejected_of_applyUpdate run) calls after
      cases failed.symm.trans ok

/-- Every step did one of these. -/
theorem did_of_taken {t : Step ω} (taken : Runs.Taken (step os) t) : Did os t := by
  rw [taken.eq_take]
  set s := t.before
  cases t.input with
  | world w =>
      exact Did.spared (m := { s.start with world := w }) nofun rfl
        (spares_of_log rfl rfl rfl) rfl rfl
  | close => exact did_close os s
  | pdu cmdId c =>
      cases closed : s.cb.channelClosed with
      | true =>
          have stepped : step os s (.pdu cmdId c) = (⟨none, c, []⟩, s) := step_of_closed closed
          refine Did.spared (m := s.start) nofun (if_neg fun h => ?_) (spares_of_log rfl rfl rfl)
            (congrArg (·.1.calls) stepped) (congrArg Prod.snd stepped)
          exact absurd (closed.symm.trans h.2.1) (by decide)
      | false =>
          by_cases update : cmdId = cmdIdUpdateAppList ∧ s.cb.handShakeComplated = true
          · obtain ⟨rfl, handshake⟩ := update
            exact did_update s c closed handshake
          · have spares : Spares s.start (final (dispatch os cmdId c s.start)) := by
              by_cases other : cmdId = cmdIdUpdateAppList
              · subst other
                rw [dispatch_apply (by decide), if_pos]
                · exact spares_of_log rfl rfl rfl
                · exact Bool.eq_false_iff.mpr fun on => update ⟨rfl, on⟩
              · exact spares_dispatch other c s.start
            obtain ⟨calls, after⟩ := runHandler_eq (dispatch os cmdId c) c s
            rw [← step_of_open closed] at calls after
            exact Did.spared nofun (if_neg fun h => update ⟨h.1, h.2.2⟩) spares calls after

/-! ### Every call -/

/-- Where a call of a step comes from: the walk of a sync that starts, the files of an
update that returned `S_OK`, an entry that is deleted, or the sweep of a sync that
ends. -/
inductive CallOf (os : Os ω) (t : Step ω) (call : Call ω) : Prop where
  | walk (made : WalkCall os ((os.listing t.before.world t.before.cb.appMenuPath).lnkFiles
      t.before.cb.appMenuPath) call)
  | icon {u : UpdateAppListPdu} {done : Bool} (applied : Applied os t u) (plain : u.PlainNames)
      (flagged : has u.flags fieldIcon = true)
      (action : call.action = .createIconFile (iconPathOf t.before.cb u) done)
  | link {u : UpdateAppListPdu} {done : Bool} (applied : Applied os t u) (plain : u.PlainNames)
      (action : call.action = .createShellLink (linkPathOf t.before.cb u) done)
  | entry (ofEntry : OfEntry t.before.cb.spFileDB call.action)
  | sweep {fileIds : List WStr} {w : ω} (made : call ∈ (Client.sweep os fileIds w).1)
      (whole : (Client.sweep os fileIds w).1 ⊆ t.output.calls)

theorem callOf_of_mem {t : Step ω} (taken : Runs.Taken (step os) t) {call : Call ω}
    (mem : call ∈ t.output.calls) : CallOf os t call := by
  cases did_of_taken taken with
  | rejected failed update did calls after =>
      rw [calls] at mem
      rcases did.left with ⟨-, -, -, log⟩ | ⟨-, -, log⟩
      · rw [log] at mem
        cases mem
      · rw [log] at mem
        exact CallOf.walk (walkCall_of_mem_startCalls mem)
  | closed input calls sync noNewEntries =>
      rw [calls] at mem
      cases mem
  | spared input noUpdate did calls after =>
      obtain ⟨made, log, ofEntry⟩ := did.calls
      rw [calls, log] at mem
      exact CallOf.entry (ofEntry call mem)
  | published ok update did calls after =>
      obtain ⟨db, hasIcon, files, w, before, filesWritten, rfl⟩ := did.left
      have applied : Applied os t _ := ⟨ok, by rw [updateOf, update]; rfl⟩
      rw [calls] at mem
      rcases mem_log_settled mem with inFront | ⟨fileIds, w', made, whole⟩
      · rcases List.mem_append.mp inFront with start | file
        · exact CallOf.walk (walkCall_of_mem_startCalls start)
        · rcases filesWritten.action_of_mem file with ⟨icon, action⟩ | ⟨done, action⟩
          · exact CallOf.icon applied did.plain icon action
          · exact CallOf.link applied did.plain action
      · exact CallOf.sweep made (by rw [calls]; exact whole)

/-- A folder is found empty right before it is removed. -/
theorem empty_of_removed {t : Step ω} (taken : Runs.Taken (step os) t) {call : Call ω}
    (mem : call ∈ t.output.calls) {caller : Caller} {dir : WStr}
    (action : call.action = .removeDirectory caller dir) :
    os.pathIsDirectoryEmptyW call.world dir = true := by
  cases callOf_of_mem taken mem with
  | walk made =>
      rcases made with ⟨link, -, other⟩ | ⟨dir', same, empty⟩
      · cases action.symm.trans other
      · cases action.symm.trans same
        exact empty
  | icon _ _ _ other => cases action.symm.trans other
  | link _ _ other => cases action.symm.trans other
  | entry ofEntry =>
      obtain ⟨db, -, k, e, -, path, -, -, other⟩ := ofEntry
      cases action.symm.trans other
  | sweep made whole =>
      obtain ⟨fileId, -, other | ⟨dir', -, same, empty⟩⟩ := mem_sweep made
      · cases action.symm.trans other
      · cases action.symm.trans same
        exact empty

/-- The sweep removes the folder of a file it deleted. -/
theorem parent_of_removed {t : Step ω} (taken : Runs.Taken (step os) t) {call : Call ω}
    (mem : call ∈ t.output.calls) {dir : WStr}
    (action : call.action = .removeDirectory .deleteAllFileIdFiles dir) :
    ∃ fileId ∈ swept t.output.calls, parentFolder fileId = some dir := by
  cases callOf_of_mem taken mem with
  | walk made =>
      rcases made with ⟨link, -, other⟩ | ⟨dir', other, -⟩ <;> cases action.symm.trans other
  | icon _ _ _ other => cases action.symm.trans other
  | link _ _ other => cases action.symm.trans other
  | entry ofEntry =>
      obtain ⟨db, -, k, e, -, path, -, -, other⟩ := ofEntry
      cases action.symm.trans other
  | @sweep fileIds w made whole =>
      obtain ⟨fileId, deleted, other | ⟨dir', parent, same, -⟩⟩ := mem_sweep made
      · cases action.symm.trans other
      · cases action.symm.trans same
        refine ⟨fileId, ?_, parent⟩
        have inSwept : fileId ∈ swept (Client.sweep os fileIds w).1 := by
          rw [swept_sweep]
          exact deleted
        obtain ⟨call', inSweep, path⟩ := List.mem_flatMap.mp inSwept
        exact List.mem_flatMap.mpr ⟨call', whole inSweep, path⟩

end Wslg.Client
