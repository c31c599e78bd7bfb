/-
A sync over a whole run.

Between the update that starts a sync and the one that ends it anything may happen:
other updates, failing ones, delete requests, a new CAPS, changes of Windows. For the
sync only two things count, the paths its walk found and the paths the updates in
between reported (`Leaves`). One step takes the paths it reports out; the sweep at the
end deletes what is left, each path once (`swept_of_syncRun`).
-/

import Wslg.Client.Steps

namespace Wslg.Client

open Wslg.Protocol Wslg.StateExcept

variable {ω : Type} {os : Os ω}

/-! ### Steps of a sync -/

/-- In this step `OnSyncStart` is called and returns `S_OK`. -/
def StartsSync (os : Os ω) (t : Step ω) : Prop :=
  ∃ r m, arrived os t = some (r, m) ∧ has r.update.flags hintSyncStart = true ∧
    isOk (onSyncStart os m) = true

instance (t : Step ω) : Decidable (StartsSync os t) :=
  decidable_of_iff (∃ a ∈ arrived os t, has a.1.update.flags hintSyncStart = true ∧
      isOk (onSyncStart os a.2) = true)
    ⟨fun ⟨(r, m), here, started⟩ => ⟨r, m, here, started⟩,
      fun ⟨r, m, here, started⟩ => ⟨(r, m), here, started⟩⟩

/-- The step is an update with `HINT_SYNC_END` that returned `S_OK`. -/
def EndsSync (os : Os ω) (t : Step ω) : Prop :=
  ∃ u, Applied os t u ∧ has u.flags hintSyncEnd = true

instance (t : Step ω) : Decidable (EndsSync os t) :=
  decidable_of_iff (t.output.failure = none ∧ ∃ u ∈ updateOf os t,
      has u.flags hintSyncEnd = true)
    ⟨fun ⟨ok, u, read, ends⟩ => ⟨u, ⟨ok, read⟩, ends⟩,
      fun ⟨u, ⟨ok, read⟩, ends⟩ => ⟨ok, u, read, ends⟩⟩

/-- The step is an update with `HINT_SYNC` that returned `S_OK`, and the path is that of
its link, or that of its icon and the icon file was written. -/
def Reported (os : Os ω) (t : Step ω) (path : WStr) : Prop :=
  ∃ u, Applied os t u ∧ has u.flags hintSync = true ∧
    (path = linkPathOf t.before.cb u ∨
      path = iconPathOf t.before.cb u ∧
        ∃ call ∈ t.output.calls, call.action = .createIconFile path true)

/-- A sync is on, and its database has these ids. -/
def InSync (s : ClientState ω) (ids : WStr → Prop) : Prop :=
  ∃ db, s.cb.spFileDBSync = some db ∧ ∀ k, k ∈ db.fileIds ↔ ids k

/-- A step goes on with a sync of these ids, or sweeps it, less what it reports. -/
structure Leaves (os : Os ω) (t : Step ω) (ids : WStr → Prop) : Prop where
  inSync : ¬ EndsSync os t → InSync t.after fun k => ids k ∧ ¬ Reported os t k
  ended : EndsSync os t → t.after.cb.spFileDBSync = none ∧ (swept t.output.calls).Nodup ∧
    ∀ k, k ∈ swept t.output.calls ↔ ids k ∧ ¬ Reported os t k

/-! ### What the calls of a step count for -/

theorem found_append (calls calls' : List (Call ω)) :
    found (calls ++ calls') = found calls ++ found calls' := List.flatMap_append

theorem swept_append (calls calls' : List (Call ω)) :
    swept (calls ++ calls') = swept calls ++ swept calls' := List.flatMap_append

theorem found_sweep (fileIds : List WStr) (w : ω) : found (sweep os fileIds w).1 = [] := by
  refine List.flatMap_eq_nil_iff.mpr fun call mem => ?_
  obtain ⟨fileId, -, action | ⟨dir, -, action, -⟩⟩ := mem_sweep mem <;> rw [action] <;> rfl

/-- The end of a sync finds nothing. -/
theorem found_settled (flags : UInt32) (kept : List WStr) (m : Machine ω) :
    found (settled os flags kept m).log = found m.log := by
  rw [settled]
  split
  · rfl
  · split
    · rw [found_append, found_sweep, List.append_nil]
    · rfl

theorem swept_startCalls (flags : UInt32) (m : Machine ω) : swept (startCalls os flags m) = [] := by
  refine List.flatMap_eq_nil_iff.mpr fun call mem => ?_
  obtain ⟨link, -, action⟩ | ⟨dir, action, -⟩ := walkCall_of_mem_startCalls mem <;>
    rw [action] <;> rfl

section FilesWritten

variable {u : UpdateAppListPdu} {p : Prepared} {hasIcon : Bool} {calls : List (Call ω)}

theorem FilesWritten.found_eq (files : FilesWritten u p hasIcon calls) : found calls = [] := by
  refine List.flatMap_eq_nil_iff.mpr fun call mem => ?_
  obtain ⟨-, action⟩ | ⟨done, action⟩ := files.action_of_mem mem <;> rw [action] <;> rfl

theorem FilesWritten.swept_eq (files : FilesWritten u p hasIcon calls) : swept calls = [] := by
  refine List.flatMap_eq_nil_iff.mpr fun call mem => ?_
  obtain ⟨-, action⟩ | ⟨done, action⟩ := files.action_of_mem mem <;> rw [action] <;> rfl

/-- The icon file is written by a call of its own. -/
theorem FilesWritten.exists_icon (files : FilesWritten u p true calls) :
    ∃ call ∈ calls, call.action = .createIconFile p.iconPath true := by
  have flagged : has u.flags fieldIcon = true := by
    by_contra off
    cases files.noIcon (Bool.eq_false_iff.mpr off)
  obtain ⟨done, actions⟩ := files.actions
  rw [if_pos flagged] at actions
  have mem : Action.createIconFile p.iconPath true ∈ calls.map (·.action) := by
    rw [actions]
    exact List.mem_cons_self
  exact List.mem_map.mp mem

end FilesWritten

/-! ### An update in a sync -/

section Published

variable {t : Step ω} {r : UpdateRead} {heap : Heap}

theorem Applied.eq_update {u : UpdateAppListPdu} (applied : Applied os t u)
    (update : arrived os t = some (r, t.before.startWith heap)) : u = r.update := by
  have read := applied.2
  rw [updateOf, update] at read
  exact (Option.some.inj read).symm

/-- An update takes out of the sync what it reports. -/
theorem mem_keptPaths_iff_reported (ok : t.output.failure = none)
    (update : arrived os t = some (r, t.before.startWith heap)) {hasIcon : Bool} {db : FileDB}
    {w : ω} {files : List (Call ω)} {kept : List WStr}
    (written_ : FilesWritten r.update (preparedOf t.before.cb r.update) hasIcon files)
    (calls : t.output.calls =
      (settled os r.update.flags kept
        (written os r.update (t.before.startWith heap) db w files)).log) (k : WStr) :
    k ∈ keptPaths r.update.flags (preparedOf t.before.cb r.update) hasIcon ↔ Reported os t k := by
  rw [mem_keptPaths]
  constructor
  · rintro ⟨hint, isLink | ⟨rfl, isIcon⟩⟩
    · exact ⟨r.update, ⟨ok, by rw [updateOf, update]; rfl⟩, hint, Or.inl isLink⟩
    · obtain ⟨call, mem, action⟩ := written_.exists_icon
      refine ⟨r.update, ⟨ok, by rw [updateOf, update]; rfl⟩, hint, Or.inr ⟨isIcon, call, ?_, ?_⟩⟩
      · rw [calls]
        exact log_settled (List.mem_append_right _ mem)
      · rw [isIcon]
        exact action
  · rintro ⟨u, applied, hint, reported⟩
    obtain rfl := applied.eq_update update
    refine ⟨hint, reported.imp_right ?_⟩
    rintro ⟨isIcon, call, mem, action⟩
    rw [calls] at mem
    refine ⟨?_, isIcon⟩
    rcases mem_log_settled mem with front | ⟨fileIds, w', inSweep, -⟩
    · rcases List.mem_append.mp front with start | file
      · obtain ⟨link, -, other⟩ | ⟨dir, other, -⟩ := walkCall_of_mem_startCalls start <;>
          cases action.symm.trans other
      · obtain ⟨-, same⟩ | ⟨done, other⟩ := written_.action_of_mem file
        · cases action.symm.trans same
          rfl
        · cases action.symm.trans other
    · obtain ⟨fileId, -, other | ⟨dir, -, other, -⟩⟩ := mem_sweep inSweep <;>
        cases action.symm.trans other

/-- An update that returns `S_OK` in a sync goes on with it or ends it. -/
theorem leaves_of_published {m : Machine ω} (ok : t.output.failure = none)
    (update : arrived os t = some (r, t.before.startWith heap))
    (did : Published os r.update (t.before.startWith heap) m)
    (calls : t.output.calls = m.log) (after : t.after = m.state) {db : FileDB}
    (start : startDB os r.update.flags (t.before.startWith heap) = some db) {ids : WStr → Prop}
    (isIds : ∀ k, k ∈ db.fileIds ↔ ids k) : Leaves os t ids := by
  obtain ⟨_, hasIcon, files, w, -, written_, rfl⟩ := did.left
  have left : ∀ k, k ∈ (db.removeFileIds (keptPaths r.update.flags
      (preparedOf t.before.cb r.update) hasIcon)).fileIds ↔ ids k ∧ ¬ Reported os t k := by
    intro k
    rw [FileDB.mem_removeFileIds, isIds, mem_keptPaths_iff_reported ok update written_ calls]
  constructor
  · intro goesOn
    have off : ¬ has r.update.flags hintSyncEnd = true := fun on =>
      goesOn ⟨r.update, ⟨ok, by rw [updateOf, update]; rfl⟩, on⟩
    rw [settled_of_not_end start off] at after
    rw [after]
    exact ⟨_, rfl, left⟩
  · rintro ⟨u, applied, on⟩
    obtain rfl := applied.eq_update update
    rw [settled_of_end start on] at after calls
    have deleted : swept t.output.calls = (db.removeFileIds (keptPaths r.update.flags
        (preparedOf t.before.cb r.update) hasIcon)).fileIds := by
      rw [calls, swept_append, swept_sweep]
      show swept (_ ++ startCalls os _ _ ++ files) ++ _ = _
      rw [swept_append, written_.swept_eq]
      show swept (startCalls os _ _) ++ [] ++ _ = _
      rw [swept_startCalls]
      rfl
    refine ⟨by rw [after]; rfl, ?_, fun k => ?_⟩
    · rw [deleted]
      exact FileDB.nodup_fileIds _
    · rw [deleted]
      exact left k

end Published

/-! ### One step -/

/-- A step that is no successful update leaves a sync as it is. -/
theorem leaves_of_unapplied {t : Step ω} {ids : WStr → Prop} (unapplied : ∀ u, ¬ Applied os t u)
    (sync : InSync t.after ids) : Leaves os t ids := by
  obtain ⟨db, there, isIds⟩ := sync
  refine ⟨fun _ => ⟨db, there, fun k => (isIds k).trans ⟨fun mem => ⟨mem, ?_⟩, And.left⟩⟩, ?_⟩
  · rintro ⟨u, applied, -⟩
    exact unapplied u applied
  · rintro ⟨u, applied, -⟩
    exact absurd applied (unapplied u)

/-- There is no start while a sync is on. -/
theorem onSyncStart_inSync {m : Machine ω} {db : FileDB} (sync : m.cb.spFileDBSync = some db) :
    isOk (onSyncStart os m) = false := by
  rcases onSyncStart_cases os m with ⟨e, failed⟩ | ⟨off, -⟩
  · rw [failed]
    rfl
  · cases off.symm.trans sync

theorem startDB_inSync {flags : UInt32} {m : Machine ω} {db : FileDB}
    (sync : m.cb.spFileDBSync = some db)
    (started : has flags hintSyncStart = true → isOk (onSyncStart os m) = true) :
    startDB os flags m = some db := by
  rw [startDB, if_neg, sync]
  intro asked
  cases (onSyncStart_inSync sync).symm.trans (started asked)

/-- Whatever a step does while a sync is on, it leaves the sync less what it reports. -/
theorem leaves_of_inSync {t : Step ω} {ids : WStr → Prop} (taken : Runs.Taken (step os) t)
    (stays : t.input ≠ .close) (sync : InSync t.before ids) : Leaves os t ids := by
  obtain ⟨db, there, isIds⟩ := sync
  cases did_of_taken taken with
  | published ok update did calls after =>
      exact leaves_of_published ok update did calls after (startDB_inSync there did.started) isIds
  | rejected failed update did calls after =>
      refine leaves_of_unapplied (fun u applied => failed applied.1) ⟨db, ?_, isIds⟩
      rw [after]
      rcases did.left with ⟨-, -, same, -⟩ | ⟨started, same, -⟩
      · exact same.trans there
      · exact same.trans (startDB_inSync there started)
  | closed input calls off noNewEntries => exact absurd input stays
  | spared input noUpdate did calls after =>
      refine leaves_of_unapplied (fun u applied => ?_) ⟨db, ?_, isIds⟩
      · have read := applied.2
        rw [updateOf, noUpdate] at read
        cases read
      · rw [after]
        exact did.sync.trans there

/-- What the step that starts a sync found is what its walk found. -/
theorem found_of_startsSync {t : Step ω} (taken : Runs.Taken (step os) t)
    (starts : StartsSync os t) :
    found t.output.calls = found (startWalk os t.before.start).1 := by
  obtain ⟨r, m, here, asked, started⟩ := starts
  have walked : ∀ heap, startCalls os r.update.flags (t.before.startWith heap) =
      (startWalk os t.before.start).1 := fun _ => if_pos asked
  cases did_of_taken taken with
  | published ok update did calls after =>
      cases here.symm.trans update
      obtain ⟨_, hasIcon, files, w, -, written_, rfl⟩ := did.left
      rw [calls, found_settled]
      show found (startCalls os _ _ ++ files) = _
      rw [found_append, written_.found_eq, List.append_nil, walked]
  | rejected failed update did calls after =>
      cases here.symm.trans update
      rcases did.left with ⟨-, unstarted, -⟩ | ⟨-, -, log⟩
      · cases unstarted.symm.trans started
      · rw [calls, log]
        show found (startCalls os _ _) = _
        rw [walked]
  | closed input calls off noNewEntries =>
      rw [arrived, input] at here
      cases here
  | spared input noUpdate did calls after => cases noUpdate.symm.trans here

/-- The step that starts a sync leaves what it found, less what it reports. -/
theorem leaves_of_startsSync {t : Step ω} (taken : Runs.Taken (step os) t)
    (starts : StartsSync os t) : Leaves os t (· ∈ found t.output.calls) := by
  have walked := found_of_startsSync taken starts
  obtain ⟨r, m, here, asked, started⟩ := starts
  have start : ∀ heap, startDB os r.update.flags (t.before.startWith heap) =
      some (FileDB.insertFileIds ∅ (found t.output.calls)) := by
    intro heap
    rw [startDB, if_pos asked, walked]
    rfl
  have isIds : ∀ k, k ∈ (FileDB.insertFileIds ∅ (found t.output.calls)).fileIds ↔
      k ∈ found t.output.calls := by
    intro k
    rw [FileDB.mem_insertFileIds]
    exact or_iff_left (by rw [Std.TreeMap.mem_keys]; exact Std.TreeMap.not_mem_emptyc)
  cases did_of_taken taken with
  | published ok update did calls after =>
      cases here.symm.trans update
      exact leaves_of_published ok update did calls after (start _) isIds
  | rejected failed update did calls after =>
      cases here.symm.trans update
      refine leaves_of_unapplied (fun u applied => failed applied.1) ⟨_, ?_, isIds⟩
      rcases did.left with ⟨-, unstarted, -⟩ | ⟨-, sync, -⟩
      · cases unstarted.symm.trans started
      · rw [after]
        exact sync.trans (start _)
  | closed input calls off noNewEntries =>
      rw [arrived, input] at here
      cases here
  | spared input noUpdate did calls after => cases noUpdate.symm.trans here

/-! ### Whole syncs -/

/-- A stretch of a run from the step that starts a sync to the first one that ends it;
the channel stays open in between. -/
structure SyncRun (os : Os ω) (ts : List (Step ω)) (first last : Step ω) : Prop where
  run : ∃ s es, ts = Runs.transitions (step os) s es
  head : ts.head? = some first
  getLast : ts.getLast? = some last
  starts : StartsSync os first
  ends : EndsSync os last
  goesOn : ∀ t ∈ ts.dropLast, ¬ EndsSync os t ∧ t.input ≠ .close

theorem SyncRun.taken {ts : List (Step ω)} {first last t : Step ω}
    (sync : SyncRun os ts first last) (mem : t ∈ ts) : Runs.Taken (step os) t := by
  obtain ⟨s, es, rfl⟩ := sync.run
  exact Runs.taken_of_mem mem

theorem EndsSync.not_close {t : Step ω} (ends : EndsSync os t) : t.input ≠ .close := by
  obtain ⟨u, ⟨-, read⟩, -⟩ := ends
  intro close
  rw [updateOf, arrived, close] at read
  cases read

/-- What the step that ends a sync deletes: the ids at the start of the stretch, less
what its steps reported. -/
structure Swept (os : Os ω) (ts : List (Step ω)) (last : Step ω) (ids : WStr → Prop) : Prop where
  nodup : (swept last.output.calls).Nodup
  mem : ∀ k, k ∈ swept last.output.calls ↔ ids k ∧ ∀ t ∈ ts, ¬ Reported os t k
  off : last.after.cb.spFileDBSync = none

theorem Leaves.swept {t : Step ω} {ids : WStr → Prop} (leaves : Leaves os t ids)
    (ends : EndsSync os t) : Swept os [t] t ids := by
  obtain ⟨off, nodup, mem⟩ := leaves.ended ends
  exact ⟨nodup, fun k => by rw [mem, List.forall_mem_singleton], off⟩

/-- One more step in front of a stretch. -/
theorem Swept.cons {ts : List (Step ω)} {t last : Step ω} {ids : WStr → Prop}
    (rest : Swept os ts last fun k => ids k ∧ ¬ Reported os t k) : Swept os (t :: ts) last ids := by
  refine ⟨rest.nodup, fun k => ?_, rest.off⟩
  rw [rest.mem, List.forall_mem_cons, and_assoc]

/-- From a state with a sync on. -/
theorem swept_of_inSync {s : ClientState ω} {es : List (Event ω)} {ids : WStr → Prop}
    {last : Step ω} (sync : InSync s ids)
    (getLast : (Runs.transitions (step os) s es).getLast? = some last) (ends : EndsSync os last)
    (goesOn : ∀ t ∈ (Runs.transitions (step os) s es).dropLast,
      ¬ EndsSync os t ∧ t.input ≠ .close) :
    Swept os (Runs.transitions (step os) s es) last ids := by
  induction es generalizing s ids with
  | nil => cases getLast
  | cons e es ih =>
      cases es with
      | nil =>
          cases getLast
          exact (leaves_of_inSync (Runs.taken_take s e) ends.not_close sync).swept ends
      | cons e' es =>
          obtain ⟨open_, stays⟩ := goesOn _ List.mem_cons_self
          have leaves := leaves_of_inSync (Runs.taken_take s e) stays sync
          refine (ih (leaves.inSync open_) ?_ fun t mem => goesOn t ?_).cons
          · exact (List.getLast?_cons_cons).symm.trans getLast
          · exact List.mem_cons_of_mem _ mem

/-- The sweep deletes what the walk found, less what the updates of the stretch
reported, each path once. -/
theorem swept_of_syncRun {ts : List (Step ω)} {first last : Step ω}
    (sync : SyncRun os ts first last) : Swept os ts last (· ∈ found first.output.calls) := by
  obtain ⟨s, es, rfl⟩ := sync.run
  cases es with
  | nil => cases sync.head
  | cons e es =>
      obtain rfl : Runs.take (step os) s e = first := Option.some.inj sync.head
      have leaves := leaves_of_startsSync (Runs.taken_take s e) sync.starts
      cases es with
      | nil =>
          obtain rfl : Runs.take (step os) s e = last := Option.some.inj sync.getLast
          exact leaves.swept sync.ends
      | cons e' es =>
          have goesOn : ∀ t ∈ (Runs.transitions (step os) (step os s e).2 (e' :: es)).dropLast,
              ¬ EndsSync os t ∧ t.input ≠ .close :=
            fun t mem => sync.goesOn t (List.mem_cons_of_mem _ mem)
          refine (swept_of_inSync (leaves.inSync (sync.goesOn _ List.mem_cons_self).1) ?_
            sync.ends goesOn).cons
          exact (List.getLast?_cons_cons).symm.trans sync.getLast

end Wslg.Client
