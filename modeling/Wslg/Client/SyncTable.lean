/-
The table of applications over a sync.

A sync keeps its books in two databases. The one of the sync has paths, and what is
left of it is deleted in the end; the one of the channel has applications, and the
sync leaves it as it is. So an application that was registered before a sync is
registered after it, unless a delete request took it out (`Carries`), and the table
follows the sync exactly when every application it had is accounted for in between.
-/

import Wslg.Client.Replacement
import Wslg.Client.SyncRun

namespace Wslg.Client

open Wslg.Protocol Wslg.StateExcept

variable {ω : Type} {os : Os ω}

/-! ### Applications that are reported -/

/-- One of the steps is an update of this key that returned `S_OK`. -/
def ReportedKey (os : Os ω) (ts : List (Step ω)) (k : WStr) : Prop :=
  ∃ t ∈ ts, ∃ u, Applied os t u ∧ keyOf u = k

/-- One of the steps is a delete request for this key that returned `S_OK`. -/
def DeletedKey (ts : List (Step ω)) (k : WStr) : Prop :=
  ∃ t ∈ ts, ∃ d, Deleted t d ∧ d.name.key = k

theorem reportedKey_cons {t : Step ω} {ts : List (Step ω)} {k : WStr} :
    ReportedKey os (t :: ts) k ↔ ReportedKey os [t] k ∨ ReportedKey os ts k := by
  simp [ReportedKey]

theorem reportedKey_append {ts ts' : List (Step ω)} {k : WStr} :
    ReportedKey os (ts ++ ts') k ↔ ReportedKey os ts k ∨ ReportedKey os ts' k := by
  simp [ReportedKey, or_and_right, exists_or]

theorem deletedKey_cons {t : Step ω} {ts : List (Step ω)} {k : WStr} :
    DeletedKey (t :: ts) k ↔ DeletedKey [t] k ∨ DeletedKey ts k := by
  simp [DeletedKey]

/-! ### The keys of the table -/

theorem FileDB.mem_of_findFiles {db : FileDB} {k : WStr} {size : FileDB.FindBuffers}
    (found : (db.findFiles k size).1 = S_OK) : k ∈ db.fileIds := by
  obtain ⟨e, entry, -⟩ := FileDB.entry_of_findFiles found
  exact FileDB.mem_fileIds.mpr ⟨e, entry⟩

/-- A key of the table is found when no string is asked for. -/
theorem FileDB.findFiles_of_mem {db : FileDB} {k : WStr} (mem : k ∈ db.fileIds) :
    (db.findFiles k {}).1 = S_OK := by
  obtain ⟨e, entry⟩ := FileDB.mem_fileIds.mp mem
  simp only [FileDB.findFiles, entry, FileDB.copyOut]

/-- Registration adds its key and takes none away. -/
theorem mem_fileIds_registered {cb : Callback} {db : FileDB} {p : Prepared} {k : WStr} :
    k ∈ (registered cb db p).2.fileIds ↔ k = p.key ∨ k ∈ db.fileIds := by
  cases entry : db[p.key]? with
  | some e =>
      rw [FileDB.mem_fileIds, FileDB.mem_fileIds, registered]
      simp only [(FileDB.onFileAdded_present entry).1]
      refine ⟨Or.inr, fun mem => mem.elim ?_ id⟩
      rintro rfl
      exact ⟨e, entry⟩
  | none =>
      rw [FileDB.mem_fileIds, FileDB.mem_fileIds, registered]
      simp only [FileDB.onFileAdded_new entry]
      by_cases same : k = p.key
      · simp [same]
      · simp [same]

/-- What is in the table behind some steps: what they reported, and what was there
before them and is not deleted. -/
structure Carries (os : Os ω) (ts : List (Step ω)) (db db' : FileDB) : Prop where
  back : ∀ k ∈ db'.fileIds, ReportedKey os ts k ∨ k ∈ db.fileIds ∧ ¬ DeletedKey ts k
  forth : ∀ k ∈ db.fileIds, ¬ DeletedKey ts k → k ∈ db'.fileIds

/-- One step. -/
theorem carries_of_taken {t : Step ω} (taken : Runs.Taken (step os) t) {db' : FileDB}
    (after : t.after.cb.spFileDB = some db') :
    ∃ db, t.before.cb.spFileDB = some db ∧ Carries os [t] db db' := by
  cases books_of_taken taken with
  | @updated u db applied before ok after_ =>
      cases after.symm.trans after_
      have noDelete : ∀ k, ¬ DeletedKey [t] k := by
        rintro k ⟨t', mem, d, deleted, -⟩
        rw [List.mem_singleton.mp mem] at deleted
        cases (updateOf_of_deleteOf deleted.2).symm.trans applied.2
      refine ⟨db, before, fun k mem => ?_, fun k mem _ => mem_fileIds_registered.mpr (Or.inr mem)⟩
      rcases mem_fileIds_registered.mp mem with rfl | old
      · exact Or.inl ⟨t, List.mem_singleton_self t, u, applied, rfl⟩
      · exact Or.inr ⟨old, noDelete k⟩
  | @deleted d db e isDeleted before entry after_ world =>
      cases after.symm.trans after_
      refine ⟨db, before, fun k mem => ?_, fun k mem kept => ?_⟩
      · obtain ⟨other, old⟩ := FileDB.mem_fileIds_onFileRemoved.mp mem
        refine Or.inr ⟨old, ?_⟩
        rintro ⟨t', mem', d', deleted, same⟩
        rw [List.mem_singleton.mp mem'] at deleted
        cases isDeleted.2.symm.trans deleted.2
        exact other same.symm
      · refine FileDB.mem_fileIds_onFileRemoved.mpr ⟨?_, mem⟩
        rintro rfl
        exact kept ⟨t, List.mem_singleton_self t, d, isDeleted, rfl⟩
  | kept noUpdate noDelete entries =>
      obtain ⟨db, before, same⟩ := entries db' after
      have sameKeys : ∀ k, k ∈ db'.fileIds ↔ k ∈ db.fileIds := fun k => by
        rw [FileDB.mem_fileIds, FileDB.mem_fileIds, same]
      refine ⟨db, before, fun k mem => Or.inr ⟨(sameKeys k).mp mem, ?_⟩,
        fun k mem _ => (sameKeys k).mpr mem⟩
      rintro ⟨t', mem', d, deleted, -⟩
      rw [List.mem_singleton.mp mem'] at deleted
      exact noDelete d deleted

/-- One more step in front. -/
theorem Carries.cons {t : Step ω} {ts : List (Step ω)} {db db₁ db' : FileDB}
    (first : Carries os [t] db db₁) (rest : Carries os ts db₁ db') :
    Carries os (t :: ts) db db' := by
  constructor
  · intro k mem
    rw [reportedKey_cons, deletedKey_cons, not_or]
    rcases rest.back k mem with reported | ⟨between, kept⟩
    · exact Or.inl (Or.inr reported)
    · rcases first.back k between with reported | ⟨old, kept₁⟩
      · exact Or.inl (Or.inl reported)
      · exact Or.inr ⟨old, kept₁, kept⟩
  · intro k mem kept
    rw [deletedKey_cons, not_or] at kept
    exact rest.forth k (first.forth k mem kept.1) kept.2

/-- A whole run. -/
theorem carries_finish {s : ClientState ω} {es : List (Event ω)} {db' : FileDB}
    (after : (Runs.finish (step os) s es).cb.spFileDB = some db') :
    ∃ db, s.cb.spFileDB = some db ∧ Carries os (Runs.transitions (step os) s es) db db' := by
  induction es generalizing s with
  | nil => exact ⟨db', after, fun k mem => Or.inr ⟨mem, by simp [Runs.transitions, DeletedKey]⟩,
      fun k mem _ => mem⟩
  | cons e es ih =>
      obtain ⟨db₁, between, rest⟩ := ih after
      obtain ⟨db, before, first⟩ := carries_of_taken (Runs.taken_take s e) between
      exact ⟨db, before, first.cons rest⟩

/-! ### An open channel has its table -/

/-- Whether there is a table, which is all that registering and deleting keep of it. -/
theorem keepsTable_applyUpdate (os : Os ω) (u : UpdateAppListPdu) (icon : IconData) :
    Guarantees (Keeps (·.spFileDB.isSome)) (applyUpdate os u icon) := by
  intro m
  show (final (applyUpdate os u icon m)).cb.spFileDB.isSome = m.cb.spFileDB.isSome
  cases run : applyUpdate os u icon m with
  | ok r m' =>
      obtain ⟨db, before, -, after⟩ := registered_of_applyUpdate run
      rw [final_ok, before, after]
      rfl
  | error e m' =>
      rw [final_error, (quiet_of_applyUpdate_error run).cb]
      rcases startSync_cases os u.flags m with ⟨-, -, e', start⟩ | ⟨-, start⟩ <;> rw [start] <;> rfl

theorem keepsTable_applyDelete (os : Os ω) (d : DeleteAppListPdu) :
    Guarantees (Keeps (·.spFileDB.isSome)) (applyDelete os d) := by
  intro m
  show (final (applyDelete os d m)).cb.spFileDB.isSome = m.cb.spFileDB.isSome
  cases run : applyDelete os d m with
  | ok r m' =>
      obtain ⟨db, e, before, -, after, -⟩ := applyDelete_eq_ok run
      rw [final_ok, before, after]
      rfl
  | error e m' => rw [final_error, applyDelete_eq_error run]

theorem keepsTable_handle (os : Os ω) (cmdId : UInt32) (c : Cursor) :
    Guarantees (Keeps (·.spFileDB.isSome)) (handle os cmdId c) := by
  have update : Guarantees (Keeps (·.spFileDB.isSome)) (readUpdate os c) := fun m => by
    rw [reads_only_heap os c m]
    exact rfl
  have delete : Guarantees (Keeps (·.spFileDB.isSome)) (readDelete c : Handler ω _) := fun m => by
    rw [readDelete]
    split <;> exact rfl
  rw [handle]
  refine Guarantees.ite ?_ (Guarantees.ite ?_ (Guarantees.ite (Guarantees.pure _)
    (Guarantees.ite ?_ (guarantees_fail _))))
  · exact update.bind fun r => (keepsTable_applyUpdate os _ _).bind fun _ => Guarantees.pure _
  · exact delete.bind fun r => (keepsTable_applyDelete os _).bind fun _ => Guarantees.pure _
  · exact (quiet_onAssociateWindowId os c).weaken fun _ _ h =>
      congrArg (fun cb : Callback => cb.spFileDB.isSome) h.cb

theorem keepsTable_dispatch (os : Os ω) (cmdId : UInt32) (c : Cursor) :
    Guarantees (Keeps (·.spFileDB.isSome)) (dispatch os cmdId c) := by
  rw [dispatch]
  refine Guarantees.ite ?_ (guarantees_members.bind fun _ =>
    Guarantees.ite (guarantees_fail _) (keepsTable_handle os cmdId c))
  exact (handshakes_onCaps os c).weaken fun _ _ h =>
    congrArg (fun session : Session => session.spFileDB.isSome) h.session

/-- While the channel is open, its table is there. -/
def HasTable (s : ClientState ω) : Prop :=
  s.cb.channelClosed = false → s.cb.spFileDB.isSome = true

theorem hasTable_of_taken {t : Step ω} (taken : Runs.Taken (step os) t)
    (before : HasTable t.before) : HasTable t.after := by
  rw [taken.eq_take]
  cases t.input with
  | world w => exact before
  | close =>
      intro isOpen
      cases isOpen.symm.trans (congrArg (·.cb.channelClosed) (step_close os t.before).2)
  | pdu cmdId c =>
      cases closed : t.before.cb.channelClosed with
      | true =>
          rw [show (Runs.take (step os) t.before (.pdu cmdId c)).after = t.before from
            congrArg Prod.snd (step_of_closed closed)]
          exact before
      | false =>
          obtain ⟨-, after⟩ := runHandler_eq (dispatch os cmdId c) c t.before
          rw [← step_of_open closed] at after
          intro _
          have kept := keepsTable_dispatch os cmdId c t.before.start
          exact (congrArg (·.cb.spFileDB.isSome) after).trans (kept.trans (before closed))

theorem hasTable_finish {s : ClientState ω} (start : HasTable s) (es : List (Event ω)) :
    HasTable (Runs.finish (step os) s es) :=
  @Runs.invariant_finish _ _ _ (step os) HasTable (fun _ => True)
    (fun _ taken _ before => hasTable_of_taken taken before) s es start fun _ _ => trivial

/-! ### The start of a sync -/

/-- A step that ends a sync, or has one on behind it, and none before it, starts it. -/
theorem startsSync_of_off {t : Step ω} (taken : Runs.Taken (step os) t)
    (off : t.before.cb.spFileDBSync = none)
    (on : t.after.cb.spFileDBSync.isSome = true ∨ EndsSync os t) : StartsSync os t := by
  have starts : ∀ r heap, arrived os t = some (r, t.before.startWith heap) →
      (has r.update.flags hintSyncStart = true →
        isOk (onSyncStart os (t.before.startWith heap)) = true) →
      (startDB os r.update.flags (t.before.startWith heap)).isSome = true → StartsSync os t := by
    intro r heap update started there
    by_cases asked : has r.update.flags hintSyncStart = true
    · exact ⟨r, _, update, asked, started asked⟩
    · rw [startDB, if_neg asked] at there
      cases (congrArg Option.isSome off).symm.trans there
  cases did_of_taken taken with
  | @published r heap m ok update did calls after =>
      apply starts r heap update did.started
      rcases on with behind | ⟨u, applied, ends⟩
      · obtain ⟨db, hasIcon, files, w, -, -, rfl⟩ := did.left
        rw [after, Machine.state, settled] at behind
        split at behind
        · exact behind
        · rename_i syncDB there
          exact congrArg Option.isSome there
      · obtain rfl := applied.eq_update update
        exact did.inSync (has_or_right _ ends)
  | @rejected r heap m failed update did calls after =>
      rcases on with behind | ⟨u, applied, -⟩
      · rw [after] at behind
        rcases did.left with ⟨-, -, same, -⟩ | ⟨started, same, -⟩
        · cases (congrArg Option.isSome (same.trans off)).symm.trans behind
        · exact starts r heap update started ((congrArg Option.isSome same).symm.trans behind)
      · exact absurd applied.1 failed
  | closed input calls none_ noNewEntries =>
      rcases on with behind | ends
      · cases (congrArg Option.isSome none_).symm.trans behind
      · exact absurd input ends.not_close
  | @spared m input noUpdate did calls after =>
      rcases on with behind | ⟨u, applied, -⟩
      · rw [after] at behind
        cases (congrArg Option.isSome (did.sync.trans off)).symm.trans behind
      · have read := applied.2
        rw [updateOf, noUpdate] at read
        cases read

/-- No sync is on behind a step that ends one or closes the channel. -/
theorem off_of_ends {t : Step ω} (taken : Runs.Taken (step os) t)
    (ended : EndsSync os t ∨ t.input = .close) : t.after.cb.spFileDBSync = none := by
  rcases ended with ends | close
  · cases before : t.before.cb.spFileDBSync with
    | none => exact ((leaves_of_startsSync taken
        (startsSync_of_off taken before (Or.inr ends))).ended ends).1
    | some db => exact ((leaves_of_inSync taken ends.not_close
        ⟨db, before, fun _ => Iff.rfl⟩).ended ends).1
  · have noUpdate : arrived os t = none := by rw [arrived, close]
    cases did_of_taken taken with
    | published ok update => cases noUpdate.symm.trans update
    | rejected failed update => cases noUpdate.symm.trans update
    | closed input calls none_ noNewEntries => exact none_
    | spared input => exact absurd close input

/-- The steps so far end with a stretch that starts a sync and does not end it. -/
def OpenSync (os : Os ω) (ts : List (Step ω)) : Prop :=
  ∃ ts₀ first ts₁, ts = ts₀ ++ first :: ts₁ ∧ StartsSync os first ∧
    ∀ t ∈ first :: ts₁, ¬ EndsSync os t ∧ t.input ≠ .close

/-- While a sync is on, the step that started it is known. -/
theorem openSync_of_on (w : ω) (es : List (Event ω))
    (on : (Runs.finish (step os) (.fresh w) es).cb.spFileDBSync.isSome = true) :
    OpenSync os (Runs.transitions (step os) (.fresh w) es) := by
  refine @Runs.invariant_history _ _ _ (step os)
    (fun ts s => s.cb.spFileDBSync.isSome = true → OpenSync os ts) ?_ (.fresh w) ?_ es on
  · intro ts t taken ih behind
    have goesOn : ¬ EndsSync os t ∧ t.input ≠ .close := by
      apply not_or.mp
      intro ended
      cases (congrArg Option.isSome (off_of_ends taken ended)).symm.trans behind
    cases before : t.before.cb.spFileDBSync with
    | none =>
        refine ⟨ts, t, [], rfl, startsSync_of_off taken before (Or.inl behind), ?_⟩
        rw [List.forall_mem_singleton]
        exact goesOn
    | some db =>
        obtain ⟨ts₀, first, ts₁, rfl, starts, inFront⟩ := ih (by rw [before]; rfl)
        refine ⟨ts₀, first, ts₁ ++ [t], by rw [List.append_assoc]; rfl, starts, fun t' mem => ?_⟩
        rcases List.mem_append.mp (List.cons_append.symm ▸ mem) with old | new
        · exact inFront t' old
        · rw [List.mem_singleton.mp new]
          exact goesOn
  · intro fresh
    cases fresh

/-- Every step of a run that ends a sync ends a stretch that starts it. -/
theorem exists_syncRun {w : ω} {es : List (Event ω)} {ts' ts'' : List (Step ω)} {last : Step ω}
    (split : Runs.transitions (step os) (.fresh w) es = ts' ++ last :: ts'')
    (ends : EndsSync os last) :
    ∃ ts₀ ts first, ts' ++ [last] = ts₀ ++ ts ∧ SyncRun os ts first last := by
  obtain ⟨es₁, es₂, -, rfl, isNext⟩ := Runs.split_transitions split
  have taken : Runs.Taken (step os) last := by
    rw [isNext]
    exact Runs.taken_take _ _
  have whole : Runs.transitions (step os) (.fresh w) es₁ ++ [last] =
      Runs.transitions (step os) (.fresh w) (es₁ ++ [last.input]) := by
    rw [Runs.transitions_append, Runs.transitions_one, ← isNext]
  have isFinish : last.before = Runs.finish (step os) (.fresh w) es₁ :=
    congrArg Runs.Transition.before isNext
  cases before : last.before.cb.spFileDBSync with
  | none =>
      refine ⟨Runs.transitions (step os) (.fresh w) es₁, [last], last, Eq.refl _, ?_⟩
      exact ⟨Runs.transitions_of_append whole.symm, List.head?_cons, List.getLast?_singleton,
        startsSync_of_off taken before (Or.inr ends), ends,
        fun t mem => (List.not_mem_nil mem).elim⟩
  | some db =>
      obtain ⟨ts₀, first, ts₁, prefix_, starts, goesOn⟩ := openSync_of_on w es₁
        (by rw [← isFinish, before]; rfl)
      have parts : Runs.transitions (step os) (.fresh w) es₁ ++ [last] =
          ts₀ ++ (first :: ts₁ ++ [last]) := by rw [prefix_, List.append_assoc]
      refine ⟨ts₀, first :: ts₁ ++ [last], first, parts, ?_, rfl, ?_, starts, ends, ?_⟩
      · exact Runs.transitions_of_append (whole.symm.trans parts)
      · exact List.getLast?_concat
      · rw [List.dropLast_concat]
        exact goesOn

/-! ### The table follows the sync -/

/-- Behind the sync `ts` that `last` ends, every key that is found was reported in it;
and of any other key a later update is accepted, if no update of it was before. -/
structure FollowsSync (os : Os ω) (ts : List (Step ω)) (last : Step ω) : Prop where
  reported : ∀ db, last.after.cb.spFileDB = some db → ∀ k size,
    (db.findFiles k size).1 = S_OK → ReportedKey os ts k
  accepted : ∀ es t r m, t.before = Runs.finish (step os) last.after es →
    TakesUpdate os t r m → WellFormed os m r.update →
    ¬ ReportedKey os (ts ++ Runs.transitions (step os) last.after es) (keyOf r.update) →
    t.output.failure = none

/-- Every application registered when the sync `ts` starts is reported in it or deleted. -/
def Accounted (os : Os ω) (ts : List (Step ω)) (first : Step ω) : Prop :=
  ∀ db, first.before.cb.spFileDB = some db → ∀ k ∈ db.fileIds,
    ReportedKey os ts k ∨ DeletedKey ts k

/-- An update of a key that is not there is accepted. -/
theorem accepted_of_absent {t : Step ω} {r : UpdateRead} {m : Machine ω} {db : FileDB}
    (takes : TakesUpdate os t r m) (wellFormed : WellFormed os m r.update)
    (there : t.before.cb.spFileDB = some db) (absent : keyOf r.update ∉ db.fileIds) :
    t.output.failure = none := by
  have noEntry : db[keyOf r.update]? = none := by
    by_contra some_
    exact absent (FileDB.mem_fileIds.mpr (Option.ne_none_iff_exists'.mp some_))
  rw [takes.failure_eq_none, isOk_applyUpdate r.icon wellFormed (takes.cb ▸ there)]
  simp only [registered, preparedOf, FileDB.onFileAdded, noEntry]
  decide

/-- The table that a sync ends with, and what the sync carried into it. -/
theorem SyncRun.carries {ts : List (Step ω)} {first last : Step ω}
    (sync : SyncRun os ts first last) : ∃ db db', first.before.cb.spFileDB = some db ∧
      last.after.cb.spFileDB = some db' ∧ Carries os ts db db' := by
  have taken := sync.taken (List.mem_of_getLast? sync.getLast)
  have after : ∃ db', last.after.cb.spFileDB = some db' := by
    obtain ⟨u, applied, -⟩ := sync.ends
    cases books_of_taken taken with
    | updated _ _ _ after => exact ⟨_, after⟩
    | deleted isDeleted =>
        cases (updateOf_of_deleteOf isDeleted.2).symm.trans applied.2
    | kept noUpdate => exact absurd applied (noUpdate u)
  obtain ⟨db', after⟩ := after
  obtain ⟨s, es, rfl⟩ := sync.run
  have isFinish : Runs.finish (step os) s es = last.after := by
    rw [Runs.finish_eq_getLast, sync.getLast]
    rfl
  obtain ⟨db, before, carries⟩ := carries_finish ((congrArg (·.cb.spFileDB) isFinish).trans after)
  have isStart : first.before = s := by
    cases es with
    | nil => cases sync.head
    | cons e es => rw [← Option.some.inj sync.head]; rfl
  exact ⟨db, db', by rw [isStart, before], after, carries⟩

/-- A sync that accounts for every application is followed, and no other one. -/
theorem SyncRun.follows_iff {ts : List (Step ω)} {first last : Step ω}
    (sync : SyncRun os ts first last) : FollowsSync os ts last ↔ Accounted os ts first := by
  obtain ⟨db, db', before, after, carries⟩ := sync.carries
  constructor
  · intro follows db₁ before₁ k mem
    cases before.symm.trans before₁
    by_contra unaccounted
    obtain ⟨unreported, undeleted⟩ := not_or.mp unaccounted
    have found := FileDB.findFiles_of_mem (carries.forth k mem undeleted)
    exact unreported (follows.reported db' after k _ found)
  · intro accounted
    have reported : ∀ k ∈ db'.fileIds, ReportedKey os ts k := by
      intro k mem
      rcases carries.back k mem with reported | ⟨old, undeleted⟩
      · exact reported
      · exact (accounted db before k old).resolve_right undeleted
    constructor
    · intro db₁ after₁ k size found
      cases after.symm.trans after₁
      exact reported k (FileDB.mem_of_findFiles found)
    · intro es t r m isNext takes wellFormed unreported
      rw [reportedKey_append, not_or] at unreported
      -- the channel is open at that update, so its table is there
      obtain ⟨c, -, isOpen, -, -⟩ := takes.read
      have hasTable : HasTable t.before := by
        rw [isNext]
        exact hasTable_finish (fun _ => by rw [after]; rfl) es
      obtain ⟨db₁, there⟩ := Option.isSome_iff_exists.mp (hasTable isOpen)
      obtain ⟨db₂, after₂, later⟩ := carries_finish (isNext ▸ there)
      cases after.symm.trans after₂
      apply accepted_of_absent takes wellFormed there
      intro mem
      rcases later.back _ mem with again | ⟨old, -⟩
      · exact unreported.2 again
      · exact unreported.1 (reported _ old)

/-- In every run, a step that ends a sync ends a stretch that starts it, and the table
follows that sync exactly if each application registered before is accounted for. -/
theorem table_follows_sync_iff (os : Os ω) (w : ω) (es : List (Event ω))
    {ts' ts'' : List (Step ω)} {last : Step ω}
    (split : Runs.transitions (step os) (.fresh w) es = ts' ++ last :: ts'')
    (ends : EndsSync os last) :
    (∃ ts₀ ts first, ts' ++ [last] = ts₀ ++ ts ∧ SyncRun os ts first last) ∧
      ∀ ts₀ ts first, ts' ++ [last] = ts₀ ++ ts → SyncRun os ts first last →
        (FollowsSync os ts last ↔ Accounted os ts first) :=
  ⟨exists_syncRun split ends, fun _ _ _ _ sync => sync.follows_iff⟩

/-! ### Two syncs of one update each -/

instance (ts : List (Step ω)) (k : WStr) : Decidable (ReportedKey os ts k) :=
  decidable_of_iff (∃ t ∈ ts, t.output.failure = none ∧ ∃ u ∈ updateOf os t, keyOf u = k)
    ⟨fun ⟨t, mem, ok, u, read, same⟩ => ⟨t, mem, u, ⟨ok, read⟩, same⟩,
      fun ⟨t, mem, u, ⟨ok, read⟩, same⟩ => ⟨t, mem, ok, u, read, same⟩⟩

/-- A sync that consists of one update. -/
def wholeSync (id desc : String) : Event Disk :=
  update (hintSyncStart ||| hintSync ||| hintSyncEnd) id desc

/-- The first sync reports `a` as `A`, and this is the second one. -/
def secondSync (id desc : String) : Step Disk :=
  Runs.take (step diskOs)
    (Runs.finish (step diskOs) (.fresh {}) [caps "U", wholeSync "a" "A"]) (wholeSync id desc)

theorem split_secondSync (id desc : String) :
    Runs.transitions (step diskOs) (.fresh {})
        [caps "U", wholeSync "a" "A", wholeSync id desc] =
      Runs.transitions (step diskOs) (.fresh {}) [caps "U", wholeSync "a" "A"] ++
        secondSync id desc :: [] := rfl

theorem syncRun_secondSync {id desc : String}
    (both : StartsSync diskOs (secondSync id desc) ∧ EndsSync diskOs (secondSync id desc)) :
    SyncRun diskOs [secondSync id desc] (secondSync id desc) (secondSync id desc) :=
  ⟨⟨_, [wholeSync id desc], rfl⟩, List.head?_cons, List.getLast?_singleton, both.1, both.2,
    fun _ mem => (List.not_mem_nil mem).elim⟩

/-- A second sync that reports `a` again is followed. -/
theorem table_follows_sync_iff_again :
    FollowsSync diskOs [secondSync "a" "A"] (secondSync "a" "A") := by
  have both : StartsSync diskOs (secondSync "a" "A") ∧ EndsSync diskOs (secondSync "a" "A") := by
    decide +kernel
  have accounted : Accounted diskOs [secondSync "a" "A"] (secondSync "a" "A") := by
    have all : ∀ db ∈ (secondSync "a" "A").before.cb.spFileDB, ∀ k ∈ db.fileIds,
        ReportedKey diskOs [secondSync "a" "A"] k := by decide +kernel
    exact fun db there k mem => Or.inl (all db there k mem)
  obtain ⟨-, follows⟩ := table_follows_sync_iff diskOs {} _ (split_secondSync "a" "A") both.2
  exact (follows _ _ _ rfl (syncRun_secondSync both)).mpr accounted

/-- A second sync of `b` alone keeps `a` registered, and an update of `a` with another
description is refused. -/
theorem unreported_stays :
    SyncRun diskOs [secondSync "b" "B"] (secondSync "b" "B") (secondSync "b" "B") ∧
    ¬ ReportedKey diskOs [secondSync "b" "B"] (wide "a") ∧
    (∃ db ∈ (secondSync "b" "B").after.cb.spFileDB,
      (db.findFiles (wide "a") wholeBuffers).1 = S_OK) ∧
    (step diskOs (secondSync "b" "B").after (update 0 "a" "C")).1.failure =
      some (.hresult E_FAIL) ∧
    ¬ FollowsSync diskOs [secondSync "b" "B"] (secondSync "b" "B") := by
  have both : StartsSync diskOs (secondSync "b" "B") ∧ EndsSync diskOs (secondSync "b" "B") := by
    decide +kernel
  have unreported : ¬ ReportedKey diskOs [secondSync "b" "B"] (wide "a") := by decide +kernel
  have found : ∃ db ∈ (secondSync "b" "B").after.cb.spFileDB,
      (db.findFiles (wide "a") wholeBuffers).1 = S_OK := by decide +kernel
  refine ⟨syncRun_secondSync both, unreported, found, by decide +kernel, fun follows => ?_⟩
  obtain ⟨db, there, isFound⟩ := found
  exact unreported (follows.reported db there _ _ isFound)

end Wslg.Client
