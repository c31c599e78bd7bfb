/-
What an update that fails leaves behind.

`OnUpdateAppList` starts a sync before it looks at anything else of the PDU, and
no failure behind that takes the sync back. The failures are many, but each comes
with the members as they were after `startSync` (`quiet_of_applyUpdate_error`): the
checks and the paths touch no member, and a registration that fails registers
nothing. So a failed update leaves no mark exactly if it has started no sync.
-/

import Wslg.Client.Disk
import Wslg.Client.Publish

namespace Wslg.Client

open Wslg.LittleEndian Wslg.Protocol Wslg.StateExcept

variable {ω : Type} {os : Os ω}

/-! ### Which updates start a sync -/

theorem isOk_onSyncStart (os : Os ω) (m : Machine ω) :
    isOk (onSyncStart os m) = true ↔
      m.cb.spFileDBSync = none ∧ os.createFileDB m.world = .ok () := by
  constructor
  · intro ok
    obtain ⟨u, m', run⟩ := exists_of_isOk ok
    rw [onSyncStart, members_bind] at run
    obtain ⟨_, m₁, running, run⟩ := bind_eq_ok.mp run
    obtain ⟨none_, rfl⟩ := require_eq_ok.mp running
    rw [query_bind] at run
    obtain ⟨_, m₂, created, -⟩ := bind_eq_ok.mp run
    exact ⟨Option.isNone_iff_eq_none.mp none_, (check_eq_ok.mp created).1⟩
  · rintro ⟨none_, created⟩
    simp only [onSyncStart, members_bind, none_, Option.isNone_none, require_bind, if_true,
      query_bind, created, check_bind, setMembers_bind, addAllFilesAsFileIdAt]
    rw [addAllSubFolderFiles_eq _ _ rfl]
    rfl

/-- The PDU can be read and asks for a sync, none is running, and one can be created. -/
def OpensSync (os : Os ω) (s : ClientState ω) (c : Cursor) : Prop :=
  ∃ r m, readUpdate os c s.start = .ok r m ∧ has r.update.flags hintSyncStart = true ∧
    s.cb.spFileDBSync = none ∧ os.createFileDB s.world = .ok ()

/-- The members a failed update leaves. -/
theorem cb_of_onUpdateAppList_error {c : Cursor} {s : ClientState ω} {m : Machine ω} {e : Failure}
    (run : onUpdateAppList os c s.start = .error e m) :
    (OpensSync os s c ∧ m.cb.spFileDBSync.isSome = true) ∨
      (¬ OpensSync os s c ∧ m.cb = s.cb) := by
  have onlyHeap := reads_only_heap os c s.start
  rcases bind_eq_error.mp run with unread | ⟨r, m₁, read, run⟩
  · rw [unread] at onlyHeap
    refine Or.inr ⟨?_, congrArg (·.cb) onlyHeap⟩
    rintro ⟨r, m₁, read, -⟩
    cases unread.symm.trans read
  rw [read, final_ok] at onlyHeap
  have cb₁ : m₁.cb = s.cb := congrArg (·.cb) onlyHeap
  have world₁ : m₁.world = s.world := congrArg (·.world) onlyHeap
  have failed : applyUpdate os r.update r.icon m₁ = .error e m := by
    rcases bind_eq_error.mp run with failed | ⟨_, m₂, -, last⟩
    · exact failed
    · cases last
  have left := (quiet_of_applyUpdate_error failed).cb
  rcases startSync_cases os r.update.flags m₁ with ⟨-, unstarted, e', start⟩ | ⟨starts, start⟩
  · refine Or.inr ⟨?_, by rw [left, start, final_error, cb₁]⟩
    rintro ⟨r', m', read', -, none_, created⟩
    cases read.symm.trans read'
    rw [(isOk_onSyncStart os m₁).mpr ⟨by rw [cb₁, none_], by rw [world₁, created]⟩] at unstarted
    cases unstarted
  by_cases flagged : has r.update.flags hintSyncStart = true
  · obtain ⟨none_, created⟩ := (isOk_onSyncStart os m₁).mp (starts flagged)
    refine Or.inl ⟨⟨r, m₁, read, flagged, by rw [← cb₁, none_], by rw [← world₁, created]⟩, ?_⟩
    rw [left, start, final_ok, afterStart, startDB, if_pos flagged, Option.isSome_some]
  · refine Or.inr ⟨?_, ?_⟩
    · rintro ⟨r', m', read', flagged', -⟩
      cases read.symm.trans read'
      exact flagged flagged'
    · rw [left, start, final_ok, afterStart, startDB, if_neg flagged, cb₁]

/-! ### The failed step -/

/-- A step has left no mark: the two databases are what they were, and every update
after it is handled as it would have been in front of it, in the Windows that is
there now. -/
structure Unmarked (os : Os ω) (t : Step ω) : Prop where
  spFileDB : t.after.cb.spFileDB = t.before.cb.spFileDB
  spFileDBSync : t.after.cb.spFileDBSync = t.before.cb.spFileDBSync
  retry : ∀ c, step os t.after (.pdu cmdIdUpdateAppList c) =
    step os { t.before with heap := t.after.heap, world := t.after.world }
      (.pdu cmdIdUpdateAppList c)

/-- An update that fails leaves no mark exactly if it started no sync. -/
theorem rejected_unmarked_iff (os : Os ω) {t : Step ω} {c : Cursor}
    (taken : Runs.Taken (step os) t) (update : t.input = .pdu cmdIdUpdateAppList c)
    (isOpen : t.before.cb.channelClosed = false)
    (handshake : t.before.cb.handShakeComplated = true) (rejected : t.output.failure ≠ none) :
    Unmarked os t ↔ ¬ OpensSync os t.before c := by
  rw [taken.eq_take, update]
  set s := t.before
  have run : dispatch os cmdIdUpdateAppList c s.start = onUpdateAppList os c s.start := by
    rw [dispatch_handshaken (by decide) handshake, handle, if_pos rfl]
  cases handled : onUpdateAppList os c s.start with
  | ok c' m =>
      have stepped := step_of_ok isOpen (run.trans handled)
      rw [taken.eq_take, update] at rejected
      exact absurd (congrArg (·.1.failure) stepped) rejected
  | error e m =>
      have after : (Runs.take (step os) s (.pdu cmdIdUpdateAppList c)).after = m.state :=
        congrArg Prod.snd (step_of_error isOpen (run.trans handled))
      rcases cb_of_onUpdateAppList_error handled with ⟨starts, running⟩ | ⟨unstarted, same⟩
      · refine ⟨fun unmarked => ?_, fun never => absurd starts never⟩
        obtain ⟨r, m', -, -, none_, -⟩ := starts
        have kept := unmarked.spFileDBSync
        rw [after, show (Runs.take (step os) s _).before = s from rfl, none_] at kept
        rw [show m.cb.spFileDBSync = none from kept] at running
        cases running
      · refine ⟨fun _ => unstarted, fun _ => ?_⟩
        constructor
        · rw [after]
          exact congrArg (·.spFileDB) same
        · rw [after]
          exact congrArg (·.spFileDBSync) same
        · intro c'
          rw [after, Machine.state, same]
          rfl

/-- A client that has read one CAPS. -/
def greeted : ClientState Disk := Runs.finish (step diskOs) (.fresh {}) [caps "U"]

/-- An update that asks for a sync and names a file it must not. -/
def misnamed : Step Disk :=
  Runs.take (step diskOs) greeted (update hintSyncStart "a" "..")

theorem rejected_unmarked_iff_misnamed :
    Unmarked diskOs misnamed ↔ ¬ OpensSync diskOs greeted
      (.of (word32 (fieldId ||| fieldExecPath ||| fieldDesc ||| hintSyncStart) ++
        (pduText "a" ++ (pduText "x" ++ pduText "..")))) :=
  rejected_unmarked_iff diskOs (t := misnamed) rfl rfl (by decide +kernel) (by decide +kernel)
    (by decide +kernel)

/-- It fails, yet the sync is there, and the same update with a name that is allowed
fails on account of it. -/
theorem misnamed_leaves_sync :
    (misnamed.output.failure = some (.hresult E_FAIL) ∧
      greeted.cb.handShakeComplated = true ∧ greeted.cb.spFileDBSync.isSome = false ∧
      misnamed.after.cb.spFileDBSync.isSome = true ∧
      (step diskOs misnamed.after (update hintSyncStart "a" "A")).1.failure =
        some (.hresult E_FAIL) ∧
      (step diskOs greeted (update hintSyncStart "a" "A")).1.failure = none) ∧
    ¬ Unmarked diskOs misnamed := by
  have ran : misnamed.output.failure = some (.hresult E_FAIL) ∧
      greeted.cb.handShakeComplated = true ∧ greeted.cb.spFileDBSync.isSome = false ∧
      misnamed.after.cb.spFileDBSync.isSome = true ∧
      (step diskOs misnamed.after (update hintSyncStart "a" "A")).1.failure =
        some (.hresult E_FAIL) ∧
      (step diskOs greeted (update hintSyncStart "a" "A")).1.failure = none := by decide +kernel
  refine ⟨ran, fun unmarked => ?_⟩
  have kept : misnamed.after.cb.spFileDBSync.isSome = greeted.cb.spFileDBSync.isSome :=
    congrArg Option.isSome unmarked.spFileDBSync
  rw [ran.2.2.1, ran.2.2.2.1] at kept
  cases kept

end Wslg.Client
