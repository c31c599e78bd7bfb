/-
Opening and closing the channel: `rdpapplist_server_open` and
`rdpapplist_server_close`.

Every WTS, event and thread call of the two answers as it likes. `Open` reports the
WTS calls that fail and cleans up; what `CreateEvent` and `CreateThread` answer it
does not report. `Reported` says that no failure of a call went unreported, and
`open_close_all_or_nothing` that a context is all open or all closed as long as that is
so, and no longer.

Next to the context stands what the threads do: `receiving` is the channel that a
running receive thread was created for. It may end on its own at any time.
-/

import Wslg.Logic.Runs
import Wslg.Server.Send

namespace Wslg.Server

open Wslg.Runs

/-- A handle, `none` being NULL. -/
abbrev HANDLE := Option Nat

def sizeofHandle : Nat := 8

def wtsCurrentSession : UInt32 := 0xFFFFFFFF

/-- The members of `RdpAppListServerPrivate` that the two functions use. -/
structure ServerPrivate where
  sessionId : UInt32 := 0
  rdpapplistChannel : HANDLE := none
  channelEvent : HANDLE := none
  thread : HANDLE := none
  stopEvent : HANDLE := none
deriving DecidableEq

/-- A context, with what its caller knows of it (`opened`) and what its receive thread
is doing (`receiving`). A new one is all zero. -/
structure ServerContext where
  priv : ServerPrivate := {}
  opened : Bool := false
  receiving : HANDLE := none
deriving DecidableEq

/-! ### The two functions -/

/-- What the calls of `rdpapplist_server_open` answer, those it makes. -/
structure OpenAnswers where
  sessionInfo : Option UInt32
  channel : HANDLE
  lastError : UINT
  queried : Bool
  bytesReturned : Nat
  channelEvent : HANDLE
  stopEvent : HANDLE
  thread : HANDLE
deriving DecidableEq

/-- What the calls of `rdpapplist_server_close` answer. -/
structure CloseAnswers where
  waitFailed : Bool
  lastError : UINT
deriving DecidableEq

/-- `out_close`. -/
def outClose (p : ServerPrivate) : ServerPrivate :=
  { p with rdpapplistChannel := none, channelEvent := none }

/-- The block that creates the stop event and the receive thread, with the `rc` it
leaves. -/
def createReceiver (a : OpenAnswers) (rc : UINT) (s : ServerContext) : UINT × ServerContext :=
  if s.priv.thread = none then
    let rc := if a.stopEvent = none then errorInternalError else rc
    if a.thread = none then
      (errorInternalError, { s with priv := { s.priv with thread := none, stopEvent := none } })
    else
      (rc, { s with
        priv := { s.priv with thread := a.thread, stopEvent := a.stopEvent }
        receiving := s.priv.rdpapplistChannel })
  else (rc, s)

/-- `rdpapplist_server_open`. -/
def serverOpen (a : OpenAnswers) (s : ServerContext) : UINT × ServerContext :=
  let rc := errorInternalError
  let p := { s.priv with sessionId := wtsCurrentSession }
  match a.sessionInfo with
  | none => (errorInternalError, { s with priv := outClose p })
  | some sessionId =>
      let p := { p with sessionId, rdpapplistChannel := a.channel }
      if a.channel = none then (a.lastError, { s with priv := outClose p })
      else if a.queried = false ∨ a.bytesReturned ≠ sizeofHandle then
        (errorInternalError, { s with priv := outClose p })
      else
        -- the `rc` of the block is dropped here
        let (_, s) := createReceiver a rc
          { s with priv := { p with channelEvent := a.channelEvent } }
        (channelRcOk, s)

/-- The end of `rdpapplist_server_close`. -/
def closeChannel (s : ServerContext) : ServerContext :=
  if s.priv.rdpapplistChannel.isSome then
    { s with priv := { s.priv with rdpapplistChannel := none } }
  else s

theorem closeChannel_eq (s : ServerContext) :
    closeChannel s = { s with priv := { s.priv with rdpapplistChannel := none } } := by
  obtain ⟨⟨_, channel, _, _, _⟩, _, _⟩ := s
  cases channel <;> rfl

/-- `rdpapplist_server_close`. A wait for the thread that does not fail is over when
the thread has ended. -/
def serverClose (a : CloseAnswers) (s : ServerContext) : UINT × ServerContext :=
  if s.priv.thread.isSome then
    if a.waitFailed then (a.lastError, s)
    else (channelRcOk, closeChannel
      { s with priv := { s.priv with thread := none, stopEvent := none }, receiving := none })
  else (channelRcOk, closeChannel s)

/-! ### A context over time -/

inductive Use where
  | open_ (answers : OpenAnswers)
  | close (answers : CloseAnswers)
  | threadEnds
deriving DecidableEq

/-- One call on the context, with what it returns, or the end of the receive thread. -/
def use (s : ServerContext) : Use → Option UINT × ServerContext
  | .open_ a =>
      let (rc, s') := serverOpen a s
      (some rc, { s' with opened := s.opened || rc == channelRcOk })
  | .close a =>
      let (rc, s') := serverClose a s
      (some rc, { s' with opened := s.opened && rc != channelRcOk })
  | .threadEnds => (none, { s with receiving := none })

/-- `Open` is called on a closed context. -/
def OnClosed (s : ServerContext) : Use → Prop
  | .open_ _ => s.opened = false
  | _ => True

instance (s : ServerContext) : (e : Use) → Decidable (OnClosed s e)
  | .open_ _ => inferInstanceAs (Decidable (s.opened = false))
  | .close _ => inferInstanceAs (Decidable True)
  | .threadEnds => inferInstanceAs (Decidable True)

/-- The WTS calls of `Open` all succeed. -/
def OpenAnswers.wts (a : OpenAnswers) : Prop :=
  a.sessionInfo ≠ none ∧ a.channel ≠ none ∧ a.queried = true ∧ a.bytesReturned = sizeofHandle

instance (a : OpenAnswers) : Decidable a.wts := inferInstanceAs (Decidable (_ ∧ _))

/-- No call fails unreported: once the WTS calls of `Open` succeed they have given an
event handle and the event and the thread are created, and where the two functions
return `GetLastError()` for a call that failed there is an error. -/
def Reported (s : ServerContext) : Use → Prop
  | .open_ a =>
      (a.sessionInfo ≠ none → a.channel = none → a.lastError ≠ channelRcOk) ∧
      (a.wts → a.channelEvent ≠ none ∧ a.stopEvent ≠ none ∧ a.thread ≠ none)
  | .close a => s.priv.thread ≠ none → a.waitFailed = true → a.lastError ≠ channelRcOk
  | .threadEnds => True

instance (s : ServerContext) : (e : Use) → Decidable (Reported s e)
  | .open_ _ => inferInstanceAs (Decidable (_ ∧ _))
  | .close _ => inferInstanceAs (Decidable (_ → _ → _))
  | .threadEnds => inferInstanceAs (Decidable True)

/-- Everything is there, and the receive thread was created by this call. -/
def AllOpen (before after : ServerContext) : Prop :=
  after.priv.rdpapplistChannel ≠ none ∧ after.priv.channelEvent ≠ none ∧
    after.priv.stopEvent ≠ none ∧ after.priv.thread ≠ none ∧
    before.receiving = none ∧ after.receiving = after.priv.rdpapplistChannel

/-- Nothing is there, and no receive thread is running. -/
def NothingOpen (s : ServerContext) : Prop :=
  s.priv.rdpapplistChannel = none ∧ s.priv.channelEvent = none ∧ s.priv.stopEvent = none ∧
    s.priv.thread = none ∧ s.receiving = none

/-- What the return value of a call says of the context is so. -/
def AllOrNothing (t : Transition ServerContext Use (Option UINT)) : Prop :=
  match t.input with
  | .open_ _ => (t.output = some channelRcOk → AllOpen t.before t.after) ∧
      (t.output ≠ some channelRcOk → NothingOpen t.after)
  | .close _ => t.output = some channelRcOk → t.after.priv.rdpapplistChannel = none ∧
      t.after.priv.thread = none ∧ t.after.priv.stopEvent = none
  | .threadEnds => True

/-! ### Every run -/

/-- The state between calls that all reported their failures. -/
structure Settled (s : ServerContext) : Prop where
  noThread : s.priv.thread = none → s.priv.stopEvent = none ∧ s.receiving = none
  closed : s.opened = false → s.priv.rdpapplistChannel = none ∧ s.priv.thread = none

theorem settled_new : Settled {} := ⟨fun _ => ⟨rfl, rfl⟩, fun _ => ⟨rfl, rfl⟩⟩

/-- `Open` where a WTS call fails. -/
theorem serverOpen_failed {a : OpenAnswers} (failed : ¬ a.wts) (s : ServerContext) :
    ∃ sessionId, (serverOpen a s).2 = { s with priv := outClose { s.priv with sessionId } } ∧
      ((serverOpen a s).1 = channelRcOk ↔
        a.sessionInfo ≠ none ∧ a.channel = none ∧ a.lastError = channelRcOk) := by
  unfold OpenAnswers.wts at failed
  unfold serverOpen
  cases session : a.sessionInfo with
  | none => exact ⟨wtsCurrentSession, rfl, by simp [errorInternalError, channelRcOk]⟩
  | some sessionId =>
      refine ⟨sessionId, ?_⟩
      by_cases noChannel : a.channel = none
      · simp [noChannel, outClose]
      · have noEvent : a.queried = false ∨ a.bytesReturned ≠ sizeofHandle := by
          by_contra both
          obtain ⟨queried, size⟩ := not_or.mp both
          exact failed ⟨by simp [session], noChannel, Bool.not_eq_false _ ▸ queried,
            not_not.mp size⟩
        simp [noChannel, noEvent, outClose, errorInternalError, channelRcOk]

/-- `Open` where they succeed. -/
theorem serverOpen_succeeded {a : OpenAnswers} (wts : a.wts) (s : ServerContext) :
    ∃ sessionId, serverOpen a s = (channelRcOk, (createReceiver a errorInternalError
      { s with priv := { s.priv with
        sessionId, rdpapplistChannel := a.channel, channelEvent := a.channelEvent } }).2) := by
  obtain ⟨session, channel, queried, size⟩ := wts
  obtain ⟨sessionId, session⟩ := Option.ne_none_iff_exists'.mp session
  exact ⟨sessionId, by simp [serverOpen, session, channel, queried, size]⟩

section Step

variable {s : ServerContext} (settled : Settled s)

include settled

/-- `Open` on a closed context does what it returns exactly when it reports every
failure. -/
theorem open_all_or_nothing (a : OpenAnswers) (closed : s.opened = false) :
    AllOrNothing (take use s (.open_ a)) ↔ Reported s (.open_ a) := by
  obtain ⟨-, noThread⟩ := settled.closed closed
  obtain ⟨noStop, noReceiver⟩ := settled.noThread noThread
  by_cases wts : a.wts
  · obtain ⟨sessionId, opened⟩ := serverOpen_succeeded wts s
    have channel := wts.2.1
    simp only [AllOrNothing, Reported, take, use, opened, createReceiver, noThread]
    by_cases failed : a.thread = none
    · simp [AllOpen, failed, wts]
    · simp [AllOpen, failed, wts, noReceiver, channel]
  · obtain ⟨sessionId, closedAgain, rc⟩ := serverOpen_failed wts s
    simp only [AllOrNothing, Reported, take, use, closedAgain, Option.some.injEq, ne_eq, rc]
    simp [AllOpen, NothingOpen, outClose, noThread, noStop, noReceiver, wts]

/-- So does `Close`. -/
theorem close_all_or_nothing (a : CloseAnswers) :
    AllOrNothing (take use s (.close a)) ↔ Reported s (.close a) := by
  have noThread := settled.noThread
  simp only [AllOrNothing, Reported, take, use, serverClose, closeChannel_eq]
  cases thread : s.priv.thread with
  | none => simp [noThread thread]
  | some handle => cases a.waitFailed <;> simp [thread]

/-- A step that reports its failures leaves a settled context. -/
theorem settled_use {e : Use} (closed : OnClosed s e) (reported : Reported s e) :
    Settled (use s e).2 := by
  have noThread := settled.noThread
  cases e with
  | open_ a =>
      obtain ⟨opened, nothing⟩ := (open_all_or_nothing settled a closed).mpr reported
      by_cases rc : (serverOpen a s).1 = channelRcOk
      · obtain ⟨-, -, -, thread, -⟩ := opened (by simp [take, use, rc])
        constructor
        · intro h
          exact absurd h thread
        · simp [use, rc]
      · obtain ⟨channel, -, stop, thread, receiving⟩ := nothing (by simp [take, use, rc])
        exact ⟨fun _ => ⟨stop, receiving⟩, fun _ => ⟨channel, thread⟩⟩
  | close a =>
      unfold Reported at reported
      cases thread : s.priv.thread with
      | none =>
          constructor <;> simp [use, serverClose, closeChannel_eq, thread, noThread thread]
      | some handle =>
          cases wait : a.waitFailed with
          | false => constructor <;> simp [use, serverClose, closeChannel_eq, thread, wait]
          | true =>
              have error := reported (by simp [thread]) wait
              have closed := settled.closed
              constructor <;> simp_all [use, serverClose]
  | threadEnds => exact ⟨fun h => ⟨(noThread h).1, rfl⟩, settled.closed⟩

end Step

/-- In every run of `Open`, each on a closed context, and `Close` in which no call fails
unreported, each of them did what it returned; and the next of them does exactly if no
call of it fails unreported. -/
theorem open_close_all_or_nothing (es : List Use)
    (steps : ∀ t ∈ transitions use {} es, OnClosed t.before t.input ∧ Reported t.before t.input) :
    (∀ t ∈ transitions use {} es, AllOrNothing t) ∧
    ∀ e, OnClosed (finish use {} es) e →
      (AllOrNothing (take use (finish use {} es) e) ↔ Reported (finish use {} es) e) := by
  have exact_ : ∀ s e, Settled s → OnClosed s e →
      (AllOrNothing (take use s e) ↔ Reported s e) := by
    intro s e settled closed
    cases e with
    | open_ a => exact open_all_or_nothing settled a closed
    | close a => exact close_all_or_nothing settled a
    | threadEnds => exact Iff.rfl
  have kept : ∀ t, Taken use t → OnClosed t.before t.input ∧ Reported t.before t.input →
      Settled t.before → Settled t.after := by
    intro t taken ok settled
    rw [taken.eq_take]
    exact settled_use settled ok.1 ok.2
  have settled := invariant_transitions kept settled_new steps
  constructor
  · intro t mem
    have taken := (taken_of_mem mem).eq_take
    obtain ⟨closed, reported⟩ := steps t mem
    rw [taken]
    exact (exact_ _ _ (settled t mem).1 closed).mpr reported
  · intro e closed
    refine exact_ _ e ?_ closed
    rw [finish_eq_getLast]
    cases last : (transitions use {} es).getLast? with
    | none => exact settled_new
    | some t => exact (settled t (List.mem_of_getLast? last)).2

/-! ### A thread that is not created -/

/-- Every call succeeds. -/
def allAnswered : OpenAnswers :=
  { sessionInfo := some 1, channel := some 0x10, lastError := 0, queried := true,
    bytesReturned := 8, channelEvent := some 0x20, stopEvent := some 0x30, thread := some 0x40 }

/-- `CreateThread` fails. -/
def noThread : OpenAnswers := { allAnswered with thread := none }

/-- The context is opened, closed, and opened again without an answer to the query. -/
def reopened : List Use :=
  [.open_ allAnswered, .threadEnds, .close ⟨false, 0⟩,
    .open_ { allAnswered with queried := false }]

theorem open_close_all_or_nothing_reopened :
    (∀ t ∈ transitions use {} reopened, AllOrNothing t) ∧
      AllOrNothing (take use (finish use {} reopened) (.close ⟨true, 0⟩)) := by
  have ran := open_close_all_or_nothing reopened (by decide)
  exact ⟨ran.1, (ran.2 (.close ⟨true, 0⟩) trivial).mpr (by decide)⟩

/-- `Open` returns `CHANNEL_RC_OK` without a thread. -/
theorem noThread_not_all_or_nothing :
    ¬ ∀ es, (∀ t ∈ transitions use {} es, OnClosed t.before t.input) →
      ∀ t ∈ transitions use {} es, AllOrNothing t := by
  intro all
  have opened := all [.open_ noThread] (by decide) _ List.mem_cons_self
  exact (opened.1 rfl).2.2.2.1 rfl

end Wslg.Server
