/-
When the receive thread reads its channel: `isReady` of
`rdpapplist_server_handle_messages`, over the life of a context.

The thread asks the channel once whether it is ready and keeps the answer in the
context. Nothing takes the answer back: `Close` and a later `Open` leave it, so that
it may be about a channel that is no longer there. `no_read_before_ready` says that no
channel is read unasked as long as `Open` is not called with an answer kept, and that
such an `Open` makes the next wakeup read its channel unasked.
-/

import Wslg.Logic.Runs
import Wslg.Server.OpenClose
import Wslg.Server.Receive

namespace Wslg.Server

open Wslg.Runs

/-! ### The calls on a channel -/

/-- A call on a channel: it is opened, asked for `WTSVirtualChannelReady` (`answer` says
whether the query returned with the value true), or read. -/
inductive ChannelCall where
  | opened (channel : HANDLE)
  | ready (channel : HANDLE) (answer : Bool)
  | read (channel : HANDLE)
deriving DecidableEq

/-- The channel was asked since it was opened last, and was ready. -/
def AskedReady (channel : HANDLE) (calls : List ChannelCall) : Prop :=
  ∃ before after, calls = before ++ .ready channel true :: after ∧
    ChannelCall.opened channel ∉ after

def NoReadBeforeReady (calls : List ChannelCall) : Prop :=
  ∀ before channel after, calls = before ++ .read channel :: after → AskedReady channel before

theorem askedReady_snoc (channel : HANDLE) (calls : List ChannelCall) :
    AskedReady channel (calls ++ [.ready channel true]) :=
  ⟨calls, [], rfl, List.not_mem_nil⟩

theorem AskedReady.append {channel : HANDLE} {calls calls' : List ChannelCall}
    (asked : AskedReady channel calls) (kept : ChannelCall.opened channel ∉ calls') :
    AskedReady channel (calls ++ calls') := by
  obtain ⟨before, after, rfl, since⟩ := asked
  refine ⟨before, after ++ calls', by rw [List.append_assoc, List.cons_append], ?_⟩
  simpa only [List.mem_append, not_or] using ⟨since, kept⟩

/-- A channel that was just opened was not asked yet. -/
theorem not_askedReady_opened (channel : HANDLE) (calls : List ChannelCall) :
    ¬ AskedReady channel (calls ++ [.opened channel]) := by
  rintro ⟨before, after, split, since⟩
  rcases List.eq_nil_or_concat' after with rfl | ⟨after, last, rfl⟩
  · cases (List.append_inj' split rfl).2
  · rw [← List.cons_append, ← List.append_assoc] at split
    cases (List.append_inj' split rfl).2
    exact since (List.mem_append_right _ List.mem_cons_self)

theorem noReadBeforeReady_nil : NoReadBeforeReady [] := by
  intro before channel after split
  cases before <;> cases split

/-- More calls, each read among them of a channel asked before it. -/
theorem NoReadBeforeReady.append {calls calls' : List ChannelCall}
    (reads : NoReadBeforeReady calls)
    (reads' : ∀ before channel after, calls' = before ++ .read channel :: after →
      AskedReady channel (calls ++ before)) : NoReadBeforeReady (calls ++ calls') := by
  intro before channel after split
  rcases List.append_eq_append_iff.mp split with ⟨middle, rfl, right⟩ | ⟨middle, left, right⟩
  · exact reads' middle channel after right
  · cases middle with
    | nil =>
        rw [List.append_nil] at left
        rw [← left, ← List.append_nil calls]
        exact reads' [] channel after right.symm
    | cons c middle =>
        obtain ⟨rfl, -⟩ := List.cons.inj right
        exact reads before channel middle left

/-- Reads of a channel that was asked. -/
theorem NoReadBeforeReady.append_reads {calls calls' : List ChannelCall} {channel : HANDLE}
    (reads : NoReadBeforeReady calls) (asked : AskedReady channel calls)
    (all : ∀ c ∈ calls', c = .read channel) : NoReadBeforeReady (calls ++ calls') := by
  apply reads.append
  intro before channel' after split
  have same := all (.read channel') (by rw [split]; simp)
  cases same
  apply asked.append
  intro opened
  have read := all (.opened channel) (by rw [split]; exact List.mem_append_left _ opened)
  cases read

/-- Calls that are no reads. -/
theorem NoReadBeforeReady.append_others {calls calls' : List ChannelCall}
    (reads : NoReadBeforeReady calls) (none : ∀ channel, ChannelCall.read channel ∉ calls') :
    NoReadBeforeReady (calls ++ calls') :=
  reads.append fun _ channel _ split => absurd (by rw [split]; simp) (none channel)

/-! ### A context and its receive thread -/

/-- The reads once the channel is ready: one for the size, one for the data. -/
def readCalls (channel : HANDLE) (w : Wakeup) : List ChannelCall :=
  match w.sizeRead with
  | .bytes n =>
      if n < 1 then [.read channel]
      else if !w.ensureRemainingCapacity then [.read channel]
      else [.read channel, .read channel]
  | _ => [.read channel]

/-- The calls of `rdpapplist_server_handle_messages` on the context's channel. -/
def messageCalls (isReady : Bool) (channel : HANDLE) (w : Wakeup) : List ChannelCall :=
  if isReady then readCalls channel w
  else
    match w.query with
    | .ready true => .ready channel true :: readCalls channel w
    | _ => [.ready channel false]

/-- The call of `rdpapplist_server_open` that gives a channel. -/
def openCalls (a : OpenAnswers) : List ChannelCall :=
  match a.sessionInfo, a.channel with
  | some _, some handle => [.opened (some handle)]
  | _, _ => []

/-- A context with the member the thread keeps the answer in. -/
structure Listening where
  context : ServerContext := {}
  isReady : Bool := false

/-- A call on the context, or a wakeup of the receive thread. -/
inductive Event where
  | call (e : Use)
  | wake (env : ReceiveEnv) (fuel : Nat) (w : Wakeup)

/-- One step, with the calls on channels it makes. A wakeup needs a running thread; the
thread ends when `rdpapplist_server_handle_messages` fails, and is gone as well when that
never returns. -/
def listen (s : Listening) : Event → List ChannelCall × Listening
  | .call e =>
      (match e with
        | .open_ a => openCalls a
        | _ => [],
        { s with context := (use s.context e).2 })
  | .wake env fuel w =>
      if s.context.receiving.isSome then
        let (ret, isReady) := handleMessages env fuel s.isReady w
        let receiving := if ret = some channelRcOk then s.context.receiving else none
        (messageCalls s.isReady s.context.priv.rdpapplistChannel w,
          ⟨{ s.context with receiving }, isReady⟩)
      else ([], s)

/-- The calls on channels of a whole run of a new context. -/
def channelCalls (es : List Event) : List ChannelCall :=
  (transitions listen {} es).flatMap (·.output)

/-- `Open` is called while no answer is kept. -/
def OpensUnready (s : Listening) : Event → Prop
  | .call (.open_ _) => s.isReady = false
  | _ => True

instance (s : Listening) : (e : Event) → Decidable (OpensUnready s e)
  | .call (.open_ _) => inferInstanceAs (Decidable (s.isReady = false))
  | .call (.close _) => inferInstanceAs (Decidable True)
  | .call .threadEnds => inferInstanceAs (Decidable True)
  | .wake _ _ _ => inferInstanceAs (Decidable True)

/-! ### One step -/

theorem readCalls_eq {channel : HANDLE} {w : Wakeup} :
    ∀ c ∈ readCalls channel w, c = .read channel := by
  unfold readCalls
  cases w.sizeRead with
  | bytes n =>
      dsimp only
      split
      · simp
      · split <;> simp
  | noData => simp
  | failed => simp

theorem readCalls_head (channel : HANDLE) (w : Wakeup) :
    ∃ rest, readCalls channel w = .read channel :: rest := by
  unfold readCalls
  cases w.sizeRead with
  | bytes n =>
      dsimp only
      split
      · exact ⟨_, rfl⟩
      · split <;> exact ⟨_, rfl⟩
  | noData => exact ⟨_, rfl⟩
  | failed => exact ⟨_, rfl⟩

theorem not_read_openCalls (a : OpenAnswers) (channel : HANDLE) :
    ChannelCall.read channel ∉ openCalls a := by
  unfold openCalls
  split <;> simp

/-- A wakeup of a thread that has not heard of the channel yet asks it, and reads it
only if it is ready. -/
theorem handleMessages_unready (env : ReceiveEnv) (fuel : Nat) (channel : HANDLE) (w : Wakeup) :
    (messageCalls false channel w = [.ready channel false] ∧
      (handleMessages env fuel false w).2 = false) ∨
    messageCalls false channel w = .ready channel true :: readCalls channel w := by
  unfold messageCalls handleMessages
  cases w.query with
  | ready b => cases b <;> simp
  | noData => simp
  | failed => simp

/-- A context without a thread has none running. -/
theorem noThread_use {s : ServerContext} (noThread : s.priv.thread = none → s.receiving = none)
    (e : Use) : (use s e).2.priv.thread = none → (use s e).2.receiving = none := by
  cases e with
  | open_ a =>
      by_cases wts : a.wts
      · obtain ⟨sessionId, opened⟩ := serverOpen_succeeded wts s
        simp only [use, opened, createReceiver]
        split
        · split
          · exact fun _ => noThread ‹_›
          · exact fun gone => absurd gone ‹_›
        · exact noThread
      · obtain ⟨sessionId, failed, -⟩ := serverOpen_failed wts s
        simp only [use, failed]
        exact noThread
  | close a =>
      simp only [use, serverClose, closeChannel_eq]
      split
      · split
        · exact noThread
        · exact fun _ => rfl
      · exact noThread
  | threadEnds => exact fun _ => rfl

/-- `Close` leaves a thread running only where it leaves everything. -/
theorem priv_close_of_receiving {s : ServerContext}
    (noThread : s.priv.thread = none → s.receiving = none) {a : CloseAnswers}
    (runs : (use s (.close a)).2.receiving ≠ none) : (use s (.close a)).2.priv = s.priv := by
  cases thread : s.priv.thread with
  | none =>
      simp only [use, serverClose, thread, Option.isSome_none, Bool.false_eq_true, if_false,
        closeChannel_eq] at runs
      exact absurd (noThread thread) runs
  | some handle =>
      cases wait : a.waitFailed with
      | false => simp [use, serverClose, closeChannel_eq, thread, wait] at runs
      | true => simp [use, serverClose, thread, wait]

/-- What holds between steps: an answer that is kept is about the channel that a running
thread would read. -/
structure Asked (calls : List ChannelCall) (s : Listening) : Prop where
  noThread : s.context.priv.thread = none → s.context.receiving = none
  asked : s.isReady = true → s.context.receiving ≠ none →
    AskedReady s.context.priv.rdpapplistChannel calls
  reads : NoReadBeforeReady calls

theorem asked_new : Asked [] {} :=
  ⟨fun _ => rfl, by rintro ⟨⟩, noReadBeforeReady_nil⟩

theorem asked_wake {calls : List ChannelCall} {s : Listening} (asked : Asked calls s)
    (env : ReceiveEnv) (fuel : Nat) (w : Wakeup) :
    Asked (calls ++ (listen s (.wake env fuel w)).1) (listen s (.wake env fuel w)).2 := by
  obtain ⟨noThread, known, reads⟩ := asked
  cases receiving : s.context.receiving with
  | none => simpa [listen, receiving] using (⟨noThread, known, reads⟩ : Asked calls s)
  | some handle =>
      simp only [listen, receiving, Option.isSome_some, if_true]
      have gone : s.context.priv.thread ≠ none := by
        intro none
        rw [noThread none] at receiving
        cases receiving
      set channel := s.context.priv.rdpapplistChannel
      cases ready : s.isReady with
      | true =>
          have before := known ready (by rw [receiving]; exact Option.some_ne_none _)
          have kept : ChannelCall.opened channel ∉ readCalls channel w := by
            intro opened
            cases readCalls_eq _ opened
          exact ⟨fun none => absurd none gone, fun _ _ => before.append kept,
            reads.append_reads before readCalls_eq⟩
      | false =>
          rcases handleMessages_unready env fuel channel w with ⟨calls', unready⟩ | calls'
          · rw [calls', unready]
            exact ⟨fun none => absurd none gone, by rintro ⟨⟩, reads.append_others (by simp)⟩
          · have now := askedReady_snoc channel calls
            have kept : ChannelCall.opened channel ∉ readCalls channel w := by
              intro opened
              cases readCalls_eq _ opened
            have both : calls ++ messageCalls false channel w =
                calls ++ [.ready channel true] ++ readCalls channel w := by
              rw [calls', List.append_assoc]; rfl
            rw [both]
            exact ⟨fun none => absurd none gone, fun _ _ => now.append kept,
              (reads.append_others (by simp)).append_reads now readCalls_eq⟩

theorem asked_listen {calls : List ChannelCall} {s : Listening} {e : Event}
    (asked : Asked calls s) (unready : OpensUnready s e) :
    Asked (calls ++ (listen s e).1) (listen s e).2 := by
  cases e with
  | wake env fuel w => exact asked_wake asked env fuel w
  | call e =>
      have noThread := noThread_use asked.noThread e
      cases e with
      | open_ a =>
          refine ⟨noThread, fun ready => ?_, asked.reads.append_others (not_read_openCalls a)⟩
          have unready : s.isReady = false := unready
          cases unready.symm.trans ready
      | close a =>
          refine ⟨noThread, fun ready runs => ?_, asked.reads.append_others (by simp [listen])⟩
          have same : (use s.context (.close a)).2.priv = s.context.priv :=
            priv_close_of_receiving asked.noThread runs
          have ran : s.context.receiving ≠ none := by
            intro none
            apply runs
            simp only [listen, use, serverClose, closeChannel_eq]
            split
            · split
              · exact none
              · rfl
            · exact none
          simp only [listen, same]
          exact (asked.asked ready ran).append List.not_mem_nil
      | threadEnds =>
          exact ⟨noThread, fun _ runs => absurd rfl runs,
            asked.reads.append_others (by simp [listen])⟩

/-! ### Every run -/

/-- An `Open` that gets its channel while an answer is kept makes the next wakeup read
that channel unasked. -/
theorem reads_unasked {es : List Event} {a : OpenAnswers} (ready : (finish listen {} es).isReady)
    (wts : a.wts)
    (runs : (finish listen {} (es ++ [.call (.open_ a)])).context.receiving ≠ none)
    (env : ReceiveEnv) (fuel : Nat) (w : Wakeup) :
    ¬ NoReadBeforeReady (channelCalls (es ++ [.call (.open_ a), .wake env fuel w])) := by
  intro reads
  obtain ⟨session, channel, -, -⟩ := id wts
  obtain ⟨sessionId, session⟩ := Option.ne_none_iff_exists'.mp session
  obtain ⟨handle, channel⟩ := Option.ne_none_iff_exists'.mp channel
  set s := finish listen {} es
  have opened : (use s.context (.open_ a)).2.priv.rdpapplistChannel = some handle := by
    obtain ⟨id, opened⟩ := serverOpen_succeeded wts s.context
    simp only [use, opened, createReceiver, channel]
    split
    · split <;> rfl
    · rfl
  obtain ⟨rest, first⟩ := readCalls_head (some handle) w
  have running : (use s.context (.open_ a)).2.receiving.isSome := by
    rw [finish_append] at runs
    exact Option.isSome_iff_ne_none.mpr runs
  have trace : channelCalls (es ++ [.call (.open_ a), .wake env fuel w]) =
      channelCalls es ++ [.opened (some handle)] ++ .read (some handle) :: rest := by
    simp only [channelCalls, transitions_append, transitions_two, List.flatMap_append,
      List.flatMap_cons, List.flatMap_nil, List.append_nil, List.append_assoc, take]
    simp only [listen, openCalls, session, channel, running, if_true, opened, messageCalls, s,
      ready, first]
  exact not_askedReady_opened _ _ (reads _ _ _ trace)

/-- In every run that calls `Open` only while no answer is kept, no channel is read
before it was asked and ready. Where such a run ends with an answer kept, an `Open` that
gets its channel, and has a thread for it, makes the next wakeup read it unasked. -/
theorem no_read_before_ready (es : List Event)
    (unready : ∀ t ∈ transitions listen {} es, OpensUnready t.before t.input) :
    NoReadBeforeReady (channelCalls es) ∧
    ∀ a env fuel w, (finish listen {} es).isReady → a.wts →
      (finish listen {} (es ++ [.call (.open_ a)])).context.receiving ≠ none →
      ¬ NoReadBeforeReady (channelCalls (es ++ [.call (.open_ a), .wake env fuel w])) := by
  refine ⟨?_, fun a env fuel w ready wts runs => reads_unasked ready wts runs env fuel w⟩
  have kept : (∀ t ∈ transitions listen {} es, OpensUnready t.before t.input) →
      Asked (channelCalls es) (finish listen {} es) := by
    refine invariant_history (I := fun ts s => (∀ t ∈ ts, OpensUnready t.before t.input) →
      Asked (ts.flatMap (·.output)) s) ?_ (fun _ => asked_new) es
    intro ts t taken ih meets
    have before := ih fun t mem => meets t (List.mem_append_left _ mem)
    have last := meets t (List.mem_append_right _ List.mem_cons_self)
    rw [List.flatMap_append, List.flatMap_singleton, taken.eq_take]
    exact asked_listen before last
  exact (kept unready).reads

/-! ### A channel opened again -/

/-- A wakeup with nothing to read, and what the query answers at it. -/
def emptyWakeup (ready : Bool) : Event :=
  .wake plainEnv 0 ⟨.ready ready, .bytes 0, true, none⟩

/-- The context is opened, closed before its channel is ready, and opened again. -/
def reopenedUnready : List Event :=
  [.call (.open_ allAnswered), emptyWakeup false, .call (.close ⟨false, 0⟩),
    .call (.open_ { allAnswered with channel := some 0x11 }), emptyWakeup true, emptyWakeup true]

theorem no_read_before_ready_reopened :
    NoReadBeforeReady (channelCalls reopenedUnready) ∧
      (finish listen {} reopenedUnready).isReady = true ∧
      ¬ NoReadBeforeReady (channelCalls (reopenedUnready ++
        [.call (.open_ { allAnswered with channel := some 0x12 }), emptyWakeup false])) := by
  have ran := no_read_before_ready reopenedUnready (by decide)
  exact ⟨ran.1, by decide, ran.2 { allAnswered with channel := some 0x12 } plainEnv 0
    ⟨.ready false, .bytes 0, true, none⟩ (by decide) (by decide) (by decide)⟩

/-- The context is opened, its channel is ready, and it is closed. -/
def closedReady : List Event :=
  [.call (.open_ allAnswered), emptyWakeup true, .call (.close ⟨false, 0⟩)]

/-- The next `Open` gives channel 0x11; it is read, and it was never asked. -/
theorem closedReady_reads_unasked :
    channelCalls (closedReady ++ [.call (.open_ { allAnswered with channel := some 0x11 }),
        emptyWakeup false]) =
      [.opened (some 0x10), .ready (some 0x10) true, .read (some 0x10),
        .opened (some 0x11), .read (some 0x11)] ∧
    ¬ ∀ es, NoReadBeforeReady (channelCalls es) :=
  ⟨by decide, fun all => @reads_unasked closedReady { allAnswered with channel := some 0x11 }
    (by decide) (by decide) (by decide) plainEnv 0 ⟨.ready false, .bytes 0, true, none⟩ (all _)⟩

end Wslg.Server
