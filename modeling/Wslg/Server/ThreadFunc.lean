/-
The receive thread: `rdpapplist_server_thread_func`.

It waits for its two events, and leaves its loop when a wait fails, when it is told to
stop, or when `rdpapplist_server_handle_messages` returns anything but zero.
`ERROR_NO_DATA` is among what that returns: for a query or a size read that has nothing yet
it says so and logs no error, and the thread ends of it all the same.

What the channel brings is given by wakeup, the data as the PDUs it is made of. `Outlives`
is what the thread is for. It meets that as long as every wakeup is served to its end, and
no longer (`outlives_iff`).
-/

import Wslg.Logic.Runs
import Wslg.Server.Readiness
import Wslg.Server.Receive

namespace Wslg.Server

open Wslg.Protocol Wslg.Runs

/-! ### What the channel brings -/

/-- The bytes of a PDU: a header whose length field counts them. -/
structure PduBytes where
  bytes : List BYTE
  header : 8 ≤ bytes.length
  counted : (headerAt bytes 0).length.toNat = bytes.length

/-- A buffer that these PDUs make up. -/
def buffer (pdus : List PduBytes) : List BYTE := pdus.flatMap PduBytes.bytes

/-- What the calls of one wakeup are answered, the data by its PDUs, and how the callback
and the streams behave at it. -/
structure Arrival where
  env : ReceiveEnv
  query : Query
  sizeRead : SizeRead
  ensureRemainingCapacity : Bool
  read : Option (List PduBytes)

def Arrival.wakeup (a : Arrival) : Wakeup :=
  ⟨a.query, a.sizeRead, a.ensureRemainingCapacity, a.read.map buffer⟩

/-- How `WaitForMultipleObjects` returns: `WAIT_FAILED`, the stop event, or the channel
event. -/
inductive Wait where
  | failed (error : UINT)
  | stop
  | wake (a : Arrival)

/-! ### The thread -/

/-- The thread in its loop, with the member `isReady`, past `ExitThread`, or inside a call
that does not return. -/
inductive Thread where
  | running (isReady : Bool)
  | ended (error : UINT)
  | stuck
deriving DecidableEq

/-- `isReady` once the channel was asked, if it has to be. -/
def readyAfter (isReady : Bool) : Query → Bool
  | .ready b => isReady || b
  | _ => isReady

/-- The buffer that `rdpapplist_server_handle_messages` comes to parse. -/
def parsedBuffer (isReady : Bool) (w : Wakeup) : Option (List BYTE) :=
  if readyAfter isReady w.query then
    match w.sizeRead with
    | .bytes n => if 1 ≤ n ∧ w.ensureRemainingCapacity then w.read else none
    | _ => none
  else none

/-- The PDU that begins at a position. -/
def pduAt (bytes : List BYTE) (beg : Nat) : List BYTE :=
  readAt bytes beg (headerAt bytes beg).length.toNat

/-- The PDUs that `rdpapplist_server_receive_pdu` is called for at a wakeup. -/
def handed (fuel : Nat) (isReady : Bool) (a : Arrival) : List (List BYTE) :=
  match parsedBuffer isReady a.wakeup with
  | none => []
  | some bytes => (calls a.env bytes fuel 0 0).map fun c => pduAt bytes c.beg

/-- One turn of the loop, with the PDUs that are handed on in it. -/
def threadFunc (fuel : Nat) : Thread → Wait → List (List BYTE) × Thread
  | .running _, .failed error => ([], .ended error)
  | .running _, .stop => ([], .ended channelRcOk)
  | .running isReady, .wake a =>
      (handed fuel isReady a,
        match handleMessages a.env fuel isReady a.wakeup with
        | (none, _) => .stuck
        | (some error, isReady) =>
            if error ≠ channelRcOk then .ended error else .running isReady)
  | t, _ => ([], t)

/-! ### What it is for -/

/-- The PDUs that a wakeup delivers, whether anyone reads them or not. -/
def Arrival.delivered (a : Arrival) (isReady : Bool) : List PduBytes :=
  if readyAfter isReady a.query then
    match a.sizeRead with
    | .bytes n => if 1 ≤ n then a.read.getD [] else []
    | _ => []
  else []

/-- The PDUs that are delivered before the stop event. -/
def deliveredPdus : Bool → List Wait → List PduBytes
  | isReady, .wake a :: waits =>
      a.delivered isReady ++ deliveredPdus (readyAfter isReady a.query) waits
  | _, _ => []

/-- The thread ends only after the stop event, and every PDU that is delivered before it
is handed on once, in order. -/
structure Outlives (fuel : Nat) (isReady : Bool) (waits : List Wait) : Prop where
  ends : ∀ before, before <+: waits → ∀ error,
    finish (threadFunc fuel) (.running isReady) before = .ended error → Wait.stop ∈ before
  handed : (transitions (threadFunc fuel) (.running isReady) waits).flatMap (·.output) =
    (deliveredPdus isReady waits).map PduBytes.bytes

/-- A wakeup is served to its end: no query and no size read that is made has nothing yet,
and what there is to read is read. -/
def Arrival.Served (a : Arrival) (isReady : Bool) : Prop :=
  (isReady = false → a.query ≠ .noData) ∧
    (readyAfter isReady a.query = true → a.sizeRead ≠ .noData ∧
      ∀ n, a.sizeRead = .bytes n → 1 ≤ n →
        a.ensureRemainingCapacity = true ∧ a.read.isSome = true)

/-- Every wakeup before the stop event is served to its end. -/
def AllServed : Bool → List Wait → Prop
  | isReady, .wake a :: waits => a.Served isReady ∧ AllServed (readyAfter isReady a.query) waits
  | _, _ => True

/-- What is assumed of a wakeup: its query and its size read succeed or have nothing yet,
and the buffer that is read parses without error. -/
structure Arrival.Ordinary (fuel : Nat) (a : Arrival) : Prop where
  position : SetPositionSpec a.env
  query : a.query ≠ .failed
  sizeRead : a.sizeRead ≠ .failed
  parses : ∀ pdus ∈ a.read, receiveLoop a.env (buffer pdus) fuel 0 0 = some channelRcOk

/-! ### One buffer -/

section Buffer

variable {env : ReceiveEnv}

theorem readAt_append {before bytes after : List BYTE} {pos n : Nat}
    (inside : pos + n ≤ bytes.length) :
    readAt (before ++ bytes ++ after) (before.length + pos) n = readAt bytes pos n := by
  have fits : n ≤ (bytes.drop pos).length := by
    rw [List.length_drop]
    omega
  rw [readAt, readAt, List.append_assoc, ← List.drop_drop, List.drop_left,
    List.drop_append_of_le_length (by omega), List.take_append_of_le_length fits]

theorem headerAt_append {before after : List BYTE} (pdu : PduBytes) :
    headerAt (before ++ pdu.bytes ++ after) before.length = headerAt pdu.bytes 0 := by
  have first := @readAt_append before pdu.bytes after 0 4 (by have := pdu.header; omega)
  have second := @readAt_append before pdu.bytes after 4 4 (by have := pdu.header; omega)
  rw [Nat.add_zero] at first
  rw [headerAt, headerAt, first, second, Nat.zero_add]

/-- A PDU is found where it begins. -/
theorem pduAt_append {before after : List BYTE} (pdu : PduBytes) :
    pduAt (before ++ pdu.bytes ++ after) before.length = pdu.bytes := by
  have whole := @readAt_append before pdu.bytes after 0 pdu.bytes.length (by omega)
  rw [Nat.add_zero] at whole
  rw [pduAt, headerAt_append, pdu.counted, whole, readAt, List.drop_zero, List.take_length]

/-- A PDU that is taken leaves the stream at the next one. -/
theorem after_append (spec : SetPositionSpec env) {i : Nat} {before after : List BYTE}
    (pdu : PduBytes)
    (ok : (receivePdu env (before ++ pdu.bytes ++ after) i before.length).ret = channelRcOk) :
    (receivePdu env (before ++ pdu.bytes ++ after) i before.length).after =
      (before ++ pdu.bytes).length := by
  rw [receivePdu_of_accepted (accepted_of_ok ok)]
  simp only [headerAt_append, pdu.counted, List.length_append]
  split
  · apply spec.inside
    omega
  · rename_i same
    exact not_not.mp same

/-- A loop that ends without an error calls `rdpapplist_server_receive_pdu` for each PDU
of its buffer, in order. -/
theorem calls_buffer (spec : SetPositionSpec env) {pdus : List PduBytes} {before : List BYTE}
    {fuel i : Nat}
    (ok : receiveLoop env (before ++ buffer pdus) fuel i before.length = some channelRcOk) :
    ((calls env (before ++ buffer pdus) fuel i before.length).map fun c =>
      pduAt (before ++ buffer pdus) c.beg) = pdus.map PduBytes.bytes := by
  induction pdus generalizing before fuel i with
  | nil =>
      have outside : ¬ before.length < (before ++ buffer []).length := by simp [buffer]
      rw [calls_of_outside outside]
      rfl
  | cons pdu pdus ih =>
      have split : before ++ buffer (pdu :: pdus) = before ++ pdu.bytes ++ buffer pdus := by
        simp [buffer]
      have inside : before.length < (before ++ pdu.bytes ++ buffer pdus).length := by
        have := pdu.header
        simp only [List.length_append]
        omega
      rw [split] at ok ⊢
      cases fuel with
      | zero =>
          rw [receiveLoop, if_pos inside] at ok
          cases ok
      | succ fuel =>
          rw [receiveLoop, if_pos inside] at ok
          dsimp only at ok
          split at ok
          · rename_i taken
            rw [after_append spec pdu taken] at ok
            rw [calls_of_inside inside, if_pos taken, List.map_cons, receivePdu_beg,
              pduAt_append, after_append spec pdu taken, ih ok, List.map_cons]
          · rename_i refused
            exact absurd (Option.some.inj ok) refused

end Buffer

/-! ### One wakeup -/

section Wakeups

variable {fuel : Nat} {isReady : Bool} {a : Arrival}

theorem unheard_of_notReady {query : Query} (notReady : readyAfter isReady query = false) :
    isReady = false := by
  cases isReady with
  | true => cases query <;> simp [readyAfter] at notReady
  | false => rfl

theorem heard_of_ready {query : Query} (ready : readyAfter isReady query = true)
    (unheard : isReady = false) : query ≠ .noData := by
  rintro rfl
  exact Bool.false_ne_true (unheard.symm.trans ready)

theorem handleMessages_ready (env : ReceiveEnv) {w : Wakeup}
    (ready : readyAfter isReady w.query = true) :
    handleMessages env fuel isReady w = (handleReady env fuel w, true) := by
  cases isReady with
  | true => rfl
  | false =>
      rw [handleMessages, if_neg Bool.false_ne_true]
      cases query : w.query with
      | ready b =>
          rw [query] at ready
          cases b with
          | true => rfl
          | false => cases ready
      | noData =>
          rw [query] at ready
          cases ready
      | failed =>
          rw [query] at ready
          cases ready

/-- A channel that is not ready is not read. -/
theorem handleMessages_notReady (env : ReceiveEnv) {w : Wakeup}
    (notReady : readyAfter isReady w.query = false) (answered : w.query ≠ .failed) :
    (w.query = .noData ∧ handleMessages env fuel isReady w = (some errorNoData, false)) ∨
      (w.query ≠ .noData ∧ handleMessages env fuel isReady w = (some channelRcOk, false)) := by
  have unheard := unheard_of_notReady notReady
  subst unheard
  rw [handleMessages, if_neg Bool.false_ne_true]
  cases query : w.query with
  | ready b =>
      rw [query] at notReady
      have isFalse : b = false := by simpa [readyAfter] using notReady
      subst isFalse
      right
      exact ⟨by rintro ⟨⟩, rfl⟩
  | noData => exact .inl ⟨rfl, rfl⟩
  | failed => exact absurd query answered

/-- What comes of the reads once the channel is ready: all that is delivered is handed on,
or there is an error. -/
theorem handleReady_cases (ordinary : a.Ordinary fuel)
    (ready : readyAfter isReady a.query = true) :
    (a.Served isReady ∧ handleReady a.env fuel a.wakeup = some channelRcOk ∧
      handed fuel isReady a = (a.delivered isReady).map PduBytes.bytes) ∨
    (¬ a.Served isReady ∧
      ∃ error, error ≠ channelRcOk ∧ handleReady a.env fuel a.wakeup = some error) := by
  obtain ⟨env, query, sizeRead, capacity, read⟩ := a
  have heard := heard_of_ready ready
  simp only at ready heard
  cases sizeRead with
  | noData =>
      right
      refine ⟨fun served => (served.2 ready).1 rfl, errorNoData, by decide, rfl⟩
  | failed => exact absurd rfl ordinary.sizeRead
  | bytes n =>
      by_cases some_ : 1 ≤ n
      · have many : ¬ n < 1 := Nat.not_lt.mpr some_
        cases capacity with
        | false =>
            right
            refine ⟨fun served => ?_, channelRcNoMemory, by decide, ?_⟩
            · cases ((served.2 ready).2 n rfl some_).1
            · simp [handleReady, Arrival.wakeup, many]
        | true =>
            cases read with
            | none =>
                right
                refine ⟨fun served => ?_, errorInternalError, by decide, ?_⟩
                · cases ((served.2 ready).2 n rfl some_).2
                · simp [handleReady, Arrival.wakeup, many]
            | some pdus =>
                left
                have parses := ordinary.parses pdus rfl
                refine ⟨⟨heard, fun _ => ⟨by rintro ⟨⟩, fun _ _ _ => ⟨rfl, rfl⟩⟩⟩, ?_, ?_⟩
                · simpa [handleReady, Arrival.wakeup, many] using parses
                · have calls' := @calls_buffer env ordinary.position pdus [] fuel 0 parses
                  simpa [handed, parsedBuffer, Arrival.wakeup, ready, some_, Arrival.delivered]
                    using calls'
      · have few : n < 1 := Nat.lt_of_not_le some_
        left
        refine ⟨⟨heard, fun _ => ⟨by rintro ⟨⟩, ?_⟩⟩, ?_, ?_⟩
        · intro m size many
          exact absurd (SizeRead.bytes.inj size ▸ many) some_
        · simp [handleReady, Arrival.wakeup, few]
        · simp [handed, parsedBuffer, Arrival.wakeup, ready, some_, Arrival.delivered]

/-- At a wakeup that is served to its end the thread hands on what is delivered, and goes
on; at any other it ends. -/
theorem threadFunc_wake (ordinary : a.Ordinary fuel) :
    (a.Served isReady ∧ threadFunc fuel (.running isReady) (.wake a) =
      ((a.delivered isReady).map PduBytes.bytes, .running (readyAfter isReady a.query))) ∨
    (¬ a.Served isReady ∧
      ∃ error, (threadFunc fuel (.running isReady) (.wake a)).2 = .ended error) := by
  cases ready : readyAfter isReady a.query with
  | true =>
      have handles := @handleMessages_ready fuel isReady a.env a.wakeup ready
      rcases handleReady_cases ordinary ready with ⟨served, ok, all⟩ | ⟨unserved, error, bad, ends⟩
      · left
        refine ⟨served, ?_⟩
        simp [threadFunc, handles, ok, all]
      · right
        refine ⟨unserved, error, ?_⟩
        simp [threadFunc, handles, ends, bad]
  | false =>
      have nothing : handed fuel isReady a = [] ∧ a.delivered isReady = [] := by
        simp [handed, parsedBuffer, Arrival.wakeup, Arrival.delivered, ready]
      rcases @handleMessages_notReady fuel isReady a.env a.wakeup ready ordinary.query with
        ⟨idle, handles⟩ | ⟨heard, handles⟩
      · right
        refine ⟨fun served => served.1 (unheard_of_notReady ready) idle, errorNoData, ?_⟩
        simp [threadFunc, handles]
        decide
      · left
        refine ⟨⟨fun _ => heard, fun isTrue => ?_⟩, ?_⟩
        · cases ready.symm.trans isTrue
        · simp [threadFunc, handles, nothing]

end Wakeups

/-- The thread of a context goes on at a wakeup exactly if this one does. -/
theorem listen_goesOn_iff {s : Listening} (running : s.context.receiving.isSome = true)
    (fuel : Nat) (a : Arrival) :
    (listen s (.wake a.env fuel a.wakeup)).2.context.receiving.isSome = true ↔
      (threadFunc fuel (.running s.isReady) (.wake a)).2 =
        .running (listen s (.wake a.env fuel a.wakeup)).2.isReady := by
  rw [listen, if_pos running, threadFunc]
  rcases handleMessages a.env fuel s.isReady a.wakeup with ⟨_ | error, isReady⟩
  · simp
  · by_cases ok : error = channelRcOk
    · simp [ok, running]
    · simp [ok]

/-! ### Every run -/

section Runs

variable {fuel : Nat}

/-- A thread that has ended hands on nothing. -/
theorem transitions_ended (error : UINT) (waits : List Wait) :
    (transitions (threadFunc fuel) (.ended error) waits).flatMap (·.output) = [] := by
  induction waits with
  | nil => rfl
  | cons wait waits ih =>
      rw [transitions, List.flatMap_cons]
      exact ih

/-- One served wakeup, and what is behind it. -/
theorem outlives_cons {isReady : Bool} {a : Arrival} {waits : List Wait}
    (goesOn : threadFunc fuel (.running isReady) (.wake a) =
      ((a.delivered isReady).map PduBytes.bytes, .running (readyAfter isReady a.query))) :
    Outlives fuel isReady (.wake a :: waits) ↔
      Outlives fuel (readyAfter isReady a.query) waits := by
  constructor
  · rintro ⟨ends, all⟩
    constructor
    · intro before isPrefix error ended
      have stops := ends (.wake a :: before) (List.cons_prefix_cons.mpr ⟨rfl, isPrefix⟩) error
        (by rw [finish, goesOn]; exact ended)
      simpa using stops
    · rw [transitions, List.flatMap_cons, take, goesOn, deliveredPdus, List.map_append] at all
      exact List.append_cancel_left all
  · rintro ⟨ends, all⟩
    constructor
    · intro before isPrefix error ended
      cases before with
      | nil => cases ended
      | cons wait before =>
          obtain ⟨rfl, rest⟩ := List.cons_prefix_cons.mp isPrefix
          rw [finish, goesOn] at ended
          exact List.mem_cons_of_mem _ (ends before rest error ended)
    · rw [transitions, List.flatMap_cons, take, goesOn, all, deliveredPdus, List.map_append]

/-- If every query and size read succeeds or has nothing yet, and every buffer parses
without error, then the thread ends only after the stop event and hands on all that is
delivered before it exactly if every wakeup before it is served to its end. -/
theorem outlives_iff (isReady : Bool) (waits : List Wait)
    (wakes : ∀ error, Wait.failed error ∉ waits)
    (ordinary : ∀ a, Wait.wake a ∈ waits → a.Ordinary fuel) :
    Outlives fuel isReady waits ↔ AllServed isReady waits := by
  induction waits generalizing isReady with
  | nil =>
      refine iff_of_true ⟨?_, rfl⟩ trivial
      intro before isPrefix error ended
      rw [List.prefix_nil.mp isPrefix] at ended
      cases ended
  | cons wait waits ih =>
      have ih' := fun isReady => ih isReady
        (fun error mem => wakes error (List.mem_cons_of_mem _ mem))
        fun a mem => ordinary a (List.mem_cons_of_mem _ mem)
      cases wait with
      | failed error => exact absurd List.mem_cons_self (wakes error)
      | stop =>
          refine iff_of_true ⟨?_, transitions_ended channelRcOk waits⟩ trivial
          intro before isPrefix error ended
          cases before with
          | nil => cases ended
          | cons wait before =>
              obtain ⟨rfl, -⟩ := List.cons_prefix_cons.mp isPrefix
              exact List.mem_cons_self
      | wake a =>
          rcases threadFunc_wake (ordinary a List.mem_cons_self) with
            ⟨served, goesOn⟩ | ⟨unserved, error, ends⟩
          · rw [outlives_cons goesOn, ih', AllServed, and_iff_right served]
          · refine iff_of_false (fun outlives => ?_) fun all => unserved all.1
            have stops := outlives.ends [.wake a] (List.cons_prefix_cons.mpr ⟨rfl, List.nil_prefix⟩)
              error ends
            cases List.mem_singleton.mp stops

end Runs

/-! ### An idle wakeup -/

/-- A CAPS PDU. -/
def capsPdu : PduBytes := ⟨capsBuffer 42, by decide, by decide⟩

/-- The channel is ready, and a CAPS PDU is there. -/
def capsArrival : Arrival := ⟨plainEnv, .ready true, .bytes 42, true, some [capsPdu]⟩

/-- The channel is ready, and nothing is there yet. -/
def idleArrival : Arrival := ⟨plainEnv, .ready true, .noData, true, none⟩

theorem ordinary_capsArrival : capsArrival.Ordinary 6 := by
  refine ⟨plainEnv_spec, nofun, nofun, ?_⟩
  rintro pdus ⟨⟩
  decide

theorem ordinary_idleArrival : idleArrival.Ordinary 6 := by
  refine ⟨plainEnv_spec, nofun, nofun, ?_⟩
  rintro pdus ⟨⟩

theorem outlives_iff_caps : Outlives 6 false [.wake capsArrival, .stop] := by
  refine (outlives_iff false [.wake capsArrival, .stop] ?_ ?_).mpr ⟨⟨nofun, ?_⟩, trivial⟩
  · intro error mem
    simp at mem
  · intro a mem
    have isCaps : a = capsArrival := by simpa using mem
    rw [isCaps]
    exact ordinary_capsArrival
  · exact fun _ => ⟨nofun, fun _ _ _ => ⟨rfl, rfl⟩⟩

/-- The thread ends at the idle wakeup, and the PDU behind it is handed to no one. -/
theorem idle_ends_thread :
    idleArrival.Ordinary 6 ∧ capsArrival.Ordinary 6 ∧
      finish (threadFunc 6) (.running false) [.wake idleArrival] = .ended errorNoData ∧
      (transitions (threadFunc 6) (.running false)
        [.wake idleArrival, .wake capsArrival, .stop]).flatMap (·.output) = [] ∧
      ¬ Outlives 6 false [.wake idleArrival, .wake capsArrival, .stop] := by
  have ended : finish (threadFunc 6) (.running false) [.wake idleArrival] =
      .ended errorNoData := by decide
  refine ⟨ordinary_idleArrival, ordinary_capsArrival, ended, by decide, fun outlives => ?_⟩
  have stops := outlives.ends [.wake idleArrival] ⟨_, rfl⟩ errorNoData ended
  cases List.mem_singleton.mp stops

end Wslg.Server
