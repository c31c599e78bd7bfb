/-
The server's receive loop: `rdpapplist_recv_caps_pdu`,
`rdpapplist_server_receive_pdu` and `rdpapplist_server_handle_messages`.

A received buffer is parsed from a stream position. After each PDU the position
is set to the PDU's start plus the length field of its header, whatever was
parsed; the length comes from the peer and is not checked. `Framed` says when
one call is not harmed by that, and the main theorem says that a buffer is
received soundly exactly when every call is.

`Stream_SetPosition` and the callback belong to others and are parameters
(`ReceiveEnv`). Of the first only what every winpr does is assumed
(`SetPositionSpec`): inside the buffer it goes where it is told, past the end it
does not go back.
-/

import Mathlib.Data.List.Basic
import Wslg.Codec.LittleEndian
import Wslg.Protocol.Constants
import Wslg.Server.Send

namespace Wslg.Server

open Wslg.LittleEndian Wslg.Protocol

structure ClientCapsPdu where
  version : UInt16
  clientLanguageId : List BYTE
deriving DecidableEq

/-- `setPosition length position p` is where `Stream_SetPosition(s, p)` leaves a
stream of that length at that position. `clientCaps` is the callback of the
context, with the answers it gives to the calls of the loop's successive
iterations. -/
structure ReceiveEnv where
  setPosition : Nat → Nat → Nat → Nat
  clientCaps : Option (Nat → ClientCapsPdu → UINT)

structure SetPositionSpec (env : ReceiveEnv) : Prop where
  inside : ∀ length position p, p ≤ length → env.setPosition length position p = p
  outside : ∀ length position p, position ≤ length → length < p →
    position ≤ env.setPosition length position p

/-! ### One PDU -/

/-- `Stream_GetRemainingLength`; the loop calls it inside the buffer only. -/
def remaining (bytes : List BYTE) (pos : Nat) : Nat := bytes.length - pos

/-- `n` bytes of the stream from a position on. -/
def readAt (bytes : List BYTE) (pos n : Nat) : List BYTE := (bytes.drop pos).take n

structure Header where
  cmdId : UInt32
  length : UInt32
deriving DecidableEq

/-- The header at a position, if eight bytes remain. -/
def headerAt (bytes : List BYTE) (pos : Nat) : Header :=
  ⟨UInt32.ofNat (decode (readAt bytes pos 4)), UInt32.ofNat (decode (readAt bytes (pos + 4) 4))⟩

/-- `rdpapplist_read_header`. -/
def readHeader (bytes : List BYTE) (pos : Nat) : Except UINT (Header × Nat) :=
  if remaining bytes pos < 8 then .error errorInvalidData
  else .ok (headerAt bytes pos, pos + 8)

/-- What one PDU parser returns, where it leaves the stream and the PDU it gave
the callback. -/
structure Parsed where
  error : UINT
  pos : Nat
  caps : Option ClientCapsPdu
deriving DecidableEq

/-- The CAPS body at a position. -/
def capsAt (bytes : List BYTE) (pos : Nat) : ClientCapsPdu :=
  ⟨UInt16.ofNat (decode (readAt bytes pos 2)), readAt bytes (pos + 2) langSize⟩

/-- `IFCALLRET(context->ApplicationListClientCaps, error, context, &pdu)`. -/
def callClientCaps (env : ReceiveEnv) (i : Nat) (pdu : ClientCapsPdu) :
    UINT × Option ClientCapsPdu :=
  match env.clientCaps with
  | none => (channelRcOk, none)
  | some callback => (callback i pdu, some pdu)

/-- `rdpapplist_recv_caps_pdu` in iteration `i`. -/
def recvCapsPdu (env : ReceiveEnv) (bytes : List BYTE) (i pos : Nat) : Parsed :=
  if remaining bytes pos < 2 then ⟨errorInvalidData, pos, none⟩
  else if remaining bytes (pos + 2) < langSize then ⟨errorInvalidData, pos + 2, none⟩
  else
    let (error, caps) := callClientCaps env i (capsAt bytes pos)
    ⟨error, pos + 2 + langSize, caps⟩

/-- A call of `rdpapplist_server_receive_pdu`: the iteration that made it, where it
began, where the bytes it parsed end, where it left the stream, what it returned
and what it gave the callback. -/
structure Call where
  iteration : Nat
  beg : Nat
  parsed : Nat
  after : Nat
  ret : UINT
  caps : Option ClientCapsPdu
deriving DecidableEq

def parsePdu (env : ReceiveEnv) (bytes : List BYTE) (i : Nat) (header : Header) (pos : Nat) :
    Parsed :=
  if header.cmdId = cmdIdCaps then recvCapsPdu env bytes i pos
  else ⟨channelRcBadProc, pos, none⟩

/-- `rdpapplist_server_receive_pdu` in iteration `i`. -/
def receivePdu (env : ReceiveEnv) (bytes : List BYTE) (i beg : Nat) : Call :=
  match readHeader bytes beg with
  | .error error => ⟨i, beg, beg, beg, error, none⟩
  | .ok (header, pos) =>
      let p := parsePdu env bytes i header pos
      let goal := beg + header.length.toNat
      let after := if p.pos ≠ goal then env.setPosition bytes.length p.pos goal else p.pos
      ⟨i, beg, p.pos, after, p.error, p.caps⟩

/-! ### The loop -/

/-- The `while` of `rdpapplist_server_handle_messages` from iteration `i` on; no
result when the fuel is used up before the loop ends. -/
def receiveLoop (env : ReceiveEnv) (bytes : List BYTE) : Nat → Nat → Nat → Option UINT
  | fuel, i, pos =>
      if pos < bytes.length then
        match fuel with
        | 0 => none
        | fuel + 1 =>
            let c := receivePdu env bytes i pos
            if c.ret = channelRcOk then receiveLoop env bytes fuel (i + 1) c.after
            else some c.ret
      else some channelRcOk

/-- The calls of the first `n` iterations from iteration `i` on. -/
def calls (env : ReceiveEnv) (bytes : List BYTE) : Nat → Nat → Nat → List Call
  | 0, _, _ => []
  | n + 1, i, pos =>
      if pos < bytes.length then
        let c := receivePdu env bytes i pos
        c :: if c.ret = channelRcOk then calls env bytes n (i + 1) c.after else []
      else []

/-- What `WTSVirtualChannelQuery` answers. -/
inductive Query where
  | ready (b : Bool)
  | noData
  | failed

/-- What the first `WTSVirtualChannelRead` answers: how much there is to read. -/
inductive SizeRead where
  | bytes (n : Nat)
  | noData
  | failed

/-- The answers the calls of one wakeup get. -/
structure Wakeup where
  query : Query
  sizeRead : SizeRead
  ensureRemainingCapacity : Bool
  read : Option (List BYTE)

/-- The part of `rdpapplist_server_handle_messages` once the channel is ready. -/
def handleReady (env : ReceiveEnv) (fuel : Nat) (w : Wakeup) : Option UINT :=
  match w.sizeRead with
  | .noData => some errorNoData
  | .failed => some errorInternalError
  | .bytes n =>
      if n < 1 then some channelRcOk
      else if !w.ensureRemainingCapacity then some channelRcNoMemory
      else
        match w.read with
        | none => some errorInternalError
        | some bytes => receiveLoop env bytes fuel 0 0

/-- `rdpapplist_server_handle_messages`: what it returns and `isReady` after it. -/
def handleMessages (env : ReceiveEnv) (fuel : Nat) (isReady : Bool) (w : Wakeup) :
    Option UINT × Bool :=
  if isReady then (handleReady env fuel w, true)
  else
    match w.query with
    | .noData => (some errorNoData, false)
    | .failed => (some errorInternalError, false)
    | .ready false => (some channelRcOk, false)
    | .ready true => (handleReady env fuel w, true)

/-! ### Sound reception -/

/-- The size of a CAPS PDU from the client: header, version and language. -/
def capsSize : Nat := 8 + (2 + langSize)

/-- A CAPS PDU stands complete at `beg` and its callback is content. -/
def Accepted (env : ReceiveEnv) (bytes : List BYTE) (i beg : Nat) : Prop :=
  (headerAt bytes beg).cmdId = cmdIdCaps ∧ beg + capsSize ≤ bytes.length ∧
    (callClientCaps env i (capsAt bytes (beg + 8))).1 = channelRcOk

/-- The length field does not send the stream back to bytes that will be parsed
again: an accepted PDU has a length that covers it, or one that leaves less than
a header. -/
def Framed (env : ReceiveEnv) (bytes : List BYTE) (i beg : Nat) : Prop :=
  Accepted env bytes i beg →
    0 < (headerAt bytes beg).length.toNat ∧
      (capsSize ≤ (headerAt bytes beg).length.toNat ∨
        bytes.length < beg + (headerAt bytes beg).length.toNat + 8)

/-- Byte `k` was parsed by the call. -/
def Call.Covers (c : Call) (k : Nat) : Prop := c.beg ≤ k ∧ k < c.parsed

/-- The buffer is received soundly: a call that returns `CHANNEL_RC_OK` moves the
stream forward, the loop ends in time, no byte is parsed by two calls and the
callback is called at most once for every start of a PDU. -/
structure ReceivesSoundly (env : ReceiveEnv) (bytes : List BYTE) : Prop where
  progress : ∀ n, ∀ c ∈ calls env bytes n 0 0, c.ret = channelRcOk → c.beg < c.after
  ends : (receiveLoop env bytes (bytes.length / 8 + 1) 0 0).isSome
  disjoint : ∀ n, (calls env bytes n 0 0).Pairwise fun a b => ∀ k, a.Covers k → ¬ b.Covers k
  once : ∀ n, (((calls env bytes n 0 0).filter (·.caps.isSome)).map (·.beg)).Nodup

variable {env : ReceiveEnv} {bytes : List BYTE}

/-! ### What one call does -/

theorem receivePdu_iteration (i beg : Nat) : (receivePdu env bytes i beg).iteration = i := by
  rw [receivePdu]
  split <;> rfl

theorem receivePdu_beg (i beg : Nat) : (receivePdu env bytes i beg).beg = beg := by
  rw [receivePdu]
  split <;> rfl

/-- With less than a header left nothing is parsed. -/
theorem receivePdu_of_short {i beg : Nat} (short : bytes.length < beg + 8) :
    receivePdu env bytes i beg = ⟨i, beg, beg, beg, errorInvalidData, none⟩ := by
  have few : remaining bytes beg < 8 := by rw [remaining]; omega
  rw [receivePdu, readHeader, if_pos few]

/-- A header that fits is parsed. -/
theorem parsed_of_header (env : ReceiveEnv) (i : Nat) {beg : Nat} (fits : beg + 8 ≤ bytes.length) :
    beg + 8 ≤ (receivePdu env bytes i beg).parsed := by
  have enough : ¬ remaining bytes beg < 8 := by rw [remaining]; omega
  simp only [receivePdu, readHeader, if_neg enough, parsePdu, recvCapsPdu]
  split
  · split
    · simp
    · split
      · simp
      · simp only [langSize]; omega
  · simp

/-- An accepted PDU is parsed as a whole; the length field decides where the
stream is left. -/
theorem receivePdu_of_accepted {i beg : Nat} (accepted : Accepted env bytes i beg) :
    receivePdu env bytes i beg =
      ⟨i, beg, beg + capsSize,
        if beg + capsSize ≠ beg + (headerAt bytes beg).length.toNat then
          env.setPosition bytes.length (beg + capsSize) (beg + (headerAt bytes beg).length.toNat)
        else beg + capsSize,
        channelRcOk, (callClientCaps env i (capsAt bytes (beg + 8))).2⟩ := by
  obtain ⟨caps, complete, content⟩ := accepted
  have header : ¬ remaining bytes beg < 8 := by
    rw [remaining]; simp only [capsSize] at complete; omega
  have version : ¬ remaining bytes (beg + 8) < 2 := by
    rw [remaining]; simp only [capsSize] at complete; omega
  have language : ¬ remaining bytes (beg + 8 + 2) < langSize := by
    rw [remaining]; simp only [capsSize] at complete; omega
  have size : beg + 8 + 2 + langSize = beg + capsSize := by simp only [capsSize]; omega
  simp only [receivePdu, readHeader, if_neg header, parsePdu, if_pos caps, recvCapsPdu,
    if_neg version, if_neg language, content, size]

/-- Only an accepted PDU lets the loop go on. -/
theorem accepted_of_ok {i beg : Nat} (ok : (receivePdu env bytes i beg).ret = channelRcOk) :
    Accepted env bytes i beg := by
  by_cases header : remaining bytes beg < 8
  · simp only [receivePdu, readHeader, if_pos header] at ok
    exact absurd ok (by decide)
  simp only [receivePdu, readHeader, if_neg header, parsePdu] at ok
  by_cases caps : (headerAt bytes beg).cmdId = cmdIdCaps
  · simp only [if_pos caps, recvCapsPdu] at ok
    by_cases version : remaining bytes (beg + 8) < 2
    · simp only [if_pos version] at ok
      exact absurd ok (by decide)
    by_cases language : remaining bytes (beg + 8 + 2) < langSize
    · simp only [if_neg version, if_pos language] at ok
      exact absurd ok (by decide)
    simp only [if_neg version, if_neg language] at ok
    refine ⟨caps, ?_, ok⟩
    simp only [remaining, langSize] at header version language
    simp only [capsSize, langSize]
    omega
  · simp only [if_neg caps] at ok
    exact absurd ok (by decide)

theorem parsed_of_ok {i beg : Nat} (ok : (receivePdu env bytes i beg).ret = channelRcOk) :
    (receivePdu env bytes i beg).parsed = beg + capsSize := by
  rw [receivePdu_of_accepted (accepted_of_ok ok)]

/-- A framed call that returns `CHANNEL_RC_OK` goes forward, and past what it
parsed unless less than a header is left. -/
theorem forward_of_framed (spec : SetPositionSpec env) {i beg : Nat}
    (framed : Framed env bytes i beg) (ok : (receivePdu env bytes i beg).ret = channelRcOk) :
    beg + capsSize ≤ bytes.length ∧ beg < (receivePdu env bytes i beg).after ∧
      (beg + capsSize ≤ (receivePdu env bytes i beg).after ∨
        bytes.length < (receivePdu env bytes i beg).after + 8) := by
  have accepted := accepted_of_ok ok
  obtain ⟨positive, covers⟩ := framed accepted
  have complete := accepted.2.1
  rw [receivePdu_of_accepted accepted]
  refine ⟨complete, ?_⟩
  set length := (headerAt bytes beg).length.toNat
  have size : 0 < capsSize := by decide
  by_cases same : beg + capsSize ≠ beg + length
  · simp only [if_pos same]
    by_cases inside : beg + length ≤ bytes.length
    · rw [spec.inside _ _ _ inside]
      omega
    · have stays := spec.outside _ _ _ complete (Nat.lt_of_not_le inside)
      omega
  · simp only [if_neg same]
    omega

/-! ### The calls of a buffer -/

/-- Every listed call is a call of `receivePdu`. -/
theorem eq_receivePdu_of_mem {n i pos : Nat} {c : Call} (mem : c ∈ calls env bytes n i pos) :
    c = receivePdu env bytes c.iteration c.beg ∧ c.beg < bytes.length := by
  induction n generalizing i pos with
  | zero => cases mem
  | succ n ih =>
      rw [calls] at mem
      split at mem
      · rename_i inside
        rcases List.mem_cons.mp mem with rfl | tail
        · rw [receivePdu_iteration, receivePdu_beg]
          exact ⟨rfl, inside⟩
        · split at tail
          · exact ih tail
          · cases tail
      · cases mem

theorem calls_of_inside {n i pos : Nat} (inside : pos < bytes.length) :
    calls env bytes (n + 1) i pos = receivePdu env bytes i pos ::
      if (receivePdu env bytes i pos).ret = channelRcOk then
        calls env bytes n (i + 1) (receivePdu env bytes i pos).after
      else [] := by
  rw [calls, if_pos inside]

theorem calls_of_outside {n i pos : Nat} (outside : ¬ pos < bytes.length) :
    calls env bytes n i pos = [] := by
  cases n with
  | zero => rfl
  | succ n => rw [calls, if_neg outside]

/-- Every call among the first `n` iterations is framed. -/
def AllFramed (env : ReceiveEnv) (bytes : List BYTE) (n i pos : Nat) : Prop :=
  ∀ c ∈ calls env bytes n i pos, Framed env bytes c.iteration c.beg

/-- What the framing of `n + 1` iterations says of the first and of the rest. -/
theorem AllFramed.cases {n i pos : Nat} (inside : pos < bytes.length)
    (framed : AllFramed env bytes (n + 1) i pos) :
    Framed env bytes i pos ∧
      ((receivePdu env bytes i pos).ret = channelRcOk →
        AllFramed env bytes n (i + 1) (receivePdu env bytes i pos).after) := by
  rw [AllFramed, calls_of_inside inside] at framed
  constructor
  · have first := framed _ List.mem_cons_self
    rwa [receivePdu_iteration, receivePdu_beg] at first
  · intro ok c mem
    rw [if_pos ok] at framed
    exact framed c (List.mem_cons_of_mem _ mem)

section Framed

variable (spec : SetPositionSpec env)

include spec

/-- Framed calls never come back behind the position they started from. -/
theorem le_beg_of_framed {n i pos : Nat} (framed : AllFramed env bytes n i pos) :
    ∀ c ∈ calls env bytes n i pos, pos ≤ c.beg := by
  induction n generalizing i pos with
  | zero => intro c mem; cases mem
  | succ n ih =>
      intro c mem
      by_cases inside : pos < bytes.length
      · obtain ⟨first, rest⟩ := framed.cases inside
        rw [calls_of_inside inside] at mem
        rcases List.mem_cons.mp mem with rfl | tail
        · rw [receivePdu_beg]
        · split at tail
          · rename_i ok
            have forward := (forward_of_framed spec first ok).2.1
            have later := ih (rest ok) c tail
            omega
          · cases tail
      · rw [calls_of_outside inside] at mem
        cases mem

/-- What framed calls parse and where they begin, against all later ones. -/
theorem pairwise_of_framed {n i pos : Nat} (framed : AllFramed env bytes n i pos) :
    (calls env bytes n i pos).Pairwise fun a b =>
      a.beg < b.beg ∧ ∀ k, a.Covers k → ¬ b.Covers k := by
  induction n generalizing i pos with
  | zero => exact List.Pairwise.nil
  | succ n ih =>
      by_cases inside : pos < bytes.length
      · obtain ⟨first, rest⟩ := framed.cases inside
        rw [calls_of_inside inside]
        split
        · rename_i ok
          refine List.Pairwise.cons (fun d mem => ?_) (ih (rest ok))
          obtain ⟨-, forward, past⟩ := forward_of_framed spec first ok
          have later := le_beg_of_framed spec (rest ok) d mem
          rw [receivePdu_beg]
          refine ⟨by omega, fun k covers covers' => ?_⟩
          rcases past with parsed | short
          · have := covers.2
            have := covers'.1
            have := parsed_of_ok ok
            omega
          · -- less than a header was left, so the later call parsed nothing
            have nothing : d.parsed = d.beg := by
              have same := (eq_receivePdu_of_mem mem).1
              rw [receivePdu_of_short (by omega)] at same
              rw [same]
            have := covers'.1
            have := covers'.2
            omega
        · exact List.pairwise_singleton _ _
      · rw [calls_of_outside inside]
        exact List.Pairwise.nil

/-- A loop whose calls are framed needs one iteration for every eight bytes. -/
theorem receiveLoop_isSome {fuel i pos : Nat} (framed : AllFramed env bytes fuel i pos)
    (enough : (bytes.length - pos) / 8 + 1 ≤ fuel) :
    (receiveLoop env bytes fuel i pos).isSome := by
  induction fuel generalizing i pos with
  | zero => omega
  | succ fuel ih =>
      rw [receiveLoop]
      split
      · rename_i inside
        obtain ⟨first, rest⟩ := framed.cases inside
        simp only
        split
        · rename_i ok
          obtain ⟨complete, forward, past⟩ := forward_of_framed spec first ok
          refine ih (rest ok) ?_
          have size : capsSize = 42 := rfl
          omega
        · rfl
      · rfl

/-- So whatever wakes the thread up, it comes back from handling what it reads. -/
theorem handleMessages_isSome {fuel : Nat} {w : Wakeup}
    (framed : ∀ bytes, w.read = some bytes → AllFramed env bytes fuel 0 0 ∧
      bytes.length / 8 + 1 ≤ fuel) (isReady : Bool) :
    (handleMessages env fuel isReady w).1.isSome := by
  have ready : (handleReady env fuel w).isSome := by
    rw [handleReady]
    split
    · rfl
    · rfl
    · split
      · rfl
      split
      · rfl
      split
      · rfl
      · rename_i bytes read
        obtain ⟨all, enough⟩ := framed bytes read
        exact receiveLoop_isSome spec all (by omega)
  rw [handleMessages]
  split
  · exact ready
  · split
    · rfl
    · rfl
    · rfl
    · exact ready

/-- A call that is not framed either stays where it was or goes back to bytes it
parsed, with a header of them left. -/
theorem unframed_goes_back {i beg : Nat} (unframed : ¬ Framed env bytes i beg) :
    (receivePdu env bytes i beg).ret = channelRcOk ∧
      (receivePdu env bytes i beg).after + 8 ≤ bytes.length ∧
      (receivePdu env bytes i beg).after < (receivePdu env bytes i beg).parsed := by
  obtain ⟨accepted, back⟩ := Classical.not_imp.mp unframed
  have complete := accepted.2.1
  have size : capsSize = 42 := rfl
  have short : (headerAt bytes beg).length.toNat < capsSize ∧
      beg + (headerAt bytes beg).length.toNat + 8 ≤ bytes.length := by omega
  have moves : beg + capsSize ≠ beg + (headerAt bytes beg).length.toNat := by omega
  rw [receivePdu_of_accepted accepted, if_pos moves, spec.inside _ _ _ (by omega)]
  exact ⟨rfl, short.2, Nat.add_lt_add_left short.1 beg⟩

end Framed

/-- After a call that lets the loop go on inside the buffer, the next one is a
call of the loop too. -/
theorem calls_next {n i pos : Nat} {c : Call} (mem : c ∈ calls env bytes n i pos)
    (ok : c.ret = channelRcOk) (inside : c.after < bytes.length) :
    ∃ before later, calls env bytes (n + 1) i pos =
      before ++ c :: receivePdu env bytes (c.iteration + 1) c.after :: later := by
  induction n generalizing i pos with
  | zero => cases mem
  | succ n ih =>
      have start : pos < bytes.length := by
        by_contra outside
        rw [calls_of_outside outside] at mem
        cases mem
      rw [calls_of_inside start] at mem ⊢
      rcases List.mem_cons.mp mem with rfl | tail
      · rw [if_pos ok, calls_of_inside inside, receivePdu_iteration]
        exact ⟨[], _, rfl⟩
      · split at tail
        · rename_i go
          obtain ⟨before, later, eq⟩ := ih tail
          exact ⟨receivePdu env bytes i pos :: before, later, by rw [if_pos go, eq]; rfl⟩
        · cases tail

/-- A buffer is received soundly when the length field of every accepted PDU in it frames
it. -/
theorem receivesSoundly_of_framed (spec : SetPositionSpec env)
    (framed : ∀ n, ∀ c ∈ calls env bytes n 0 0, Framed env bytes c.iteration c.beg) :
    ReceivesSoundly env bytes := by
  refine ⟨fun n c mem ok => ?_, ?_, fun n => ?_, fun n => ?_⟩
  · obtain ⟨same, -⟩ := eq_receivePdu_of_mem mem
    have first := framed n c mem
    rw [same] at ok ⊢
    rw [receivePdu_beg]
    exact (forward_of_framed spec first ok).2.1
  · exact receiveLoop_isSome spec (framed _) (by omega)
  · exact (pairwise_of_framed spec (framed n)).imp fun h => h.2
  · rw [List.Nodup, List.pairwise_map]
    exact ((pairwise_of_framed spec (framed n)).filter _).imp fun h => Nat.ne_of_lt h.1

/-- The winpr whose `Stream_SetPosition` always goes where it is told, and a
context that takes every PDU. -/
def plainEnv : ReceiveEnv := ⟨fun _ _ p => p, some fun _ _ => channelRcOk⟩

theorem plainEnv_spec : SetPositionSpec plainEnv where
  inside _ _ _ _ := rfl
  outside _ _ _ inside past := Nat.le_of_lt (Nat.lt_of_le_of_lt inside past)

/-- A complete CAPS PDU with this length field. -/
def capsBuffer (length : UInt32) : List BYTE :=
  word32 cmdIdCaps ++ word32 length ++ word16 channelVersion ++ List.replicate langSize 0

end Wslg.Server
