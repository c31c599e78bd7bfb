/-
The two parties of the channel.

Server and client run side by side, with what each has sent the other on its way in a queue:
the server's PDUs, and the replies of the client. Any order of sends, deliveries, wakeups of
the receive thread, changes of Windows and closings is a run (`Parties.step`).

Two things hold of every run. What the server's callback is given are the replies of the
CAPS PDUs the client served, each once and in order (`answers_in_order`), and no such message
makes the receive loop go wrong (`takes_replies_soundly`). If the server sends its CAPS first
and everything else only behind the callback, no PDU is turned away for want of a handshake
(`welcome_of_disciplined`).
-/

import Wslg.Channel.Framing
import Wslg.Client.Replies
import Wslg.Server.Receive

namespace Wslg.Channel

open Wslg.LittleEndian Wslg.Protocol Wslg.StateExcept Wslg.Client Wslg.Runs
open Wslg.Server (ServerPdu ClientCapsPdu ReceiveEnv SendEnv UINT Wakeup Query channelRcOk)

variable {ω : Type}

/-! ### A reply, as the server reads it -/

/-- The CAPS PDU of a client with this language. -/
def clientCaps (language : List BYTE) : ClientCapsPdu :=
  ⟨channelVersion, language ++ List.replicate (langSize - language.length) 0⟩

/-- A stretch of a stream is read where it stands. -/
theorem readAt_append (front part rest : List BYTE) {pos n : Nat} (here : front.length = pos)
    (size : part.length = n) : Server.readAt (front ++ (part ++ rest)) pos n = part := by
  subst here size
  rw [Server.readAt, List.drop_left, List.take_left]

/-- The fields of a reply. -/
theorem reply_eq (language : List BYTE) :
    reply language = word32 cmdIdCaps ++ (word32 replySize ++
      (word16 channelVersion ++ (clientCaps language).clientLanguageId)) := by
  rw [reply, clientCaps, List.append_assoc, List.append_assoc]

theorem headerAt_reply (language : List BYTE) :
    Server.headerAt (reply language) 0 = ⟨cmdIdCaps, replySize⟩ := by
  have cmdId : Server.readAt (reply language) 0 4 = word32 cmdIdCaps := by
    rw [reply_eq]
    exact readAt_append [] (word32 cmdIdCaps) _ rfl (length_word32 _)
  have length : Server.readAt (reply language) 4 4 = word32 replySize := by
    rw [reply_eq]
    exact readAt_append (word32 cmdIdCaps) (word32 replySize) _ (length_word32 _) (length_word32 _)
  rw [Server.headerAt, cmdId, length, ofNat_decode_word32, ofNat_decode_word32]

section Reply

variable {language : List BYTE} (short : language.length < langSize)

include short

theorem length_clientLanguageId : (clientCaps language).clientLanguageId.length = langSize := by
  rw [clientCaps, List.length_append, List.length_replicate]
  omega

theorem length_reply : (reply language).length = Server.capsSize := by
  simp only [reply_eq, List.length_append, length_word32, length_word16,
    length_clientLanguageId short]
  rfl

theorem capsAt_reply : Server.capsAt (reply language) 8 = clientCaps language := by
  have version : Server.readAt (reply language) 8 2 = word16 channelVersion := by
    rw [reply_eq, ← List.append_assoc]
    exact readAt_append (word32 cmdIdCaps ++ word32 replySize) (word16 channelVersion) _ (by simp)
      (length_word16 _)
  have id : Server.readAt (reply language) 10 langSize =
      (clientCaps language).clientLanguageId := by
    have last := readAt_append (word32 cmdIdCaps ++ (word32 replySize ++ word16 channelVersion))
      (clientCaps language).clientLanguageId [] (show _ = 10 by simp)
      (length_clientLanguageId short)
    rw [List.append_nil, List.append_assoc, List.append_assoc] at last
    rw [reply_eq, last]
  rw [Server.capsAt, version, id, ofNat_decode_word16]
  rfl

/-- The receive loop parses a reply as one PDU to its end, whatever the callback says. -/
theorem receivePdu_reply (env : ReceiveEnv) :
    Server.receivePdu env (reply language) 0 0 =
      ⟨0, 0, Server.capsSize, Server.capsSize,
        (Server.callClientCaps env 0 (clientCaps language)).1,
        (Server.callClientCaps env 0 (clientCaps language)).2⟩ := by
  have length := length_reply short
  have header : Server.readHeader (reply language) 0 = .ok (⟨cmdIdCaps, replySize⟩, 8) := by
    rw [Server.readHeader, if_neg (by rw [Server.remaining, length]; decide), headerAt_reply]
  have version : ¬ Server.remaining (reply language) 8 < 2 := by
    rw [Server.remaining, length]; decide
  have id : ¬ Server.remaining (reply language) (8 + 2) < langSize := by
    rw [Server.remaining, length]; decide
  simp only [Server.receivePdu, header, Server.parsePdu, if_pos, Server.recvCapsPdu,
    if_neg version, if_neg id, capsAt_reply short]
  rfl

theorem calls_reply (env : ReceiveEnv) (n : Nat) :
    Server.calls env (reply language) (n + 1) 0 0 =
      [Server.receivePdu env (reply language) 0 0] := by
  have length := length_reply short
  rw [Server.calls_of_inside (by rw [length]; decide)]
  split
  · rw [Server.calls_of_outside]
    rw [receivePdu_reply short, length]
    exact Nat.lt_irrefl _
  · rfl

/-- The loop ends behind a reply, with what the callback returned. -/
theorem receiveLoop_reply (env : ReceiveEnv) (fuel : Nat) :
    Server.receiveLoop env (reply language) (fuel + 1) 0 0 =
      some (Server.callClientCaps env 0 (clientCaps language)).1 := by
  have length := length_reply short
  have ended : ∀ fuel i, Server.receiveLoop env (reply language) fuel i Server.capsSize =
      some channelRcOk := by
    intro fuel i
    cases fuel <;> rw [Server.receiveLoop, if_neg (by rw [length]; exact Nat.lt_irrefl _)]
  rw [Server.receiveLoop, if_pos (by rw [length]; decide), receivePdu_reply short]
  simp only
  split
  · rename_i ok
    rw [ended, ok]
  · rfl

/-- The receive loop makes one call for a message, and the call parses the message from its
first byte to its last one and leaves the stream there. -/
structure ParsedOnce (env : ReceiveEnv) (message : List BYTE) : Prop where
  once : ∀ n, Server.calls env message (n + 1) 0 0 = [Server.receivePdu env message 0 0]
  beg : (Server.receivePdu env message 0 0).beg = 0
  parsed : (Server.receivePdu env message 0 0).parsed = message.length
  after : (Server.receivePdu env message 0 0).after = message.length

theorem parsedOnce_reply (env : ReceiveEnv) : ParsedOnce env (reply language) where
  once := calls_reply short env
  beg := Server.receivePdu_beg ..
  parsed := by rw [receivePdu_reply short, length_reply short]
  after := by rw [receivePdu_reply short, length_reply short]

theorem receivesSoundly_reply {env : ReceiveEnv} (spec : Server.SetPositionSpec env) :
    Server.ReceivesSoundly env (reply language) := by
  refine Server.receivesSoundly_of_framed spec fun n c mem accepted => ?_
  cases n with
  | zero => cases mem
  | succ n =>
      rw [calls_reply short, List.mem_singleton] at mem
      have beg : c.beg = 0 := by rw [mem, Server.receivePdu_beg]
      rw [beg, headerAt_reply]
      exact ⟨by decide, Or.inl (by decide)⟩

end Reply

/-! ### A wakeup -/

/-- What WinPR answers the calls of a wakeup, but for the message itself. -/
structure Woken where
  query : Query
  sized : Bool
  ensureRemainingCapacity : Bool
  readable : Bool

/-- The answers of a wakeup that finds these messages in the queue. -/
def Woken.wakeup (w : Woken) (pending : List (List BYTE)) : Wakeup where
  query := w.query
  sizeRead :=
    match pending with
    | [] => .noData
    | message :: _ => if w.sized then .bytes message.length else .failed
  ensureRemainingCapacity := w.ensureRemainingCapacity
  read := if w.readable then pending.head? else none

/-- `WTSVirtualChannelReady` was asked for and there. -/
def queryReady : Query → Bool
  | .ready b => b
  | _ => false

/-- The message a ready channel is read. -/
def readMessage (w : Wakeup) : Option (List BYTE) :=
  match w.sizeRead with
  | .bytes n => if n < 1 then none else if w.ensureRemainingCapacity then w.read else none
  | _ => none

/-- The message that `rdpapplist_server_handle_messages` reads in a wakeup, if it gets that
far. -/
def messageOf (isReady : Bool) (w : Wakeup) : Option (List BYTE) :=
  if isReady || queryReady w.query then readMessage w else none

theorem handleReady_of_message {env : ReceiveEnv} {fuel : Nat} {w : Wakeup} {message : List BYTE}
    (read : readMessage w = some message) :
    Server.handleReady env fuel w = Server.receiveLoop env message fuel 0 0 := by
  rw [readMessage] at read
  rw [Server.handleReady]
  cases size : w.sizeRead with
  | noData => simp only [size] at read; cases read
  | failed => simp only [size] at read; cases read
  | bytes n =>
      simp only [size] at read ⊢
      split at read
      · cases read
      rename_i some_
      rw [if_neg some_]
      split at read
      · rename_i capacity
        simp only [capacity, Bool.not_true, Bool.false_eq_true, if_false, read]
      · cases read

/-- A message that is read is what the loop runs on. -/
theorem handleMessages_of_message {env : ReceiveEnv} {fuel : Nat} {isReady : Bool} {w : Wakeup}
    {message : List BYTE} (read : messageOf isReady w = some message) :
    Server.handleMessages env fuel isReady w = (Server.receiveLoop env message fuel 0 0, true) := by
  rw [messageOf] at read
  split at read
  · rename_i ready
    rw [Server.handleMessages, handleReady_of_message read]
    cases isReady with
    | true => rfl
    | false =>
        cases query : w.query with
        | noData => rw [query] at ready; cases ready
        | failed => rw [query] at ready; cases ready
        | ready b =>
            rw [query] at ready
            cases b with
            | true => rfl
            | false => cases ready
  · cases read

/-! ### The system -/

/-- The server, the client, and what is on its way between them. The queue to the server
stands next to the client's Windows; `answers` is what the server's callback was given. -/
structure Parties (ω : Type) where
  client : ClientState (Online ω)
  toClient : Fifo (List BYTE) := {}
  isReady : Bool := false
  answers : List ClientCapsPdu := []

/-- The channel has just been opened. -/
def Parties.new (w : ω) : Parties ω := { client := .fresh (w, {}) }

def Parties.toServer (p : Parties ω) : Fifo (List BYTE) := p.client.world.2

/-- What can happen: the server calls a sender; the next buffer reaches the client; the
receive thread wakes up; Windows changes by itself; the client's end is closed. -/
inductive Act (ω : Type) where
  | send (env : SendEnv) (pdu : ServerPdu)
  | deliver
  | wake (env : ReceiveEnv) (w : Woken)
  | windows (w : ω)
  | close

/-- What came of it. -/
inductive Report (ω : Type) where
  | sent (sent : Option Server.Sent)
  | received (r : Option (Received (Online ω)))
  | woken (message : Option (List BYTE)) (ret : Option UINT)
  | nothing

namespace Parties

/-- A sender's buffer that the channel took is on its way. -/
def send (env : SendEnv) (pdu : ServerPdu) (p : Parties ω) : Report ω × Parties ω :=
  let sent := pdu.send env
  (.sent sent,
    match sent with
    | some ⟨ret, some buffer⟩ =>
        if ret = channelRcOk then { p with toClient := p.toClient.send buffer } else p
    | _ => p)

/-- `OnDataReceived` gets the next buffer. -/
def deliver (os : Os ω) (p : Parties ω) : Report ω × Parties ω :=
  match p.toClient.pending with
  | [] => (.nothing, p)
  | buffer :: _ =>
      (.received (onDataReceived (withChannel os) p.client buffer),
        { p with
          client := receive (withChannel os) p.client (.data buffer)
          toClient := p.toClient.take })

/-- The receive thread runs `rdpapplist_server_handle_messages` once. A message that is read
is taken out of the queue. -/
def wake (env : ReceiveEnv) (w : Woken) (p : Parties ω) : Report ω × Parties ω :=
  let wakeup := w.wakeup p.toServer.pending
  let message := messageOf p.isReady wakeup
  let fuel := (message.getD []).length / 8 + 1
  let handled := Server.handleMessages env fuel p.isReady wakeup
  (.woken message handled.1,
    match message with
    | none => { p with isReady := handled.2 }
    | some bytes =>
        { p with
          client := { p.client with world := (p.client.world.1, p.toServer.take) }
          isReady := handled.2
          answers := p.answers ++ (Server.calls env bytes fuel 0 0).filterMap (·.caps) })

def step (os : Os ω) (p : Parties ω) : Act ω → Report ω × Parties ω
  | .send env pdu => p.send env pdu
  | .deliver => p.deliver os
  | .wake env w => p.wake env w
  | .windows w =>
      (.nothing,
        { p with client := (Client.step (withChannel os) p.client (.world (w, p.toServer))).2 })
  | .close => (.nothing, { p with client := (Client.step (withChannel os) p.client .close).2 })

end Parties

/-! ### Every reply arrives once -/

/-- The languages a step of the system replied with. -/
def Report.replied : Report ω → List (List BYTE)
  | .received (some r) => repliedBy r.steps
  | _ => []

/-- The receive thread has a callback. -/
def Registered : Act ω → Prop
  | .wake env _ => env.clientCaps.isSome = true
  | _ => True

/-- The replies of the client to the CAPS it served are with the callback or on their way. -/
structure Answered (languages : List (List BYTE)) (p : Parties ω) : Prop where
  short : ∀ language ∈ languages, language.length < langSize
  split : ∃ answered waiting, languages = answered ++ waiting ∧
    p.answers = answered.map clientCaps ∧ p.toServer.delivered = answered.map reply ∧
    p.toServer.pending = waiting.map reply

theorem Answered.of_same {languages : List (List BYTE)} {p p' : Parties ω}
    (h : Answered languages p) (queue : p'.toServer = p.toServer)
    (answers : p'.answers = p.answers) : Answered languages p' := by
  obtain ⟨answered, waiting, all, given, delivered, pending⟩ := h.split
  exact ⟨h.short, answered, waiting, all, by rw [answers, given], by rw [queue, delivered],
    by rw [queue, pending]⟩

/-- What the receive thread reads is the first reply on its way. -/
theorem messageOf_wakeup {isReady : Bool} {w : Woken} {pending : List (List BYTE)}
    {message : List BYTE} (read : messageOf isReady (w.wakeup pending) = some message) :
    ∃ rest, pending = message :: rest := by
  have first : (w.wakeup pending).read = some message := by
    rw [messageOf] at read
    split at read
    · rw [readMessage] at read
      split at read
      · split at read
        · cases read
        · split at read
          · exact read
          · cases read
      · cases read
    · cases read
  simp only [Woken.wakeup] at first
  split at first
  · exact List.head?_eq_some_iff.mp first
  · cases first

/-- Only a delivery and a wakeup touch the queue to the server. -/
theorem Parties.send_eq (env : SendEnv) (pdu : ServerPdu) (p : Parties ω) :
    ∃ q, (p.send env pdu).2 = { p with toClient := q } := by
  simp only [send]
  split
  · split
    · exact ⟨_, rfl⟩
    · exact ⟨_, rfl⟩
  · exact ⟨_, rfl⟩

theorem answered_step (os : Os ω) {languages : List (List BYTE)} {p : Parties ω} {e : Act ω}
    (registered : Registered e) (h : Answered languages p) :
    Answered (languages ++ (p.step os e).1.replied) (p.step os e).2 := by
  cases e with
  | send env pdu =>
      obtain ⟨q, after⟩ := p.send_eq env pdu
      rw [show (p.step os (.send env pdu)).1.replied = [] from rfl, List.append_nil]
      rw [show (p.step os (.send env pdu)).2 = _ from after]
      exact h.of_same rfl rfl
  | deliver =>
      rw [Parties.step, Parties.deliver]
      split
      · rw [show (Report.nothing : Report ω).replied = [] from rfl, List.append_nil]
        exact h
      · rename_i buffer rest buffers
        obtain ⟨short, answered, waiting, rfl, given, delivered, pending⟩ := h
        obtain ⟨r, received⟩ :=
          Option.isSome_iff_exists.mp (onDataReceived_isSome (withChannel os) p.client buffer)
        have replied := replied_of_received received
        rw [received]
        have sent := replied.sent
        rw [Fifo.sent, Fifo.sent, replied.delivered, List.append_assoc, List.append_cancel_left_eq]
          at sent
        refine ⟨?_, answered, waiting ++ repliedBy r.steps, ?_, given, ?_, ?_⟩
        · exact List.forall_mem_append.mpr ⟨short, replied.short⟩
        · rw [List.append_assoc]
          rfl
        · exact replied.delivered.trans delivered
        · rw [List.map_append, ← pending]
          exact sent
  | wake env w =>
      obtain ⟨short, answered, waiting, rfl, given, delivered, pending⟩ := h
      rw [show (p.step os (.wake env w)).1.replied = [] from rfl, List.append_nil]
      rw [Parties.step, Parties.wake]
      cases read : messageOf p.isReady (w.wakeup p.toServer.pending) with
      | none =>
          exact ⟨short, answered, waiting, rfl, given, delivered, pending⟩
      | some message =>
          obtain ⟨rest, first⟩ := messageOf_wakeup read
          rw [first] at pending
          obtain ⟨language, waiting, rfl, rfl, rfl⟩ := List.map_eq_cons_iff.mp pending.symm
          have small : language.length < langSize := short language (by simp)
          obtain ⟨callback, callbackEq⟩ := Option.isSome_iff_exists.mp registered
          simp only
          refine ⟨short, answered ++ [language], waiting, by simp, ?_, ?_, ?_⟩
          · simp only [calls_reply small, receivePdu_reply small, Server.callClientCaps, callbackEq,
              List.filterMap_cons, List.filterMap_nil, List.map_append, List.map_cons, List.map_nil,
              given]
          · show p.toServer.take.delivered = _
            rw [Fifo.take_eq first, List.map_append, delivered]
            rfl
          · show p.toServer.take.pending = _
            rw [Fifo.take_eq first]
  | windows w =>
      rw [show (p.step os (.windows w)).1.replied = [] from rfl, List.append_nil]
      exact h.of_same rfl rfl
  | close =>
      rw [show (p.step os .close).1.replied = [] from rfl, List.append_nil]
      refine h.of_same ?_ rfl
      exact congrArg (fun s => s.world.2) (step_close (withChannel os) p.client).2

/-- The languages of the CAPS a run has served, in order. -/
def languagesOf (ts : List (Transition (Parties ω) (Act ω) (Report ω))) : List (List BYTE) :=
  ts.flatMap (·.output.replied)

theorem answered_run (os : Os ω) (w : ω) {es : List (Act ω)} (registered : ∀ e ∈ es, Registered e) :
    Answered (languagesOf (transitions (Parties.step os) (.new w) es))
      (finish (Parties.step os) (.new w) es) := by
  induction es using List.reverseRecOn with
  | nil => exact ⟨nofun, [], [], rfl, rfl, rfl, rfl⟩
  | append_singleton es e ih =>
      obtain ⟨before, here⟩ := List.forall_mem_append.mp registered
      rw [transitions_append, finish_append, languagesOf, List.flatMap_append, transitions_one,
        List.flatMap_singleton]
      exact answered_step os (here e (List.mem_singleton_self e)) (ih before)

/-- In every run the server's callback was given the replies to the CAPS PDUs the client
served, in their order and each once, but for those that are still on their way. -/
theorem answers_in_order (os : Os ω) (w : ω) (es : List (Act ω))
    (registered : ∀ e ∈ es, Registered e) :
    ∃ answered waiting,
      languagesOf (transitions (Parties.step os) (.new w) es) = answered ++ waiting ∧
      (finish (Parties.step os) (.new w) es).answers = answered.map clientCaps ∧
      (finish (Parties.step os) (.new w) es).toServer.pending = waiting.map reply := by
  obtain ⟨-, answered, waiting, all, given, -, pending⟩ := answered_run os w registered
  exact ⟨answered, waiting, all, given, pending⟩

/-- A wakeup that reads a message, in a state in which the queue holds replies. -/
theorem wake_of_answered {languages : List (List BYTE)} {p : Parties ω} (h : Answered languages p)
    {env : ReceiveEnv} {callback : Nat → ClientCapsPdu → UINT}
    (registered : env.clientCaps = some callback) {w : Woken} {message : List BYTE}
    (read : messageOf p.isReady (w.wakeup p.toServer.pending) = some message) :
    ∃ language ∈ languages, message = reply language ∧
      (p.wake env w).2.answers = p.answers ++ [clientCaps language] ∧
      (p.wake env w).1 = .woken (some message) (some (callback 0 (clientCaps language))) := by
  obtain ⟨short, answered, waiting, rfl, -, -, pending⟩ := h
  obtain ⟨rest, first⟩ := messageOf_wakeup read
  rw [first] at pending
  obtain ⟨language, waiting, rfl, rfl, -⟩ := List.map_eq_cons_iff.mp pending.symm
  have small : language.length < langSize := short language (by simp)
  refine ⟨language, by simp, rfl, ?_, ?_⟩
  · simp only [Parties.wake, read, Option.getD_some, calls_reply small, receivePdu_reply small,
      Server.callClientCaps, registered, List.filterMap_cons, List.filterMap_nil]
  · simp only [Parties.wake, read, Option.getD_some, handleMessages_of_message read,
      receiveLoop_reply small, Server.callClientCaps, registered]

/-- In every run, whatever the receive thread reads it parses as one CAPS PDU to its end, in
one call: the callback is called once, what it returns is returned, and no byte is parsed
twice. -/
theorem takes_replies_soundly (os : Os ω) (w : ω) (es : List (Act ω))
    (registered : ∀ e ∈ es, Registered e)
    (t : Transition (Parties ω) (Act ω) (Report ω))
    (mem : t ∈ transitions (Parties.step os) (.new w) es) (env : ReceiveEnv) (woken : Woken)
    (spec : Server.SetPositionSpec env) (wakes : t.input = .wake env woken)
    (message : List BYTE) (ret : Option UINT) (read : t.output = .woken (some message) ret) :
    ∃ language callback, message = reply language ∧ env.clientCaps = some callback ∧
      t.after.answers = t.before.answers ++ [clientCaps language] ∧
      ret = some (callback 0 (clientCaps language)) ∧
      ParsedOnce env message ∧ Server.ReceivesSoundly env message := by
  obtain ⟨ts, ts', split⟩ := List.append_of_mem mem
  obtain ⟨es₁, es₂, rfl, -, taken⟩ := split_transitions split
  have before := answered_run os w fun e here => registered e (List.mem_append_left _ here)
  obtain ⟨callback, callbackEq⟩ := Option.isSome_iff_exists.mp
    (wakes ▸ registered t.input (List.mem_append_right _ List.mem_cons_self))
  rw [wakes] at taken
  subst taken
  have report : (Parties.wake env woken (finish (Parties.step os) (.new w) es₁)).1 =
    .woken (some message) ret := read
  obtain ⟨read', ret'⟩ := Report.woken.inj report
  obtain ⟨language, mem, same, answers, report'⟩ := wake_of_answered before callbackEq read'
  obtain ⟨-, returned⟩ := Report.woken.inj (report.symm.trans report')
  have short := before.short language mem
  refine ⟨language, callback, same, callbackEq, answers, returned, ?_⟩
  rw [same]
  exact ⟨parsedOnce_reply short env, receivesSoundly_reply short spec⟩

/-! ### One PDU in a buffer -/

/-- A PDU that the client takes to its end, if its handler succeeds. -/
structure Deliverable (pdu : ServerPdu) : Prop where
  demands : ClientDemands pdu
  handled : pdu.cmdId ≠ cmdIdDeleteAppListProvider

/-- A buffer with one PDU is one step of the client, or none behind the end of the channel. -/
theorem received_wire (os : Os ω) (s : ClientState ω) {pdu : ServerPdu} (ok : Deliverable pdu) :
    ∃ r, onDataReceived os s pdu.wire = some r ∧
      (s.cb.channelClosed = true ∧ r.steps = [] ∧ receive os s (.data pdu.wire) = s ∨
        s.cb.channelClosed = false ∧
          r.steps = [take (Client.step os) s (.pdu pdu.cmdId (.of pdu.body))] ∧
          receive os s (.data pdu.wire) =
            (Client.step os s (.pdu pdu.cmdId (.of pdu.body))).2) := by
  obtain ⟨r, received⟩ := Option.isSome_iff_exists.mp (onDataReceived_isSome os s pdu.wire)
  have after : receive os s (.data pdu.wire) = (r.steps.getLast?.map (·.after)).getD s := by
    rw [receive, received, Option.bind_some]
  refine ⟨r, received, ?_⟩
  cases isOpen : s.cb.channelClosed with
  | true =>
      rw [onDataReceived, receiveLoop_ended fun more => by rw [isOpen] at more; cases more.2]
        at received
      cases received
      exact Or.inl ⟨rfl, rfl, after⟩
  | false =>
      have one : r.steps = [take (Client.step os) s (.pdu pdu.cmdId (.of pdu.body))] := by
        have more : (Cursor.of pdu.wire).len ≠ 0 := by
          show pdu.wire.length ≠ 0
          rw [ServerPdu.length_wire]
          omega
        have read := readAppListHeader_wire pdu []
        rw [List.append_nil, List.append_nil] at read
        rw [onDataReceived, receiveLoop, if_pos ⟨more, isOpen⟩] at received
        simp only [read, Runs.take] at received
        cases run : dispatch os pdu.cmdId (.of pdu.body) s.start with
        | error e m =>
            rw [step_of_error isOpen run] at received
            cases received
            rw [take, step_of_error isOpen run]
        | ok c m =>
            rw [step_of_ok isOpen run] at received
            have whole := takesBody_dispatch os ok.demands.fields ok.handled [] _ _ _ run
            rw [List.append_nil, run] at whole
            cases whole
            simp only at received
            rw [receiveLoop_ended fun more => more.1 rfl] at received
            cases received
            rw [take, step_of_ok isOpen run]
      exact Or.inr ⟨rfl, one, by rw [after, one]; rfl⟩

/-- A CAPS that is served completes the handshake, with the provider it names. -/
theorem handshake_of_caps {os : Os ω} {p : Server.ServerCapsPdu} (demands : CapsDemands p)
    {c : Cursor} {m m' : Machine ω} (run : onCaps os (.of p.body) m = .ok c m') :
    m'.cb.handShakeComplated = true ∧ CapsHold m'.cb.serverCaps p := by
  obtain ⟨c₁, m₁, read, rest⟩ := bind_eq_ok.mp run
  obtain ⟨_, m₂, applied, last⟩ := bind_eq_ok.mp rest
  cases last
  obtain ⟨hr, m₃, prepared, finish⟩ := bind_eq_ok.mp applied
  obtain ⟨provider, command, rfl, rfl⟩ := prepareHandshake_eq_ok.mp prepared
  obtain ⟨caps, holds, reads⟩ := reads_caps demands m.cb.serverCaps
  have body := reads.run []
  rw [List.append_nil] at body
  rw [readServerCaps, readAppListServerCaps, body] at read
  cases read
  rw [finishHandshake_apply] at finish
  split at finish
  · cases finish
    exact ⟨rfl, holds⟩
  · cases finish

/-! ### The server waits -/

/-- The server sends PDUs that can be delivered, its CAPS first and everything else only
behind the callback. -/
def Disciplined (t : Transition (Parties ω) (Act ω) (Report ω)) : Prop :=
  ∀ env pdu, t.input = .send env pdu → Deliverable pdu ∧
    (pdu.cmdId = cmdIdCaps → t.before.toClient.sent = []) ∧
    (pdu.cmdId ≠ cmdIdCaps → t.before.answers ≠ [])

/-- The handshake with the provider that the server announced is complete. -/
def Shaken (p : Parties ω) : Prop :=
  p.client.cb.handShakeComplated = true ∧
    ∃ caps rest, p.toClient.sent = (ServerPdu.caps caps).wire :: rest ∧
      CapsHold p.client.cb.serverCaps caps

/-- What a server that waits has brought about. -/
structure Orderly (p : Parties ω) : Prop where
  sent : p.toClient.sent = [] ∨ ∃ caps rest, Deliverable (.caps caps) ∧
    p.toClient.sent = (ServerPdu.caps caps).wire :: rest.map ServerPdu.wire ∧
    (∀ pdu ∈ rest, Deliverable pdu ∧ pdu.cmdId ≠ cmdIdCaps) ∧
    (rest ≠ [] → p.answers ≠ [])
  answered : p.answers ≠ [] → p.toServer.delivered ≠ []
  replied : p.toServer.sent ≠ [] → p.toClient.delivered ≠ [] ∧ Shaken p

/-- A callback that was called has seen a reply, so the handshake is complete. -/
theorem Orderly.shaken {p : Parties ω} (h : Orderly p) (answered : p.answers ≠ []) :
    p.toClient.delivered ≠ [] ∧ Shaken p :=
  h.replied fun none_ => h.answered answered (List.append_eq_nil_iff.mp none_).1

/-- The next PDU on its way to the client: the CAPS, with no reply to it yet, or another,
behind the handshake. -/
theorem Orderly.next {p : Parties ω} (h : Orderly p) {buffer : List BYTE} {rest : List (List BYTE)}
    (pending : p.toClient.pending = buffer :: rest) :
    (∃ caps, Deliverable (.caps caps) ∧ buffer = (ServerPdu.caps caps).wire ∧
      p.toServer.sent = [] ∧ ∃ later, p.toClient.sent = buffer :: later) ∨
    ∃ pdu, Deliverable pdu ∧ buffer = pdu.wire ∧ pdu.cmdId ≠ cmdIdCaps ∧ Shaken p := by
  rcases h.sent with none_ | ⟨caps, others, ok, sent, deliverable, gate⟩
  · rw [Fifo.sent, pending] at none_
    exact absurd (List.append_eq_nil_iff.mp none_).2 (List.cons_ne_nil _ _)
  rw [Fifo.sent, pending] at sent
  cases before : p.toClient.delivered with
  | nil =>
      rw [before, List.nil_append] at sent
      obtain ⟨rfl, rfl⟩ := List.cons.inj sent
      refine Or.inl ⟨caps, ok, rfl, ?_, _, by rw [Fifo.sent, before, pending, List.nil_append]⟩
      by_contra some_
      exact (h.replied some_).1 before
  | cons first delivered =>
      rw [before, List.cons_append] at sent
      obtain ⟨-, tail⟩ := List.cons.inj sent
      have mem : buffer ∈ others.map ServerPdu.wire := by
        rw [← tail]
        exact List.mem_append_right _ List.mem_cons_self
      obtain ⟨pdu, listed, rfl⟩ := List.mem_map.mp mem
      obtain ⟨good, other⟩ := deliverable pdu listed
      exact Or.inr ⟨pdu, good, rfl, other, (h.shaken (gate (List.ne_nil_of_mem listed))).2⟩

theorem Orderly.send {p : Parties ω} (h : Orderly p) (env : SendEnv) {pdu : ServerPdu}
    (ok : Deliverable pdu) (first : pdu.cmdId = cmdIdCaps → p.toClient.sent = [])
    (later : pdu.cmdId ≠ cmdIdCaps → p.answers ≠ []) : Orderly (p.send env pdu).2 := by
  rw [Parties.send]
  simp only
  split
  · rename_i ret buffer emitted
    split
    · obtain rfl : buffer = pdu.wire := Emitted.eq_wire ⟨ret, emitted⟩ ok.demands
      have queue : (p.toClient.send pdu.wire).sent = p.toClient.sent ++ [pdu.wire] :=
        Fifo.sent_send _ _
      refine ⟨?_, h.answered, fun replied => ⟨(h.replied replied).1, ?_⟩⟩
      · refine Or.inr ?_
        show ∃ caps rest, _ ∧ (p.toClient.send pdu.wire).sent = _ ∧ _ ∧ _
        rw [queue]
        by_cases isCaps : pdu.cmdId = cmdIdCaps
        · rw [first isCaps]
          cases pdu with
          | caps caps => exact ⟨caps, [], ok, rfl, List.forall_mem_nil _, fun h => absurd rfl h⟩
          | updateAppList _ => cases isCaps
          | deleteAppList _ => cases isCaps
          | deleteAppListProvider _ => cases isCaps
          | associateWindowId _ => cases isCaps
        · have answered := later isCaps
          obtain ⟨-, -, caps, _, sent, -⟩ := h.shaken answered
          rcases h.sent with none_ | ⟨caps, rest, good, sent, deliverable, -⟩
          · rw [none_] at sent
            cases sent
          · refine ⟨caps, rest ++ [pdu], good, ?_, ?_, fun _ => answered⟩
            · rw [sent, List.map_append]
              rfl
            · exact List.forall_mem_append.mpr
                ⟨deliverable, List.forall_mem_singleton.mpr ⟨ok, isCaps⟩⟩
      · obtain ⟨complete, caps, rest, sent, holds⟩ := (h.replied replied).2
        exact ⟨complete, caps, rest ++ [pdu.wire], by rw [queue, sent]; rfl, holds⟩
    · exact h
  · exact h

theorem Orderly.wake {p : Parties ω} (h : Orderly p) (env : ReceiveEnv) (w : Woken) :
    Orderly (p.wake env w).2 := by
  rw [Parties.wake]
  cases read : messageOf p.isReady (w.wakeup p.toServer.pending) with
  | none => exact ⟨h.sent, h.answered, h.replied⟩
  | some message =>
      obtain ⟨rest, first⟩ := messageOf_wakeup read
      have taken : p.toServer.take.delivered = p.toServer.delivered ++ [message] := by
        rw [Fifo.take_eq first]
      refine ⟨?_, fun _ => ?_, fun replied => ?_⟩
      · refine h.sent.imp_right ?_
        rintro ⟨caps, others, ok, sent, deliverable, gate⟩
        exact ⟨caps, others, ok, sent, deliverable, fun some_ none_ =>
          gate some_ (List.append_eq_nil_iff.mp none_).1⟩
      · show p.toServer.take.delivered ≠ []
        rw [taken]
        exact List.append_ne_nil_of_right_ne_nil _ (List.cons_ne_nil _ _)
      · have before : p.toServer.sent ≠ [] := by
          rw [← Fifo.sent_take]
          exact replied
        exact h.replied before

/-- A buffer that reaches the client leaves the order as it is, if a reply comes only from a
client with a handshake. -/
theorem Orderly.of_delivered {p : Parties ω} (h : Orderly p) {buffer : List BYTE}
    {rest : List (List BYTE)} (pending : p.toClient.pending = buffer :: rest)
    {client : ClientState (Online ω)} (delivered : client.world.2.delivered = p.toServer.delivered)
    (shaken : client.world.2.sent ≠ [] → Shaken { p with client := client }) :
    Orderly { p with client := client, toClient := p.toClient.take } := by
  have sent : p.toClient.take.sent = p.toClient.sent := Fifo.sent_take _
  refine ⟨?_, ?_, fun replied => ⟨?_, ?_⟩⟩
  · show p.toClient.take.sent = [] ∨ _
    rw [sent]
    exact h.sent
  · show p.answers ≠ [] → client.world.2.delivered ≠ []
    rw [delivered]
    exact h.answered
  · show p.toClient.take.delivered ≠ []
    rw [Fifo.take_eq pending]
    exact List.append_ne_nil_of_right_ne_nil _ (List.cons_ne_nil _ _)
  · obtain ⟨complete, caps, others, first, holds⟩ := shaken replied
    exact ⟨complete, caps, others, sent.trans first, holds⟩

/-- Behind the handshake a PDU that is no CAPS leaves it complete. -/
theorem Shaken.keeps {p : Parties ω} (shaken : Shaken p) {os : Os ω} {pdu : ServerPdu}
    (other : pdu.cmdId ≠ cmdIdCaps) (isOpen : p.client.cb.channelClosed = false) :
    Shaken { p with
      client := (Client.step (withChannel os) p.client (.pdu pdu.cmdId (.of pdu.body))).2 } := by
  have provider : (Client.step (withChannel os) p.client
      (.pdu pdu.cmdId (.of pdu.body))).2.cb.provider = p.client.cb.provider := by
    have keeps := keepsProvider_dispatch (withChannel os) other (.of pdu.body) p.client.start
    rw [step_of_open isOpen, (runHandler_eq _ _ _).2]
    exact keeps
  obtain ⟨complete, caps, rest, sent, holds⟩ := shaken
  refine ⟨?_, caps, rest, sent, ?_⟩
  · exact (congrArg Callback.handShakeComplated provider).trans complete
  · have same := congrArg Callback.serverCaps provider
    show CapsHold (Client.step (withChannel os) p.client _).2.cb.serverCaps caps
    rw [show (Client.step (withChannel os) p.client _).2.cb.serverCaps = _ from same]
    exact holds

theorem Orderly.deliver {p : Parties ω} (h : Orderly p) (os : Os ω) :
    Orderly (p.deliver os).2 := by
  rw [Parties.deliver]
  split
  · exact h
  rename_i buffer rest pending
  obtain ⟨r, received⟩ :=
    Option.isSome_iff_exists.mp (onDataReceived_isSome (withChannel os) p.client buffer)
  refine h.of_delivered pending (replied_of_received received).delivered fun replied => ?_
  rcases h.next pending with ⟨caps, ok, rfl, silent, later, sent⟩ | ⟨pdu, ok, rfl, other, shaken⟩
  · obtain ⟨-, -, ⟨-, -, same⟩ | ⟨isOpen, -, after⟩⟩ := received_wire (withChannel os) p.client ok
    · rw [same] at replied
      exact absurd silent replied
    rw [after] at replied ⊢
    have handler : dispatch (withChannel os) (ServerPdu.caps caps).cmdId =
        onCaps (withChannel os) := rfl
    cases run : onCaps (withChannel os) (.of (ServerPdu.caps caps).body) p.client.start with
    | ok c m =>
        rw [step_of_ok isOpen (handler ▸ run)]
        obtain ⟨complete, holds⟩ := handshake_of_caps ok.demands.fields run
        exact ⟨complete, caps, later, sent, holds⟩
    | error e m =>
        rw [step_of_error isOpen (handler ▸ run)] at replied
        have queue : m.world.2 = p.client.world.2 := (queue_of_onCaps os _ _).2 e m run
        exact absurd ((congrArg Fifo.sent queue).trans silent) replied
  · obtain ⟨-, -, ⟨-, -, same⟩ | ⟨isOpen, -, after⟩⟩ := received_wire (withChannel os) p.client ok
    · rw [same]
      exact shaken
    · rw [after]
      exact shaken.keeps other isOpen

theorem orderly_step (os : Os ω) {t : Transition (Parties ω) (Act ω) (Report ω)}
    (taken : Taken (Parties.step os) t) (disciplined : Disciplined t) (h : Orderly t.before) :
    Orderly t.after := by
  obtain ⟨p, e, report, p'⟩ := t
  obtain rfl : (p.step os e).2 = p' := congrArg Prod.snd taken
  cases e with
  | send env pdu =>
      obtain ⟨ok, first, later⟩ := disciplined env pdu rfl
      exact h.send env ok first later
  | deliver => exact h.deliver os
  | wake env w => exact h.wake env w
  | windows w => exact ⟨h.sent, h.answered, h.replied⟩
  | close =>
      rw [Parties.step, (step_close (withChannel os) p.client).2]
      exact ⟨h.sent, h.answered, h.replied⟩

/-- A PDU that the client takes is one of the server's; one that is no CAPS meets a client that
has completed the handshake with the provider the server announced. -/
def Welcome (p : Parties ω) (s : Step (Online ω)) : Prop :=
  ∃ pdu : ServerPdu, s.input = .pdu pdu.cmdId (.of pdu.body) ∧ pdu.wire ∈ p.toClient.sent ∧
    (pdu.cmdId ≠ cmdIdCaps → s.before.cb.handShakeComplated = true ∧
      ∃ caps rest, p.toClient.sent = (ServerPdu.caps caps).wire :: rest ∧
        CapsHold s.before.cb.serverCaps caps)

/-- If the server sends its CAPS first and everything else only behind the callback, every
buffer is one PDU for the client, and none is turned away for want of a handshake, in whatever
order things happen. -/
theorem welcome_of_disciplined (os : Os ω) (w : ω) (es : List (Act ω))
    (disciplined : ∀ t ∈ transitions (Parties.step os) (.new w) es, Disciplined t)
    (t : Transition (Parties ω) (Act ω) (Report ω))
    (mem : t ∈ transitions (Parties.step os) (.new w) es) (r : Received (Online ω))
    (delivered : t.output = .received (some r)) :
    r.steps.length ≤ 1 ∧ ∀ s ∈ r.steps, Welcome t.before s := by
  have orderly : Orderly t.before := (invariant_transitions (fun _ => orderly_step os)
    ⟨Or.inl rfl, fun answered => absurd rfl answered, fun replied => absurd rfl replied⟩
    disciplined t mem).1
  have taken := taken_of_mem mem
  obtain ⟨p, e, report, p'⟩ := t
  obtain rfl : (p.step os e).1 = report := congrArg Prod.fst taken
  cases e with
  | send env pdu => cases delivered
  | wake env w => cases delivered
  | windows w => cases delivered
  | close => cases delivered
  | deliver =>
      change (p.deliver os).1 = .received (some r) at delivered
      rw [Parties.deliver] at delivered
      split at delivered
      · cases delivered
      rename_i buffer rest pending
      have received : onDataReceived (withChannel os) p.client buffer = some r :=
        Report.received.inj delivered
      have listed := Fifo.mem_sent_of_pending pending
      have one : ∀ pdu : ServerPdu, Deliverable pdu → buffer = pdu.wire →
          (pdu.cmdId ≠ cmdIdCaps → Shaken p) → r.steps.length ≤ 1 ∧ ∀ s ∈ r.steps, Welcome p s := by
        rintro pdu ok rfl shaken
        obtain ⟨r', received', steps⟩ := received_wire (withChannel os) p.client ok
        obtain rfl : r' = r := Option.some.inj (received'.symm.trans received)
        rcases steps with ⟨-, none_, -⟩ | ⟨-, one, -⟩
        · rw [none_]
          exact ⟨Nat.zero_le _, List.forall_mem_nil _⟩
        · rw [one]
          exact ⟨Nat.le_refl _, List.forall_mem_singleton.mpr ⟨pdu, rfl, listed, shaken⟩⟩
      rcases orderly.next pending with ⟨caps, ok, same, -⟩ | ⟨pdu, ok, same, -, shaken⟩
      · exact one (.caps caps) ok same fun other => absurd rfl other
      · exact one pdu ok same fun _ => shaken

/-! ### A run -/

theorem greetingName_fits : (bytes (wide "U")).length < 2 ^ 16 := by decide

theorem greetingId_fits : (bytes (wide "id")).length < 2 ^ 16 := by decide

def greeting : Server.ServerCapsPdu where
  version := 4
  appListProviderName := text "U" greetingName_fits
  appListProviderUniqueId := text "id" greetingId_fits

theorem greeting_deliverable : Deliverable (.caps greeting) where
  demands := ⟨by decide, ⟨by decide, by decide, by decide⟩⟩
  handled := by decide

theorem associate_deliverable : Deliverable (.associateWindowId associate) :=
  ⟨associate_demands, by decide⟩

/-- WinPR answers every call. -/
def willing : SendEnv := ⟨fun _ => true, fun _ => true⟩

/-- The handshake, and the association of a window behind it. -/
def introduced : List (Act Disk) :=
  [.send willing (.caps greeting), .deliver, .wake Server.plainEnv ⟨.ready true, true, true, true⟩,
    .send willing (.associateWindowId associate), .deliver]

theorem introduced_registered : ∀ e ∈ introduced, Registered e := by
  simp [introduced, Registered, Server.plainEnv]

theorem answers_in_order_introduced :
    languagesOf (transitions (Parties.step diskOs) (.new {}) introduced) ≠ [] ∧
    ∃ answered waiting,
      languagesOf (transitions (Parties.step diskOs) (.new {}) introduced) = answered ++ waiting ∧
      (finish (Parties.step diskOs) (.new {}) introduced).answers = answered.map clientCaps ∧
      (finish (Parties.step diskOs) (.new {}) introduced).toServer.pending = waiting.map reply :=
  ⟨by decide +kernel, answers_in_order diskOs {} introduced introduced_registered⟩

/-- The system where this many steps of the run are behind it. -/
def after (n : Nat) : Parties Disk := finish (Parties.step diskOs) (.new {}) (introduced.take n)

theorem mem_introduced {n : Nat} {e : Act Disk} {es : List (Act Disk)}
    (here : introduced = introduced.take n ++ e :: es) :
    take (Parties.step diskOs) (after n) e ∈
      transitions (Parties.step diskOs) (.new {}) introduced := by
  have mem := @mem_transitions _ _ _ (Parties.step diskOs) (.new {}) (introduced.take n) e es
  rwa [← here] at mem

/-- The wakeup that reads the reply. -/
def woke : Transition (Parties Disk) (Act Disk) (Report Disk) :=
  take (Parties.step diskOs) (after 2) (.wake Server.plainEnv ⟨.ready true, true, true, true⟩)

theorem takes_replies_soundly_introduced :
    ∃ message language callback, message = reply language ∧
      Server.plainEnv.clientCaps = some callback ∧
      woke.after.answers = woke.before.answers ++ [clientCaps language] ∧
      ParsedOnce Server.plainEnv message ∧ Server.ReceivesSoundly Server.plainEnv message := by
  have woken : (messageOf (after 2).isReady
      (Woken.wakeup ⟨.ready true, true, true, true⟩ (after 2).toServer.pending)).isSome = true := by
    decide +kernel
  obtain ⟨message, read⟩ := Option.isSome_iff_exists.mp woken
  obtain ⟨ret, output⟩ : ∃ ret, woke.output = .woken (some message) ret := by
    simp only [woke, take, Parties.step, Parties.wake, read]
    exact ⟨_, rfl⟩
  obtain ⟨language, callback, same, registered, answers, -, parsed, sound⟩ :=
    takes_replies_soundly diskOs {} introduced introduced_registered woke (mem_introduced rfl)
      Server.plainEnv ⟨.ready true, true, true, true⟩ Server.plainEnv_spec rfl message ret output
  exact ⟨message, language, callback, same, registered, answers, parsed, sound⟩

theorem introduced_disciplined :
    ∀ t ∈ transitions (Parties.step diskOs) (.new {}) introduced, Disciplined t := by
  have answered : (after 3).answers ≠ [] := by decide +kernel
  have here : transitions (Parties.step diskOs) (.new {}) introduced =
      [take (Parties.step diskOs) (after 0) (.send willing (.caps greeting)),
        take (Parties.step diskOs) (after 1) .deliver,
        take (Parties.step diskOs) (after 2)
          (.wake Server.plainEnv ⟨.ready true, true, true, true⟩),
        take (Parties.step diskOs) (after 3) (.send willing (.associateWindowId associate)),
        take (Parties.step diskOs) (after 4) .deliver] := rfl
  rw [here]
  simp only [List.forall_mem_cons]
  refine ⟨?_, nofun, nofun, ?_, nofun, List.forall_mem_nil _⟩
  · rintro env pdu ⟨⟩
    exact ⟨greeting_deliverable, fun _ => rfl, fun other => absurd rfl other⟩
  · rintro env pdu ⟨⟩
    exact ⟨associate_deliverable, nofun, fun _ => answered⟩

theorem welcome_of_disciplined_introduced :
    ∃ r : Received (Online Disk), r.steps.length = 1 ∧ ∀ s ∈ r.steps, Welcome (after 4) s := by
  have pending : (after 4).toClient.pending = [ServerPdu.wire (.associateWindowId associate)] := by
    decide +kernel
  have isOpen : (after 4).client.cb.channelClosed = false := by decide +kernel
  obtain ⟨r, received, ⟨closed, -⟩ | ⟨-, one, -⟩⟩ :=
    received_wire (withChannel diskOs) (after 4).client associate_deliverable
  · cases isOpen.symm.trans closed
  have delivered : (take (Parties.step diskOs) (after 4) .deliver).output = .received (some r) := by
    simp only [take, Parties.step, Parties.deliver, pending, received]
  obtain ⟨-, welcome⟩ := welcome_of_disciplined diskOs {} introduced introduced_disciplined
    (take (Parties.step diskOs) (after 4) .deliver) (mem_introduced rfl) r delivered
  exact ⟨r, by rw [one]; rfl, welcome⟩

end Wslg.Channel
