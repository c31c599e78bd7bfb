/-
PDU framing: many PDUs in one buffer.

The client does not look at the length in a header. It finds the next PDU where
the handler of the last one left the cursor, so the stream stays in step only if
every handler takes exactly the body its sender wrote. Four of the five do
(`takesBody_dispatch`); nothing takes the body of DELETE_APPLIST_PROVIDER, which
is then read as the header of another PDU.
-/

import Wslg.Channel.RoundTrip
import Wslg.Client.Disk

namespace Wslg.Channel

open Wslg.LittleEndian Wslg.Protocol Wslg.StateExcept Wslg.Client
open Wslg.Server (ServerPdu headerBytes iconBytes)

variable {ω : Type} {os : Os ω}

/-! ### A handler and its body -/

/-- A handler that succeeds on the bytes `body` does the same to the client when
more bytes follow, and leaves those. -/
def TakesBody (x : Cursor → Handler ω Cursor) (body : List BYTE) : Prop :=
  ∀ rest m c m', x (.of body) m = .ok c m' → x (.of (body ++ rest)) m = .ok (.of rest) m'

/-- What reading makes of `body`: the same whatever follows, or a failure. -/
def ReadsBody {α : Type} (read : Cursor → Handler ω α) (cur : α → Cursor)
    (apply : α → Handler ω Unit) (body : List BYTE) (m : Machine ω) : Prop :=
  (∃ (value : List BYTE → α) (m₁ : Machine ω), ∀ rest,
    read (.of (body ++ rest)) m = .ok (value rest) m₁ ∧
      cur (value rest) = .of rest ∧ apply (value rest) = apply (value [])) ∨
    ∃ e m₁, read (.of body) m = .error e m₁

/-- A handler reads its PDU and applies it; only reading looks at the bytes. -/
theorem TakesBody.of_read {α : Type} {read : Cursor → Handler ω α} (cur : α → Cursor)
    (apply : α → Handler ω Unit) {body : List BYTE}
    (reads : ∀ m, ReadsBody read cur apply body m) :
    TakesBody (fun c => read c >>= fun r => apply r >>= fun _ => pure (cur r)) body := by
  intro rest m c m' run
  beta_reduce at run ⊢
  rcases reads m with ⟨value, m₁, always⟩ | ⟨e, m₁, failed⟩
  · obtain ⟨alone, -, -⟩ := always []
    rw [List.append_nil] at alone
    rw [bind_of_ok alone] at run
    obtain ⟨more, behind, same⟩ := always rest
    rw [bind_of_ok more, same, behind]
    obtain ⟨u, m₂, applied, last⟩ := bind_eq_ok.mp run
    cases last
    rw [bind_of_ok applied]
    rfl
  · rw [bind_of_error failed] at run
    cases run

theorem takesBody_onCaps {p : Server.ServerCapsPdu} (ok : CapsDemands p) :
    TakesBody (onCaps os) p.body := by
  refine TakesBody.of_read (fun c => c) (fun _ => applyCaps os) fun m => ?_
  obtain ⟨caps, -, reads⟩ := reads_caps ok m.cb.serverCaps
  refine Or.inl ⟨fun rest => .of rest, { m with cb := { m.cb with serverCaps := caps } },
    fun rest => ⟨?_, rfl, rfl⟩⟩
  rw [readServerCaps, readAppListServerCaps, reads.run rest]

/-- Without a block for the file the icon is not read, whatever follows. -/
theorem icon_unserved {localAlloc : UInt32 → Bool} {i : Server.IconData} (heap : Heap)
    (fits : sizeofIconHeader + sizeofBitmapInfoHeader + i.iconBitsLength.toNat < 2 ^ 32)
    (unserved : localAlloc (UInt32.ofNat
      (sizeofIconHeader + sizeofBitmapInfoHeader + i.iconBitsLength.toNat)) ≠ true)
    (rest : List BYTE) :
    ∃ e s, readAppListIconData localAlloc ⟨{}, heap⟩ (.of (i.toBytes ++ rest)) = (.error e, s) := by
  have words := (reads_orErrorRead (reads_iconWords i heap)) (i.iconBits ++ rest)
  have size := reads_addIconFileSize i heap fits (i.iconBits ++ rest)
  rw [List.nil_append] at size
  have stopped : ∀ s : ReadState IconState,
      s.dest.icon.iconFileSize = UInt32.ofNat
        (sizeofIconHeader + sizeofBitmapInfoHeader + i.iconBitsLength.toNat) →
      allocIconFile localAlloc s = .error (.hresult E_OUTOFMEMORY) s := by
    intro s same
    simp only [allocIconFile, same]
    exact if_neg unserved
  have run : readAppListIconDataBody localAlloc ⟨⟨{}, heap⟩, .of (i.toBytes ++ rest)⟩ =
      .error (.hresult E_OUTOFMEMORY)
        ⟨⟨{ iconWords i with
            iconFileSize := UInt32.ofNat
              (sizeofIconHeader + sizeofBitmapInfoHeader + i.iconBitsLength.toNat) }, heap⟩,
          .of (i.iconBits ++ rest)⟩ := by
    rw [readAppListIconDataBody, bind_of_ok (assign_apply _ _), toBytes_eq_words,
      List.append_assoc, bind_of_ok words, bind_of_ok size]
    exact bind_of_error (stopped _ rfl)
  exact ⟨_, _, by rw [readAppListIconData, runReader, run]⟩

theorem readsBody_update {p : Server.UpdateAppListPdu} (ok : UpdateDemands p) (m : Machine ω) :
    ReadsBody (readUpdate os) (·.cur) (fun r => applyUpdate os r.update r.icon) p.body m := by
  obtain ⟨u, holds, reads⟩ := reads_update ok
  have strings : ∀ rest, readUpdateStrings (.of (p.body ++ rest)) m =
      .ok (.of (iconBytes p.flags p.appIcon ++ rest), u) m := by
    intro rest
    rw [body_eq_updateFields, List.append_assoc, readUpdateStrings, readAppListUpdate,
      reads.run]
  have icon : ∀ rest, readUpdate os (.of (p.body ++ rest)) m =
      (if has p.flags fieldIcon then
        readUpdateIcon os (.of (iconBytes p.flags p.appIcon ++ rest)) >>= fun i =>
          pure ⟨i.1, u, i.2⟩
      else pure ⟨.of (iconBytes p.flags p.appIcon ++ rest), u, {}⟩ : Handler ω UpdateRead) m := by
    intro rest
    rw [readUpdate, bind_of_ok (strings rest), holds.flags]
  by_cases flagged : has p.flags fieldIcon
  · obtain ⟨i, given, fits⟩ := ok.appIcon flagged
    have bytes : iconBytes p.flags p.appIcon = i.toBytes := by
      rw [iconBytes, if_pos flagged, given]
      rfl
    simp only [if_pos flagged, bytes] at icon
    by_cases served : os.localAlloc m.world (UInt32.ofNat
        (sizeofIconHeader + sizeofBitmapInfoHeader + i.iconBitsLength.toNat)) = true
    · obtain ⟨d, heap', -, readsIcon⟩ :=
        reads_icon (os.localAlloc m.world) i {} m.heap fits served
      refine Or.inl ⟨fun rest => ⟨.of rest, u, d⟩, { m with heap := heap' }, fun rest =>
        ⟨?_, rfl, rfl⟩⟩
      have read : readUpdateIcon os (.of (i.toBytes ++ rest)) m =
          .ok (.of rest, d) { m with heap := heap' } := by
        rw [readUpdateIcon, readAppListIconData, readsIcon.run rest]
      rw [icon rest, bind_of_ok read]
      rfl
    · obtain ⟨e, s, failed⟩ := icon_unserved m.heap fits served []
      have read : readUpdateIcon os (.of (i.toBytes ++ [])) m =
          .error e { m with heap := s.heap } := by
        rw [readUpdateIcon, failed]
      refine Or.inr ⟨e, { m with heap := s.heap }, ?_⟩
      have alone := icon []
      rw [List.append_nil] at alone
      rw [alone, bind_of_error read]
  · have bytes : iconBytes p.flags p.appIcon = [] := by rw [iconBytes, if_neg flagged]
    refine Or.inl ⟨fun rest => ⟨.of rest, u, {}⟩, m, fun rest => ⟨?_, rfl, rfl⟩⟩
    rw [icon rest, if_neg flagged, bytes]
    rfl

theorem takesBody_onUpdateAppList {p : Server.UpdateAppListPdu} (ok : UpdateDemands p) :
    TakesBody (onUpdateAppList os) p.body := by
  have taken : TakesBody (fun c => readUpdate os c >>= fun r =>
      applyUpdate os r.update r.icon >>= fun _ => pure r.cur) p.body :=
    TakesBody.of_read UpdateRead.cur _ (readsBody_update ok)
  exact taken

theorem takesBody_onDeleteAppList {p : Server.DeleteAppListPdu} (ok : DeleteDemands p) :
    TakesBody (onDeleteAppList os) p.body := by
  obtain ⟨d, -, reads⟩ := reads_delete ok
  refine TakesBody.of_read Prod.fst (fun r => applyDelete os r.2) fun m => ?_
  refine Or.inl ⟨fun rest => (.of rest, d), m, fun rest => ⟨?_, rfl, rfl⟩⟩
  rw [readDelete, readAppListDelete, reads.run rest]

theorem takesBody_onAssociateWindowId {p : Server.AssociateWindowIdPdu}
    (ok : AssociateDemands p) : TakesBody (onAssociateWindowId os) p.body := by
  obtain ⟨a, -, reads⟩ := reads_associate ok
  have read : TakesBody (fun c => readAssociate c >>= fun r =>
      applyAssociate os r.2 >>= fun _ => pure r.1) p.body := by
    refine TakesBody.of_read Prod.fst (fun r => applyAssociate os r.2) fun m => ?_
    refine Or.inl ⟨fun rest => (.of rest, a), m, fun rest => ⟨?_, rfl, rfl⟩⟩
    rw [readAssociate, readAssociateWindowId, reads.run rest]
  intro rest m c m' run
  simp only [onAssociateWindowId, members_bind, require_bind] at run ⊢
  split at run
  · rename_i version
    rw [if_pos version]
    exact read rest m c m' run
  · cases run

/-- Every handler takes exactly the body of its PDU. -/
theorem takesBody_dispatch (os : Os ω) {pdu : ServerPdu} (demands : FieldDemands pdu)
    (handled : pdu.cmdId ≠ cmdIdDeleteAppListProvider) :
    TakesBody (dispatch os pdu.cmdId) pdu.body := by
  have behindHandshake : ∀ {cmdId body}, cmdId ≠ cmdIdCaps → TakesBody (handle os cmdId) body →
      TakesBody (dispatch os cmdId) body := by
    intro cmdId body other takes rest m c m' run
    rw [dispatch_apply other] at run ⊢
    split at run
    · cases run
    · rename_i complete
      rw [if_neg complete]
      exact takes rest m c m' run
  cases pdu with
  | caps p => exact takesBody_onCaps demands
  | updateAppList p =>
      exact behindHandshake (show cmdIdUpdateAppList ≠ cmdIdCaps by decide)
        (takesBody_onUpdateAppList demands)
  | deleteAppList p =>
      exact behindHandshake (show cmdIdDeleteAppList ≠ cmdIdCaps by decide)
        (takesBody_onDeleteAppList demands)
  | deleteAppListProvider p => exact absurd rfl handled
  | associateWindowId p =>
      exact behindHandshake (show cmdIdAssociateWindowId ≠ cmdIdCaps by decide)
        (takesBody_onAssociateWindowId demands)

/-! ### The stream -/

/-- The bytes of PDUs one after the other. -/
def wires (pdus : List ServerPdu) : List BYTE := pdus.flatMap ServerPdu.wire

/-- Each PDU's handler, run on the body of its PDU alone and after the ones before
it, succeeds. -/
def HandlersSucceed (os : Os ω) : ClientState ω → List ServerPdu → Prop
  | _, [] => True
  | s, pdu :: pdus => ∃ c m, dispatch os pdu.cmdId (.of pdu.body) s.start = .ok c m ∧
      HandlersSucceed os m.state pdus

/-- The steps are those of the PDUs in order: each command gets the cursor at the
start of its body and leaves it at the end. -/
def InStep : List ServerPdu → List (Step ω) → Prop
  | [], [] => True
  | pdu :: pdus, t :: ts =>
      t.input = .pdu pdu.cmdId (.of (pdu.body ++ wires pdus)) ∧ Served t ∧
        t.output.cur = .of (wires pdus) ∧ InStep pdus ts
  | _, _ => False

/-- The loop dispatched the PDUs in order, returned `S_OK` and left no byte. -/
def DispatchesExactly (os : Os ω) (s : ClientState ω) (pdus : List ServerPdu)
    (buffer : List BYTE) : Prop :=
  ∃ r, onDataReceived os s buffer = some r ∧ r.failure = none ∧ r.cur = .of [] ∧
    InStep pdus r.steps

theorem length_wires_cons (pdu : ServerPdu) (pdus : List ServerPdu) :
    (wires (pdu :: pdus)).length = 8 + pdu.body.length + (wires pdus).length := by
  rw [wires, List.flatMap_cons, List.length_append, ServerPdu.length_wire, wires]

/-- The header of a PDU gives its command, and the cursor at its body. -/
theorem readAppListHeader_wire (pdu : ServerPdu) (rest : List BYTE) :
    readAppListHeader (.of (pdu.wire ++ rest)) =
      (.ok (.of (pdu.body ++ rest)),
        ⟨pdu.cmdId, UInt32.ofNat (8 + pdu.body.length)⟩) := by
  have header := (reads_UINT32 (fun v (d : Header) => { d with cmdId := v }) pdu.cmdId {}).bind
    (reads_UINT32 (fun v (d : Header) => { d with length := v })
      (UInt32.ofNat (8 + pdu.body.length)) _)
  rw [ServerPdu.wire, headerBytes, List.append_assoc]
  exact header.run (pdu.body ++ rest)

/-- On an open channel the loop goes through PDUs that all have a handler one by
one. -/
theorem receiveLoop_wires {pdus : List ServerPdu} (demands : ∀ pdu ∈ pdus, ClientDemands pdu)
    (handled : ∀ pdu ∈ pdus, pdu.cmdId ≠ cmdIdDeleteAppListProvider) {s : ClientState ω}
    {fuel : Nat} (isOpen : s.cb.channelClosed = false) (succeed : HandlersSucceed os s pdus)
    (enough : (wires pdus).length < 8 * fuel) :
    ∃ r, receiveLoop os fuel s (.of (wires pdus)) = some r ∧ r.failure = none ∧
      r.cur = .of [] ∧ InStep pdus r.steps := by
  induction pdus generalizing s fuel with
  | nil => exact ⟨_, receiveLoop_ended fun more => more.1 rfl, rfl, rfl, trivial⟩
  | cons pdu pdus ih =>
      obtain ⟨c, m, succeeds, later⟩ := succeed
      have length := length_wires_cons pdu pdus
      obtain ⟨fuel, rfl⟩ : ∃ n, fuel = n + 1 := ⟨fuel - 1, by omega⟩
      have takes := takesBody_dispatch os (demands pdu List.mem_cons_self).fields
        (handled pdu List.mem_cons_self)
      have still : m.state.cb.channelClosed = false :=
        ((keepsClosed_dispatch os pdu.cmdId _).of_ok succeeds).trans isOpen
      have fits : (wires pdus).length < 8 * fuel := by omega
      obtain ⟨r, loop, failure, cur, steps⟩ :=
        ih (fun p mem => demands p (List.mem_cons_of_mem _ mem))
          (fun p mem => handled p (List.mem_cons_of_mem _ mem)) still later fits
      have more : (Cursor.of (wires (pdu :: pdus))).len ≠ 0 := by
        show (wires (pdu :: pdus)).length ≠ 0
        omega
      have served := receiveLoop_served fuel ⟨more, isOpen⟩
        (readAppListHeader_wire pdu (wires pdus))
        (step_of_ok isOpen (takes (wires pdus) _ _ _ succeeds))
      rw [loop] at served
      exact ⟨_, served, failure, cur, rfl, ⟨isOpen, rfl⟩, rfl, steps⟩

/-- A sender's call put this buffer on the channel. -/
def Emitted (env : Server.SendEnv) (pdu : ServerPdu) (buffer : List BYTE) : Prop :=
  ∃ ret, pdu.send env = some ⟨ret, some buffer⟩

theorem Emitted.eq_wire {env : Server.SendEnv} {pdu : ServerPdu} {buffer : List BYTE}
    (emitted : Emitted env pdu buffer) (demands : ClientDemands pdu) : buffer = pdu.wire := by
  obtain ⟨ret, sent⟩ := emitted
  cases made : env.streamNew (8 + pdu.body.length) with
  | true =>
      obtain ⟨ret', sent'⟩ := ServerPdu.send_eq demands.fields.sendable demands.short made
      rw [sent] at sent'
      injection sent' with same
      injection same with _ same
      exact Option.some.inj same
  | false =>
      have stopped := ServerPdu.send_of_no_stream demands.fields.sendable demands.short made
      rw [sent] at stopped
      injection stopped with same
      injection same with _ same
      cases same

/-- PDUs the client can read, as their senders put them on the channel. -/
structure Stream (env : Server.SendEnv) (pdus : List ServerPdu) (buffers : List (List BYTE)) :
    Prop where
  emitted : List.Forall₂ (Emitted env) pdus buffers
  demands : ∀ pdu ∈ pdus, ClientDemands pdu

theorem Stream.flatten_eq {env : Server.SendEnv} {pdus : List ServerPdu}
    {buffers : List (List BYTE)} (stream : Stream env pdus buffers) :
    buffers.flatten = wires pdus := by
  obtain ⟨emitted, demands⟩ := stream
  induction emitted with
  | nil => rfl
  | cons one rest ih =>
      rw [List.flatten_cons, wires, List.flatMap_cons, one.eq_wire (demands _ List.mem_cons_self),
        ih fun pdu mem => demands pdu (List.mem_cons_of_mem _ mem)]
      rfl

/-- Nothing takes the body of a provider's deletion, which is never empty. -/
theorem InStep.handled {pdus : List ServerPdu} {ts : List (Step ω)} (inStep : InStep pdus ts)
    (taken : ∀ t ∈ ts, Runs.Taken (step os) t) :
    ∀ pdu ∈ pdus, pdu.cmdId ≠ cmdIdDeleteAppListProvider := by
  induction pdus generalizing ts with
  | nil => intro pdu mem; cases mem
  | cons first rest ih =>
      obtain ⟨t, ts, rfl⟩ : ∃ t ts', ts = t :: ts' := by
        cases ts with
        | nil => exact inStep.elim
        | cons t ts => exact ⟨t, ts, rfl⟩
      obtain ⟨input, served, cur, later⟩ := inStep
      intro pdu mem
      rcases List.mem_cons.mp mem with rfl | tail
      · intro provider
        obtain ⟨m, run, -, -⟩ := served.run (taken t List.mem_cons_self) input
        rw [provider, dispatch_apply (by decide)] at run
        split at run
        · cases run
        · rw [cur] at run
          have same : pdu.body ++ wires rest = wires rest := by
            injection run with same
            exact congrArg Cursor.rest same
          have empty : pdu.body.length = 0 := by
            have := congrArg List.length same
            rw [List.length_append] at this
            omega
          cases pdu with
          | deleteAppListProvider p =>
              simp [ServerPdu.body, Server.DeleteAppListProviderPdu.body] at empty
          | caps p => cases provider
          | updateAppList p => cases provider
          | deleteAppList p => cases provider
          | associateWindowId p => cases provider
      · exact ih later (fun t mem => taken t (List.mem_cons_of_mem _ mem)) pdu tail

/-- A buffer of PDUs, as their senders emit them, is dispatched PDU by PDU to its
end exactly when the channel is open for them and no provider's deletion is among
them: nothing takes the body of that PDU. -/
theorem dispatchesExactly_iff (os : Os ω) (env : Server.SendEnv) (s : ClientState ω)
    (pdus : List ServerPdu) (buffers : List (List BYTE)) (stream : Stream env pdus buffers)
    (succeed : HandlersSucceed os s pdus) :
    DispatchesExactly os s pdus buffers.flatten ↔
      (pdus ≠ [] → s.cb.channelClosed = false) ∧
        ∀ pdu ∈ pdus, pdu.cmdId ≠ cmdIdDeleteAppListProvider := by
  rw [stream.flatten_eq]
  constructor
  · rintro ⟨r, received, -, -, inStep⟩
    have run := steps_of_receiveLoop received
    constructor
    · intro nonempty
      obtain ⟨pdu, rest, rfl⟩ := List.exists_cons_of_ne_nil nonempty
      cases steps : r.steps with
      | nil => rw [steps] at inStep; exact inStep.elim
      | cons t ts =>
          rw [steps] at run inStep
          have first : t = Runs.take (step os) s t.input := (List.cons.inj run).1
          have isOpen := inStep.2.1.isOpen
          rw [first] at isOpen
          exact isOpen
    · exact inStep.handled fun t mem => Runs.taken_of_mem (run ▸ mem)
  · rintro ⟨isOpen, handled⟩
    cases pdus with
    | nil =>
        have ended : onDataReceived os s [] = some ⟨none, .of [], []⟩ :=
          receiveLoop_ended fun more => more.1 rfl
        exact ⟨_, ended, rfl, rfl, trivial⟩
    | cons pdu rest =>
        exact receiveLoop_wires stream.demands handled (isOpen (List.cons_ne_nil _ _)) succeed
          (by omega)

/-- A client after the handshake. -/
def connected : ClientState Disk where
  cb := { handShakeComplated := true, serverCaps := { version := 4 } }
  heap := {}
  world := {}

def associate : Server.AssociateWindowIdPdu where
  flags := fieldId ||| fieldWindowId
  appWindowId := 7
  appId := text "tool" (by decide)
  appGroup := .empty
  appExecPath := .empty
  appDesc := .empty

theorem associate_demands : ClientDemands (.associateWindowId associate) where
  short := by decide
  fields :=
    { required := by decide
      appId := by decide
      appGroup := by decide
      appExecPath := by decide
      appDesc := by decide }

/-- The associations of two windows in one buffer. -/
theorem dispatchesExactly_iff_associate :
    DispatchesExactly diskOs connected [.associateWindowId associate, .associateWindowId associate]
      [ServerPdu.wire (.associateWindowId associate),
        ServerPdu.wire (.associateWindowId associate)].flatten :=
  (dispatchesExactly_iff diskOs ⟨fun _ => true, fun _ => true⟩ connected _ _
    { emitted := .cons ⟨_, rfl⟩ (.cons ⟨_, rfl⟩ .nil)
      demands := by simpa using associate_demands }
    ⟨_, _, rfl, _, _, rfl, trivial⟩).mpr ⟨fun _ => rfl, by decide⟩

def deleteProvider : Server.DeleteAppListProviderPdu where
  flags := fieldProvider
  appListProviderName := text "U" (by decide)

theorem deleteProvider_demands : ClientDemands (.deleteAppListProvider deleteProvider) where
  short := by decide
  fields := ⟨by decide⟩

/-- A provider's deletion alone: its body is taken for the header of another PDU. -/
theorem deleteProvider_not_dispatched :
    Stream ⟨fun _ => true, fun _ => true⟩ [.deleteAppListProvider deleteProvider]
        [ServerPdu.wire (.deleteAppListProvider deleteProvider)] ∧
      connected.cb.handShakeComplated = true ∧
      HandlersSucceed diskOs connected [.deleteAppListProvider deleteProvider] ∧
      ¬ DispatchesExactly diskOs connected [.deleteAppListProvider deleteProvider]
        [ServerPdu.wire (.deleteAppListProvider deleteProvider)].flatten := by
  refine ⟨⟨.cons ⟨_, rfl⟩ .nil, by simpa using deleteProvider_demands⟩, rfl,
    ⟨_, _, rfl, trivial⟩, ?_⟩
  rintro ⟨r, received, ok, -, -⟩
  have failed : (onDataReceived diskOs connected
      [ServerPdu.wire (.deleteAppListProvider deleteProvider)].flatten).map (·.failure) =
      some (some (.hresult E_FAIL)) := by decide +kernel
  rw [received, Option.map_some, ok] at failed
  cases failed

end Wslg.Channel
