/-
The heap blocks of icons over the life of a client.

`ReadAppListIconData` takes one block from the heap for every icon it accepts, and nothing
behind it gives the block back: `OnUpdateAppList` writes the icon file and returns. So an
update leaves the live blocks alone exactly if it brings no icon that can be read.

The blocks are compared as sets of numbers. That a new block is none of the old ones is an
invariant of the client (`Heap.Fresh`), and so is that no block is freed twice, a free of a
block that is not live being an access violation here.
-/

import Wslg.Client.Disk
import Wslg.Client.IconFile
import Wslg.Client.Safety

namespace Wslg.Client

open Wslg.LittleEndian Wslg.Protocol Wslg.StateExcept

variable {ω α : Type} {os : Os ω}

/-! ### Fresh numbers -/

/-- No block has a number that is still to come. -/
def Heap.Fresh (h : Heap) : Prop := ∀ id ∈ h.live, id < h.next

theorem Heap.Fresh.alloc {h : Heap} (fresh : h.Fresh) : h.alloc.2.Fresh := by
  intro id live
  rcases List.mem_cons.mp live with rfl | old
  · exact Nat.lt_succ_self _
  · exact Nat.lt_succ_of_lt (fresh id old)

theorem Heap.Fresh.free {h h' : Heap} {block : Nat} (fresh : h.Fresh)
    (freed : h.free block = some h') : h'.Fresh := by
  rw [Heap.free] at freed
  split at freed <;> cases freed
  exact fun id live => fresh id (List.mem_of_mem_erase live)

/-- While the reader of an icon is at work. -/
def FreshRead (s s' : ReadState IconState) : Prop := s.dest.heap.Fresh → s'.dest.heap.Fresh

instance : Std.Refl FreshRead := ⟨fun _ => id⟩

instance : IsTrans (ReadState IconState) FreshRead := ⟨fun _ _ _ h h' => h' ∘ h⟩

theorem SameOwner.freshRead {s s' : ReadState IconState} (same : SameOwner s s') :
    FreshRead s s' := by
  intro fresh
  rw [same.1]
  exact fresh

theorem freshRead_iconErrorRead : Guarantees FreshRead (iconErrorRead : Read IconState α) := by
  intro s fresh
  rw [iconErrorRead]
  split
  · exact fresh
  · split
    · exact fresh
    · rename_i freed
      exact fresh.free freed

theorem freshRead_allocIconFile (localAlloc : UInt32 → Bool) :
    Guarantees FreshRead (allocIconFile localAlloc) := by
  intro s fresh
  simp only [allocIconFile]
  split
  · exact fresh.alloc
  · exact fresh

theorem freshRead_readAppListIconDataBody (localAlloc : UInt32 → Bool) :
    Guarantees FreshRead (readAppListIconDataBody localAlloc) := by
  have owner : ∀ {x : Read IconState Unit}, Guarantees SameOwner x → Guarantees FreshRead x :=
    fun same => same.weaken fun _ _ => SameOwner.freshRead
  have cleared : Guarantees FreshRead (assign fun s : IconState => { s with icon := {} }) :=
    fun _ => id
  have size : Guarantees FreshRead addIconFileSize := by
    intro s fresh
    simp only [addIconFileSize]
    split <;> exact fresh
  have headers : Guarantees SameOwner writeIconHeaders :=
    Guarantees.get.bind fun _ => (sameOwner_writeIconFile _ _).bind fun _ =>
      sameOwner_writeIconFile _ _
  exact cleared.bind fun _ =>
    (guarantees_orErrorRead (owner sameOwner_readIconWords) freshRead_iconErrorRead).bind fun _ =>
      size.bind fun _ => (freshRead_allocIconFile _).bind fun _ =>
        (guarantees_orErrorRead (owner sameOwner_readIconBits) freshRead_iconErrorRead).bind
          fun _ => owner headers

theorem fresh_readAppListIconData (localAlloc : UInt32 → Bool) {d : IconState} {c : Cursor}
    (fresh : d.heap.Fresh) : (readAppListIconData localAlloc d c).2.heap.Fresh := by
  have read := freshRead_readAppListIconDataBody localAlloc ⟨d, c⟩ fresh
  rw [readAppListIconData, runReader]
  split <;> rename_i run
  · rw [run] at read
    exact read
  · rw [run] at read
    exact read

/-! ### Handlers -/

/-- While a handler is at work. -/
def FreshHandled (m m' : Machine ω) : Prop := m.heap.Fresh → m'.heap.Fresh

instance : Std.Refl (FreshHandled (ω := ω)) := ⟨fun _ => id⟩

instance : IsTrans (Machine ω) FreshHandled := ⟨fun _ _ _ h h' => h' ∘ h⟩

/-- The heap is the one there was. -/
def SameHeap (m m' : Machine ω) : Prop := m'.heap = m.heap

instance : Std.Refl (SameHeap (ω := ω)) := ⟨fun _ => rfl⟩

instance : IsTrans (Machine ω) SameHeap := ⟨fun _ _ _ h h' => h'.trans h⟩

instance : Blind (SameHeap (ω := ω)) := ⟨fun _ _ => rfl, fun _ _ => rfl⟩

theorem SameHeap.freshHandled {m m' : Machine ω} (same : SameHeap m m') : FreshHandled m m' := by
  intro fresh
  rw [show m'.heap = m.heap from same]
  exact fresh

theorem sameHeap_readUpdateStrings (c : Cursor) :
    Guarantees SameHeap (readUpdateStrings c : Handler ω (Cursor × UpdateAppListPdu)) := by
  intro m
  rw [readUpdateStrings]
  split <;> exact rfl

/-- The read scope leaves the heap to the reader of the icon. -/
theorem heap_readUpdateIcon (os : Os ω) (c : Cursor) (m : Machine ω) :
    (final (readUpdateIcon os c m)).heap =
      (readAppListIconData (os.localAlloc m.world) ⟨{}, m.heap⟩ c).2.heap := by
  rw [readUpdateIcon]
  split <;> rename_i read <;> rw [read] <;> rfl

theorem fresh_readUpdate (os : Os ω) (c : Cursor) :
    Guarantees FreshHandled (readUpdate os c) := by
  have icon : ∀ c, Guarantees FreshHandled (readUpdateIcon os c) := by
    intro c m fresh
    rw [heap_readUpdateIcon]
    exact fresh_readAppListIconData _ fresh
  exact ((sameHeap_readUpdateStrings c).weaken fun _ _ => SameHeap.freshHandled).bind fun _ =>
    Guarantees.ite ((icon _).bind fun _ => Guarantees.pure _) (Guarantees.pure _)

/-- Behind the read scope an update takes no block and gives none back. -/
theorem sameHeap_applyUpdate (os : Os ω) (u : UpdateAppListPdu) (icon : IconData) :
    Guarantees SameHeap (applyUpdate os u icon) :=
  guarantees_applyUpdate (fun _ _ _ => rfl) os u icon

/-- The heap an update leaves is the one its read scope left. -/
theorem heap_onUpdateAppList (os : Os ω) (c : Cursor) (m : Machine ω) :
    (final (onUpdateAppList os c m)).heap = (final (readUpdate os c m)).heap := by
  rw [onUpdateAppList_eq]
  cases read : readUpdate os c m with
  | error e m₁ =>
      rw [bind_of_error read]
      rfl
  | ok r m₁ =>
      rw [bind_of_ok read]
      exact ((sameHeap_applyUpdate os r.update r.icon).bind fun _ => Guarantees.pure _) m₁

theorem sameHeap_onDeleteAppList (os : Os ω) (c : Cursor) :
    Guarantees SameHeap (onDeleteAppList os c) := by
  have read : Guarantees SameHeap (readDelete c : Handler ω _) := fun m => by
    rw [readDelete]
    split <;> exact rfl
  exact read.bind fun r => (guarantees_applyDelete (fun _ _ => rfl) os r.2).bind fun _ =>
    Guarantees.pure _

theorem fresh_dispatch (os : Os ω) (cmdId : UInt32) (c : Cursor) :
    Guarantees FreshHandled (dispatch os cmdId c) := by
  have same : ∀ {x : Handler ω Cursor}, Guarantees SameHeap x → Guarantees FreshHandled x :=
    fun h => h.weaken fun _ _ => SameHeap.freshHandled
  have update : Guarantees FreshHandled (onUpdateAppList os c) := by
    intro m fresh
    rw [heap_onUpdateAppList]
    exact fresh_readUpdate os c m fresh
  have caps : Guarantees SameHeap (onCaps os c) :=
    (handshakes_onCaps os c).weaken fun _ _ h => h.heap
  have associate : Guarantees SameHeap (onAssociateWindowId os c) :=
    guarantees_of_quiet (quiet_onAssociateWindowId os c)
  have others : Guarantees FreshHandled (handle os cmdId c) :=
    Guarantees.ite update <| Guarantees.ite (same (sameHeap_onDeleteAppList os c)) <|
      Guarantees.ite (Guarantees.pure _) <| Guarantees.ite (same associate) (guarantees_fail _)
  exact Guarantees.ite (same caps) <| guarantees_members.bind fun _ =>
    Guarantees.ite (guarantees_fail _) others

/-! ### Runs -/

theorem fresh_step {s : ClientState ω} (fresh : s.heap.Fresh) (e : Event ω) :
    (step os s e).2.heap.Fresh := by
  cases e with
  | pdu cmdId c =>
      rw [step]
      split
      · exact fresh
      · rw [(runHandler_eq _ _ _).2]
        exact fresh_dispatch os cmdId c s.start fresh
  | world w => exact fresh
  | close =>
      rw [(step_close os s).2]
      exact fresh

/-- The numbers are fresh between any two PDUs of any buffers. -/
theorem fresh_reached {w : ω} {inputs : List (Input ω)} {buffer : List BYTE} {r : Received ω}
    {t : Step ω}
    (received : onDataReceived os (inputs.foldl (receive os) (.fresh w)) buffer = some r)
    (mem : t ∈ r.steps) : t.before.heap.Fresh := by
  have keep : ∀ t : Step ω, Runs.Taken (step os) t → True → t.before.heap.Fresh →
      t.after.heap.Fresh := by
    intro t taken _ fresh
    have after : t.after = (step os t.before t.input).2 := congrArg Prod.snd taken.symm
    rw [after]
    exact fresh_step fresh t.input
  obtain ⟨es, reached⟩ := receive_eq_finish os (.fresh w) inputs
  have start : (inputs.foldl (receive os) (.fresh w)).heap.Fresh := by
    rw [reached]
    apply @Runs.invariant_finish _ _ _ _ (fun s : ClientState ω => s.heap.Fresh) _ keep
    · exact fun id live => absurd live List.not_mem_nil
    · exact fun _ _ => trivial
  rw [steps_of_receiveLoop received] at mem
  exact (@Runs.invariant_transitions _ _ _ _ (fun s : ClientState ω => s.heap.Fresh) _ keep _ _
    start (fun _ _ => trivial) t mem).1

/-! ### Balance -/

/-- A step is a call of `OnUpdateAppList` on the body at `c`. -/
structure CallsUpdate (t : Step ω) (c : Cursor) : Prop where
  input : t.input = .pdu cmdIdUpdateAppList c
  isOpen : t.before.cb.channelClosed = false
  handshake : t.before.cb.handShakeComplated = true

/-- The live blocks are those from before, and no free was one of a block that is not live. -/
structure Balanced (t : Step ω) : Prop where
  live : ∀ id, id ∈ t.after.heap.live ↔ id ∈ t.before.heap.live
  noViolation : t.output.failure ≠ some .accessViolation

/-- The body can be read and brings an icon that can be read. -/
def BringsIcon (os : Os ω) (s : ClientState ω) (c : Cursor) : Prop :=
  ∃ c' u c'' icon, readAppListUpdate {} c = (.ok c', u) ∧ has u.flags fieldIcon = true ∧
    readAppListIconData (os.localAlloc s.world) ⟨{}, s.heap⟩ c' = (.ok c'', icon)

/-- An icon that was read has taken the next block. -/
theorem heap_of_bringsIcon {s : ClientState ω} {c : Cursor} (brings : BringsIcon os s c) :
    (final (readUpdate os c s.start)).heap = s.heap.alloc.2 := by
  obtain ⟨c', u, c'', icon, strings, flagged, read⟩ := brings
  have first : readUpdateStrings c s.start = .ok (c', u) s.start := by
    rw [readUpdateStrings, strings]
  have second : readUpdateIcon os c' s.start =
      .ok (c'', icon.icon) { s.start with heap := icon.heap } := by
    show readUpdateIcon os c' ⟨s.cb, s.heap, s.world, []⟩ = _
    rw [readUpdateIcon, read]
    rfl
  rw [readUpdate, bind_of_ok first, if_pos flagged, bind_of_ok second]
  exact (readAppListIconData_heap.1 c'' read).1

/-- Without one, what is live stays so, a read outside the buffer apart. -/
theorem live_of_not_bringsIcon {s : ClientState ω} {c : Cursor} (none_ : ¬ BringsIcon os s c)
    (noViolation : ∀ m, readUpdate os c s.start ≠ .error .accessViolation m) :
    (final (readUpdate os c s.start)).heap.live = s.heap.live := by
  cases strings : readAppListUpdate {} c with
  | mk result u =>
      cases result with
      | error e =>
          have first : readUpdateStrings c s.start = .error e s.start := by
            rw [readUpdateStrings, strings]
          rw [readUpdate, bind_of_error first]
          rfl
      | ok c' =>
          have first : readUpdateStrings c s.start = .ok (c', u) s.start := by
            rw [readUpdateStrings, strings]
          rw [readUpdate, bind_of_ok first] at noViolation ⊢
          by_cases flagged : has u.flags fieldIcon = true
          · rw [if_pos flagged] at noViolation ⊢
            cases read : readAppListIconData (os.localAlloc s.world) ⟨{}, s.heap⟩ c' with
            | mk result icon =>
                cases result with
                | ok c'' => exact absurd ⟨c', u, c'', icon, strings, flagged, read⟩ none_
                | error e =>
                    have second : readUpdateIcon os c' s.start =
                        .error e { s.start with heap := icon.heap } := by
                      show readUpdateIcon os c' ⟨s.cb, s.heap, s.world, []⟩ = _
                      rw [readUpdateIcon, read]
                      rfl
                    rw [bind_of_error second] at noViolation ⊢
                    cases e with
                    | accessViolation => exact absurd rfl (noViolation _)
                    | hresult hr => exact (readAppListIconData_heap.2 hr read).1
          · rw [if_neg flagged]
            rfl

/-- From a client that any inputs have led to, an update on any body keeps the icon blocks
balanced exactly if it brings no icon that can be read. -/
theorem balanced_iff_no_icon (os : Os ω) (w : ω) (inputs : List (Input ω)) (buffer : List BYTE)
    {r : Received ω} {t : Step ω} {c : Cursor}
    (received : onDataReceived os (inputs.foldl (receive os) (.fresh w)) buffer = some r)
    (mem : t ∈ r.steps) (call : CallsUpdate t c) :
    Balanced t ↔ ¬ BringsIcon os t.before c := by
  have harmless : Harmless buffer t :=
    (harmless_receiveLoop (sound_reached os w inputs) (partOf_of buffer) received).2.1 t mem
  have taken : Runs.Taken (step os) t := by
    rw [steps_of_receiveLoop received] at mem
    exact Runs.taken_of_mem mem
  have run : step os t.before t.input = runHandler (onUpdateAppList os c) c t.before := by
    have handled : dispatch os cmdIdUpdateAppList c t.before.start =
        onUpdateAppList os c t.before.start := by
      rw [dispatch_handshaken (by decide) call.handshake, handle, if_pos rfl]
    rw [call.input, step_of_open call.isOpen, runHandler, runHandler, handled]
  rw [Runs.Taken, run] at taken
  have after : t.after.heap = (final (readUpdate os c t.before.start)).heap := by
    rw [← heap_onUpdateAppList, ← show _ = t.after from congrArg Prod.snd taken,
      (runHandler_eq _ _ _).2]
    rfl
  have noViolation : ∀ m, readUpdate os c t.before.start ≠ .error .accessViolation m := by
    intro m violated
    apply harmless.noViolation
    rw [← show _ = t.output from congrArg Prod.fst taken, runHandler, onUpdateAppList_eq,
      bind_of_error violated]
  constructor
  · intro balanced brings
    rw [heap_of_bringsIcon brings] at after
    have new : t.before.heap.next ∈ t.after.heap.live := by
      rw [after]
      exact List.mem_cons_self
    exact Nat.lt_irrefl _ (fresh_reached received mem _ ((balanced.live _).mp new))
  · intro none_
    refine ⟨fun id => ?_, harmless.noViolation⟩
    rw [after, live_of_not_bringsIcon none_ noViolation]

/-- The first PDU of a buffer is a step of the loop. -/
theorem first_mem_steps {s : ClientState ω} {buffer : List BYTE} {c : Cursor} {header : Header}
    (isOpen : s.cb.channelClosed = false) (some_ : buffer.length ≠ 0)
    (read : readAppListHeader (.of buffer) = (.ok c, header)) :
    ∃ r, onDataReceived os s buffer = some r ∧
      Runs.take (step os) s (.pdu header.cmdId c) ∈ r.steps := by
  obtain ⟨r, received⟩ := Option.isSome_iff_exists.mp (onDataReceived_isSome os s buffer)
  refine ⟨r, received, ?_⟩
  rw [onDataReceived, receiveLoop, if_pos ⟨some_, isOpen⟩] at received
  simp only [read] at received
  split at received
  · cases received
    exact List.mem_cons_self
  · obtain ⟨r', -, rfl⟩ := Option.map_eq_some_iff.mp received
    exact List.mem_cons_self

/-- A CAPS. -/
def capsBuffer : List BYTE := word32 cmdIdCaps ++ (word32 0 ++ (capsBody "U").rest)

/-- An update with an icon. -/
def iconBody : List BYTE :=
  word32 (fieldId ||| fieldExecPath ||| fieldDesc ||| fieldIcon) ++
    (pduText "a" ++ (pduText "x" ++ (pduText "A" ++ onePixel)))

def iconBuffer : List BYTE := word32 cmdIdUpdateAppList ++ (word32 0 ++ iconBody)

/-- The client between the two. -/
def beforeIcon : ClientState Disk := [Input.data capsBuffer].foldl (receive diskOs) (.fresh {})

theorem callsUpdate_iconBody :
    CallsUpdate (Runs.take (step diskOs) beforeIcon (.pdu cmdIdUpdateAppList (.of iconBody)))
      (.of iconBody) :=
  ⟨rfl, by decide +kernel, by decide +kernel⟩

theorem balanced_iff_no_icon_iconBuffer :
    ∃ r t, onDataReceived diskOs beforeIcon iconBuffer = some r ∧ t ∈ r.steps ∧
      (Balanced t ↔ ¬ BringsIcon diskOs t.before (.of iconBody)) := by
  obtain ⟨r, received, mem⟩ := @first_mem_steps _ diskOs beforeIcon iconBuffer (.of iconBody) _
    callsUpdate_iconBody.isOpen (by decide) rfl
  exact ⟨r, _, received, mem,
    balanced_iff_no_icon diskOs {} [.data capsBuffer] iconBuffer received mem callsUpdate_iconBody⟩

/-- The block of the icon stays behind. -/
theorem iconBuffer_leaks :
    ∃ r t, onDataReceived diskOs beforeIcon iconBuffer = some r ∧ t ∈ r.steps ∧
      CallsUpdate t (.of iconBody) ∧ t.output.failure = none ∧ ¬ Balanced t := by
  obtain ⟨r, received, mem⟩ := @first_mem_steps _ diskOs beforeIcon iconBuffer (.of iconBody) _
    callsUpdate_iconBody.isOpen (by decide) rfl
  refine ⟨r, _, received, mem, callsUpdate_iconBody, by decide +kernel, ?_⟩
  intro balanced
  have before : beforeIcon.heap.live = [] := by decide +kernel
  have after : (step diskOs beforeIcon
      (.pdu cmdIdUpdateAppList (.of iconBody))).2.heap.live = [0] := by decide +kernel
  have live : 0 ∈ beforeIcon.heap.live := by
    apply (balanced.live 0).mp
    show 0 ∈ (step diskOs beforeIcon (.pdu cmdIdUpdateAppList (.of iconBody))).2.heap.live
    rw [after]
    exact List.mem_singleton_self 0
  rw [before] at live
  exact absurd live List.not_mem_nil

end Wslg.Client
