/-
The limits on strings at the two ends of the channel.

A sender checks a string against the size of the client's array, the client against the
same size less the NUL it puts behind the string; and the sender of CAPS does not check
the unique id. `limits_agree_iff` says for which PDUs the first check implies the second.

`Judges` is a reader's verdict on the bytes of a PDU: it reads them all exactly if a
condition on the PDU holds, and where it does it leaves what decides about the readers
after it. Verdicts compose along a sequence, so a PDU's is put together from those on
its strings.
-/

import Wslg.Channel.RoundTrip

namespace Wslg.Channel

open Wslg.LittleEndian Wslg.Protocol Wslg.StateExcept Wslg.Client
open Wslg.Server (RailUnicodeString UINT fieldBytes iconBytes addString errorInvalidData ServerPdu)

variable {δ κ : Type}

/-! ### Verdicts -/

/-- On the bytes `bs` the reader succeeds exactly if `ok`, from every struct with this
key, and keeps the key. -/
structure Judges (key : δ → κ) (v : κ) (x : Read δ Unit) (bs : List BYTE) (ok : Prop) : Prop where
  reads : ok → ∀ d, key d = v → ∃ d', key d' = v ∧ Reads x d bs d'
  fails : ¬ ok → ∀ d, key d = v → ∀ rest, isOk (x ⟨d, .of (bs ++ rest)⟩) = false

namespace Judges

variable {key : δ → κ} {v : κ} {x y : Read δ Unit} {bs bs' : List BYTE} {ok ok' : Prop}

theorem bind (hx : Judges key v x bs ok) (hy : Judges key v y bs' ok') :
    Judges key v (x >>= fun _ => y) (bs ++ bs') (ok ∧ ok') := by
  constructor
  · rintro ⟨first, second⟩ d start
    obtain ⟨d', kept, reads⟩ := hx.reads first d start
    obtain ⟨d'', kept', reads'⟩ := hy.reads second d' kept
    exact ⟨d'', kept', reads.bind reads'⟩
  · intro bad d start rest
    rw [List.append_assoc]
    by_cases first : ok
    · obtain ⟨d', kept, reads⟩ := hx.reads first d start
      rw [bind_of_ok (reads (bs' ++ rest))]
      exact hy.fails (fun second => bad ⟨first, second⟩) d' kept rest
    · have stopped := hx.fails first d start (bs' ++ rest)
      cases run : x ⟨d, .of (bs ++ (bs' ++ rest))⟩ with
      | ok u s =>
          rw [run] at stopped
          cases stopped
      | error e s =>
          rw [bind_of_error run]
          rfl

/-- A step that always succeeds, before the others. -/
theorem after {d d' : δ} (hx : Reads x d bs d') (start : key d' = v)
    (hy : Judges key v y bs' ok') (rest : List BYTE) :
    isOk ((x >>= fun _ => y) ⟨d, .of (bs ++ bs' ++ rest)⟩) = true ↔ ok' := by
  rw [List.append_assoc, bind_of_ok (hx (bs' ++ rest))]
  constructor
  · intro succeeded
    by_contra bad
    rw [hy.fails bad d' start rest] at succeeded
    cases succeeded
  · intro good
    obtain ⟨d'', -, reads⟩ := hy.reads good d' start
    rw [reads rest]
    rfl

end Judges

/-- A string with room for its NUL; the limit of the client's array. -/
def Fits (s : RailUnicodeString) : Prop := s.length.toNat + 2 ≤ maxStringSize

instance (s : RailUnicodeString) : Decidable (Fits s) := inferInstanceAs (Decidable (_ ≤ _))

/-- A non-empty string is read exactly if it fits. -/
theorem judges_STRING (key : δ → κ) (v : κ) (o : Member δ) (required : Bool)
    (apart : ∀ f d, key (o.set f d) = key d) {s : RailUnicodeString} (nonempty : s.length ≠ 0) :
    Judges key v (readSTRING o required) s.toBytes (Fits s) := by
  constructor
  · intro fits d start
    obtain ⟨f, -, reads⟩ :=
      @reads_STRING _ o d required s ⟨fits, fun _ => nonempty⟩ (Or.inl nonempty)
    exact ⟨_, (apart f d).trans start, reads⟩
  · intro long d _ rest
    set d₁ := o.set { o.get d with length := s.length } d
    have length : Reads (readUINT16 fun n d => o.set { o.get d with length := n } d) d
        (word16 s.length) d₁ := reads_UINT16 _ s.length d
    have rejected : s.length.toNat + 2 > maxStringSize := Nat.not_le.mp long
    rw [RailUnicodeString.toBytes, List.append_assoc, readSTRING,
      bind_of_ok (length (s.string ++ rest)), bind_of_ok (get_apply _)]
    simp only [d₁, o.get_set, if_pos rejected]
    rfl

/-- An optional string is read exactly if it fits where it is flagged. -/
theorem judges_field (flags : δ → UInt32) (v bit : UInt32) (o : Member δ) (required : Bool)
    (apart : ∀ f d, flags (o.set f d) = flags d) {s : RailUnicodeString}
    (nonempty : has v bit = true → s.length ≠ 0) :
    Judges flags v (whenFlag flags bit (readSTRING o required)) (fieldBytes v bit s)
      (has v bit = true → Fits s) := by
  have look : ∀ d, flags d = v → ∀ c, (whenFlag flags bit (readSTRING o required)) ⟨d, c⟩ =
      (if has v bit then readSTRING o required else pure ()) ⟨d, c⟩ := by
    rintro d rfl c
    rfl
  by_cases flagged : has v bit
  · have judges := judges_STRING flags v o required apart (nonempty flagged)
    simp only [flagged, if_true] at look
    rw [fieldBytes, if_pos flagged]
    constructor
    · intro fits d start
      obtain ⟨d', kept, reads⟩ := judges.reads (fits flagged) d start
      exact ⟨d', kept, fun rest => (look d start _).trans (reads rest)⟩
    · intro long d start rest
      rw [look d start]
      exact judges.fails (fun fits => long fun _ => fits) d start rest
  · simp only [flagged] at look
    rw [fieldBytes, if_neg flagged]
    constructor
    · intro _ d start
      exact ⟨d, start, fun rest => look d start _⟩
    · intro bad
      exact absurd (fun h => absurd h flagged) bad

theorem judges_requiredFlags (flags : δ → UInt32) {v required : UInt32}
    (all : hasAll v required = true) :
    Judges flags v (checkRequiredFlags flags required) [] True := by
  constructor
  · rintro - d rfl
    exact ⟨d, rfl, reads_requiredFlags flags all⟩
  · intro bad
    exact absurd trivial bad

theorem judges_UINT32 (key : δ → κ) (v : κ) (o : UInt32 → δ → δ) (w : UInt32)
    (apart : ∀ d, key (o w d) = key d) : Judges key v (readUINT32 o) (word32 w) True := by
  constructor
  · intro _ d start
    exact ⟨o w d, (apart d).trans start, reads_UINT32 o w d⟩
  · intro bad
    exact absurd trivial bad

theorem isOk_runReader (x : Read δ Unit) (d : δ) (c : Cursor) :
    (runReader x d c).1.isOk = isOk (x ⟨d, c⟩) := by
  unfold runReader
  cases x ⟨d, c⟩ <;> rfl

/-! ### The strings of a PDU -/

def flagged (flags bit : UInt32) (s : RailUnicodeString) : List RailUnicodeString :=
  if has flags bit then [s] else []

/-- The strings a PDU transmits. -/
def transmitted : ServerPdu → List RailUnicodeString
  | .caps p => [p.appListProviderName, p.appListProviderUniqueId]
  | .updateAppList p => flagged p.flags fieldId p.appId ++ flagged p.flags fieldGroup p.appGroup ++
      flagged p.flags fieldExecPath p.appExecPath ++
      flagged p.flags fieldWorkingDir p.appWorkingDir ++ flagged p.flags fieldDesc p.appDesc
  | .deleteAppList p => flagged p.flags fieldId p.appId ++ flagged p.flags fieldGroup p.appGroup
  | .deleteAppListProvider p => flagged p.flags fieldProvider p.appListProviderName
  | .associateWindowId p => flagged p.flags fieldId p.appId ++
      flagged p.flags fieldGroup p.appGroup ++ flagged p.flags fieldExecPath p.appExecPath ++
      flagged p.flags fieldDesc p.appDesc

/-- The strings its sender checks. -/
def checked : ServerPdu → List RailUnicodeString
  | .caps p => [p.appListProviderName]
  | pdu => transmitted pdu

/-- The flags the client requires; `False` where it has no reader, or one that does not
take all the strings. -/
def RequiredFlags : ServerPdu → Prop
  | .caps p => 4 ≤ p.version
  | .updateAppList p => hasAll p.flags (fieldId ||| fieldExecPath ||| fieldDesc) = true
  | .deleteAppList p => hasAll p.flags fieldId = true
  | .deleteAppListProvider _ => False
  | .associateWindowId p => hasAll p.flags (fieldId ||| fieldWindowId) = true

theorem forall_flagged {P : RailUnicodeString → Prop} {flags bit : UInt32}
    {s : RailUnicodeString} :
    (∀ t ∈ flagged flags bit s, P t) ↔ (has flags bit = true → P s) := by
  unfold flagged
  by_cases h : has flags bit <;> simp [h]

/-! ### The sender's limit -/

/-- The checks a sender makes of its strings, with the size pass up to there. -/
def sizeStrings : ServerPdu → Except UINT UInt32
  | .updateAppList p => do
      let len ← addString p.flags fieldId p.appId 4
      let len ← addString p.flags fieldGroup p.appGroup len
      let len ← addString p.flags fieldExecPath p.appExecPath len
      let len ← addString p.flags fieldWorkingDir p.appWorkingDir len
      addString p.flags fieldDesc p.appDesc len
  | pdu => pdu.packet.size

/-- The size pass of an UPDATE_APPLIST PDU is these checks and then the icon. -/
theorem size_updateAppList (p : Server.UpdateAppListPdu) :
    p.packet.size =
      (sizeStrings (.updateAppList p)).bind (Server.addIcon p.flags p.appIcon) := by
  show (_ >>= _) = ((_ >>= _) >>= _)
  simp only [bind_assoc]

/-- The sender rejects the PDU as too large. -/
def TooLarge (pdu : ServerPdu) : Prop := sizeStrings pdu = .error errorInvalidData

/-- A sender that finds a string too large sends nothing. -/
theorem send_of_tooLarge (env : Server.SendEnv) {pdu : ServerPdu} (large : TooLarge pdu) :
    pdu.send env = some ⟨errorInvalidData, none⟩ := by
  have size : pdu.packet.size = .error errorInvalidData := by
    cases pdu with
    | updateAppList p =>
        refine (size_updateAppList p).trans ?_
        rw [show sizeStrings (.updateAppList p) = .error errorInvalidData from large]
        rfl
    | _ => exact large
  simp only [ServerPdu.send, Server.Packet.send, size]

/-- A stretch of checks: it fails exactly if a string is too long, and always with the
same error. -/
structure Refuses (a : UInt32 → Except UINT UInt32) (long : Prop) : Prop where
  passes : ¬ long → ∀ len, ∃ len', a len = .ok len'
  stops : long → ∀ len, a len = .error errorInvalidData

theorem Refuses.bind {a a' : UInt32 → Except UINT UInt32} {long long' : Prop}
    (h : Refuses a long) (h' : Refuses a' long') :
    Refuses (fun len => a len >>= a') (long ∨ long') := by
  constructor
  · intro short len
    obtain ⟨first, second⟩ := not_or.mp short
    obtain ⟨len', passed⟩ := h.passes first len
    simp only [passed]
    exact h'.passes second len'
  · intro either len
    by_cases first : long
    · simp only [h.stops first len]
      rfl
    · obtain ⟨len', passed⟩ := h.passes first len
      simp only [passed]
      exact h'.stops (either.resolve_left first) len'

theorem refuses_addString (flags bit : UInt32) (s : RailUnicodeString) :
    Refuses (addString flags bit s)
      (∃ t ∈ flagged flags bit s, maxStringSize < t.length.toNat) := by
  unfold addString flagged
  by_cases h : has flags bit
  · simp only [h, if_true, List.mem_singleton, exists_eq_left]
    constructor
    · intro short len
      exact ⟨_, if_neg short⟩
    · intro long len
      exact if_pos long
  · simp only [h]
    constructor
    · intro _ len
      exact ⟨len, rfl⟩
    · rintro ⟨t, mem, -⟩
      cases mem

/-- A sender rejects its PDU as too large exactly if a string it checks is longer than
the client's array. -/
theorem tooLarge_iff (pdu : ServerPdu) :
    TooLarge pdu ↔ ∃ s ∈ checked pdu, maxStringSize < s.length.toNat := by
  have of_refuses : ∀ {a : UInt32 → Except UINT UInt32} {long : Prop} (len : UInt32),
      Refuses a long → (a len = .error errorInvalidData ↔ long) := by
    intro a long len refuses
    constructor
    · intro stopped
      by_contra short
      obtain ⟨len', passed⟩ := refuses.passes short len
      cases passed.symm.trans stopped
    · intro long
      exact refuses.stops long len
  cases pdu with
  | caps p =>
      by_cases long : p.appListProviderName.length.toNat > maxStringSize
      · simp [TooLarge, sizeStrings, checked, ServerPdu.packet, Server.ServerCapsPdu.packet, long]
      · simp [TooLarge, sizeStrings, checked, ServerPdu.packet, Server.ServerCapsPdu.packet, long]
  | updateAppList p =>
      refine (of_refuses 4 ((refuses_addString ..).bind ((refuses_addString ..).bind
        ((refuses_addString ..).bind
          ((refuses_addString ..).bind (refuses_addString ..)))))).trans ?_
      simp only [checked, transmitted, List.mem_append, or_and_right, exists_or, or_assoc]
  | deleteAppList p =>
      refine (of_refuses 4 ((refuses_addString ..).bind (refuses_addString ..))).trans ?_
      simp only [checked, transmitted, List.mem_append, or_and_right, exists_or]
  | deleteAppListProvider p => exact of_refuses 4 (refuses_addString ..)
  | associateWindowId p =>
      refine (of_refuses 8 ((refuses_addString ..).bind ((refuses_addString ..).bind
        ((refuses_addString ..).bind (refuses_addString ..))))).trans ?_
      simp only [checked, transmitted, List.mem_append, or_and_right, exists_or, or_assoc]

/-! ### The client's limit -/

/-- The client's reader takes the PDU from the front of a buffer. The struct of CAPS is
a member and holds what was read before, the others are fresh. -/
def ClientReads (pdu : ServerPdu) : Prop :=
  ∀ rest, match pdu with
    | .caps p => ∀ d, (readAppListServerCaps d (.of (p.body ++ rest))).1.isOk = true
    | .updateAppList p => (readAppListUpdate {} (.of (p.body ++ rest))).1.isOk = true
    | .deleteAppList p => (readAppListDelete {} (.of (p.body ++ rest))).1.isOk = true
    | .deleteAppListProvider _ => False
    | .associateWindowId p => (readAssociateWindowId {} (.of (p.body ++ rest))).1.isOk = true

section Readers

theorem caps_isOk {p : Server.ServerCapsPdu} (version : 4 ≤ p.version)
    (nonempty : ∀ s ∈ transmitted (.caps p), s.length ≠ 0) (d : ServerCapsPdu)
    (rest : List BYTE) :
    (readAppListServerCaps d (.of (p.body ++ rest))).1.isOk = true ↔
      ∀ s ∈ transmitted (.caps p), Fits s := by
  have name := judges_STRING ServerCapsPdu.version p.version ServerCapsPdu.nameMember true
    (fun _ _ => rfl) (nonempty p.appListProviderName (by simp [transmitted]))
  have uniqueId := judges_STRING ServerCapsPdu.version p.version ServerCapsPdu.uniqueIdMember true
    (fun _ _ => rfl) (nonempty p.appListProviderUniqueId (by simp [transmitted]))
  -- the version read decides that there is a unique id
  have second : Judges ServerCapsPdu.version p.version
      (do let s ← get
          if s.dest.version ≥ 4 then readSTRING ServerCapsPdu.uniqueIdMember true else pure ())
      p.appListProviderUniqueId.toBytes (Fits p.appListProviderUniqueId) := by
    have look : ∀ d : ServerCapsPdu, d.version = p.version → ∀ c,
        (do let s ← get
            if s.dest.version ≥ 4 then readSTRING ServerCapsPdu.uniqueIdMember true
            else pure () : Read ServerCapsPdu Unit) ⟨d, c⟩ =
          readSTRING ServerCapsPdu.uniqueIdMember true ⟨d, c⟩ := by
      intro d same c
      rw [bind_of_ok (get_apply _)]
      exact congrFun (if_pos (same ▸ version)) _
    constructor
    · intro fits d start
      obtain ⟨d', kept, reads⟩ := uniqueId.reads fits d start
      exact ⟨d', kept, fun rest => (look d start _).trans (reads rest)⟩
    · intro long d start rest
      rw [look d start]
      exact uniqueId.fails long d start rest
  have first := reads_UINT16 (fun v (d : ServerCapsPdu) => { d with version := v }) p.version d
  rw [readAppListServerCaps, isOk_runReader, Server.ServerCapsPdu.body,
    List.append_assoc (word16 _)]
  refine (Judges.after first rfl (name.bind second) rest).trans ?_
  simp [transmitted]

theorem update_isOk {p : Server.UpdateAppListPdu} (required : RequiredFlags (.updateAppList p))
    (nonempty : ∀ s ∈ transmitted (.updateAppList p), s.length ≠ 0) (rest : List BYTE) :
    (readAppListUpdate {} (.of (p.body ++ rest))).1.isOk = true ↔
      ∀ s ∈ transmitted (.updateAppList p), Fits s := by
  simp only [transmitted, List.forall_mem_append, forall_flagged, and_assoc] at nonempty ⊢
  obtain ⟨appId, appGroup, appExecPath, appWorkingDir, appDesc⟩ := nonempty
  have field := fun (o : Member UpdateAppListPdu) req (apart) bit (s : RailUnicodeString)
      nonempty =>
    judges_field UpdateAppListPdu.flags p.flags bit o req apart (s := s) nonempty
  have judged := (judges_requiredFlags UpdateAppListPdu.flags required).bind
    ((field UpdateAppListPdu.idMember true (fun _ _ => rfl) fieldId _ appId).bind
    ((field UpdateAppListPdu.groupMember false (fun _ _ => rfl) fieldGroup _ appGroup).bind
    ((field UpdateAppListPdu.execPathMember true (fun _ _ => rfl) fieldExecPath _ appExecPath).bind
    ((field UpdateAppListPdu.workingDirMember false (fun _ _ => rfl) fieldWorkingDir _
      appWorkingDir).bind
    (field UpdateAppListPdu.descMember true (fun _ _ => rfl) fieldDesc _ appDesc)))))
  have first := reads_UINT32 (fun v (d : UpdateAppListPdu) => { d with flags := v }) p.flags {}
  rw [readAppListUpdate, isOk_runReader, body_eq_updateFields, List.append_assoc]
  refine (judged.after first rfl _).trans ?_
  rw [true_and]

theorem delete_isOk {p : Server.DeleteAppListPdu} (required : RequiredFlags (.deleteAppList p))
    (nonempty : ∀ s ∈ transmitted (.deleteAppList p), s.length ≠ 0) (rest : List BYTE) :
    (readAppListDelete {} (.of (p.body ++ rest))).1.isOk = true ↔
      ∀ s ∈ transmitted (.deleteAppList p), Fits s := by
  simp only [transmitted, List.forall_mem_append, forall_flagged] at nonempty ⊢
  obtain ⟨appId, appGroup⟩ := nonempty
  have judged := (judges_requiredFlags DeleteAppListPdu.flags required).bind
    ((judges_field _ _ fieldId DeleteAppListPdu.idMember true (fun _ _ => rfl) appId).bind
    (judges_field _ _ fieldGroup DeleteAppListPdu.groupMember false (fun _ _ => rfl) appGroup))
  have first := reads_UINT32 (fun v (d : DeleteAppListPdu) => { d with flags := v }) p.flags {}
  rw [readAppListDelete, isOk_runReader]
  refine (judged.after first rfl rest).trans ?_
  rw [true_and]

theorem associate_isOk {p : Server.AssociateWindowIdPdu}
    (required : RequiredFlags (.associateWindowId p))
    (nonempty : ∀ s ∈ transmitted (.associateWindowId p), s.length ≠ 0) (rest : List BYTE) :
    (readAssociateWindowId {} (.of (p.body ++ rest))).1.isOk = true ↔
      ∀ s ∈ transmitted (.associateWindowId p), Fits s := by
  simp only [transmitted, List.forall_mem_append, forall_flagged, and_assoc] at nonempty ⊢
  obtain ⟨appId, appGroup, appExecPath, appDesc⟩ := nonempty
  have field := fun (o : Member AssociateWindowIdPdu) req (apart) bit (s : RailUnicodeString)
    nonempty => judges_field AssociateWindowIdPdu.flags p.flags bit o req apart (s := s) nonempty
  have judged := (judges_requiredFlags AssociateWindowIdPdu.flags required).bind
    ((judges_UINT32 AssociateWindowIdPdu.flags p.flags
      (fun v d => { d with appWindowId := v }) p.appWindowId (fun _ => rfl)).bind
    ((field AssociateWindowIdPdu.idMember true (fun _ _ => rfl) fieldId _ appId).bind
    ((field AssociateWindowIdPdu.groupMember false (fun _ _ => rfl) fieldGroup _ appGroup).bind
    ((field AssociateWindowIdPdu.execPathMember true (fun _ _ => rfl) fieldExecPath _
      appExecPath).bind
    (field AssociateWindowIdPdu.descMember true (fun _ _ => rfl) fieldDesc _ appDesc)))))
  have first := reads_UINT32 (fun v (d : AssociateWindowIdPdu) => { d with flags := v }) p.flags {}
  rw [readAssociateWindowId, isOk_runReader]
  refine (judged.after first rfl rest).trans ?_
  rw [true_and, true_and]

end Readers

/-- A PDU with the flags the client requires and without empty strings is read exactly
if all its strings fit. -/
theorem clientReads_iff {pdu : ServerPdu} (required : RequiredFlags pdu)
    (nonempty : ∀ s ∈ transmitted pdu, s.length ≠ 0) :
    ClientReads pdu ↔ ∀ s ∈ transmitted pdu, Fits s := by
  cases pdu with
  | caps p =>
      have isOk := fun d => caps_isOk required nonempty d
      exact ⟨fun reads => (isOk {} []).mp (reads [] {}),
        fun fits rest d => (isOk d rest).mpr fits⟩
  | updateAppList p =>
      have isOk := update_isOk required nonempty
      exact ⟨fun reads => (isOk []).mp (reads []), fun fits rest => (isOk rest).mpr fits⟩
  | deleteAppList p =>
      have isOk := delete_isOk required nonempty
      exact ⟨fun reads => (isOk []).mp (reads []), fun fits rest => (isOk rest).mpr fits⟩
  | deleteAppListProvider p => exact required.elim
  | associateWindowId p =>
      have isOk := associate_isOk required nonempty
      exact ⟨fun reads => (isOk []).mp (reads []), fun fits rest => (isOk rest).mpr fits⟩

/-! ### The two limits -/

/-- The sender's limit implies the client's for a PDU exactly if one of the strings the
sender checks is longer than 512 bytes, or all strings leave two bytes for the NUL. -/
theorem limits_agree_iff {pdu : ServerPdu} (required : RequiredFlags pdu)
    (nonempty : ∀ s ∈ transmitted pdu, s.length ≠ 0) :
    (¬ TooLarge pdu → ClientReads pdu) ↔
      (∃ s ∈ checked pdu, 512 < s.length.toNat) ∨
        ∀ s ∈ transmitted pdu, s.length.toNat ≤ 510 := by
  have fits_iff : ∀ s, Fits s ↔ s.length.toNat ≤ 510 := by
    intro s
    exact Nat.add_le_add_iff_right
  rw [tooLarge_iff, clientReads_iff required nonempty]
  simp only [fits_iff]
  exact or_iff_not_imp_left.symm

/-! ### A description that fills the array -/

def asciiString (n : Nat) (fits : n < 2 ^ 16) : RailUnicodeString :=
  .ofBytes (List.replicate n 0x41) (by simpa using fits)

/-- An application with a description of `n` bytes. -/
def described (n : Nat) (fits : n < 2 ^ 16) : ServerPdu :=
  .updateAppList
    { flags := fieldId ||| fieldExecPath ||| fieldDesc
      appId := asciiString 2 (by decide)
      appGroup := .empty
      appExecPath := asciiString 2 (by decide)
      appWorkingDir := .empty
      appDesc := asciiString n fits
      appIcon := none }

theorem transmitted_described (n : Nat) (fits : n < 2 ^ 16) :
    transmitted (described n fits) =
      [asciiString 2 (by decide), asciiString 2 (by decide), asciiString n fits] := by
  set flags := fieldId ||| fieldExecPath ||| fieldDesc with isFlags
  have set_ : has flags fieldId = true ∧ has flags fieldExecPath = true ∧
      has flags fieldDesc = true := by decide
  have unset : has flags fieldGroup = false ∧ has flags fieldWorkingDir = false := by decide
  simp [transmitted, described, flagged, ← isFlags, set_, unset]

theorem checked_described (n : Nat) (fits : n < 2 ^ 16) :
    checked (described n fits) = transmitted (described n fits) := rfl

theorem required_described (n : Nat) (fits : n < 2 ^ 16) : RequiredFlags (described n fits) := by
  show hasAll (fieldId ||| fieldExecPath ||| fieldDesc) _ = true
  decide

theorem length_asciiString (n : Nat) (fits : n < 2 ^ 16) :
    (asciiString n fits).length.toNat = n := by
  show (UInt16.ofNat _).toNat = n
  rw [List.length_replicate, UInt16.toNat_ofNat', Nat.mod_eq_of_lt fits]

theorem described_nonempty {n : Nat} (fits : n < 2 ^ 16) (some_ : n ≠ 0) :
    ∀ s ∈ transmitted (described n fits), s.length ≠ 0 := by
  have string : ∀ m (fits : m < 2 ^ 16), m ≠ 0 → (asciiString m fits).length ≠ 0 := by
    intro m fits some_ empty
    have none_ := length_asciiString m fits
    rw [empty] at none_
    exact some_ none_.symm
  rw [transmitted_described]
  simp [string n fits some_, string 2]

theorem limits_agree_described :
    ¬ TooLarge (described 510 (by decide)) ∧ ClientReads (described 510 (by decide)) := by
  have notTooLarge : ¬ TooLarge (described 510 (by decide)) := by
    rw [tooLarge_iff, checked_described, transmitted_described]
    simp [length_asciiString, maxStringSize]
  refine ⟨notTooLarge, ?_⟩
  refine (limits_agree_iff (required_described ..) (described_nonempty _ (by decide))).mpr
    (Or.inr ?_) notTooLarge
  rw [transmitted_described]
  simp [length_asciiString]

/-- 512 bytes are not too many for the sender and too many for the client. -/
theorem limits_disagree_described :
    ¬ ∀ pdu, RequiredFlags pdu → (∀ s ∈ transmitted pdu, s.length ≠ 0) →
      ¬ TooLarge pdu → ClientReads pdu := by
  intro all
  set pdu := described 512 (by decide) with isPdu
  have required : RequiredFlags pdu := required_described ..
  have nonempty : ∀ s ∈ transmitted pdu, s.length ≠ 0 := described_nonempty _ (by decide)
  have notTooLarge : ¬ TooLarge pdu := by
    rw [tooLarge_iff, isPdu, checked_described, transmitted_described]
    simp [length_asciiString, maxStringSize]
  have fits := (clientReads_iff required nonempty).mp (all pdu required nonempty notTooLarge)
  rw [isPdu, transmitted_described] at fits
  simp [length_asciiString, Fits, maxStringSize] at fits

end Wslg.Channel
