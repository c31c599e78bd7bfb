/-
What the server writes, the client reads.

`Reads x d bs d'` says that the reader `x` turns the struct `d` into `d'` from
the bytes `bs` and stops exactly behind them, whatever follows. Every macro has
one such fact and sequences compose (`Reads.bind`), so a PDU's fact is put
together in the order of its fields. A string arrives as `Holds` says: the same
length, the same wide characters and a NUL behind them. When the length is odd
the NUL replaces the last byte.

`ClientDemands` is what a PDU needs beyond its sender's checks for the client to
read it.
-/

import Wslg.Client.Icon
import Wslg.Logic.StateExcept
import Wslg.Server.Send

namespace Wslg.Channel

open Wslg.LittleEndian Wslg.Protocol Wslg.StateExcept Wslg.Client
open Wslg.Server (RailUnicodeString fieldBytes iconBytes ServerPdu)

variable {δ : Type}

/-! ### Readers and the bytes they take -/

/-- From `d` and the bytes `bs` the reader makes `d'` and leaves what follows. -/
def Reads (x : Read δ Unit) (d : δ) (bs : List BYTE) (d' : δ) : Prop :=
  ∀ rest, x ⟨d, .of (bs ++ rest)⟩ = .ok () ⟨d', .of rest⟩

namespace Reads

variable {x y : Read δ Unit} {d d' d'' : δ} {bs bs' : List BYTE}

theorem pure (d : δ) : Reads (Pure.pure ()) d [] d := fun _ => rfl

theorem bind (hx : Reads x d bs d') (hy : Reads y d' bs' d'') :
    Reads (x >>= fun _ => y) d (bs ++ bs') d'' := by
  intro rest
  rw [List.append_assoc, bind_of_ok (hx (bs' ++ rest)), hy rest]

/-- A step that takes no bytes, before the others. -/
theorem bind_nil (hx : Reads x d [] d') (hy : Reads y d' bs d'') :
    Reads (x >>= fun _ => y) d bs d'' :=
  hx.bind hy

theorem run (hx : Reads x d bs d') (rest : List BYTE) :
    runReader x d (.of (bs ++ rest)) = (.ok (.of rest), d') := by
  simp only [runReader, hx rest]

end Reads

/-- The bytes asked for are there. -/
theorem fetch_append (d : δ) {bs : List BYTE} {n : Nat} (h : bs.length = n) (rest : List BYTE) :
    fetch n ⟨d, .of (bs ++ rest)⟩ = .ok bs ⟨d, .of rest⟩ := by
  subst h
  have enough : ¬ bs.length + rest.length < bs.length := by omega
  simp only [fetch, Cursor.of, List.length_append, if_neg enough, List.take_left, List.drop_left,
    Nat.add_sub_cancel_left]

theorem writeArray_some {n : Nat} (b : WBuf n) (s : ReadState δ) :
    writeArray (some b) s = .ok b s := rfl

theorem reads_assign (f : δ → δ) (d : δ) : Reads (assign f) d [] (f d) := fun _ => rfl

theorem reads_UINT16 (o : UInt16 → δ → δ) (v : UInt16) (d : δ) :
    Reads (readUINT16 o) d (word16 v) (o v d) := by
  intro rest
  rw [readUINT16, bind_of_ok (fetch_append d (length_word16 v) rest), ofNat_decode_word16]
  rfl

theorem reads_UINT32 (o : UInt32 → δ → δ) (v : UInt32) (d : δ) :
    Reads (readUINT32 o) d (word32 v) (o v d) := by
  intro rest
  rw [readUINT32, bind_of_ok (fetch_append d (length_word32 v) rest), ofNat_decode_word32]
  rfl

theorem reads_requiredFlags (flags : δ → UInt32) {required : UInt32} {d : δ}
    (all : hasAll (flags d) required = true) :
    Reads (checkRequiredFlags flags required) d [] d := by
  intro rest
  rw [checkRequiredFlags, bind_of_ok (get_apply _), if_pos all]
  rfl

/-! ### Strings -/

/-- A string the client takes: it leaves room for the NUL and is not empty where
it must not be. -/
def Acceptable (s : RailUnicodeString) (required : Bool) : Prop :=
  s.length.toNat + 2 ≤ maxStringSize ∧ (required = true → s.length ≠ 0)

instance (s : RailUnicodeString) (required : Bool) : Decidable (Acceptable s required) :=
  inferInstanceAs (Decidable (_ ∧ _))

/-- A flagged string is one the client takes. -/
def FieldAcceptable (flags bit : UInt32) (s : RailUnicodeString) (required : Bool) : Prop :=
  has flags bit = true → Acceptable s required

instance (flags bit : UInt32) (s : RailUnicodeString) (required : Bool) :
    Decidable (FieldAcceptable flags bit s required) :=
  inferInstanceAs (Decidable (_ → _))

theorem FieldAcceptable.short {flags bit : UInt32} {s : RailUnicodeString} {required : Bool}
    (ok : FieldAcceptable flags bit s required) (flagged : has flags bit = true) :
    s.length.toNat ≤ maxStringSize :=
  Nat.le_of_add_right_le (ok flagged).1

/-- The struct member holds the string sent. -/
structure Holds (f : PduString) (s : RailUnicodeString) : Prop where
  length : f.length = s.length
  chars : f.buf.chars.take (s.length.toNat / 2) = units s.string
  nul : f.buf.chars[s.length.toNat / 2]? = some 0

theorem holds_empty {s : RailUnicodeString} (h : s.length = 0) : Holds {} s := by
  have none : s.string = [] := List.length_eq_zero_iff.mp (by rw [s.size, h]; rfl)
  constructor
  · exact h.symm
  · rw [h, none]; rfl
  · rw [h]; rfl

/-- What `readChars` leaves in the array: the bytes, then a NUL. -/
theorem reads_chars (o : Member δ) (s : RailUnicodeString) (d : δ)
    (short : s.length.toNat + 2 ≤ maxStringSize) :
    ∃ f, Holds f s ∧ Reads (readChars o s.length) d s.string (o.set f d) := by
  have fits : s.string.length ≤ 2 * maxStringSizeInWchar := by
    rw [s.size]
    have : maxStringSize = 2 * maxStringSizeInWchar := rfl
    omega
  have inside : s.length.toNat / 2 < maxStringSizeInWchar := by
    have : maxStringSize = 2 * maxStringSizeInWchar := rfl
    omega
  set start := (o.get d).buf
  have copied := WBuf.copyBytes_eq_some (b := start) fits
  obtain ⟨b, hb, hbchars⟩ : ∃ b, start.copyBytes s.string = some b ∧
      b.chars = overlay start.chars s.string := ⟨_, copied, rfl⟩
  obtain ⟨b', hb', hb'chars⟩ : ∃ b', b.put (s.length.toNat / 2) 0 = some b' ∧
      b'.chars = b.chars.set (s.length.toNat / 2) 0 := ⟨_, WBuf.put_eq_some inside, rfl⟩
  refine ⟨⟨s.length, b'⟩, ⟨rfl, ?_, ?_⟩, ?_⟩
  · -- the NUL stands behind the characters, so it does not touch them
    have whole := take_overlay start.chars s.string (by rw [start.size]; exact fits)
    rw [s.size] at whole
    show b'.chars.take _ = _
    rw [hb'chars, hbchars, List.take_set_of_le (Nat.le_refl _), whole]
  · show b'.chars[_]? = _
    rw [hb'chars, List.getElem?_set_self (by rw [b.size]; exact inside)]
  · intro rest
    rw [readChars, bind_of_ok (fetch_append d s.size rest), bind_of_ok (get_apply _)]
    show ((writeArray (start.copyBytes s.string) : Read δ _) >>= _) _ = _
    rw [hb, bind_of_ok (writeArray_some ..), bind_of_ok (assign_apply ..), hb',
      bind_of_ok (writeArray_some ..), assign_apply]
    rw [o.set_set]

/-- A string that is there, or empty in a member that holds nothing yet. -/
theorem reads_STRING (o : Member δ) (d : δ) {required : Bool} {s : RailUnicodeString}
    (ok : Acceptable s required) (fresh : s.length ≠ 0 ∨ o.get d = {}) :
    ∃ f, Holds f s ∧ Reads (readSTRING o required) d s.toBytes (o.set f d) := by
  set d₁ := o.set { o.get d with length := s.length } d
  have length : Reads (readUINT16 fun n d => o.set { o.get d with length := n } d) d
      (word16 s.length) d₁ := reads_UINT16 _ s.length d
  have room : ¬ s.length.toNat + 2 > maxStringSize := Nat.not_lt.mpr ok.1
  have rest : ∀ {bs d₂}, Reads (if s.length ≠ 0 then readChars o s.length
        else if required then errorRead else pure ()) d₁ bs d₂ →
      Reads (readSTRING o required) d (word16 s.length ++ bs) d₂ := by
    intro bs d₂ h
    refine length.bind fun tail => ?_
    rw [bind_of_ok (get_apply _)]
    simp only [d₁, o.get_set, if_neg room]
    exact h tail
  by_cases empty : s.length = 0
  · -- nothing follows the length, and nothing is written behind it
    have blank : o.get d = {} := fresh.resolve_left (not_not_intro empty)
    have same : d₁ = o.set {} d := by simp only [d₁, blank, empty]
    have optional : required = false := by
      cases required with
      | false => rfl
      | true => exact absurd empty (ok.2 rfl)
    have noBytes : s.string = [] := List.length_eq_zero_iff.mp (by rw [s.size, empty]; rfl)
    refine ⟨{}, holds_empty empty, ?_⟩
    rw [RailUnicodeString.toBytes, noBytes, ← same]
    refine rest ?_
    rw [if_neg (not_not_intro empty), optional]
    exact Reads.pure d₁
  · obtain ⟨f, holds, reads⟩ := reads_chars o s d₁ ok.1
    refine ⟨f, holds, ?_⟩
    rw [o.set_set] at reads
    refine rest ?_
    rw [if_pos empty]
    exact reads

/-- An optional string arrives, or its member stays as it was. -/
def FieldHolds (flags bit : UInt32) (f : PduString) (s : RailUnicodeString) : Prop :=
  if has flags bit then Holds f s else f = {}

theorem reads_field (flags : δ → UInt32) (o : Member δ) (d : δ) {bit : UInt32} {required : Bool}
    {s : RailUnicodeString} (ok : FieldAcceptable (flags d) bit s required)
    (fresh : o.get d = {}) :
    ∃ f, FieldHolds (flags d) bit f s ∧
      Reads (whenFlag flags bit (readSTRING o required)) d (fieldBytes (flags d) bit s)
        (o.set f d) := by
  have look : ∀ rest, (whenFlag flags bit (readSTRING o required)) ⟨d, rest⟩ =
      (if has (flags d) bit then readSTRING o required else pure ()) ⟨d, rest⟩ := fun _ => rfl
  by_cases flagged : has (flags d) bit
  · obtain ⟨f, holds, reads⟩ := reads_STRING o d (ok flagged) (Or.inr fresh)
    refine ⟨f, by rw [FieldHolds, if_pos flagged]; exact holds, fun rest => ?_⟩
    rw [look, if_pos flagged, fieldBytes, if_pos flagged]
    exact reads rest
  · refine ⟨o.get d, by rw [FieldHolds, if_neg flagged]; exact fresh, fun rest => ?_⟩
    rw [look, if_neg flagged, fieldBytes, if_neg flagged, o.set_get]
    rfl

/-! ### What the client demands -/

structure CapsDemands (p : Server.ServerCapsPdu) : Prop where
  version : 4 ≤ p.version
  name : Acceptable p.appListProviderName true
  uniqueId : Acceptable p.appListProviderUniqueId true

structure UpdateDemands (p : Server.UpdateAppListPdu) : Prop where
  required : hasAll p.flags (fieldId ||| fieldExecPath ||| fieldDesc) = true
  appId : FieldAcceptable p.flags fieldId p.appId true
  appGroup : FieldAcceptable p.flags fieldGroup p.appGroup false
  appExecPath : FieldAcceptable p.flags fieldExecPath p.appExecPath true
  appWorkingDir : FieldAcceptable p.flags fieldWorkingDir p.appWorkingDir false
  appDesc : FieldAcceptable p.flags fieldDesc p.appDesc true
  appIcon : has p.flags fieldIcon = true → ∃ i, p.appIcon = some i ∧
    sizeofIconHeader + sizeofBitmapInfoHeader + i.iconBitsLength.toNat < 2 ^ 32

structure DeleteDemands (p : Server.DeleteAppListPdu) : Prop where
  required : hasAll p.flags fieldId = true
  appId : FieldAcceptable p.flags fieldId p.appId true
  appGroup : FieldAcceptable p.flags fieldGroup p.appGroup false

/-- The client has no reader for this PDU and demands nothing beyond the length
every string of the protocol is bound by. -/
structure DeleteProviderDemands (p : Server.DeleteAppListProviderPdu) : Prop where
  appListProviderName : FieldAcceptable p.flags fieldProvider p.appListProviderName false

structure AssociateDemands (p : Server.AssociateWindowIdPdu) : Prop where
  required : hasAll p.flags (fieldId ||| fieldWindowId) = true
  appId : FieldAcceptable p.flags fieldId p.appId true
  appGroup : FieldAcceptable p.flags fieldGroup p.appGroup false
  appExecPath : FieldAcceptable p.flags fieldExecPath p.appExecPath true
  appDesc : FieldAcceptable p.flags fieldDesc p.appDesc true

/-- What the client demands of the fields of a PDU. -/
def FieldDemands : ServerPdu → Prop
  | .caps p => CapsDemands p
  | .updateAppList p => UpdateDemands p
  | .deleteAppList p => DeleteDemands p
  | .deleteAppListProvider p => DeleteProviderDemands p
  | .associateWindowId p => AssociateDemands p

/-- The PDU is one the client can read, and its 32-bit length does not wrap. -/
structure ClientDemands (pdu : ServerPdu) : Prop where
  short : 8 + pdu.body.length < 2 ^ 32
  fields : FieldDemands pdu

/-- What the client can read passes the sender's checks. -/
theorem FieldDemands.sendable : {pdu : ServerPdu} → FieldDemands pdu → pdu.Sendable
  | .caps _, ok => Nat.le_of_add_right_le ok.name.1
  | .updateAppList _, ok =>
      ⟨ok.appId.short, ok.appGroup.short, ok.appExecPath.short, ok.appWorkingDir.short,
        ok.appDesc.short, fun flagged => by
          obtain ⟨i, given, -⟩ := ok.appIcon flagged
          exact Option.ne_none_iff_exists'.mpr ⟨i, given⟩⟩
  | .deleteAppList _, ok => ⟨ok.appId.short, ok.appGroup.short⟩
  | .deleteAppListProvider _, ok => ⟨ok.appListProviderName.short⟩
  | .associateWindowId _, ok =>
      ⟨ok.appId.short, ok.appGroup.short, ok.appExecPath.short, ok.appDesc.short⟩

/-! ### The four readers -/

/-- `m_serverCaps` after a CAPS PDU. -/
structure CapsHold (d : ServerCapsPdu) (p : Server.ServerCapsPdu) : Prop where
  version : d.version = p.version
  name : Holds d.appListProviderName p.appListProviderName
  uniqueId : Holds d.appListProviderUniqueId p.appListProviderUniqueId

theorem reads_caps {p : Server.ServerCapsPdu} (ok : CapsDemands p) (d : ServerCapsPdu) :
    ∃ d', CapsHold d' p ∧ Reads readAppListServerCapsBody d p.body d' := by
  set d₁ : ServerCapsPdu := { d with version := p.version }
  obtain ⟨name, nameHolds, readsName⟩ :=
    reads_STRING ServerCapsPdu.nameMember d₁ ok.name (Or.inl (ok.name.2 rfl))
  set d₂ := ServerCapsPdu.nameMember.set name d₁
  obtain ⟨uniqueId, uniqueIdHolds, readsUniqueId⟩ :=
    reads_STRING ServerCapsPdu.uniqueIdMember d₂ ok.uniqueId
      (Or.inl (ok.uniqueId.2 rfl))
  refine ⟨⟨p.version, name, uniqueId⟩, ⟨rfl, nameHolds, uniqueIdHolds⟩, ?_⟩
  rw [Server.ServerCapsPdu.body, List.append_assoc]
  refine (reads_UINT16 _ p.version d).bind (readsName.bind fun rest => ?_)
  rw [bind_of_ok (get_apply _)]
  exact (congrFun (if_pos ok.version) _).trans (readsUniqueId rest)

/-- The struct of an UPDATE_APPLIST PDU after its string part. -/
structure UpdateHolds (d : UpdateAppListPdu) (p : Server.UpdateAppListPdu) : Prop where
  flags : d.flags = p.flags
  appId : Holds d.appId p.appId
  appGroup : FieldHolds p.flags fieldGroup d.appGroup p.appGroup
  appExecPath : Holds d.appExecPath p.appExecPath
  appWorkingDir : FieldHolds p.flags fieldWorkingDir d.appWorkingDir p.appWorkingDir
  appDesc : Holds d.appDesc p.appDesc

/-- The body of an UPDATE_APPLIST PDU up to its icon. -/
def updateFields (p : Server.UpdateAppListPdu) : List BYTE :=
  word32 p.flags ++ (fieldBytes p.flags fieldId p.appId ++
    (fieldBytes p.flags fieldGroup p.appGroup ++
    (fieldBytes p.flags fieldExecPath p.appExecPath ++
    (fieldBytes p.flags fieldWorkingDir p.appWorkingDir ++
    fieldBytes p.flags fieldDesc p.appDesc))))

theorem body_eq_updateFields (p : Server.UpdateAppListPdu) :
    p.body = updateFields p ++ iconBytes p.flags p.appIcon := by
  simp only [Server.UpdateAppListPdu.body, updateFields, List.append_assoc]

theorem FieldHolds.of_has {flags bit : UInt32} {f : PduString} {s : RailUnicodeString}
    (h : FieldHolds flags bit f s) (flagged : has flags bit = true) : Holds f s := by
  rwa [FieldHolds, if_pos flagged] at h

theorem reads_update {p : Server.UpdateAppListPdu} (ok : UpdateDemands p) :
    ∃ d, UpdateHolds d p ∧ Reads readAppListUpdateBody {} (updateFields p) d := by
  have hasId := has_of_hasAll fieldId ok.required rfl (by decide)
  have hasExecPath := has_of_hasAll fieldExecPath ok.required rfl (by decide)
  have hasDesc := has_of_hasAll fieldDesc ok.required rfl (by decide)
  set d₀ : UpdateAppListPdu := { flags := p.flags }
  obtain ⟨appId, idHolds, readsId⟩ :=
    reads_field UpdateAppListPdu.flags UpdateAppListPdu.idMember d₀ ok.appId rfl
  set d₁ : UpdateAppListPdu := { d₀ with appId := appId }
  obtain ⟨appGroup, groupHolds, readsGroup⟩ :=
    reads_field UpdateAppListPdu.flags UpdateAppListPdu.groupMember d₁ ok.appGroup rfl
  set d₂ : UpdateAppListPdu := { d₁ with appGroup := appGroup }
  obtain ⟨appExecPath, execPathHolds, readsExecPath⟩ :=
    reads_field UpdateAppListPdu.flags UpdateAppListPdu.execPathMember d₂ ok.appExecPath rfl
  set d₃ : UpdateAppListPdu := { d₂ with appExecPath := appExecPath }
  obtain ⟨appWorkingDir, workingDirHolds, readsWorkingDir⟩ :=
    reads_field UpdateAppListPdu.flags UpdateAppListPdu.workingDirMember d₃ ok.appWorkingDir rfl
  set d₄ : UpdateAppListPdu := { d₃ with appWorkingDir := appWorkingDir }
  obtain ⟨appDesc, descHolds, readsDesc⟩ :=
    reads_field UpdateAppListPdu.flags UpdateAppListPdu.descMember d₄ ok.appDesc rfl
  refine ⟨{ d₄ with appDesc := appDesc }, ⟨rfl, idHolds.of_has hasId, groupHolds,
    execPathHolds.of_has hasExecPath, workingDirHolds, descHolds.of_has hasDesc⟩, ?_⟩
  have flags := reads_UINT32 (fun v (d : UpdateAppListPdu) => { d with flags := v }) p.flags {}
  have required := reads_requiredFlags UpdateAppListPdu.flags (d := d₀) ok.required
  exact flags.bind (required.bind_nil
    (readsId.bind (readsGroup.bind (readsExecPath.bind (readsWorkingDir.bind readsDesc)))))

/-- The struct of a DELETE_APPLIST PDU after reading. -/
structure DeleteHolds (d : DeleteAppListPdu) (p : Server.DeleteAppListPdu) : Prop where
  flags : d.flags = p.flags
  appId : Holds d.appId p.appId
  appGroup : FieldHolds p.flags fieldGroup d.appGroup p.appGroup

theorem reads_delete {p : Server.DeleteAppListPdu} (ok : DeleteDemands p) :
    ∃ d, DeleteHolds d p ∧ Reads readAppListDeleteBody {} p.body d := by
  have hasId := has_of_hasAll fieldId ok.required rfl (by decide)
  set d₀ : DeleteAppListPdu := { flags := p.flags }
  obtain ⟨appId, idHolds, readsId⟩ :=
    reads_field DeleteAppListPdu.flags DeleteAppListPdu.idMember d₀ ok.appId rfl
  set d₁ : DeleteAppListPdu := { d₀ with appId := appId }
  obtain ⟨appGroup, groupHolds, readsGroup⟩ :=
    reads_field DeleteAppListPdu.flags DeleteAppListPdu.groupMember d₁ ok.appGroup rfl
  refine ⟨{ d₁ with appGroup := appGroup }, ⟨rfl, idHolds.of_has hasId, groupHolds⟩, ?_⟩
  have flags := reads_UINT32 (fun v (d : DeleteAppListPdu) => { d with flags := v }) p.flags {}
  have required := reads_requiredFlags DeleteAppListPdu.flags (d := d₀) ok.required
  exact flags.bind (required.bind_nil (readsId.bind readsGroup))

/-- The struct of an ASSOCIATE_WINDOW_ID PDU after reading. -/
structure AssociateHolds (d : AssociateWindowIdPdu) (p : Server.AssociateWindowIdPdu) : Prop where
  flags : d.flags = p.flags
  appWindowId : d.appWindowId = p.appWindowId
  appId : Holds d.appId p.appId
  appGroup : FieldHolds p.flags fieldGroup d.appGroup p.appGroup
  appExecPath : FieldHolds p.flags fieldExecPath d.appExecPath p.appExecPath
  appDesc : FieldHolds p.flags fieldDesc d.appDesc p.appDesc

theorem reads_associate {p : Server.AssociateWindowIdPdu} (ok : AssociateDemands p) :
    ∃ d, AssociateHolds d p ∧ Reads readAssociateWindowIdBody {} p.body d := by
  have hasId := has_of_hasAll fieldId ok.required rfl (by decide)
  set d₀ : AssociateWindowIdPdu := { flags := p.flags }
  set d₁ : AssociateWindowIdPdu := { d₀ with appWindowId := p.appWindowId }
  obtain ⟨appId, idHolds, readsId⟩ :=
    reads_field AssociateWindowIdPdu.flags AssociateWindowIdPdu.idMember d₁ ok.appId rfl
  set d₂ : AssociateWindowIdPdu := { d₁ with appId := appId }
  obtain ⟨appGroup, groupHolds, readsGroup⟩ :=
    reads_field AssociateWindowIdPdu.flags AssociateWindowIdPdu.groupMember d₂ ok.appGroup rfl
  set d₃ : AssociateWindowIdPdu := { d₂ with appGroup := appGroup }
  obtain ⟨appExecPath, execPathHolds, readsExecPath⟩ :=
    reads_field AssociateWindowIdPdu.flags AssociateWindowIdPdu.execPathMember d₃
      ok.appExecPath rfl
  set d₄ : AssociateWindowIdPdu := { d₃ with appExecPath := appExecPath }
  obtain ⟨appDesc, descHolds, readsDesc⟩ :=
    reads_field AssociateWindowIdPdu.flags AssociateWindowIdPdu.descMember d₄ ok.appDesc rfl
  refine ⟨{ d₄ with appDesc := appDesc }, ⟨rfl, rfl, idHolds.of_has hasId, groupHolds,
    execPathHolds, descHolds⟩, ?_⟩
  have flags := reads_UINT32 (fun v (d : AssociateWindowIdPdu) => { d with flags := v }) p.flags {}
  have required := reads_requiredFlags AssociateWindowIdPdu.flags (d := d₀) ok.required
  have windowId :=
    reads_UINT32 (fun v (d : AssociateWindowIdPdu) => { d with appWindowId := v }) p.appWindowId d₀
  exact flags.bind (required.bind_nil (windowId.bind
    (readsId.bind (readsGroup.bind (readsExecPath.bind readsDesc)))))

/-! ### The icon -/

/-- A stretch of read macros that succeeds does not notice where it would jump. -/
theorem reads_orErrorRead {x : Read IconState Unit} {d d' : IconState} {bs : List BYTE}
    (h : Reads x d bs d') : Reads (orErrorRead x) d bs d' := by
  intro rest
  rw [orErrorRead, h rest]

/-- The struct after the seven words of an icon. -/
def iconWords (i : Server.IconData) : IconData where
  flags := i.flags
  iconWidth := i.iconWidth
  iconHeight := i.iconHeight
  iconStride := i.iconStride
  iconBpp := i.iconBpp
  iconFormat := i.iconFormat
  iconBitsLength := i.iconBitsLength

/-- The icon arrives: the seven words, and a block with the file built from them
and the bits. -/
structure IconHolds (d : IconData) (i : Server.IconData) : Prop where
  words : { d with iconFileSize := 0, iconFileData := none } = iconWords i
  fileSize : d.iconFileSize.toNat =
    sizeofIconHeader + sizeofBitmapInfoHeader + i.iconBitsLength.toNat
  file : ∃ id, d.iconFileData =
    some ⟨id, (iconWords i).header.toBytes ++ (iconWords i).bitmapInfo.toBytes ++ i.iconBits⟩

theorem reads_iconWords (i : Server.IconData) (heap : Heap) :
    Reads readIconWords ⟨{}, heap⟩
      (word32 i.flags ++ (word32 i.iconWidth ++ (word32 i.iconHeight ++ (word32 i.iconStride ++
        (word32 i.iconBpp ++ (word32 i.iconFormat ++ word32 i.iconBitsLength))))))
      ⟨iconWords i, heap⟩ := by
  have word := fun (o : UInt32 → IconState → IconState) v d => reads_UINT32 o v d
  exact (word _ i.flags _).bind ((word _ i.iconWidth _).bind ((word _ i.iconHeight _).bind
    ((word _ i.iconStride _).bind ((word _ i.iconBpp _).bind ((word _ i.iconFormat _).bind
      (word _ i.iconBitsLength _))))))

/-- The struct with a block of these contents. -/
def withFile (icon : IconData) (id : Nat) (mem : List BYTE) : IconData :=
  { icon with iconFileData := some ⟨id, mem⟩ }

/-- A write inside the block replaces what stood there. -/
theorem reads_writeIconFile (icon : IconData) (heap : Heap) (id : Nat) {n : Nat}
    (front old bs back : List BYTE) (start : front.length = n)
    (same : old.length = bs.length) :
    Reads (writeIconFile n bs) ⟨withFile icon id (front ++ (old ++ back)), heap⟩ []
      ⟨withFile icon id (front ++ (bs ++ back)), heap⟩ := by
  intro rest
  exact writeIconFile_middle rfl start same

/-- The size of the icon file, when it does not wrap. -/
theorem reads_addIconFileSize (i : Server.IconData) (heap : Heap)
    (fits : sizeofIconHeader + sizeofBitmapInfoHeader + i.iconBitsLength.toNat < 2 ^ 32) :
    Reads addIconFileSize ⟨iconWords i, heap⟩ []
      ⟨{ iconWords i with
          iconFileSize := UInt32.ofNat
            (sizeofIconHeader + sizeofBitmapInfoHeader + i.iconBitsLength.toNat) }, heap⟩ :=
  fun _ => if_pos fits

/-- The bits, the header and the bitmap header fill a fresh block completely. -/
theorem reads_iconFile (localAlloc : UInt32 → Bool) (i : Server.IconData) (heap : Heap)
    (fits : sizeofIconHeader + sizeofBitmapInfoHeader + i.iconBitsLength.toNat < 2 ^ 32)
    (served : localAlloc (UInt32.ofNat
      (sizeofIconHeader + sizeofBitmapInfoHeader + i.iconBitsLength.toNat)) = true) :
    ∃ d heap', IconHolds d i ∧
      Reads (addIconFileSize >>= fun _ => allocIconFile localAlloc >>= fun _ =>
        orErrorRead readIconBits >>= fun _ => writeIconHeaders)
        ⟨iconWords i, heap⟩ i.iconBits ⟨d, heap'⟩ := by
  set icon := { iconWords i with
    iconFileSize := UInt32.ofNat
      (sizeofIconHeader + sizeofBitmapInfoHeader + i.iconBitsLength.toNat) }
  have header : icon.header = (iconWords i).header := rfl
  have bitmapInfo : icon.bitmapInfo = (iconWords i).bitmapInfo := rfl
  have size : icon.iconFileSize.toNat =
      sizeofIconHeader + sizeofBitmapInfoHeader + i.iconBitsLength.toNat := by
    show (UInt32.ofNat _).toNat = _
    rw [UInt32.toNat_ofNat', Nat.mod_eq_of_lt fits]
  -- the zeroed block, cut where the three parts of the file will stand
  set zeros := fun n => List.replicate n (0 : BYTE)
  have fresh : zeros icon.iconFileSize.toNat = zeros sizeofIconHeader ++
      (zeros sizeofBitmapInfoHeader ++ (zeros i.iconBitsLength.toNat ++ [])) := by
    simp only [zeros, size, List.append_nil, List.replicate_append_replicate, Nat.add_assoc]
  have sized : Reads addIconFileSize ⟨iconWords i, heap⟩ [] ⟨icon, heap⟩ :=
    reads_addIconFileSize i heap fits
  have allocated : Reads (allocIconFile localAlloc) ⟨icon, heap⟩ []
      ⟨withFile icon heap.alloc.1 (zeros icon.iconFileSize.toNat), heap.alloc.2⟩ := by
    intro rest
    simp only [allocIconFile]
    exact if_pos served
  have bits : Reads readIconBits
      ⟨withFile icon heap.alloc.1 (zeros icon.iconFileSize.toNat), heap.alloc.2⟩ i.iconBits
      ⟨withFile icon heap.alloc.1 (zeros sizeofIconHeader ++
        (zeros sizeofBitmapInfoHeader ++ i.iconBits)), heap.alloc.2⟩ := by
    intro rest
    have written := reads_writeIconFile icon heap.alloc.2 heap.alloc.1
      (zeros sizeofIconHeader ++ zeros sizeofBitmapInfoHeader) (zeros i.iconBitsLength.toNat)
      i.iconBits [] rfl (by simp [zeros, i.size])
    rw [readIconBits, bind_of_ok (get_apply _)]
    refine (bind_of_ok (fetch_append _ i.size rest)).trans ?_
    rw [fresh, ← List.append_assoc]
    refine (written rest).trans ?_
    rw [List.append_nil, List.append_assoc]
  have headers : Reads writeIconHeaders
      ⟨withFile icon heap.alloc.1 (zeros sizeofIconHeader ++
        (zeros sizeofBitmapInfoHeader ++ i.iconBits)), heap.alloc.2⟩ []
      ⟨withFile icon heap.alloc.1 (icon.header.toBytes ++ (icon.bitmapInfo.toBytes ++ i.iconBits)),
        heap.alloc.2⟩ := by
    intro rest
    have first := reads_writeIconFile icon heap.alloc.2 heap.alloc.1 []
      (zeros sizeofIconHeader) icon.header.toBytes (zeros sizeofBitmapInfoHeader ++ i.iconBits)
      rfl (by simp [zeros])
    have second := reads_writeIconFile icon heap.alloc.2 heap.alloc.1 icon.header.toBytes
      (zeros sizeofBitmapInfoHeader) icon.bitmapInfo.toBytes i.iconBits
      (IconHeader.length_toBytes _) (by simp [zeros])
    rw [writeIconHeaders, bind_of_ok (get_apply _)]
    exact (first.bind_nil second) rest
  have file := (reads_orErrorRead bits).bind headers
  rw [List.append_nil] at file
  refine ⟨withFile icon heap.alloc.1 _, _, ⟨rfl, size, heap.alloc.1, ?_⟩,
    sized.bind_nil (allocated.bind_nil file)⟩
  rw [withFile, header, bitmapInfo, ← List.append_assoc]

/-- The bytes of an icon, the words apart from the bits. -/
theorem toBytes_eq_words (i : Server.IconData) :
    i.toBytes = (word32 i.flags ++ (word32 i.iconWidth ++ (word32 i.iconHeight ++
      (word32 i.iconStride ++ (word32 i.iconBpp ++ (word32 i.iconFormat ++
        word32 i.iconBitsLength)))))) ++ i.iconBits := by
  simp only [Server.IconData.toBytes, List.append_assoc]

theorem reads_icon (localAlloc : UInt32 → Bool) (i : Server.IconData) (d₀ : IconData)
    (heap : Heap)
    (fits : sizeofIconHeader + sizeofBitmapInfoHeader + i.iconBitsLength.toNat < 2 ^ 32)
    (served : localAlloc (UInt32.ofNat
      (sizeofIconHeader + sizeofBitmapInfoHeader + i.iconBitsLength.toNat)) = true) :
    ∃ d heap', IconHolds d i ∧
      Reads (readAppListIconDataBody localAlloc) ⟨d₀, heap⟩ i.toBytes ⟨d, heap'⟩ := by
  obtain ⟨d, heap', holds, reads⟩ := reads_iconFile localAlloc i heap fits served
  refine ⟨d, heap', holds, ?_⟩
  rw [toBytes_eq_words]
  exact (reads_assign _ _).bind_nil ((reads_orErrorRead (reads_iconWords i heap)).bind reads)

/-! ### The round trip -/

/-- The heap can serve the icon file the client builds from the PDU. -/
def IconServed (localAlloc : UInt32 → Bool) : ServerPdu → Prop
  | .updateAppList p => ∀ i ∈ p.appIcon, localAlloc (UInt32.ofNat
      (sizeofIconHeader + sizeofBitmapInfoHeader + i.iconBitsLength.toNat)) = true
  | _ => True

/-- Running the reader of this kind of PDU on `body` and more bytes succeeds,
gives the values of the PDU and stops where the body ends. CAPS is read over
whatever `m_serverCaps` held. There is no reader for a provider's deletion. -/
def Decoded (localAlloc : UInt32 → Bool) (heap : Heap) (body rest : List BYTE) : ServerPdu → Prop
  | .caps p => ∀ d, ∃ d', CapsHold d' p ∧
      readAppListServerCaps d (.of (body ++ rest)) = (.ok (.of rest), d')
  | .updateAppList p => ∃ d c, UpdateHolds d p ∧
      readAppListUpdate {} (.of (body ++ rest)) = (.ok c, d) ∧
      if has p.flags fieldIcon then
        ∃ i s, p.appIcon = some i ∧ IconHolds s.icon i ∧
          readAppListIconData localAlloc ⟨{}, heap⟩ c = (.ok (.of rest), s)
      else c = .of rest
  | .deleteAppList p => ∃ d, DeleteHolds d p ∧
      readAppListDelete {} (.of (body ++ rest)) = (.ok (.of rest), d)
  | .deleteAppListProvider _ => False
  | .associateWindowId p => ∃ d, AssociateHolds d p ∧
      readAssociateWindowId {} (.of (body ++ rest)) = (.ok (.of rest), d)

theorem decoded_update {localAlloc : UInt32 → Bool} {p : Server.UpdateAppListPdu}
    (ok : UpdateDemands p) (served : IconServed localAlloc (.updateAppList p)) (heap : Heap)
    (rest : List BYTE) : Decoded localAlloc heap p.body rest (.updateAppList p) := by
  obtain ⟨d, holds, reads⟩ := reads_update ok
  refine ⟨d, .of (iconBytes p.flags p.appIcon ++ rest), holds, ?_, ?_⟩
  · rw [body_eq_updateFields, List.append_assoc]
    exact reads.run _
  · by_cases flagged : has p.flags fieldIcon
    · obtain ⟨i, given, fits⟩ := ok.appIcon flagged
      obtain ⟨icon, heap', iconHolds, readsIcon⟩ :=
        reads_icon localAlloc i {} heap fits (served i given)
      rw [if_pos flagged, iconBytes, if_pos flagged, given]
      exact ⟨i, ⟨icon, heap'⟩, rfl, iconHolds, readsIcon.run rest⟩
    · rw [if_neg flagged, iconBytes, if_neg flagged, List.nil_append]

/-- Whatever the fields, flags and trailing bytes: a sender puts an eight-byte
header that counts every byte before the body, and the client's reader gives
back from the body the values that were sent. -/
theorem decode_undoes_encode (env : Server.SendEnv) (localAlloc : UInt32 → Bool) (heap : Heap)
    (pdu : ServerPdu) (rest : List BYTE) (demands : ClientDemands pdu)
    (readable : pdu.cmdId ≠ cmdIdDeleteAppListProvider)
    (made : env.streamNew (8 + pdu.body.length) = true) (served : IconServed localAlloc pdu) :
    ∃ ret length body,
      pdu.send env = some ⟨ret, some (word32 pdu.cmdId ++ word32 length ++ body)⟩ ∧
      length.toNat = (word32 pdu.cmdId ++ word32 length ++ body).length ∧
      Decoded localAlloc heap body rest pdu := by
  obtain ⟨ret, sent⟩ := ServerPdu.send_eq demands.fields.sendable demands.short made
  refine ⟨ret, UInt32.ofNat (8 + pdu.body.length), pdu.body, sent, ?_, ?_⟩
  · simp only [UInt32.toNat_ofNat', Nat.mod_eq_of_lt demands.short, List.length_append,
      length_word32]
  · obtain ⟨-, fields⟩ := demands
    cases pdu with
    | caps p =>
        intro d
        obtain ⟨d', holds, reads⟩ := reads_caps fields d
        exact ⟨d', holds, reads.run rest⟩
    | updateAppList p => exact decoded_update fields served heap rest
    | deleteAppList p =>
        obtain ⟨d, holds, reads⟩ := reads_delete fields
        exact ⟨d, holds, reads.run rest⟩
    | deleteAppListProvider p => exact absurd rfl readable
    | associateWindowId p =>
        obtain ⟨d, holds, reads⟩ := reads_associate fields
        exact ⟨d, holds, reads.run rest⟩

/-- A string of the protocol. -/
def text (s : String) (fits : (bytes (wide s)).length < 2 ^ 16) : RailUnicodeString :=
  .ofBytes (bytes (wide s)) fits

/-- An update in a sync, with a group and a one-pixel icon. -/
def exampleUpdate : Server.UpdateAppListPdu where
  flags := fieldId ||| fieldGroup ||| fieldExecPath ||| fieldDesc ||| fieldIcon ||| hintSync
  appId := text "app" (by decide)
  appGroup := text "games" (by decide)
  appExecPath := text "/bin/app" (by decide)
  appWorkingDir := .empty
  appDesc := text "App" (by decide)
  appIcon := some ⟨0, 1, 1, 4, 32, 2, 4, [1, 2, 3, 255], rfl⟩

theorem exampleUpdate_demands : ClientDemands (.updateAppList exampleUpdate) where
  short := by decide
  fields :=
    { required := by decide
      appId := by decide
      appGroup := by decide
      appExecPath := by decide
      appWorkingDir := by decide
      appDesc := by decide
      appIcon := fun _ => ⟨_, rfl, by decide⟩ }

theorem decode_undoes_encode_example :
    ∃ ret length body,
      ServerPdu.send ⟨fun _ => true, fun _ => true⟩ (.updateAppList exampleUpdate) =
        some ⟨ret, some (word32 cmdIdUpdateAppList ++ word32 length ++ body)⟩ ∧
      length.toNat = (word32 cmdIdUpdateAppList ++ word32 length ++ body).length ∧
      Decoded (fun _ => true) {} body [42] (.updateAppList exampleUpdate) :=
  decode_undoes_encode ⟨fun _ => true, fun _ => true⟩ (fun _ => true) {}
    (.updateAppList exampleUpdate) [42] exampleUpdate_demands (by decide) rfl (fun _ _ => rfl)

end Wslg.Channel
