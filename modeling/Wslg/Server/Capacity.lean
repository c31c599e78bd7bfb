/-
What a sender writes into the stream it made: `rdpapplist/server/rdpapplist_main.c`.

`Server.Send` gives a write past the end of a stream no result. winpr's
`Stream_Write` does not look at the capacity, so here the write pass runs in the
memory that starts at the buffer (`Packet.fill`), and the bytes it puts down are
compared with the capacity the stream was made with and with the length in the
header. The size pass counts in 32 bits: `fill_exact_iff` says that the two agree
exactly when the PDU's size does not need a 33rd bit, which only the icon of an
update can make it do.
-/

import Wslg.Server.Send

namespace Wslg.Server

open Wslg.LittleEndian Wslg.Protocol

/-! ### A write pass without a check -/

/-- A sender that got its stream: the capacity it asked winpr for, the length it
put into the header, and the bytes it wrote from the start of the buffer on. -/
structure Filled where
  capacity : Nat
  length : UInt32
  written : List BYTE
deriving DecidableEq

/-- Every byte of the stream is written, none past it, and the header counts them. -/
structure Filled.Exact (f : Filled) : Prop where
  written : f.written.length = f.capacity
  counted : f.capacity = f.length.toNat
  header : (f.written.drop 4).take 4 = word32 f.length

/-- The header and the write pass of a sender that got its stream, in a memory of
`room` bytes from the start of the buffer: the stream's own and what lies behind. -/
def Packet.fill (env : SendEnv) (room : Nat) (p : Packet) : Option Filled :=
  match p.size with
  | .error _ => none
  | .ok len =>
      let total := headerSize + len
      if env.streamNew total.toNat then
        ((writeHeader p.cmdId total (.new room)).bind p.write).map
          fun stream => ⟨total.toNat, total, stream.bytes⟩
      else none

/-- The sender's checks pass and `Stream_New` gives it a stream: it gets as far as
writing. -/
def Packet.GetsStream (env : SendEnv) (p : Packet) : Prop :=
  ∃ len, p.size = .ok len ∧ env.streamNew (headerSize + len).toNat = true

/-- What the passes put down in a memory of any size: the header and the body, if
there is room for them. -/
theorem Packet.fill_eq {env : SendEnv} {p : Packet} {len : UInt32} {body : List BYTE}
    (size : p.size = .ok len) (made : env.streamNew (headerSize + len).toNat = true)
    (write : Writes p.write body) (room : Nat) :
    p.fill env room =
      if 8 + body.length ≤ room then
        some ⟨(headerSize + len).toNat, headerSize + len,
          word32 p.cmdId ++ word32 (headerSize + len) ++ body⟩
      else none := by
  have both : (writeHeader p.cmdId (headerSize + len) (.new room)).bind p.write =
      (WStream.new room).write (word32 p.cmdId ++ word32 (headerSize + len) ++ body) :=
    (writeHeader_writes _ _).bind write (.new room)
  have count : (WStream.new room).bytes.length +
      (word32 p.cmdId ++ word32 (headerSize + len) ++ body).length = 8 + body.length := by
    simp only [WStream.new, List.length_append, length_word32, List.length_nil, Nat.zero_add]
  simp only [Packet.fill, size, made, if_true, both]
  by_cases fits : 8 + body.length ≤ room
  · rw [if_pos fits, WStream.write_eq_some (count ▸ fits)]
    rfl
  · rw [if_neg fits, WStream.write, dif_neg (count ▸ fits)]
    rfl

/-! ### Checks that pass -/

theorem short_of_addString {flags bit len len' : UInt32} {s : RailUnicodeString}
    (added : addString flags bit s len = .ok len') :
    has flags bit = true → s.length.toNat ≤ maxStringSize := by
  intro flagged
  by_contra long
  simp only [addString, if_pos flagged, if_pos (Nat.lt_of_not_le long)] at added
  cases added

theorem given_of_addIcon {flags len len' : UInt32} {icon : Option IconData}
    (added : addIcon flags icon len = .ok len') : has flags fieldIcon = true → icon ≠ none := by
  rintro flagged rfl
  simp only [addIcon, if_pos flagged] at added
  cases added

/-- A size pass that goes through has gone through in its first part. -/
theorem bind_eq_ok {x : Except UINT UInt32} {f : UInt32 → Except UINT UInt32} {len : UInt32}
    (h : x >>= f = .ok len) : ∃ len', x = .ok len' ∧ f len' = .ok len := by
  cases x with
  | error e => cases h
  | ok len' => exact ⟨len', rfl, h⟩

namespace ServerPdu

/-- A sender that has counted its body has made all its checks. -/
theorem sendable_of_size {pdu : ServerPdu} {len : UInt32} (size : pdu.packet.size = .ok len) :
    pdu.Sendable := by
  cases pdu with
  | caps p =>
      by_contra long
      have checked : p.packet.size = .error errorInvalidData := if_pos (Nat.lt_of_not_le long)
      rw [packet, checked] at size
      cases size
  | updateAppList p =>
      obtain ⟨_, appId, size⟩ := bind_eq_ok size
      obtain ⟨_, appGroup, size⟩ := bind_eq_ok size
      obtain ⟨_, appExecPath, size⟩ := bind_eq_ok size
      obtain ⟨_, appWorkingDir, size⟩ := bind_eq_ok size
      obtain ⟨_, appDesc, size⟩ := bind_eq_ok size
      exact ⟨short_of_addString appId, short_of_addString appGroup,
        short_of_addString appExecPath, short_of_addString appWorkingDir,
        short_of_addString appDesc, given_of_addIcon size⟩
  | deleteAppList p =>
      obtain ⟨_, appId, size⟩ := bind_eq_ok size
      exact ⟨short_of_addString appId, short_of_addString size⟩
  | deleteAppListProvider p => exact ⟨short_of_addString size⟩
  | associateWindowId p =>
      obtain ⟨_, appId, size⟩ := bind_eq_ok size
      obtain ⟨_, appGroup, size⟩ := bind_eq_ok size
      obtain ⟨_, appExecPath, size⟩ := bind_eq_ok size
      exact ⟨short_of_addString appId, short_of_addString appGroup,
        short_of_addString appExecPath, short_of_addString size⟩

theorem size_packet {pdu : ServerPdu} (ok : pdu.Sendable) :
    pdu.packet.size = .ok (UInt32.ofNat pdu.body.length) := by
  cases pdu with
  | caps p => exact p.size_packet ok
  | updateAppList p => exact p.size_packet ok
  | deleteAppList p => exact p.size_packet ok
  | deleteAppListProvider p => exact p.size_packet ok
  | associateWindowId p => exact p.size_packet ok

theorem write_packet {pdu : ServerPdu} (ok : pdu.Sendable) : Writes pdu.packet.write pdu.body := by
  cases pdu with
  | caps p => exact p.write_packet
  | updateAppList p => exact p.write_packet ok
  | deleteAppList p => exact p.write_packet
  | deleteAppListProvider p => exact p.write_packet
  | associateWindowId p => exact p.write_packet

end ServerPdu

/-! ### Sizes without a bound -/

/-- The bytes an optional string field takes up. -/
def fieldSize (flags bit : UInt32) (s : RailUnicodeString) : Nat :=
  if has flags bit then 2 + s.length.toNat else 0

theorem length_fieldBytes (flags bit : UInt32) (s : RailUnicodeString) :
    (fieldBytes flags bit s).length = fieldSize flags bit s := by
  by_cases flagged : has flags bit
  · simp only [fieldBytes, fieldSize, if_pos flagged, RailUnicodeString.length_toBytes]
  · simp only [fieldBytes, fieldSize, if_neg flagged, List.length_nil]

theorem fieldSize_le (flags bit : UInt32) (s : RailUnicodeString) :
    fieldSize flags bit s ≤ 2 ^ 16 + 1 := by
  have := s.length.toNat_lt
  unfold fieldSize
  split <;> omega

/-- The bytes an optional icon takes up. -/
def iconSize (flags : UInt32) (icon : Option IconData) : Nat :=
  if has flags fieldIcon then (icon.map fun i => 28 + i.iconBitsLength.toNat).getD 0 else 0

theorem length_iconBytes (flags : UInt32) (icon : Option IconData) :
    (iconBytes flags icon).length = iconSize flags icon := by
  unfold iconBytes iconSize
  split
  · cases icon with
    | none => rfl
    | some i => exact i.length_toBytes
  · rfl

/-- What an update takes up on the wire, its header included. -/
def UpdateAppListPdu.packetSize (p : UpdateAppListPdu) : Nat :=
  8 + (4 + fieldSize p.flags fieldId p.appId + fieldSize p.flags fieldGroup p.appGroup +
    fieldSize p.flags fieldExecPath p.appExecPath +
    fieldSize p.flags fieldWorkingDir p.appWorkingDir + fieldSize p.flags fieldDesc p.appDesc +
    iconSize p.flags p.appIcon)

theorem UpdateAppListPdu.packetSize_eq (p : UpdateAppListPdu) :
    p.packetSize = 8 + p.body.length := by
  simp only [packetSize, body, List.length_append, length_word32, length_fieldBytes,
    length_iconBytes]
  omega

/-- The size of the packet is a 32-bit number. Of the five PDUs only an update can
be larger: an icon's length is any 32-bit number, a string's has 16 bits. -/
def ServerPdu.Countable : ServerPdu → Prop
  | .updateAppList p => p.packetSize < 2 ^ 32
  | _ => True

theorem ServerPdu.countable_iff (pdu : ServerPdu) :
    pdu.Countable ↔ 8 + pdu.body.length < 2 ^ 32 := by
  cases pdu with
  | caps p =>
      have name := p.appListProviderName.length.toNat_lt
      have uniqueId := p.appListProviderUniqueId.length.toNat_lt
      simp only [Countable, body, ServerCapsPdu.body, List.length_append, length_word16,
        RailUnicodeString.length_toBytes, true_iff]
      omega
  | updateAppList p => rw [Countable, p.packetSize_eq]; rfl
  | deleteAppList p =>
      have appId := fieldSize_le p.flags fieldId p.appId
      have appGroup := fieldSize_le p.flags fieldGroup p.appGroup
      simp only [Countable, body, DeleteAppListPdu.body, List.length_append, length_word32,
        length_fieldBytes, true_iff]
      omega
  | deleteAppListProvider p =>
      have name := fieldSize_le p.flags fieldProvider p.appListProviderName
      simp only [Countable, body, DeleteAppListProviderPdu.body, List.length_append,
        length_word32, length_fieldBytes, true_iff]
      omega
  | associateWindowId p =>
      have appId := fieldSize_le p.flags fieldId p.appId
      have appGroup := fieldSize_le p.flags fieldGroup p.appGroup
      have appExecPath := fieldSize_le p.flags fieldExecPath p.appExecPath
      have appDesc := fieldSize_le p.flags fieldDesc p.appDesc
      simp only [Countable, body, AssociateWindowIdPdu.body, List.length_append, length_word32,
        length_fieldBytes, true_iff]
      omega

/-! ### The stream is filled exactly -/

namespace ServerPdu

/-- The sender's call of this PDU gets as far as writing. -/
def GetsStream (env : SendEnv) (pdu : ServerPdu) : Prop := pdu.packet.GetsStream env

/-- The sender's writes end, and wherever they do they have filled its stream and
nothing else. -/
def FillsStream (env : SendEnv) (pdu : ServerPdu) : Prop :=
  (∃ room, (pdu.packet.fill env room).isSome) ∧
    ∀ room f, pdu.packet.fill env room = some f → f.Exact

/-- Bytes 4 to 7 of what is written are the length field. -/
theorem length_field_wire (pdu : ServerPdu) :
    (pdu.wire.drop 4).take 4 = word32 (UInt32.ofNat (8 + pdu.body.length)) := by
  rw [wire, headerBytes, List.append_assoc, List.drop_left' (length_word32 _),
    List.take_left' (length_word32 _)]

/-- What any of the five senders puts down once it has its stream. -/
theorem fill_eq {env : SendEnv} {pdu : ServerPdu} (gets : pdu.GetsStream env) (room : Nat) :
    pdu.packet.fill env room =
      if 8 + pdu.body.length ≤ room then
        some ⟨(UInt32.ofNat (8 + pdu.body.length)).toNat, UInt32.ofNat (8 + pdu.body.length),
          pdu.wire⟩
      else none := by
  obtain ⟨len, size, made⟩ := gets
  have ok := sendable_of_size size
  have total : headerSize + UInt32.ofNat pdu.body.length = UInt32.ofNat (8 + pdu.body.length) := by
    rw [UInt32.ofNat_add]; rfl
  obtain rfl : len = UInt32.ofNat pdu.body.length :=
    Except.ok.inj (size.symm.trans (size_packet ok))
  rw [Packet.fill_eq size made (write_packet ok) room, total]
  rfl

/-- A sender that gets as far as writing fills its stream exactly when the PDU's
size is a 32-bit number; else the size wraps and the writes leave the stream. -/
theorem fill_exact_iff {env : SendEnv} {pdu : ServerPdu} (gets : pdu.GetsStream env) :
    pdu.FillsStream env ↔ pdu.Countable := by
  rw [countable_iff]
  have done : pdu.packet.fill env (8 + pdu.body.length) = _ :=
    (fill_eq gets _).trans (if_pos (Nat.le_refl _))
  constructor
  · intro fills
    have exactly : pdu.wire.length = (UInt32.ofNat (8 + pdu.body.length)).toNat :=
      (fills.2 _ _ done).written
    rw [length_wire] at exactly
    have small := (UInt32.ofNat (8 + pdu.body.length)).toNat_lt
    omega
  · intro short
    have total : (UInt32.ofNat (8 + pdu.body.length)).toNat = 8 + pdu.body.length := by
      rw [UInt32.toNat_ofNat', Nat.mod_eq_of_lt short]
    refine ⟨⟨_, by rw [done]; rfl⟩, fun room f filled => ?_⟩
    rw [fill_eq gets] at filled
    split at filled
    · cases filled
      exact ⟨pdu.length_wire.trans total.symm, rfl, pdu.length_field_wire⟩
    · cases filled

/-- The senders over checked streams have no result exactly where the writes of
`fill` leave the stream. -/
theorem send_eq_none_iff {env : SendEnv} {pdu : ServerPdu} (gets : pdu.GetsStream env) :
    pdu.send env = none ↔ ¬ pdu.Countable := by
  have filled := fill_eq gets
  obtain ⟨len, size, made⟩ := gets
  have ok := sendable_of_size size
  obtain rfl : len = UInt32.ofNat pdu.body.length :=
    Except.ok.inj (size.symm.trans (size_packet ok))
  have total : headerSize + UInt32.ofNat pdu.body.length = UInt32.ofNat (8 + pdu.body.length) := by
    rw [UInt32.ofNat_add]; rfl
  rw [countable_iff]
  constructor
  · intro none short
    have capacity : (UInt32.ofNat (8 + pdu.body.length)).toNat = 8 + pdu.body.length := by
      rw [UInt32.toNat_ofNat', Nat.mod_eq_of_lt short]
    rw [total, capacity] at made
    obtain ⟨ret, sent⟩ := send_eq ok short made
    rw [none] at sent
    cases sent
  · intro wraps
    -- the stream itself is the memory the pass would have to fit in
    have beyond := filled (headerSize + UInt32.ofNat pdu.body.length).toNat
    have small := (headerSize + UInt32.ofNat pdu.body.length).toNat_lt
    rw [if_neg (by omega)] at beyond
    simp only [Packet.fill, size, made, if_true, Option.map_eq_none_iff] at beyond
    simp only [send, Packet.send, size, singlePacketNew, made, if_true]
    cases header : writeHeader pdu.packet.cmdId (headerSize + UInt32.ofNat pdu.body.length)
        (.new (headerSize + UInt32.ofNat pdu.body.length).toNat) with
    | none => rfl
    | some stream =>
        rw [header, Option.bind_some] at beyond
        simp only [Option.map_some, beyond, Option.map_none]

/-- An update with its three required strings and an icon of one pixel. -/
def smallIcon : ServerPdu :=
  .updateAppList
    { flags := fieldId ||| fieldExecPath ||| fieldDesc ||| fieldIcon
      appId := .ofBytes (bytes (wide "app")) (by decide)
      appGroup := .empty
      appExecPath := .ofBytes (bytes (wide "/bin/app")) (by decide)
      appWorkingDir := .empty
      appDesc := .ofBytes (bytes (wide "App")) (by decide)
      appIcon := some ⟨0, 1, 1, 4, 32, 2, 4, [0, 128, 255, 255], rfl⟩ }

theorem fill_exact_iff_smallIcon :
    smallIcon.body.length = 70 ∧ smallIcon.FillsStream ⟨fun _ => true, fun _ => true⟩ := by
  have length : smallIcon.body.length = 70 := by decide +kernel
  have short : smallIcon.Countable := by
    rw [countable_iff, length]
    decide
  have gets : smallIcon.GetsStream ⟨fun _ => true, fun _ => true⟩ :=
    ⟨70, by decide +kernel, rfl⟩
  exact ⟨length, (fill_exact_iff gets).mpr short⟩

/-- An update whose icon has `2 ^ 32 - 1` bytes of bits. -/
def hugeIconPdu : UpdateAppListPdu :=
  ⟨fieldIcon, .empty, .empty, .empty, .empty, .empty,
    some ⟨0, 0, 0, 0, 0, 0, 0xffffffff, List.replicate 0xffffffff 0, List.length_replicate⟩⟩

def hugeIcon : ServerPdu := .updateAppList hugeIconPdu

theorem length_body_hugeIcon : hugeIcon.body.length = 2 ^ 32 + 31 := by
  have bits : (0xffffffff : UInt32).toNat = 2 ^ 32 - 1 := by simp
  have size : hugeIconPdu.packetSize = 8 + (4 + 0 + 0 + 0 + 0 + 0 + (28 + (2 ^ 32 - 1))) := by
    rw [← bits]; rfl
  have counted := hugeIconPdu.packetSize_eq
  show hugeIconPdu.body.length = _
  omega

/-- The stream for this update has 39 bytes; the header announces 39 bytes, and
the sender writes 4 GiB more than that. -/
theorem hugeIcon_overruns :
    hugeIcon.GetsStream ⟨fun _ => true, fun _ => true⟩ ∧
      ¬ hugeIcon.FillsStream ⟨fun _ => true, fun _ => true⟩ ∧
      ∃ f, hugeIcon.packet.fill ⟨fun _ => true, fun _ => true⟩ (2 ^ 33) = some f ∧
        f.capacity = 39 ∧ f.length = 39 ∧ f.written.length = 2 ^ 32 + 39 := by
  have gets : hugeIcon.GetsStream ⟨fun _ => true, fun _ => true⟩ := ⟨31, by rfl, rfl⟩
  have body := length_body_hugeIcon
  have filled := fill_eq gets (2 ^ 33)
  have written := hugeIcon.length_wire
  rw [if_pos (by omega), body] at filled
  rw [body] at written
  refine ⟨gets, fun fills => ?_, _, filled, by decide, by decide, written⟩
  have exactly := (fills.2 _ _ filled).written
  rw [written] at exactly
  exact absurd exactly (by decide)

end ServerPdu

end Wslg.Server
