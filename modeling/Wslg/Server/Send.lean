/-
The server's five senders: `rdpapplist/server/rdpapplist_main.c`.

Every sender makes two passes over its PDU: one adds up the length of the body
in 32 bits and rejects strings over the limit, one writes the fields to a stream
of exactly that length. The two passes test the same flags in the same order;
`Packet.send_eq` says what follows: when the length does not wrap, what goes to
the channel is an eight-byte header, whose length field is the number of bytes
sent, and the body.

`Stream_New` and `WTSVirtualChannelWrite` belong to winpr; whether they succeed
is a parameter (`SendEnv`). A write past the end of a stream has no result.
-/

import Mathlib.Data.List.Basic
import Wslg.Codec.LittleEndian
import Wslg.Protocol.Constants

namespace Wslg.Server

open Wslg.LittleEndian Wslg.Protocol

/-- A Win32 error code. -/
abbrev UINT := UInt32

def channelRcOk : UINT := 0
def channelRcBadProc : UINT := 11
def channelRcNoMemory : UINT := 12
def errorInvalidData : UINT := 13
def errorNoData : UINT := 232
def errorInternalError : UINT := 1359

/-! ### PDUs as the senders take them -/

/-- `RAIL_UNICODE_STRING`: a byte count and that many bytes. -/
structure RailUnicodeString where
  length : UInt16
  string : List BYTE
  size : string.length = length.toNat
deriving DecidableEq

namespace RailUnicodeString

def empty : RailUnicodeString := ⟨0, [], rfl⟩

/-- The string of some bytes that a 16-bit length can count. -/
def ofBytes (bs : List BYTE) (fits : bs.length < 2 ^ 16) : RailUnicodeString :=
  ⟨UInt16.ofNat bs.length, bs, by rw [UInt16.toNat_ofNat', Nat.mod_eq_of_lt fits]⟩

end RailUnicodeString

structure ServerCapsPdu where
  version : UInt16
  appListProviderName : RailUnicodeString
  appListProviderUniqueId : RailUnicodeString
deriving DecidableEq

/-- `RDPAPPLIST_ICON_DATA`: `iconBits` points to `iconBitsLength` bytes. -/
structure IconData where
  flags : UInt32
  iconWidth : UInt32
  iconHeight : UInt32
  iconStride : UInt32
  iconBpp : UInt32
  iconFormat : UInt32
  iconBitsLength : UInt32
  iconBits : List BYTE
  size : iconBits.length = iconBitsLength.toNat
deriving DecidableEq

structure UpdateAppListPdu where
  flags : UInt32
  appId : RailUnicodeString
  appGroup : RailUnicodeString
  appExecPath : RailUnicodeString
  appWorkingDir : RailUnicodeString
  appDesc : RailUnicodeString
  appIcon : Option IconData
deriving DecidableEq

structure DeleteAppListPdu where
  flags : UInt32
  appId : RailUnicodeString
  appGroup : RailUnicodeString
deriving DecidableEq

structure DeleteAppListProviderPdu where
  flags : UInt32
  appListProviderName : RailUnicodeString
deriving DecidableEq

structure AssociateWindowIdPdu where
  flags : UInt32
  appWindowId : UInt32
  appId : RailUnicodeString
  appGroup : RailUnicodeString
  appExecPath : RailUnicodeString
  appDesc : RailUnicodeString
deriving DecidableEq

/-! ### Streams -/

/-- A `wStream` being written: what is before the position fits. -/
structure WStream where
  capacity : Nat
  bytes : List BYTE
  fits : bytes.length ≤ capacity

namespace WStream

/-- An empty stream. -/
def new (capacity : Nat) : WStream := ⟨capacity, [], Nat.zero_le _⟩

/-- `Stream_Write`; no result when it would leave the stream. -/
def write (bs : List BYTE) (s : WStream) : Option WStream :=
  if h : s.bytes.length + bs.length ≤ s.capacity then
    some ⟨s.capacity, s.bytes ++ bs, by rw [List.length_append]; exact h⟩
  else none

theorem write_eq_some {s : WStream} {bs : List BYTE}
    (h : s.bytes.length + bs.length ≤ s.capacity) :
    s.write bs = some ⟨s.capacity, s.bytes ++ bs, by rw [List.length_append]; exact h⟩ :=
  dif_pos h

@[simp] theorem write_nil (s : WStream) : s.write [] = some s := by
  obtain ⟨capacity, bytes, fits⟩ := s
  rw [write_eq_some (by simpa using fits)]
  simp

/-- Two writes are one of the bytes together. -/
theorem write_write (s : WStream) (bs bs' : List BYTE) :
    (s.write bs).bind (write bs') = s.write (bs ++ bs') := by
  by_cases first : s.bytes.length + bs.length ≤ s.capacity
  · rw [write_eq_some first, Option.bind_some]
    simp only [write, List.length_append, List.append_assoc, Nat.add_assoc]
  · have both : ¬ s.bytes.length + (bs ++ bs').length ≤ s.capacity := by
      simp only [List.length_append]; omega
    simp only [write, dif_neg first, dif_neg both, Option.bind_none]

end WStream

/-- A stretch of a write pass: it appends the bytes `bs`, whatever came before. -/
def Writes (w : WStream → Option WStream) (bs : List BYTE) : Prop :=
  ∀ s, w s = s.write bs

theorem Writes.of_write (bs : List BYTE) : Writes (WStream.write bs) bs := fun _ => rfl

theorem Writes.bind {w w' : WStream → Option WStream} {bs bs' : List BYTE}
    (h : Writes w bs) (h' : Writes w' bs') : Writes (fun s => (w s).bind w') (bs ++ bs') := by
  intro s
  rw [← WStream.write_write, ← h s]
  exact congrArg _ (funext h')

/-- A stretch of a size pass: it adds `n`, whatever was counted before. -/
def Adds (a : UInt32 → Except UINT UInt32) (n : Nat) : Prop :=
  ∀ k, a (UInt32.ofNat k) = .ok (UInt32.ofNat (k + n))

theorem Adds.bind {a a' : UInt32 → Except UINT UInt32} {n n' : Nat}
    (h : Adds a n) (h' : Adds a' n') : Adds (fun len => (a len).bind a') (n + n') := by
  intro k
  show (a (UInt32.ofNat k)).bind a' = _
  rw [h k, ← Nat.add_assoc]
  exact h' (k + n)

/-! ### Fields -/

/-- The size pass on an optional string field. -/
def addString (flags bit : UInt32) (s : RailUnicodeString) (len : UInt32) : Except UINT UInt32 :=
  if has flags bit then
    if s.length.toNat > maxStringSize then .error errorInvalidData
    else .ok (len + (2 + s.length.toUInt32))
  else .ok len

def writeString (s : RailUnicodeString) (stream : WStream) : Option WStream := do
  let stream ← stream.write (word16 s.length)
  stream.write s.string

/-- The write pass on an optional string field. -/
def writeField (flags bit : UInt32) (s : RailUnicodeString) (stream : WStream) : Option WStream :=
  if has flags bit then writeString s stream else some stream

/-- The bytes of a string: its length and its contents. -/
def RailUnicodeString.toBytes (s : RailUnicodeString) : List BYTE := word16 s.length ++ s.string

@[simp] theorem RailUnicodeString.length_toBytes (s : RailUnicodeString) :
    s.toBytes.length = 2 + s.length.toNat := by
  rw [toBytes, List.length_append, length_word16, s.size]

theorem toUInt32_eq (v : UInt16) : v.toUInt32 = UInt32.ofNat v.toNat := by
  apply UInt32.toNat_inj.mp
  have := v.toNat_lt
  rw [UInt16.toNat_toUInt32, UInt32.toNat_ofNat']
  omega

/-- The bytes of an optional string field. -/
def fieldBytes (flags bit : UInt32) (s : RailUnicodeString) : List BYTE :=
  if has flags bit then s.toBytes else []

theorem writeString_writes (s : RailUnicodeString) : Writes (writeString s) s.toBytes :=
  (Writes.of_write _).bind (Writes.of_write _)

theorem writeField_writes (flags bit : UInt32) (s : RailUnicodeString) :
    Writes (writeField flags bit s) (fieldBytes flags bit s) := by
  intro stream
  by_cases flagged : has flags bit
  · simp only [writeField, fieldBytes, if_pos flagged]
    exact writeString_writes s stream
  · simp only [writeField, fieldBytes, if_neg flagged, WStream.write_nil]

/-- A string within the limit adds exactly the number of bytes written for it. -/
theorem addString_adds {flags bit : UInt32} {s : RailUnicodeString}
    (short : has flags bit = true → s.length.toNat ≤ maxStringSize) :
    Adds (addString flags bit s) (fieldBytes flags bit s).length := by
  intro n
  by_cases flagged : has flags bit
  · simp only [addString, fieldBytes, if_pos flagged, if_neg (Nat.not_lt.mpr (short flagged)),
      RailUnicodeString.length_toBytes, toUInt32_eq, UInt32.ofNat_add]
    rfl
  · simp only [addString, fieldBytes, if_neg flagged, List.length_nil, Nat.add_zero]

/-! ### Packets -/

/-- What winpr answers: whether a stream of a capacity can be made, and whether
the channel takes a buffer. -/
structure SendEnv where
  streamNew : Nat → Bool
  channelWrite : List BYTE → Bool

/-- What a sender returns and the buffer it handed to `WTSVirtualChannelWrite`,
if it got that far. -/
structure Sent where
  ret : UINT
  buffer : Option (List BYTE)
deriving DecidableEq

/-- `rdpapplist_write_header`. -/
def writeHeader (cmdId length : UInt32) (stream : WStream) : Option WStream := do
  let stream ← stream.write (word32 cmdId)
  stream.write (word32 length)

/-- The packet's stream with its header, or a null pointer (`some none`). -/
def singlePacketNew (env : SendEnv) (cmdId length : UInt32) : Option (Option WStream) :=
  let total := headerSize + length
  if env.streamNew total.toNat then (writeHeader cmdId total (.new total.toNat)).map some
  else some none

/-- The length handed on is a 32-bit word. -/
def packetSend (env : SendEnv) (stream : WStream) : Sent :=
  let buffer := stream.bytes.take (stream.bytes.length % 2 ^ 32)
  ⟨if env.channelWrite buffer then channelRcOk else errorInternalError, some buffer⟩

theorem packetSend_eq {env : SendEnv} {stream : WStream} (short : stream.bytes.length < 2 ^ 32) :
    packetSend env stream =
      ⟨if env.channelWrite stream.bytes then channelRcOk else errorInternalError,
        some stream.bytes⟩ := by
  simp only [packetSend, Nat.mod_eq_of_lt short, List.take_length]

/-- A sender's command, its size pass and its write pass. -/
structure Packet where
  cmdId : UInt32
  size : Except UINT UInt32
  write : WStream → Option WStream

/-- What every sender does with its two passes. -/
def Packet.send (env : SendEnv) (p : Packet) : Option Sent :=
  match p.size with
  | .error e => some ⟨e, none⟩
  | .ok len =>
      match singlePacketNew env p.cmdId len with
      | none => none
      | some none => some ⟨channelRcNoMemory, none⟩
      | some (some stream) => (p.write stream).map (packetSend env)

theorem writeHeader_writes (cmdId length : UInt32) :
    Writes (writeHeader cmdId length) (word32 cmdId ++ word32 length) :=
  (Writes.of_write _).bind (Writes.of_write _)

/-- The eight bytes before a body of `n` bytes. -/
def headerBytes (cmdId : UInt32) (n : Nat) : List BYTE :=
  word32 cmdId ++ word32 (UInt32.ofNat (8 + n))

/-- When the two passes agree and the length does not wrap, the sender hands over
a header that counts every byte, and the body. -/
theorem Packet.send_eq {env : SendEnv} {p : Packet} {body : List BYTE}
    (size : p.size = .ok (UInt32.ofNat body.length)) (write : Writes p.write body)
    (short : 8 + body.length < 2 ^ 32) (made : env.streamNew (8 + body.length) = true) :
    ∃ ret, p.send env = some ⟨ret, some (headerBytes p.cmdId body.length ++ body)⟩ := by
  have total : headerSize + UInt32.ofNat body.length = UInt32.ofNat (8 + body.length) := by
    rw [UInt32.ofNat_add]; rfl
  have total' : (UInt32.ofNat (8 + body.length)).toNat = 8 + body.length := by
    rw [UInt32.toNat_ofNat', Nat.mod_eq_of_lt short]
  have header : writeHeader p.cmdId (UInt32.ofNat (8 + body.length)) (.new (8 + body.length)) =
      (WStream.new (8 + body.length)).write (headerBytes p.cmdId body.length) :=
    writeHeader_writes _ _ _
  have headerFits : (WStream.new (8 + body.length)).bytes.length +
      (headerBytes p.cmdId body.length).length ≤ (WStream.new (8 + body.length)).capacity := by
    simp [WStream.new, headerBytes]
  rw [WStream.write_eq_some headerFits] at header
  simp only [Packet.send, size, singlePacketNew, total, total', made, if_true, header,
    Option.map_some, write _]
  rw [WStream.write_eq_some (by simp [WStream.new, headerBytes])]
  exact ⟨_, congrArg some (packetSend_eq (by simp [WStream.new, headerBytes]; omega))⟩

/-- What a sender returns that handed over a buffer. -/
theorem Packet.ret_of_send {env : SendEnv} {p : Packet} {ret : UINT} {buffer : List BYTE}
    (sent : p.send env = some ⟨ret, some buffer⟩) :
    ret = if env.channelWrite buffer then channelRcOk else errorInternalError := by
  unfold Packet.send at sent
  split at sent
  · cases sent
  · split at sent
    · cases sent
    · cases sent
    · obtain ⟨stream, -, same⟩ := Option.map_eq_some_iff.mp sent
      cases same
      rfl

/-- Without a stream nothing goes to the channel. -/
theorem Packet.send_of_no_stream {env : SendEnv} {p : Packet} {n : Nat}
    (size : p.size = .ok (UInt32.ofNat n)) (short : 8 + n < 2 ^ 32)
    (unmade : env.streamNew (8 + n) = false) :
    p.send env = some ⟨channelRcNoMemory, none⟩ := by
  have total : headerSize + UInt32.ofNat n = UInt32.ofNat (8 + n) := by
    rw [UInt32.ofNat_add]; rfl
  have total' : (UInt32.ofNat (8 + n)).toNat = 8 + n := by
    rw [UInt32.toNat_ofNat', Nat.mod_eq_of_lt short]
  simp only [Packet.send, size, singlePacketNew, total, total', unmade, Bool.false_eq_true,
    if_false]

/-! ### The five senders -/

namespace ServerCapsPdu

def body (caps : ServerCapsPdu) : List BYTE :=
  word16 caps.version ++ caps.appListProviderName.toBytes ++ caps.appListProviderUniqueId.toBytes

/-- `rdpapplist_send_caps`. Only the name is checked against the limit; `len` is
an `int` that the lengths cannot overflow. -/
def packet (caps : ServerCapsPdu) : Packet where
  cmdId := cmdIdCaps
  size :=
    if caps.appListProviderName.length.toNat > maxStringSize then .error errorInvalidData
    else .ok (2 + (2 + caps.appListProviderName.length.toUInt32) +
      (2 + caps.appListProviderUniqueId.length.toUInt32))
  write stream := do
    let stream ← stream.write (word16 caps.version)
    let stream ← writeString caps.appListProviderName stream
    writeString caps.appListProviderUniqueId stream

theorem size_packet {caps : ServerCapsPdu}
    (short : caps.appListProviderName.length.toNat ≤ maxStringSize) :
    caps.packet.size = .ok (UInt32.ofNat caps.body.length) := by
  simp only [packet, if_neg (Nat.not_lt.mpr short), body, List.length_append, length_word16,
    RailUnicodeString.length_toBytes, toUInt32_eq, UInt32.ofNat_add]
  rfl

theorem write_packet (caps : ServerCapsPdu) : Writes caps.packet.write caps.body := by
  rw [body, List.append_assoc]
  exact (Writes.of_write _).bind ((writeString_writes _).bind (writeString_writes _))

end ServerCapsPdu

/-- The seven words and the bits of an icon. -/
def IconData.toBytes (i : IconData) : List BYTE :=
  word32 i.flags ++ word32 i.iconWidth ++ word32 i.iconHeight ++ word32 i.iconStride ++
    word32 i.iconBpp ++ word32 i.iconFormat ++ word32 i.iconBitsLength ++ i.iconBits

@[simp] theorem IconData.length_toBytes (i : IconData) :
    i.toBytes.length = 28 + i.iconBitsLength.toNat := by
  simp only [toBytes, List.length_append, length_word32, i.size]

/-- The size pass on the icon. -/
def addIcon (flags : UInt32) (icon : Option IconData) (len : UInt32) : Except UINT UInt32 :=
  if has flags fieldIcon then
    match icon with
    | none => .error errorInvalidData
    | some i => .ok (len + (7 * 4 + i.iconBitsLength))
  else .ok len

/-- The write pass on the icon; a null `appIcon` is dereferenced. -/
def writeIcon (flags : UInt32) (icon : Option IconData) (stream : WStream) : Option WStream :=
  if has flags fieldIcon then
    match icon with
    | none => none
    | some i => do
        let stream ← stream.write (word32 i.flags)
        let stream ← stream.write (word32 i.iconWidth)
        let stream ← stream.write (word32 i.iconHeight)
        let stream ← stream.write (word32 i.iconStride)
        let stream ← stream.write (word32 i.iconBpp)
        let stream ← stream.write (word32 i.iconFormat)
        let stream ← stream.write (word32 i.iconBitsLength)
        stream.write i.iconBits
  else some stream

/-- The bytes of an optional icon. -/
def iconBytes (flags : UInt32) (icon : Option IconData) : List BYTE :=
  if has flags fieldIcon then (icon.map IconData.toBytes).getD [] else []

theorem addIcon_adds {flags : UInt32} {icon : Option IconData}
    (given : has flags fieldIcon = true → icon ≠ none) :
    Adds (addIcon flags icon) (iconBytes flags icon).length := by
  intro n
  by_cases flagged : has flags fieldIcon
  · obtain ⟨i, rfl⟩ := Option.ne_none_iff_exists'.mp (given flagged)
    simp only [addIcon, iconBytes, if_pos flagged, Option.map_some, Option.getD_some,
      IconData.length_toBytes, UInt32.ofNat_add, UInt32.ofNat_toNat]
    rfl
  · simp only [addIcon, iconBytes, if_neg flagged, List.length_nil, Nat.add_zero]

theorem writeIcon_writes {flags : UInt32} {icon : Option IconData}
    (given : has flags fieldIcon = true → icon ≠ none) :
    Writes (writeIcon flags icon) (iconBytes flags icon) := by
  intro stream
  by_cases flagged : has flags fieldIcon
  · obtain ⟨i, rfl⟩ := Option.ne_none_iff_exists'.mp (given flagged)
    simp only [writeIcon, iconBytes, if_pos flagged, Option.map_some, Option.getD_some,
      IconData.toBytes, List.append_assoc]
    exact ((Writes.of_write _).bind ((Writes.of_write _).bind ((Writes.of_write _).bind
      ((Writes.of_write _).bind ((Writes.of_write _).bind ((Writes.of_write _).bind
        ((Writes.of_write _).bind (Writes.of_write _)))))))) stream
  · simp only [writeIcon, iconBytes, if_neg flagged, WStream.write_nil]

namespace UpdateAppListPdu

def body (p : UpdateAppListPdu) : List BYTE :=
  word32 p.flags ++ (fieldBytes p.flags fieldId p.appId ++
    (fieldBytes p.flags fieldGroup p.appGroup ++
    (fieldBytes p.flags fieldExecPath p.appExecPath ++
    (fieldBytes p.flags fieldWorkingDir p.appWorkingDir ++
    (fieldBytes p.flags fieldDesc p.appDesc ++ iconBytes p.flags p.appIcon)))))

/-- `rdpapplist_send_update_applist`. -/
def packet (p : UpdateAppListPdu) : Packet where
  cmdId := cmdIdUpdateAppList
  size := do
    let len ← addString p.flags fieldId p.appId 4
    let len ← addString p.flags fieldGroup p.appGroup len
    let len ← addString p.flags fieldExecPath p.appExecPath len
    let len ← addString p.flags fieldWorkingDir p.appWorkingDir len
    let len ← addString p.flags fieldDesc p.appDesc len
    addIcon p.flags p.appIcon len
  write stream := do
    let stream ← stream.write (word32 p.flags)
    let stream ← writeField p.flags fieldId p.appId stream
    let stream ← writeField p.flags fieldGroup p.appGroup stream
    let stream ← writeField p.flags fieldExecPath p.appExecPath stream
    let stream ← writeField p.flags fieldWorkingDir p.appWorkingDir stream
    let stream ← writeField p.flags fieldDesc p.appDesc stream
    writeIcon p.flags p.appIcon stream

/-- What the sender checks: flagged strings within the limit, a flagged icon. -/
structure Sendable (p : UpdateAppListPdu) : Prop where
  appId : has p.flags fieldId = true → p.appId.length.toNat ≤ maxStringSize
  appGroup : has p.flags fieldGroup = true → p.appGroup.length.toNat ≤ maxStringSize
  appExecPath : has p.flags fieldExecPath = true → p.appExecPath.length.toNat ≤ maxStringSize
  appWorkingDir :
    has p.flags fieldWorkingDir = true → p.appWorkingDir.length.toNat ≤ maxStringSize
  appDesc : has p.flags fieldDesc = true → p.appDesc.length.toNat ≤ maxStringSize
  appIcon : has p.flags fieldIcon = true → p.appIcon ≠ none

theorem size_packet {p : UpdateAppListPdu} (ok : p.Sendable) :
    p.packet.size = .ok (UInt32.ofNat p.body.length) := by
  simp only [body, List.length_append, length_word32]
  exact (addString_adds ok.appId).bind ((addString_adds ok.appGroup).bind
    ((addString_adds ok.appExecPath).bind ((addString_adds ok.appWorkingDir).bind
      ((addString_adds ok.appDesc).bind (addIcon_adds ok.appIcon))))) 4

theorem write_packet {p : UpdateAppListPdu} (ok : p.Sendable) :
    Writes p.packet.write p.body :=
  (Writes.of_write _).bind ((writeField_writes _ _ _).bind ((writeField_writes _ _ _).bind
    ((writeField_writes _ _ _).bind ((writeField_writes _ _ _).bind
      ((writeField_writes _ _ _).bind (writeIcon_writes ok.appIcon))))))

end UpdateAppListPdu

namespace DeleteAppListPdu

def body (p : DeleteAppListPdu) : List BYTE :=
  word32 p.flags ++ (fieldBytes p.flags fieldId p.appId ++ fieldBytes p.flags fieldGroup p.appGroup)

/-- `rdpapplist_send_delete_applist`. -/
def packet (p : DeleteAppListPdu) : Packet where
  cmdId := cmdIdDeleteAppList
  size := do
    let len ← addString p.flags fieldId p.appId 4
    addString p.flags fieldGroup p.appGroup len
  write stream := do
    let stream ← stream.write (word32 p.flags)
    let stream ← writeField p.flags fieldId p.appId stream
    writeField p.flags fieldGroup p.appGroup stream

structure Sendable (p : DeleteAppListPdu) : Prop where
  appId : has p.flags fieldId = true → p.appId.length.toNat ≤ maxStringSize
  appGroup : has p.flags fieldGroup = true → p.appGroup.length.toNat ≤ maxStringSize

theorem size_packet {p : DeleteAppListPdu} (ok : p.Sendable) :
    p.packet.size = .ok (UInt32.ofNat p.body.length) := by
  simp only [body, List.length_append, length_word32]
  exact (addString_adds ok.appId).bind (addString_adds ok.appGroup) 4

theorem write_packet (p : DeleteAppListPdu) : Writes p.packet.write p.body :=
  (Writes.of_write _).bind ((writeField_writes _ _ _).bind (writeField_writes _ _ _))

end DeleteAppListPdu

namespace DeleteAppListProviderPdu

def body (p : DeleteAppListProviderPdu) : List BYTE :=
  word32 p.flags ++ fieldBytes p.flags fieldProvider p.appListProviderName

/-- `rdpapplist_send_delete_applist_provider`. -/
def packet (p : DeleteAppListProviderPdu) : Packet where
  cmdId := cmdIdDeleteAppListProvider
  size := addString p.flags fieldProvider p.appListProviderName 4
  write stream := do
    let stream ← stream.write (word32 p.flags)
    writeField p.flags fieldProvider p.appListProviderName stream

structure Sendable (p : DeleteAppListProviderPdu) : Prop where
  appListProviderName :
    has p.flags fieldProvider = true → p.appListProviderName.length.toNat ≤ maxStringSize

theorem size_packet {p : DeleteAppListProviderPdu} (ok : p.Sendable) :
    p.packet.size = .ok (UInt32.ofNat p.body.length) := by
  simp only [body, List.length_append, length_word32]
  exact addString_adds ok.appListProviderName 4

theorem write_packet (p : DeleteAppListProviderPdu) : Writes p.packet.write p.body :=
  (Writes.of_write _).bind (writeField_writes _ _ _)

end DeleteAppListProviderPdu

namespace AssociateWindowIdPdu

def body (p : AssociateWindowIdPdu) : List BYTE :=
  word32 p.flags ++ (word32 p.appWindowId ++ (fieldBytes p.flags fieldId p.appId ++
    (fieldBytes p.flags fieldGroup p.appGroup ++
    (fieldBytes p.flags fieldExecPath p.appExecPath ++
    fieldBytes p.flags fieldDesc p.appDesc))))

/-- `rdpapplist_send_associate_window_id`. -/
def packet (p : AssociateWindowIdPdu) : Packet where
  cmdId := cmdIdAssociateWindowId
  size := do
    let len ← addString p.flags fieldId p.appId 8
    let len ← addString p.flags fieldGroup p.appGroup len
    let len ← addString p.flags fieldExecPath p.appExecPath len
    addString p.flags fieldDesc p.appDesc len
  write stream := do
    let stream ← stream.write (word32 p.flags)
    let stream ← stream.write (word32 p.appWindowId)
    let stream ← writeField p.flags fieldId p.appId stream
    let stream ← writeField p.flags fieldGroup p.appGroup stream
    let stream ← writeField p.flags fieldExecPath p.appExecPath stream
    writeField p.flags fieldDesc p.appDesc stream

structure Sendable (p : AssociateWindowIdPdu) : Prop where
  appId : has p.flags fieldId = true → p.appId.length.toNat ≤ maxStringSize
  appGroup : has p.flags fieldGroup = true → p.appGroup.length.toNat ≤ maxStringSize
  appExecPath : has p.flags fieldExecPath = true → p.appExecPath.length.toNat ≤ maxStringSize
  appDesc : has p.flags fieldDesc = true → p.appDesc.length.toNat ≤ maxStringSize

theorem size_packet {p : AssociateWindowIdPdu} (ok : p.Sendable) :
    p.packet.size = .ok (UInt32.ofNat p.body.length) := by
  have counted : p.body.length = 8 + ((fieldBytes p.flags fieldId p.appId).length +
      ((fieldBytes p.flags fieldGroup p.appGroup).length +
      ((fieldBytes p.flags fieldExecPath p.appExecPath).length +
      (fieldBytes p.flags fieldDesc p.appDesc).length))) := by
    simp only [body, List.length_append, length_word32]
    omega
  rw [counted]
  exact (addString_adds ok.appId).bind ((addString_adds ok.appGroup).bind
    ((addString_adds ok.appExecPath).bind (addString_adds ok.appDesc))) 8

theorem write_packet (p : AssociateWindowIdPdu) : Writes p.packet.write p.body :=
  (Writes.of_write _).bind ((Writes.of_write _).bind ((writeField_writes _ _ _).bind
    ((writeField_writes _ _ _).bind ((writeField_writes _ _ _).bind (writeField_writes _ _ _)))))

end AssociateWindowIdPdu

/-! ### Any of the five -/

inductive ServerPdu where
  | caps (p : ServerCapsPdu)
  | updateAppList (p : UpdateAppListPdu)
  | deleteAppList (p : DeleteAppListPdu)
  | deleteAppListProvider (p : DeleteAppListProviderPdu)
  | associateWindowId (p : AssociateWindowIdPdu)
deriving DecidableEq

namespace ServerPdu

def packet : ServerPdu → Packet
  | caps p => p.packet
  | updateAppList p => p.packet
  | deleteAppList p => p.packet
  | deleteAppListProvider p => p.packet
  | associateWindowId p => p.packet

def body : ServerPdu → List BYTE
  | caps p => p.body
  | updateAppList p => p.body
  | deleteAppList p => p.body
  | deleteAppListProvider p => p.body
  | associateWindowId p => p.body

def cmdId (pdu : ServerPdu) : UInt32 := pdu.packet.cmdId

/-- A call of the sender of this kind of PDU. -/
def send (env : SendEnv) (pdu : ServerPdu) : Option Sent := pdu.packet.send env

/-- The PDU passes its sender's checks. -/
def Sendable : ServerPdu → Prop
  | caps p => p.appListProviderName.length.toNat ≤ maxStringSize
  | updateAppList p => p.Sendable
  | deleteAppList p => p.Sendable
  | deleteAppListProvider p => p.Sendable
  | associateWindowId p => p.Sendable

/-- A PDU on the wire: the header counting every byte, and the body. -/
def wire (pdu : ServerPdu) : List BYTE := headerBytes pdu.cmdId pdu.body.length ++ pdu.body

theorem length_wire (pdu : ServerPdu) : pdu.wire.length = 8 + pdu.body.length := by
  simp only [wire, headerBytes, List.length_append, length_word32]

/-- A sender whose checks pass hands the channel its PDU's wire form. -/
theorem send_eq {env : SendEnv} {pdu : ServerPdu} (ok : pdu.Sendable)
    (short : 8 + pdu.body.length < 2 ^ 32) (made : env.streamNew (8 + pdu.body.length) = true) :
    ∃ ret, pdu.send env = some ⟨ret, some pdu.wire⟩ := by
  cases pdu with
  | caps p => exact Packet.send_eq (p.size_packet ok) p.write_packet short made
  | updateAppList p => exact Packet.send_eq (p.size_packet ok) (p.write_packet ok) short made
  | deleteAppList p => exact Packet.send_eq (p.size_packet ok) p.write_packet short made
  | deleteAppListProvider p => exact Packet.send_eq (p.size_packet ok) p.write_packet short made
  | associateWindowId p => exact Packet.send_eq (p.size_packet ok) p.write_packet short made

theorem send_of_no_stream {env : SendEnv} {pdu : ServerPdu} (ok : pdu.Sendable)
    (short : 8 + pdu.body.length < 2 ^ 32)
    (unmade : env.streamNew (8 + pdu.body.length) = false) :
    pdu.send env = some ⟨channelRcNoMemory, none⟩ := by
  cases pdu with
  | caps p => exact Packet.send_of_no_stream (p.size_packet ok) short unmade
  | updateAppList p => exact Packet.send_of_no_stream (p.size_packet ok) short unmade
  | deleteAppList p => exact Packet.send_of_no_stream (p.size_packet ok) short unmade
  | deleteAppListProvider p => exact Packet.send_of_no_stream (p.size_packet ok) short unmade
  | associateWindowId p => exact Packet.send_of_no_stream (p.size_packet ok) short unmade

end ServerPdu

end Wslg.Server
