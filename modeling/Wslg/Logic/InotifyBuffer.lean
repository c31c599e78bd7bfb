/-
What a `read` of an inotify descriptor puts into a buffer.

An event is a header of four 32-bit words and, where `len` is not 0, a name that ends in at
least one NUL. The kernel pads names so that events have a multiple of the header's size, and
it returns whole events only. `eventAt` is what a program gets that reads the header at an
offset and the name as a C string, with nothing where that leaves the buffer; it gives back
the event that was written there, and the offset of the next one (`eventAt_encodeEvent`).
-/

import Wslg.Codec.LittleEndian
import Wslg.Logic.Inotify

namespace Wslg.Inotify

open Wslg.LittleEndian

/-- `sizeof(struct inotify_event)`. -/
def headerSize : Nat := 16

/-- `NAME_MAX`. -/
def nameMax : Nat := 255

/-- `len`: room for the name and a NUL, in multiples of the header's size. -/
def paddedLength (n : Name) : Nat :=
  if n = [] then 0 else (n.length + headerSize) / headerSize * headerSize

/-- An event as the kernel has it: a descriptor that is an `int`, and a name that a directory
entry can have. -/
structure Encodable (e : Event) : Prop where
  wd_ge : -2147483648 ≤ e.wd
  wd_lt : e.wd < 2147483648
  nulFree : (0 : UInt8) ∉ e.name
  short : e.name.length ≤ nameMax

instance (e : Event) : Decidable (Encodable e) :=
  decidable_of_iff
    (-2147483648 ≤ e.wd ∧ e.wd < 2147483648 ∧ (0 : UInt8) ∉ e.name ∧ e.name.length ≤ nameMax)
    ⟨fun ⟨ge, lt, nulFree, short⟩ => ⟨ge, lt, nulFree, short⟩,
      fun ⟨ge, lt, nulFree, short⟩ => ⟨ge, lt, nulFree, short⟩⟩

/-- The bytes of an event. -/
def encodeEvent (cookie : UInt32) (e : Event) : List UInt8 :=
  encode 4 (e.wd % 4294967296).toNat ++ (word32 e.mask ++ (word32 cookie ++
    (encode 4 (paddedLength e.name) ++
      (e.name ++ List.replicate (paddedLength e.name - e.name.length) 0))))

/-- An `int` after an addition in wider arithmetic. -/
def toInt (n : Int) : Int := n.bmod 4294967296

/-- The event at an offset of a buffer and the offset behind it. -/
def eventAt (buf : List UInt8) (cur : Int) : Option (Event × Int) :=
  if 0 ≤ cur ∧ cur.toNat + headerSize ≤ buf.length then
    let header := buf.drop cur.toNat
    let wd := toInt (decode (header.take 4))
    let mask := UInt32.ofNat (decode ((header.drop 4).take 4))
    let len := decode ((header.drop 12).take 4)
    let name := header.drop headerSize
    let next := toInt (cur + (headerSize + len))
    if len = 0 then some (⟨wd, mask, []⟩, next)
    else if 0 ∈ name then some (⟨wd, mask, name.takeWhile (· ≠ 0)⟩, next)
    else none
  else none

/-! ### Sizes -/

theorem length_le_paddedLength {n : Name} (any : n ≠ []) : n.length < paddedLength n := by
  rw [paddedLength, if_neg any, headerSize]
  omega

theorem paddedLength_le {n : Name} (short : n.length ≤ nameMax) :
    paddedLength n ≤ nameMax + 1 := by
  rw [paddedLength, headerSize, nameMax] at *
  split
  · omega
  · omega

theorem paddedLength_eq_zero {n : Name} : paddedLength n = 0 ↔ n = [] := by
  constructor
  · intro zero
    by_contra any
    have room := length_le_paddedLength any
    omega
  · intro none_
    exact if_pos none_

theorem length_le (n : Name) : n.length ≤ paddedLength n := by
  by_cases any : n = []
  · rw [any]
    exact Nat.zero_le _
  · exact (length_le_paddedLength any).le

theorem length_encodeEvent (cookie : UInt32) (e : Event) :
    (encodeEvent cookie e).length = headerSize + paddedLength e.name := by
  have room := length_le e.name
  simp only [encodeEvent, List.length_append, length_encode, length_word32, List.length_replicate,
    headerSize]
  omega

/-- An event is never larger than a header with the longest name. -/
theorem length_encodeEvent_le (cookie : UInt32) {e : Event} (encodable : Encodable e) :
    (encodeEvent cookie e).length ≤ headerSize + (nameMax + 1) := by
  rw [length_encodeEvent]
  exact Nat.add_le_add_left (paddedLength_le encodable.short) _

/-! ### The round trip -/

theorem toInt_of_range {n : Int} (ge : -2147483648 ≤ n) (lt : n < 2147483648) : toInt n = n := by
  rw [toInt]
  exact Int.bmod_eq_of_le (by omega) (by omega)

/-- A descriptor is given back by its four bytes. -/
theorem toInt_decode_encode {wd : Int} (ge : -2147483648 ≤ wd) (lt : wd < 2147483648) :
    toInt (decode (encode 4 (wd % 4294967296).toNat)) = wd := by
  have range := Int.emod_nonneg wd (by decide : (4294967296 : Int) ≠ 0)
  have below := Int.emod_lt_of_pos wd (by decide : (0 : Int) < 4294967296)
  rw [decode_encode_of_lt (by omega), Int.toNat_of_nonneg range, toInt]
  exact (Int.emod_bmod (x := wd) (n := 4294967296)).trans (toInt_of_range ge lt)

/-- A name is what stands before the first NUL. -/
theorem takeWhile_name {n : Name} (nulFree : (0 : UInt8) ∉ n) {k : Nat} (padded : 0 < k)
    (back : List UInt8) : (n ++ List.replicate k 0 ++ back).takeWhile (· ≠ 0) = n := by
  rw [List.append_assoc, List.takeWhile_append_of_pos]
  · obtain ⟨k, rfl⟩ := Nat.exists_eq_add_one.mpr padded
    simp [List.replicate_succ]
  · intro c mem
    have other : c ≠ 0 := fun nul => nulFree (nul ▸ mem)
    simpa using other

/-- The four words of a header and what stands behind them. -/
theorem drop_words {a b c d : List UInt8} (sizeA : a.length = 4) (sizeB : b.length = 4)
    (sizeC : c.length = 4) (sizeD : d.length = 4) (name : List UInt8) :
    let header := a ++ (b ++ (c ++ (d ++ name)))
    header.take 4 = a ∧ (header.drop 4).take 4 = b ∧ (header.drop 12).take 4 = d ∧
      header.drop headerSize = name := by
  intro header
  have three : header = (a ++ b ++ c) ++ (d ++ name) := by
    simp only [header, List.append_assoc]
  have four : header = (a ++ b ++ c ++ d) ++ name := by
    simp only [header, List.append_assoc]
  refine ⟨List.take_left' sizeA, ?_, ?_, ?_⟩
  · rw [List.drop_left' sizeA, List.take_left' sizeB]
  · rw [three, List.drop_left' (by simp [sizeA, sizeB, sizeC]), List.take_left' sizeD]
  · rw [four, List.drop_left' (by simp [sizeA, sizeB, sizeC, sizeD, headerSize])]

/-- The event that was written at an offset is read there. -/
theorem eventAt_encodeEvent {e : Event} (encodable : Encodable e) (cookie : UInt32)
    (front back : List UInt8)
    (small : front.length + (encodeEvent cookie e).length < 2147483648) :
    eventAt (front ++ (encodeEvent cookie e ++ back)) front.length =
      some (e, ((front.length + (encodeEvent cookie e).length : Nat) : Int)) := by
  have size := length_encodeEvent cookie e
  have padded : paddedLength e.name ≤ nameMax + 1 := paddedLength_le encodable.short
  set padding := List.replicate (paddedLength e.name - e.name.length) (0 : UInt8) with padding_eq
  have header : (front ++ (encodeEvent cookie e ++ back)).drop ((front.length : Int)).toNat =
      encode 4 (e.wd % 4294967296).toNat ++ (word32 e.mask ++ (word32 cookie ++
        (encode 4 (paddedLength e.name) ++ (e.name ++ padding ++ back)))) := by
    rw [Int.toNat_natCast, List.drop_left, encodeEvent, padding_eq]
    simp only [List.append_assoc]
  have fits : 0 ≤ (front.length : Int) ∧ ((front.length : Int)).toNat + headerSize ≤
      (front ++ (encodeEvent cookie e ++ back)).length := by
    rw [Int.toNat_natCast, List.length_append, List.length_append, size]
    omega
  obtain ⟨wd, mask, len, name⟩ := drop_words (length_encode 4 (e.wd % 4294967296).toNat)
    (length_word32 e.mask) (length_word32 cookie) (length_encode 4 (paddedLength e.name))
    (e.name ++ padding ++ back)
  have next : toInt (front.length + (headerSize + paddedLength e.name : Nat)) =
      ((front.length + (encodeEvent cookie e).length : Nat) : Int) := by
    rw [size, ← Int.natCast_add]
    exact toInt_of_range (by omega) (by omega)
  rw [eventAt, if_pos fits, header]
  simp only [wd, mask, len, name]
  rw [toInt_decode_encode encodable.wd_ge encodable.wd_lt, ofNat_decode_word32,
    decode_encode_of_lt (by rw [nameMax] at padded; omega), ← Int.natCast_add, next]
  by_cases none_ : e.name = []
  · rw [if_pos (paddedLength_eq_zero.mpr none_), ← none_]
  · have any : 0 < paddedLength e.name - e.name.length :=
      Nat.sub_pos_of_lt (length_le_paddedLength none_)
    have ended : (0 : UInt8) ∈ e.name ++ padding ++ back := by
      refine List.mem_append_left _ (List.mem_append_right _ ?_)
      rw [padding_eq]
      exact List.mem_replicate.mpr ⟨any.ne', rfl⟩
    rw [if_neg (fun zero => none_ (paddedLength_eq_zero.mp zero)), if_pos ended,
      takeWhile_name encodable.nulFree any]

end Wslg.Inotify
