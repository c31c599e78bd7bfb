/-
Little-endian words of any width, and byte lists read as 16-bit code units.

`encode n v` is what a writer of an `n`-byte word puts on the wire and
`decode` is what a reader of that many bytes gets back: the low `n` bytes of
the value (`decode_encode`). Nothing here knows what the words mean; the width
is a parameter, never 2 or 4.

`units` pairs up bytes into 16-bit units the way a byte-wise copy into an array
of such units does, and `overlay` is that copy: it overwrites a prefix of the
array and leaves the rest, the high half of a last odd byte included.
-/

import Mathlib.Tactic.Ring
import Mathlib.Data.List.Basic

namespace Wslg.LittleEndian

/-! ### Words -/

/-- The `n` low bytes of `v`, least significant first. -/
def encode : Nat → Nat → List UInt8
  | 0, _ => []
  | n + 1, v => UInt8.ofNat v :: encode n (v / 256)

/-- The number a byte list stands for, least significant byte first. -/
def decode : List UInt8 → Nat
  | [] => 0
  | b :: bs => b.toNat + 256 * decode bs

@[simp] theorem length_encode (n v : Nat) : (encode n v).length = n := by
  induction n generalizing v with
  | zero => rfl
  | succ n ih => simp [encode, ih]

/-- Reading back a written word gives its low `n` bytes. -/
theorem decode_encode (n v : Nat) : decode (encode n v) = v % 256 ^ n := by
  induction n generalizing v with
  | zero => simp [encode, decode, Nat.mod_one]
  | succ n ih =>
      have split : v % (256 * 256 ^ n) = v % 256 + 256 * (v / 256 % 256 ^ n) :=
        Nat.mod_mul
      simp only [encode, decode, ih, UInt8.toNat_ofNat', pow_succ, Nat.mul_comm (256 ^ n) 256]
      exact split.symm

theorem decode_encode_of_lt {n v : Nat} (h : v < 256 ^ n) : decode (encode n v) = v := by
  rw [decode_encode, Nat.mod_eq_of_lt h]

/-- The bytes of a 16-bit word. -/
def word16 (v : UInt16) : List UInt8 := encode 2 v.toNat

/-- The bytes of a 32-bit word. -/
def word32 (v : UInt32) : List UInt8 := encode 4 v.toNat

@[simp] theorem length_word16 (v : UInt16) : (word16 v).length = 2 := length_encode ..

@[simp] theorem length_word32 (v : UInt32) : (word32 v).length = 4 := length_encode ..

theorem ofNat_decode_word16 (v : UInt16) : UInt16.ofNat (decode (word16 v)) = v := by
  rw [word16, decode_encode_of_lt (by simpa using v.toNat_lt), UInt16.ofNat_toNat]

theorem ofNat_decode_word32 (v : UInt32) : UInt32.ofNat (decode (word32 v)) = v := by
  rw [word32, decode_encode_of_lt (by simpa using v.toNat_lt), UInt32.ofNat_toNat]

theorem decode_lt (bs : List UInt8) : decode bs < 256 ^ bs.length := by
  induction bs with
  | nil => exact Nat.one_pos
  | cons b bs ih =>
      have low := b.toNat_lt
      simp only [decode, List.length_cons, pow_succ]
      omega

/-- Writing what was read gives the bytes back. -/
theorem encode_decode (bs : List UInt8) : encode bs.length (decode bs) = bs := by
  induction bs with
  | nil => rfl
  | cons b bs ih =>
      have low := b.toNat_lt
      have first : UInt8.ofNat (b.toNat + 256 * decode bs) = b := by
        apply UInt8.toNat_inj.mp
        rw [UInt8.toNat_ofNat']
        omega
      have others : (b.toNat + 256 * decode bs) / 256 = decode bs := by omega
      simp only [encode, decode, List.length_cons, first, others, ih]

theorem word16_ofNat_decode {bs : List UInt8} (size : bs.length = 2) :
    word16 (UInt16.ofNat (decode bs)) = bs := by
  have small := decode_lt bs
  rw [size] at small
  rw [word16, UInt16.toNat_ofNat', Nat.mod_eq_of_lt (by simpa using small), ← size,
    encode_decode]

theorem word32_ofNat_decode {bs : List UInt8} (size : bs.length = 4) :
    word32 (UInt32.ofNat (decode bs)) = bs := by
  have small := decode_lt bs
  rw [size] at small
  rw [word32, UInt32.toNat_ofNat', Nat.mod_eq_of_lt (by simpa using small), ← size,
    encode_decode]

/-! ### Bytes as 16-bit units -/

/-- The unit whose low byte is `lo` and whose high byte is `hi`. -/
def unit (lo hi : UInt8) : UInt16 := UInt16.ofNat (lo.toNat + 256 * hi.toNat)

/-- The two bytes of a unit, low byte first. -/
def unitBytes (w : UInt16) : List UInt8 := encode 2 w.toNat

/-- The whole units of a byte list; a last odd byte is not one. -/
def units : List UInt8 → List UInt16
  | lo :: hi :: bs => unit lo hi :: units bs
  | _ => []

/-- The bytes of an array of units. -/
def bytes (ws : List UInt16) : List UInt8 := ws.flatMap unitBytes

/-- A byte-wise copy of `bs` onto the start of an array of units. Bytes past the
end of the array are not this function's business: the caller checks. -/
def overlay : List UInt16 → List UInt8 → List UInt16
  | ws, [] => ws
  | [], _ => []
  | w :: ws, [lo] => UInt16.ofNat (lo.toNat + 256 * (w.toNat / 256)) :: ws
  | _ :: ws, lo :: hi :: bs => unit lo hi :: overlay ws bs

@[simp] theorem length_units : ∀ bs : List UInt8, (units bs).length = bs.length / 2
  | [] => rfl
  | [_] => by simp [units]
  | lo :: hi :: bs => by
      simp only [units, List.length_cons, length_units bs]
      omega

@[simp] theorem length_overlay (ws : List UInt16) (bs : List UInt8) :
    (overlay ws bs).length = ws.length := by
  induction ws, bs using overlay.induct with
  | case1 ws => simp [overlay]
  | case2 bs h => cases bs <;> simp_all [overlay]
  | case3 w ws lo => simp [overlay]
  | case4 w ws lo hi bs ih => simp [overlay, ih]

/-- A unit is given back by its two bytes. -/
@[simp] theorem units_unitBytes_append (w : UInt16) (bs : List UInt8) :
    units (unitBytes w ++ bs) = w :: units bs := by
  have hw : w.toNat < 65536 := w.toNat_lt
  have back : unit (UInt8.ofNat w.toNat) (UInt8.ofNat (w.toNat / 256)) = w := by
    apply UInt16.toNat_inj.mp
    simp only [unit, UInt16.toNat_ofNat', UInt8.toNat_ofNat']
    omega
  simp only [unitBytes, encode, List.cons_append, List.nil_append, units, back]

theorem unitBytes_unit (lo hi : UInt8) : unitBytes (unit lo hi) = [lo, hi] := by
  have size : [lo, hi].length = 2 := rfl
  have pair : unit lo hi = UInt16.ofNat (decode [lo, hi]) := by simp [unit, decode]
  rw [pair]
  exact word16_ofNat_decode size

@[simp] theorem length_bytes (ws : List UInt16) : (bytes ws).length = 2 * ws.length := by
  induction ws with
  | nil => rfl
  | cons w ws ih =>
      rw [bytes, List.flatMap_cons, List.length_append, ← bytes, ih, unitBytes, length_encode,
        List.length_cons]
      omega

/-- An even number of bytes is the bytes of its units. -/
theorem bytes_units : ∀ {bs : List UInt8}, bs.length % 2 = 0 → bytes (units bs) = bs
  | [], _ => rfl
  | [_], odd => by cases odd
  | lo :: hi :: bs, even => by
      have rest : bs.length % 2 = 0 := by
        simp only [List.length_cons] at even
        omega
      simp only [units, bytes, List.flatMap_cons, unitBytes_unit]
      rw [← bytes, bytes_units rest]
      rfl

theorem take_bytes (ws : List UInt16) (n : Nat) :
    (bytes ws).take (2 * n) = bytes (ws.take n) := by
  induction n generalizing ws with
  | zero => simp [bytes]
  | succ n ih =>
      cases ws with
      | nil => simp [bytes]
      | cons w ws =>
          have two : (unitBytes w).length = 2 := length_encode ..
          rw [List.take_succ_cons, bytes, bytes, List.flatMap_cons, List.flatMap_cons, ← bytes,
            ← bytes, ← ih, Nat.mul_succ, Nat.add_comm, ← two, List.take_length_add_append]

/-- The whole units of a copy that fits are the first units of the array. -/
theorem take_overlay (ws : List UInt16) (bs : List UInt8) (fits : bs.length ≤ 2 * ws.length) :
    (overlay ws bs).take (bs.length / 2) = units bs := by
  induction ws, bs using overlay.induct with
  | case1 ws => simp [overlay, units]
  | case2 bs h =>
      cases bs with
      | nil => exact absurd rfl h
      | cons b bs => simp at fits
  | case3 w ws lo => simp [overlay, units]
  | case4 w ws lo hi bs ih =>
      simp only [List.length_cons] at fits
      have half : (bs.length + 1 + 1) / 2 = bs.length / 2 + 1 := by omega
      simp only [overlay, units, List.length_cons, half, List.take_succ_cons]
      rw [ih (by omega)]

/-- A copy of whole units leaves the array behind them. -/
theorem overlay_bytes {ws us : List UInt16} (fits : us.length ≤ ws.length) :
    overlay ws (bytes us) = us ++ ws.drop us.length := by
  induction us generalizing ws with
  | nil => cases ws <;> rfl
  | cons u us ih =>
      cases ws with
      | nil => cases fits
      | cons w ws =>
          have two : bytes (u :: us) =
              UInt8.ofNat u.toNat :: UInt8.ofNat (u.toNat / 256) :: bytes us := rfl
          have back : unit (UInt8.ofNat u.toNat) (UInt8.ofNat (u.toNat / 256)) = u :=
            (List.cons.inj (units_unitBytes_append u [])).1
          rw [two, overlay, back, ih (Nat.le_of_succ_le_succ fits)]
          rfl

end Wslg.LittleEndian
