/-
Wide-character arrays of the client and the process heap.

A PDU's string member and `m_appProvider` are arrays of a fixed number of wide
characters that byte-wise copies write into, so an odd length or a shorter
second copy leaves halves and tails of what was there. `WBuf n` is such an array
with its size as a field; a write outside it has no result.

`Heap` keeps the blocks `LocalAlloc` gave out and `LocalFree` has not taken back.
-/

import Mathlib.Data.List.TakeWhile
import Wslg.Codec.LittleEndian
import Wslg.Protocol.Constants

namespace Wslg.Client

open Wslg.LittleEndian Wslg.Protocol

/-- A C array of `n` wide characters. -/
structure WBuf (n : Nat) where
  chars : List WCHAR
  size : chars.length = n
deriving DecidableEq

namespace WBuf

variable {n : Nat}

/-- `= {}`: every element zero. -/
def zero (n : Nat) : WBuf n := ⟨List.replicate n 0, List.length_replicate⟩

/-- The array read as a NUL-terminated string. -/
def str (b : WBuf n) : WStr := b.chars.takeWhile (· ≠ 0)

/-- `memcpy(b, src, src.length)`; no result when it would run past the array. -/
def copyBytes (b : WBuf n) (src : List BYTE) : Option (WBuf n) :=
  if src.length ≤ 2 * n then
    some ⟨overlay b.chars src, (length_overlay ..).trans b.size⟩
  else none

/-- `b[i] = c`; no result when `i` is not an index of the array. -/
def put (b : WBuf n) (i : Nat) (c : WCHAR) : Option (WBuf n) :=
  if i < n then some ⟨b.chars.set i c, List.length_set.trans b.size⟩ else none

theorem copyBytes_eq_some {b : WBuf n} {src : List BYTE} (fits : src.length ≤ 2 * n) :
    b.copyBytes src = some ⟨overlay b.chars src, (length_overlay ..).trans b.size⟩ :=
  if_pos fits

theorem put_eq_some {b : WBuf n} {i : Nat} {c : WCHAR} (inside : i < n) :
    b.put i c = some ⟨b.chars.set i c, List.length_set.trans b.size⟩ :=
  if_pos inside

end WBuf

/-- The blocks of the process heap that are allocated and not yet freed, by
number. -/
structure Heap where
  next : Nat := 0
  live : List Nat := []
deriving DecidableEq

namespace Heap

/-- A successful `LocalAlloc`: a block that was not live. -/
def alloc (h : Heap) : Nat × Heap := (h.next, { next := h.next + 1, live := h.next :: h.live })

/-- `LocalFree`; no result for a block that is not live. -/
def free (h : Heap) (block : Nat) : Option Heap :=
  if block ∈ h.live then some { h with live := h.live.erase block } else none

end Heap

end Wslg.Client
