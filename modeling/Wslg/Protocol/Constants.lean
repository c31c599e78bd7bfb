/-
The application list protocol: what both ends of the channel compile against.

`rdpapplist/rdpapplist_protocol.h` (server) and `WSLDVCPlugin/rdpapplist.h`
(client) define the same numbers twice. They are one module here; a constant
keeps the words of the macro after its `RDPAPPLIST_` prefix.
-/

import Mathlib.Data.List.Basic

namespace Wslg.Protocol

abbrev BYTE := UInt8
abbrev WCHAR := UInt16

/-- A string of wide characters, without its terminating NUL. -/
abbrev WStr := List WCHAR

/-- A wide string literal `L"…"`. -/
def wide (s : String) : WStr := s.toList.map fun c => UInt16.ofNat c.toNat

/-! ### Command ids -/

def cmdIdCaps : UInt32 := 0x00000001
def cmdIdUpdateAppList : UInt32 := 0x00000002
def cmdIdDeleteAppList : UInt32 := 0x00000003
def cmdIdDeleteAppListProvider : UInt32 := 0x00000004
def cmdIdAssociateWindowId : UInt32 := 0x00000005

/-! ### Flag bits -/

def fieldId : UInt32 := 0x00000001
def fieldGroup : UInt32 := 0x00000002
def fieldExecPath : UInt32 := 0x00000004
def fieldDesc : UInt32 := 0x00000008
def fieldIcon : UInt32 := 0x00000010
def fieldProvider : UInt32 := 0x00000020
def fieldWorkingDir : UInt32 := 0x00000040
def fieldWindowId : UInt32 := 0x00000080

def hintSync : UInt32 := 0x00100000
def hintSyncStart : UInt32 := 0x00200000
def hintSyncEnd : UInt32 := 0x00400000

/-- `flags & bit`, read as a condition. -/
def has (flags bit : UInt32) : Bool := flags &&& bit != 0

/-- `(flags & required) == required`. -/
def hasAll (flags required : UInt32) : Bool := flags &&& required == required

/-- A word that has all required bits has each of them. -/
theorem has_of_hasAll {flags required : UInt32} (bit : UInt32)
    (all : hasAll flags required = true) (part : bit &&& required = bit) (nonzero : bit ≠ 0) :
    has flags bit = true := by
  have all' : flags &&& required = required := by simpa [hasAll] using all
  have same : flags &&& bit = bit := by
    rw [← part, ← UInt32.and_assoc, UInt32.and_comm flags bit, UInt32.and_assoc, all']
  simp [has, same, nonzero]

/-- A word that has one of two bits has one of both. -/
theorem has_or_left {flags bit : UInt32} (other : UInt32) (h : has flags bit = true) :
    has flags (bit ||| other) = true := by
  have masked : (flags &&& (bit ||| other)) &&& bit = flags &&& bit := by
    apply UInt32.toBitVec_inj.mp
    ext i hi
    simp only [UInt32.toBitVec_and, UInt32.toBitVec_or, BitVec.getElem_and, BitVec.getElem_or]
    rw [Bool.and_assoc, Bool.and_comm (_ || _), Bool.and_or_distrib_left, Bool.and_self,
      Bool.or_eq_left_iff_imp.mpr fun both => (Bool.and_eq_true_iff.mp both).1]
  simp only [has, bne_iff_ne, ne_eq] at h ⊢
  intro zero
  rw [zero, UInt32.zero_and] at masked
  exact h masked.symm

theorem has_or_right {flags bit : UInt32} (other : UInt32) (h : has flags bit = true) :
    has flags (other ||| bit) = true :=
  UInt32.or_comm bit other ▸ has_or_left other h

/-! ### Sizes -/

def channelVersion : UInt16 := 4

def headerSize : UInt32 := 8

def langSize : Nat := 32

/-- The size in bytes of a PDU's string array on the client. -/
def maxStringSize : Nat := 512

/-- The same size in wide characters. -/
def maxStringSizeInWchar : Nat := 256

end Wslg.Protocol
