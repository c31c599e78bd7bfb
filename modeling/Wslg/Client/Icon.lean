/-
The icon part of an UPDATE_APPLIST PDU: `ReadAppListIconData` and the file
layout of `utils.h`.

The reader builds a complete `.ico` file in one heap block: a packed
`ICON_HEADER`, a `BITMAPINFOHEADER` and the bits from the PDU. The block belongs
to the process heap, so the heap is part of the struct the reader works on.
There are three ways to fail and they clean up differently: a read macro jumps
to `Error_Read`, which frees the block if there is one and zeroes the struct;
a size that overflows and a failed allocation return at once.
-/

import Wslg.Client.Reader

namespace Wslg.Client

open Wslg.LittleEndian Wslg.Protocol Wslg.StateExcept

/-! ### File layout -/

structure IconDirEntry where
  bWidth : UInt8
  bHeight : UInt8
  bColorCount : UInt8
  bReserved : UInt8
  wPlanes : UInt16
  wBitCount : UInt16
  dwBytesInRes : UInt32
  dwImageOffset : UInt32
deriving DecidableEq

structure IconHeader where
  idReserved : UInt16
  idType : UInt16
  idCount : UInt16
  idEntry : IconDirEntry
deriving DecidableEq

structure BitmapInfoHeader where
  biSize : UInt32
  biWidth : UInt32
  biHeight : UInt32
  biPlanes : UInt16
  biBitCount : UInt16
  biCompression : UInt32
  biSizeImage : UInt32
  biXPelsPerMeter : UInt32
  biYPelsPerMeter : UInt32
  biClrUsed : UInt32
  biClrImportant : UInt32
deriving DecidableEq

/-- The packed bytes of an `ICON_HEADER`. -/
def IconHeader.toBytes (h : IconHeader) : List BYTE :=
  word16 h.idReserved ++ word16 h.idType ++ word16 h.idCount ++
    [h.idEntry.bWidth, h.idEntry.bHeight, h.idEntry.bColorCount, h.idEntry.bReserved] ++
    word16 h.idEntry.wPlanes ++ word16 h.idEntry.wBitCount ++
    word32 h.idEntry.dwBytesInRes ++ word32 h.idEntry.dwImageOffset

def BitmapInfoHeader.toBytes (h : BitmapInfoHeader) : List BYTE :=
  word32 h.biSize ++ word32 h.biWidth ++ word32 h.biHeight ++
    word16 h.biPlanes ++ word16 h.biBitCount ++ word32 h.biCompression ++
    word32 h.biSizeImage ++ word32 h.biXPelsPerMeter ++ word32 h.biYPelsPerMeter ++
    word32 h.biClrUsed ++ word32 h.biClrImportant

/-- `sizeof(ICON_HEADER)`. -/
def sizeofIconHeader : Nat := 22

/-- `sizeof(BITMAPINFOHEADER)`. -/
def sizeofBitmapInfoHeader : Nat := 40

@[simp] theorem IconHeader.length_toBytes (h : IconHeader) :
    h.toBytes.length = sizeofIconHeader := by
  simp [toBytes, sizeofIconHeader]

@[simp] theorem BitmapInfoHeader.length_toBytes (h : BitmapInfoHeader) :
    h.toBytes.length = sizeofBitmapInfoHeader := by
  simp [toBytes, sizeofBitmapInfoHeader]

/-! ### The struct the reader fills -/

/-- A heap block: its number and its contents. -/
structure Block where
  id : Nat
  bytes : List BYTE
deriving DecidableEq

structure IconData where
  flags : UInt32 := 0
  iconWidth : UInt32 := 0
  iconHeight : UInt32 := 0
  iconStride : UInt32 := 0
  iconBpp : UInt32 := 0
  iconFormat : UInt32 := 0
  iconBitsLength : UInt32 := 0
  iconFileSize : UInt32 := 0
  iconFileData : Option Block := none
deriving DecidableEq

/-- `*iconData` and the heap its block is taken from. -/
structure IconState where
  icon : IconData
  heap : Heap
deriving DecidableEq

/-- The header the reader writes for the icon described by `d`. -/
def IconData.header (d : IconData) : IconHeader where
  idReserved := 0
  idType := 1
  idCount := 1
  idEntry :=
    { bWidth := d.iconWidth.toUInt8
      bHeight := d.iconHeight.toUInt8
      bColorCount := 0
      bReserved := 0
      wPlanes := 0
      wBitCount := d.iconBpp.toUInt16
      dwBytesInRes := UInt32.ofNat sizeofBitmapInfoHeader + d.iconBitsLength
      dwImageOffset := UInt32.ofNat sizeofIconHeader }

def IconData.bitmapInfo (d : IconData) : BitmapInfoHeader where
  biSize := UInt32.ofNat sizeofBitmapInfoHeader
  biWidth := d.iconWidth
  biHeight := d.iconHeight * 2
  biPlanes := 1
  biBitCount := d.iconBpp.toUInt16
  biCompression := 0
  biSizeImage := d.iconBitsLength
  biXPelsPerMeter := 0
  biYPelsPerMeter := 0
  biClrUsed := 0
  biClrImportant := 0

/-! ### The reader -/

/-- A write of `bs` at an offset of a block; no result when it would leave it. -/
def writeAt (mem : List BYTE) (off : Nat) (bs : List BYTE) : Option (List BYTE) :=
  if off + bs.length ≤ mem.length then
    some (mem.take off ++ bs ++ mem.drop (off + bs.length))
  else none

/-- A write over as many bytes as it brings. -/
theorem writeAt_middle {front old bs back : List BYTE} {off : Nat} (start : front.length = off)
    (same : old.length = bs.length) :
    writeAt (front ++ (old ++ back)) off bs = some (front ++ (bs ++ back)) := by
  subst start
  have fits : front.length + bs.length ≤ (front ++ (old ++ back)).length := by
    simp only [List.length_append]
    omega
  rw [writeAt, if_pos fits, ← same, List.take_left, ← List.append_assoc front old back,
    ← List.length_append, List.drop_left, List.append_assoc]

/-- A write through a pointer into `iconFileData`. -/
def writeIconFile (off : Nat) (bs : List BYTE) : Read IconState Unit := fun s =>
  match s.dest.icon.iconFileData with
  | none => .error .accessViolation s
  | some block =>
      match writeAt block.bytes off bs with
      | none => .error .accessViolation s
      | some mem =>
          .ok () { s with
            dest := { s.dest with
              icon := { s.dest.icon with iconFileData := some { block with bytes := mem } } } }

theorem writeIconFile_middle {s : ReadState IconState} {id off : Nat}
    {front old bs back : List BYTE}
    (here : s.dest.icon.iconFileData = some ⟨id, front ++ (old ++ back)⟩)
    (start : front.length = off) (same : old.length = bs.length) :
    writeIconFile off bs s = .ok () { s with
      dest := { s.dest with
        icon := { s.dest.icon with iconFileData := some ⟨id, front ++ (bs ++ back)⟩ } } } := by
  rw [writeIconFile, here]
  simp only [writeAt_middle start same]

/-- The label `Error_Read` of this reader. -/
def iconErrorRead {α : Type} : Read IconState α := fun s =>
  match s.dest.icon.iconFileData with
  | none => .error (.hresult E_FAIL) { s with dest := { s.dest with icon := {} } }
  | some block =>
      match s.dest.heap.free block.id with
      | none => .error .accessViolation s
      | some heap => .error (.hresult E_FAIL) { s with dest := ⟨{}, heap⟩ }

/-- A stretch of read macros, whose failure jumps to `Error_Read`. -/
def orErrorRead {α : Type} (body : Read IconState α) : Read IconState α := fun s =>
  match body s with
  | .error (.hresult _) s' => iconErrorRead s'
  | r => r

def readIconWords : Read IconState Unit := do
  readUINT32 fun v d => { d with icon := { d.icon with flags := v } }
  readUINT32 fun v d => { d with icon := { d.icon with iconWidth := v } }
  readUINT32 fun v d => { d with icon := { d.icon with iconHeight := v } }
  readUINT32 fun v d => { d with icon := { d.icon with iconStride := v } }
  readUINT32 fun v d => { d with icon := { d.icon with iconBpp := v } }
  readUINT32 fun v d => { d with icon := { d.icon with iconFormat := v } }
  readUINT32 fun v d => { d with icon := { d.icon with iconBitsLength := v } }

/-- `UIntAdd(sizeof(ICON_HEADER) + sizeof(BITMAPINFOHEADER), iconBitsLength, …)`:
on overflow the result is `UINT_ERROR` and the call fails. -/
def addIconFileSize : Read IconState Unit := fun s =>
  let icon := s.dest.icon
  let size := sizeofIconHeader + sizeofBitmapInfoHeader + icon.iconBitsLength.toNat
  if size < 2 ^ 32 then
    .ok () { s with
      dest := { s.dest with icon := { icon with iconFileSize := UInt32.ofNat size } } }
  else
    .error (.hresult arithmeticOverflow)
      { s with dest := { s.dest with icon := { icon with iconFileSize := 0xffffffff } } }

/-- `LocalAlloc(LPTR, iconFileSize)`; `localAlloc` tells which sizes the heap can
serve. -/
def allocIconFile (localAlloc : UInt32 → Bool) : Read IconState Unit := fun s =>
  let icon := s.dest.icon
  if localAlloc icon.iconFileSize then
    let (id, heap) := s.dest.heap.alloc
    let block : Block := ⟨id, List.replicate icon.iconFileSize.toNat 0⟩
    .ok () { s with dest := ⟨{ icon with iconFileData := some block }, heap⟩ }
  else .error (.hresult E_OUTOFMEMORY) s

def readIconBits : Read IconState Unit := do
  let s ← get
  let bits ← fetch s.dest.icon.iconBitsLength.toNat
  writeIconFile (sizeofIconHeader + sizeofBitmapInfoHeader) bits

def writeIconHeaders : Read IconState Unit := do
  let s ← get
  writeIconFile 0 s.dest.icon.header.toBytes
  writeIconFile sizeofIconHeader s.dest.icon.bitmapInfo.toBytes

def readAppListIconDataBody (localAlloc : UInt32 → Bool) : Read IconState Unit := do
  assign fun s => { s with icon := {} }
  orErrorRead readIconWords
  addIconFileSize
  allocIconFile localAlloc
  orErrorRead readIconBits
  writeIconHeaders

def readAppListIconData (localAlloc : UInt32 → Bool) (d : IconState) (c : Cursor) :
    Except Failure Cursor × IconState :=
  runReader (readAppListIconDataBody localAlloc) d c

/-! ### Parts that succeeded -/

theorem ok_of_orErrorRead {x : Read IconState Unit} {s s' : ReadState IconState} {u : Unit}
    (run : orErrorRead x s = .ok u s') : x s = .ok u s' := by
  rw [orErrorRead] at run
  split at run
  · -- `Error_Read` does not succeed
    rw [iconErrorRead] at run
    split at run
    · cases run
    · split at run <;> cases run
  · exact run

theorem fits_of_addIconFileSize {s s' : ReadState IconState} {u : Unit}
    (run : addIconFileSize s = .ok u s') :
    sizeofIconHeader + sizeofBitmapInfoHeader + s.dest.icon.iconBitsLength.toNat < 2 ^ 32 ∧
      s' = { s with dest := { s.dest with icon := { s.dest.icon with
        iconFileSize := UInt32.ofNat
          (sizeofIconHeader + sizeofBitmapInfoHeader + s.dest.icon.iconBitsLength.toNat) } } } := by
  simp only [addIconFileSize] at run
  split at run
  · rename_i fits
    cases run
    exact ⟨fits, rfl⟩
  · cases run

theorem served_of_allocIconFile {localAlloc : UInt32 → Bool} {s s' : ReadState IconState}
    {u : Unit} (run : allocIconFile localAlloc s = .ok u s') :
    localAlloc s.dest.icon.iconFileSize = true ∧
      s' = { s with dest := {
        icon := { s.dest.icon with
          iconFileData :=
            some ⟨s.dest.heap.next, List.replicate s.dest.icon.iconFileSize.toNat 0⟩ }
        heap := s.dest.heap.alloc.2 } } := by
  simp only [allocIconFile] at run
  split at run
  · rename_i served
    cases run
    exact ⟨served, rfl⟩
  · cases run

/-! ### The cursor moves on -/

theorem forward_writeIconFile (off : Nat) (bs : List BYTE) :
    Guarantees Forward (writeIconFile off bs) := by
  intro s
  rw [writeIconFile]
  split
  · exact Nat.le_refl _
  · split <;> exact Nat.le_refl _

theorem forward_iconErrorRead {α : Type} :
    Guarantees Forward (iconErrorRead : Read IconState α) := by
  intro s
  rw [iconErrorRead]
  split
  · exact Nat.le_refl _
  · split <;> exact Nat.le_refl _

theorem guarantees_orErrorRead {α : Type} {body : Read IconState α}
    {R : ReadState IconState → ReadState IconState → Prop} [IsTrans (ReadState IconState) R]
    (h : Guarantees R body) (jump : Guarantees R (iconErrorRead : Read IconState α)) :
    Guarantees R (orErrorRead body) := by
  intro s
  rw [orErrorRead]
  split
  · rename_i hr s' run
    exact IsTrans.trans _ _ _ (h.of_error run) (jump s')
  · exact h s

theorem forward_addIconFileSize : Guarantees Forward addIconFileSize := by
  intro s
  simp only [addIconFileSize]
  split <;> exact Nat.le_refl _

theorem forward_allocIconFile (localAlloc : UInt32 → Bool) :
    Guarantees Forward (allocIconFile localAlloc) := by
  intro s
  simp only [allocIconFile]
  split <;> exact Nat.le_refl _

theorem forward_readIconWords : Guarantees Forward readIconWords :=
  (forward_readUINT32 _).bind fun _ => (forward_readUINT32 _).bind fun _ =>
    (forward_readUINT32 _).bind fun _ => (forward_readUINT32 _).bind fun _ =>
      (forward_readUINT32 _).bind fun _ => (forward_readUINT32 _).bind fun _ =>
        forward_readUINT32 _

theorem forward_readAppListIconDataBody (localAlloc : UInt32 → Bool) :
    Guarantees Forward (readAppListIconDataBody localAlloc) := by
  have bits : Guarantees Forward readIconBits :=
    Guarantees.get.bind fun _ => (forward_fetch _).bind fun _ => forward_writeIconFile _ _
  have headers : Guarantees Forward writeIconHeaders :=
    Guarantees.get.bind fun _ => (forward_writeIconFile _ _).bind fun _ =>
      forward_writeIconFile _ _
  exact (forward_assign _).bind fun _ =>
    (guarantees_orErrorRead forward_readIconWords forward_iconErrorRead).bind fun _ =>
      forward_addIconFileSize.bind fun _ => (forward_allocIconFile _).bind fun _ =>
        (guarantees_orErrorRead bits forward_iconErrorRead).bind fun _ => headers

end Wslg.Client
