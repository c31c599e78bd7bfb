/-
The icon file that `ReadAppListIconData` builds, and the heap block it builds it in.

The length of the bits comes from the peer and sizes the block before it is compared with
the bytes that are there. Nothing depends on the cursor counting right here: `Took` follows
the bytes from the pointer on and the count apart from them.

On success the block holds the packed header, the bitmap header and the bits, without a
gap. On a failure with a code the call has given back what it took from the heap: before
the allocation there is nothing to give back, and behind it only `Error_Read` is left.
-/

import Wslg.Client.Icon

namespace Wslg.Client

open Wslg.LittleEndian Wslg.Protocol Wslg.StateExcept

variable {δ α : Type}

/-! ### Bytes taken -/

/-- The pointer has moved over `bs`, and the count has gone down by as many. -/
structure Took (bs : List BYTE) (c c' : Cursor) : Prop where
  rest : c.rest = bs ++ c'.rest
  len : c.len = bs.length + c'.len

theorem Took.trans {bs bs' : List BYTE} {c c' c'' : Cursor} (first : Took bs c c')
    (second : Took bs' c' c'') : Took (bs ++ bs') c c'' := by
  constructor
  · rw [first.rest, second.rest, List.append_assoc]
  · rw [first.len, second.len, List.length_append, Nat.add_assoc]

theorem took_of_fetch {n : Nat} {s s' : ReadState δ} {bs : List BYTE}
    (run : fetch n s = .ok bs s') :
    bs.length = n ∧ Took bs s.cur s'.cur ∧ s'.dest = s.dest := by
  rw [fetch] at run
  split at run
  · cases run
  rename_i counted
  split at run
  · cases run
  rename_i there
  cases run
  have size : (s.cur.rest.take n).length = n := List.length_take_of_le (Nat.not_lt.mp there)
  refine ⟨size, ⟨(List.take_append_drop n _).symm, ?_⟩, rfl⟩
  rw [size]
  exact (Nat.add_sub_cancel' (Nat.not_lt.mp counted)).symm

theorem took_of_readUINT32 {o : UInt32 → δ → δ} {s s' : ReadState δ} {u : Unit}
    (run : readUINT32 o s = .ok u s') :
    ∃ v, Took (word32 v) s.cur s'.cur ∧ s'.dest = o v s.dest := by
  obtain ⟨bs, mid, fetched, assigned⟩ := bind_eq_ok.mp run
  obtain ⟨size, took, same⟩ := took_of_fetch fetched
  cases assigned
  refine ⟨UInt32.ofNat (decode bs), ?_, congrArg _ same⟩
  rw [word32_ofNat_decode size]
  exact took

/-- The seven words in front of the bits, as they stand in the PDU. -/
def IconData.words (d : IconData) : List BYTE :=
  word32 d.flags ++ (word32 d.iconWidth ++ (word32 d.iconHeight ++ (word32 d.iconStride ++
    (word32 d.iconBpp ++ (word32 d.iconFormat ++ word32 d.iconBitsLength)))))

@[simp] theorem IconData.length_words (d : IconData) : d.words.length = 28 := by
  simp [words]

theorem took_of_readIconWords {s s' : ReadState IconState} {u : Unit}
    (run : readIconWords s = .ok u s') :
    Took s'.dest.icon.words s.cur s'.cur ∧ s'.dest.heap = s.dest.heap := by
  rw [readIconWords] at run
  obtain ⟨_, s₁, run₁, run⟩ := bind_eq_ok.mp run
  obtain ⟨flags, took₁, set₁⟩ := took_of_readUINT32 run₁
  obtain ⟨_, s₂, run₂, run⟩ := bind_eq_ok.mp run
  obtain ⟨width, took₂, set₂⟩ := took_of_readUINT32 run₂
  obtain ⟨_, s₃, run₃, run⟩ := bind_eq_ok.mp run
  obtain ⟨height, took₃, set₃⟩ := took_of_readUINT32 run₃
  obtain ⟨_, s₄, run₄, run⟩ := bind_eq_ok.mp run
  obtain ⟨stride, took₄, set₄⟩ := took_of_readUINT32 run₄
  obtain ⟨_, s₅, run₅, run⟩ := bind_eq_ok.mp run
  obtain ⟨bpp, took₅, set₅⟩ := took_of_readUINT32 run₅
  obtain ⟨_, s₆, run₆, run⟩ := bind_eq_ok.mp run
  obtain ⟨format, took₆, set₆⟩ := took_of_readUINT32 run₆
  obtain ⟨bitsLength, took₇, set₇⟩ := took_of_readUINT32 run
  rw [set₇, set₆, set₅, set₄, set₃, set₂, set₁]
  exact ⟨took₁.trans (took₂.trans (took₃.trans (took₄.trans (took₅.trans
    (took₆.trans took₇))))), rfl⟩

/-! ### The owner of the block -/

/-- The number of the block in the struct. -/
def IconState.owned (d : IconState) : Option Nat := d.icon.iconFileData.map Block.id

/-- The heap is the one there was, and so is the block. -/
def SameOwner (s s' : ReadState IconState) : Prop :=
  s'.dest.heap = s.dest.heap ∧ s'.dest.owned = s.dest.owned

instance : Std.Refl SameOwner := ⟨fun _ => ⟨rfl, rfl⟩⟩

instance : IsTrans (ReadState IconState) SameOwner :=
  ⟨fun _ _ _ h h' => ⟨h'.1.trans h.1, h'.2.trans h.2⟩⟩

theorem sameOwner_fetch (n : Nat) :
    Guarantees SameOwner (fetch n : Read IconState (List BYTE)) := by
  intro s
  rw [fetch]
  split
  · exact ⟨rfl, rfl⟩
  · split <;> exact ⟨rfl, rfl⟩

theorem sameOwner_readUINT32 {o : UInt32 → IconState → IconState}
    (other : ∀ v d, (o v d).heap = d.heap ∧ (o v d).owned = d.owned) :
    Guarantees SameOwner (readUINT32 o) :=
  (sameOwner_fetch 4).bind fun _ => fun _ => other _ _

theorem sameOwner_readIconWords : Guarantees SameOwner readIconWords := by
  have word := fun (o : UInt32 → IconState → IconState)
    (other : ∀ v d, (o v d).heap = d.heap ∧ (o v d).owned = d.owned) => sameOwner_readUINT32 other
  refine (word _ ?_).bind fun _ => (word _ ?_).bind fun _ => (word _ ?_).bind fun _ =>
    (word _ ?_).bind fun _ => (word _ ?_).bind fun _ => (word _ ?_).bind fun _ => word _ ?_
  all_goals
    intro v d
    exact ⟨rfl, rfl⟩

theorem sameOwner_writeIconFile (off : Nat) (bs : List BYTE) :
    Guarantees SameOwner (writeIconFile off bs) := by
  intro s
  rw [writeIconFile]
  split
  · exact ⟨rfl, rfl⟩
  rename_i block here
  split
  · exact ⟨rfl, rfl⟩
  · refine ⟨rfl, ?_⟩
    show some block.id = s.dest.icon.iconFileData.map Block.id
    rw [here]
    rfl

theorem sameOwner_readIconBits : Guarantees SameOwner readIconBits :=
  Guarantees.get.bind fun _ => (sameOwner_fetch _).bind fun _ => sameOwner_writeIconFile _ _

/-! ### The three failure exits -/

/-- What is live once the block is given back. -/
def Heap.without (h : Heap) : Option Nat → List Nat
  | none => h.live
  | some id => h.live.erase id

/-- `Error_Read` leaves no block behind. -/
theorem cleaned_of_iconErrorRead {s s' : ReadState IconState} {hr : HRESULT}
    (run : (iconErrorRead s : EStateM.Result Failure _ α) = .error (.hresult hr) s') :
    s'.dest.icon.iconFileData = none ∧
      s'.dest.heap.live = s.dest.heap.without s.dest.owned := by
  rw [iconErrorRead] at run
  cases here : s.dest.icon.iconFileData with
  | none =>
      rw [here] at run
      cases run
      refine ⟨rfl, ?_⟩
      rw [IconState.owned, here]
      rfl
  | some block =>
      rw [here] at run
      cases freed : s.dest.heap.free block.id with
      | none =>
          simp only [freed] at run
          cases run
      | some heap =>
          simp only [freed] at run
          cases run
          rw [Heap.free] at freed
          split at freed <;> cases freed
          refine ⟨rfl, ?_⟩
          rw [IconState.owned, here]
          rfl

theorem cleaned_of_orErrorRead {x : Read IconState α} {s s' : ReadState IconState} {hr : HRESULT}
    (same : Guarantees SameOwner x) (run : orErrorRead x s = .error (.hresult hr) s') :
    s'.dest.icon.iconFileData = none ∧
      s'.dest.heap.live = s.dest.heap.without s.dest.owned := by
  rw [orErrorRead] at run
  cases body : x s with
  | ok a s₁ =>
      rw [body] at run
      cases run
  | error e s₁ =>
      rw [body] at run
      cases e with
      | accessViolation => cases run
      | hresult hr₁ =>
          obtain ⟨heap, owned⟩ := same.of_error body
          rw [← heap, ← owned]
          exact cleaned_of_iconErrorRead run

/-- A write into the block has no failure code of its own. -/
theorem writeIconHeaders_ne_hresult {s s' : ReadState IconState} {hr : HRESULT} :
    writeIconHeaders s ≠ .error (.hresult hr) s' := by
  have write : ∀ {off bs} {s s' : ReadState IconState},
      writeIconFile off bs s ≠ .error (.hresult hr) s' := by
    intro off bs s s' run
    rw [writeIconFile] at run
    split at run
    · cases run
    · split at run <;> cases run
  intro run
  rw [writeIconHeaders, bind_of_ok (get_apply _)] at run
  rcases bind_eq_error.mp run with first | ⟨_, _, _, second⟩
  · exact write first
  · exact write second

/-- Whichever way the reader fails, the heap is as it was and the struct has no block. -/
theorem cleaned_of_readAppListIconDataBody {localAlloc : UInt32 → Bool}
    {s s' : ReadState IconState} {hr : HRESULT}
    (run : readAppListIconDataBody localAlloc s = .error (.hresult hr) s') :
    s'.dest.icon.iconFileData = none ∧ s'.dest.heap.live = s.dest.heap.live := by
  rw [readAppListIconDataBody, bind_of_ok (assign_apply _ _)] at run
  set s₀ : ReadState IconState := { s with dest := { s.dest with icon := {} } }
  -- a word is missing: there is no block yet
  rcases bind_eq_error.mp run with words | ⟨_, s₁, words, run⟩
  · exact cleaned_of_orErrorRead sameOwner_readIconWords words
  obtain ⟨heap, owned⟩ := sameOwner_readIconWords.of_ok (ok_of_orErrorRead words)
  -- the size overflows
  rcases bind_eq_error.mp run with size | ⟨_, s₂, size, run⟩
  · simp only [addIconFileSize] at size
    split at size <;> cases size
    exact ⟨Option.map_eq_none_iff.mp owned, congrArg Heap.live heap⟩
  obtain ⟨-, rfl⟩ := fits_of_addIconFileSize size
  -- the heap has no block of this size
  rcases bind_eq_error.mp run with alloc | ⟨_, s₃, alloc, run⟩
  · simp only [allocIconFile] at alloc
    split at alloc <;> cases alloc
    exact ⟨Option.map_eq_none_iff.mp owned, congrArg Heap.live heap⟩
  obtain ⟨-, rfl⟩ := served_of_allocIconFile alloc
  -- the bits are missing: the block of this call is freed
  rcases bind_eq_error.mp run with bits | ⟨_, _, _, headers⟩
  · obtain ⟨none_, live⟩ := cleaned_of_orErrorRead sameOwner_readIconBits bits
    refine ⟨none_, live.trans ?_⟩
    show (s₁.dest.heap.next :: s₁.dest.heap.live).erase s₁.dest.heap.next = _
    rw [List.erase_cons_head]
    exact congrArg Heap.live heap
  · exact absurd headers writeIconHeaders_ne_hresult

/-! ### The file -/

/-- The two headers, then the bits. -/
def IconData.file (d : IconData) (bits : List BYTE) : List BYTE :=
  d.header.toBytes ++ (d.bitmapInfo.toBytes ++ bits)

/-- A write over the middle of the block. -/
theorem written_of_writeIconFile {s s' : ReadState IconState} {id off : Nat} {u : Unit}
    {front old bs back : List BYTE} (run : writeIconFile off bs s = .ok u s')
    (here : s.dest.icon.iconFileData = some ⟨id, front ++ (old ++ back)⟩)
    (start : front.length = off) (same : old.length = bs.length) :
    s' = { s with dest := { s.dest with
      icon := { s.dest.icon with iconFileData := some ⟨id, front ++ (bs ++ back)⟩ } } } := by
  rw [writeIconFile_middle here start same] at run
  cases run
  rfl

/-- A zeroed block of the right size is filled completely. -/
theorem filled_of_readIconBits {s s' : ReadState IconState} {id : Nat} {u : Unit}
    (fresh : s.dest.icon.iconFileData = some ⟨id, List.replicate
      (sizeofIconHeader + sizeofBitmapInfoHeader + s.dest.icon.iconBitsLength.toNat) 0⟩)
    (run : (orErrorRead readIconBits >>= fun _ => writeIconHeaders) s = .ok u s') :
    ∃ bits, bits.length = s.dest.icon.iconBitsLength.toNat ∧ Took bits s.cur s'.cur ∧
      s'.dest = { s.dest with
        icon := { s.dest.icon with iconFileData := some ⟨id, s.dest.icon.file bits⟩ } } := by
  obtain ⟨_, s₁, readOr, headers⟩ := bind_eq_ok.mp run
  have read := ok_of_orErrorRead readOr
  rw [readIconBits, bind_of_ok (get_apply _)] at read
  obtain ⟨bits, mid, fetched, bitsRun⟩ := bind_eq_ok.mp read
  obtain ⟨length, took, same⟩ := took_of_fetch fetched
  -- the block, cut where the three parts of the file will stand
  set zeros := fun n => List.replicate n (0 : BYTE)
  have cut : mid.dest.icon.iconFileData = some ⟨id,
      (zeros sizeofIconHeader ++ zeros sizeofBitmapInfoHeader) ++ (zeros bits.length ++ [])⟩ := by
    rw [same, fresh, length]
    simp only [zeros, List.append_nil, List.replicate_append_replicate]
  have afterBits := written_of_writeIconFile bitsRun cut rfl List.length_replicate
  rw [List.append_nil, List.append_assoc, same] at afterBits
  rw [writeIconHeaders, bind_of_ok (get_apply _)] at headers
  obtain ⟨_, s₂, headerRun, bitmapInfoRun⟩ := bind_eq_ok.mp headers
  have afterHeader := @written_of_writeIconFile _ _ id _ _ [] (zeros sizeofIconHeader) _ _
    headerRun (by rw [afterBits]; rfl) rfl (by simp [zeros])
  rw [List.nil_append] at afterHeader
  have afterBitmapInfo := @written_of_writeIconFile _ _ id _ _ _ (zeros sizeofBitmapInfoHeader) _ _
    bitmapInfoRun (by rw [afterHeader]) (by simp) (by simp [zeros])
  refine ⟨bits, length, ?_, ?_⟩
  · rw [afterBitmapInfo, afterHeader, afterBits]
    exact took
  · rw [afterBitmapInfo, afterHeader, afterBits]
    rfl

/-- A call that succeeds has filled a fresh block with the two headers and the bits. -/
theorem file_of_readAppListIconDataBody {localAlloc : UInt32 → Bool}
    {s s' : ReadState IconState} {u : Unit}
    (run : readAppListIconDataBody localAlloc s = .ok u s') :
    ∃ bits, bits.length = s'.dest.icon.iconBitsLength.toNat ∧
      Took (s'.dest.icon.words ++ bits) s.cur s'.cur ∧
      s'.dest.icon.iconFileSize.toNat =
        sizeofIconHeader + sizeofBitmapInfoHeader + bits.length ∧
      s'.dest.icon.iconFileData = some ⟨s.dest.heap.next, s'.dest.icon.file bits⟩ ∧
      s'.dest.heap = s.dest.heap.alloc.2 := by
  rw [readAppListIconDataBody, bind_of_ok (assign_apply _ _)] at run
  obtain ⟨_, s₁, words, run⟩ := bind_eq_ok.mp run
  obtain ⟨tookWords, heap⟩ := took_of_readIconWords (ok_of_orErrorRead words)
  obtain ⟨_, s₂, size, run⟩ := bind_eq_ok.mp run
  obtain ⟨fits, sized⟩ := fits_of_addIconFileSize size
  obtain ⟨_, s₃, alloc, run⟩ := bind_eq_ok.mp run
  obtain ⟨-, allocated⟩ := served_of_allocIconFile alloc
  have fileSize : s₂.dest.icon.iconFileSize.toNat =
      sizeofIconHeader + sizeofBitmapInfoHeader + s₁.dest.icon.iconBitsLength.toNat := by
    rw [sized]
    show (UInt32.ofNat _).toNat = _
    rw [UInt32.toNat_ofNat', Nat.mod_eq_of_lt fits]
  have fresh : s₃.dest.icon.iconFileData = some ⟨s.dest.heap.next, List.replicate
      (sizeofIconHeader + sizeofBitmapInfoHeader + s₃.dest.icon.iconBitsLength.toNat) 0⟩ := by
    rw [allocated]
    show some (Block.mk s₂.dest.heap.next (List.replicate s₂.dest.icon.iconFileSize.toNat 0)) = _
    rw [fileSize, sized]
    show some (Block.mk s₁.dest.heap.next _) = _
    rw [heap]
  obtain ⟨bits, length, tookBits, filled⟩ := filled_of_readIconBits fresh run
  rw [allocated, sized] at tookBits length
  rw [filled, allocated]
  refine ⟨bits, ?_, ?_, ?_, ?_, ?_⟩
  · rw [length, sized]
  · rw [sized]
    exact tookWords.trans tookBits
  · show s₂.dest.icon.iconFileSize.toNat = _
    rw [fileSize, length]
  · rfl
  · rw [sized]
    exact congrArg (·.alloc.2) heap

/-! ### The layout -/

/-- The caller's pointer and length after a reader returned: written last, and on success
only. -/
def callerCursor (c : Cursor) : Except Failure Cursor → Cursor
  | .ok c' => c'
  | .error _ => c

/-- The file of an icon read from `c`, and what the reader took from there. -/
structure SoundFile (c c' : Cursor) (icon : IconData) (file : List BYTE) : Prop where
  fileSize : icon.iconFileSize.toNat = 62 + icon.iconBitsLength.toNat
  length : file.length = icon.iconFileSize.toNat
  bytesInRes : icon.header.idEntry.dwBytesInRes.toNat = 40 + icon.iconBitsLength.toNat
  image : icon.header.idEntry.dwImageOffset.toNat + icon.header.idEntry.dwBytesInRes.toNat =
    icon.iconFileSize.toNat
  header : file.take 22 = icon.header.toBytes
  bitmapInfo : (file.drop icon.header.idEntry.dwImageOffset.toNat).take 40 =
    icon.bitmapInfo.toBytes
  words : c.rest.take 28 = icon.words
  bits : file.drop 62 = (c.rest.drop 28).take icon.iconBitsLength.toNat
  rest : c.rest.drop (28 + icon.iconBitsLength.toNat) = c'.rest
  counted : c.len = 28 + icon.iconBitsLength.toNat + c'.len

theorem soundFile_of_took {c c' : Cursor} {icon : IconData} {bits : List BYTE}
    (length : bits.length = icon.iconBitsLength.toNat) (took : Took (icon.words ++ bits) c c')
    (fileSize : icon.iconFileSize.toNat =
      sizeofIconHeader + sizeofBitmapInfoHeader + bits.length) :
    SoundFile c c' icon (icon.file bits) := by
  have small : icon.iconFileSize.toNat < 2 ^ 32 := icon.iconFileSize.toNat_lt
  rw [sizeofIconHeader, sizeofBitmapInfoHeader] at fileSize
  have bytesInRes : icon.header.idEntry.dwBytesInRes.toNat = 40 + icon.iconBitsLength.toNat := by
    show (UInt32.ofNat 40 + icon.iconBitsLength).toNat = _
    rw [UInt32.toNat_add]
    apply Nat.mod_eq_of_lt
    show 40 + icon.iconBitsLength.toNat < 2 ^ 32
    omega
  have header : icon.header.toBytes.length = 22 := IconHeader.length_toBytes _
  have bitmapInfo : icon.bitmapInfo.toBytes.length = 40 := BitmapInfoHeader.length_toBytes _
  have words : icon.words.length = 28 := icon.length_words
  have offset : icon.header.idEntry.dwImageOffset.toNat = 22 := rfl
  constructor
  · omega
  · rw [IconData.file, List.length_append, List.length_append]
    omega
  · exact bytesInRes
  · omega
  · exact List.take_left' header
  · rw [offset, IconData.file, List.drop_left' header, List.take_left' bitmapInfo]
  · rw [took.rest, List.append_assoc, List.take_left' words]
  · rw [took.rest, List.append_assoc, List.drop_left' words, List.take_left' length,
      IconData.file, ← List.append_assoc, List.drop_left' (by simp [header, bitmapInfo])]
  · rw [took.rest, List.drop_left' (by rw [List.length_append]; omega)]
  · rw [took.len, List.length_append]
    omega

theorem runReader_eq_ok {body : Read δ Unit} {d d' : δ} {c c' : Cursor}
    (run : runReader body d c = (.ok c', d')) : body ⟨d, c⟩ = .ok () ⟨d', c'⟩ := by
  rw [runReader] at run
  split at run <;> cases run
  assumption

theorem runReader_eq_error {body : Read δ Unit} {d d' : δ} {c : Cursor} {e : Failure}
    (run : runReader body d c = (.error e, d')) :
    ∃ c', body ⟨d, c⟩ = .error e ⟨d', c'⟩ := by
  rw [runReader] at run
  split at run <;> cases run
  exact ⟨_, by assumption⟩

/-- What a call of the reader does to the heap: a success takes one block, a failure with a
code none. -/
theorem readAppListIconData_heap {localAlloc : UInt32 → Bool} {d s : IconState} {c : Cursor} :
    (∀ c', readAppListIconData localAlloc d c = (.ok c', s) →
      s.heap = d.heap.alloc.2 ∧ s.owned = some d.heap.next) ∧
    ∀ hr, readAppListIconData localAlloc d c = (.error (.hresult hr), s) →
      s.heap.live = d.heap.live ∧ s.owned = none := by
  constructor
  · intro c' run
    obtain ⟨bits, -, -, -, block, heap⟩ :=
      file_of_readAppListIconDataBody (runReader_eq_ok run)
    exact ⟨heap, congrArg (Option.map Block.id) block⟩
  · intro hr run
    obtain ⟨_, body⟩ := runReader_eq_error run
    obtain ⟨none_, live⟩ := cleaned_of_readAppListIconDataBody body
    exact ⟨live, congrArg (Option.map Block.id) none_⟩

/-- Whatever the bytes and the count: an icon that is accepted comes as one file without a
gap, for the bytes that were taken; one that is rejected costs nothing. -/
theorem icon_laid_out (localAlloc : UInt32 → Bool) (d : IconState) (c : Cursor) :
    (∀ c' s, readAppListIconData localAlloc d c = (.ok c', s) →
      ∃ block, s.icon.iconFileData = some block ∧ SoundFile c c' s.icon block.bytes) ∧
    ∀ hr s, readAppListIconData localAlloc d c = (.error (.hresult hr), s) →
      callerCursor c (readAppListIconData localAlloc d c).1 = c ∧
        s.icon.iconFileData = none ∧ s.heap.live = d.heap.live := by
  constructor
  · intro c' s run
    obtain ⟨bits, length, took, fileSize, block, -⟩ :=
      file_of_readAppListIconDataBody (runReader_eq_ok run)
    exact ⟨_, block, soundFile_of_took length took fileSize⟩
  · intro hr s run
    obtain ⟨_, body⟩ := runReader_eq_error run
    rw [run]
    exact ⟨rfl, cleaned_of_readAppListIconDataBody body⟩

/-- An icon of one pixel. -/
def onePixel : List BYTE :=
  word32 0 ++ word32 1 ++ word32 1 ++ word32 4 ++ word32 32 ++ word32 0 ++ word32 4 ++ [1, 2, 3, 4]

theorem icon_laid_out_onePixel :
    ∃ block, (readAppListIconData (fun _ => true) ⟨{}, {}⟩ (.of onePixel)).2.icon.iconFileData =
        some block ∧
      SoundFile (.of onePixel) ⟨[], 0⟩
        (readAppListIconData (fun _ => true) ⟨{}, {}⟩ (.of onePixel)).2.icon block.bytes :=
  (icon_laid_out (fun _ => true) ⟨{}, {}⟩ (.of onePixel)).1 _ _ rfl

/-! ### The two descriptions -/

/-- A little-endian field at an offset. -/
def field (bs : List BYTE) (off size : Nat) : Nat := decode ((bs.drop off).take size)

/-- The `LONG` with these 32 bits. -/
def toLong (n : Nat) : Int := if n < 2 ^ 31 then n else n - 2 ^ 32

/-- The size in pixels and the depth of an image. -/
structure Picture where
  width : Int
  height : Int
  depth : Int
deriving DecidableEq

/-- A byte of the directory entry as a number of pixels: 0 stands for 256. -/
def pixels (n : Nat) : Int := if n = 0 then 256 else n

/-- `bWidth`, `bHeight` and `wBitCount` of a file. -/
def entryPicture (file : List BYTE) : Picture :=
  ⟨pixels (field file 6 1), pixels (field file 7 1), field file 12 2⟩

/-- `biWidth`, half of `biHeight` and `biBitCount` of a file. -/
def infoPicture (file : List BYTE) : Picture :=
  ⟨toLong (field file 26 4), toLong (field file 30 4) / 2, field file 36 2⟩

/-- `iconWidth`, `iconHeight` and `iconBpp` where a PDU has them. -/
def sentPicture (c : Cursor) : Picture :=
  ⟨field c.rest 4 4, field c.rest 8 4, field c.rest 16 4⟩

/-- The sizes and depths that fit the fields of the directory entry. -/
structure Picture.Small (p : Picture) : Prop where
  width : 1 ≤ p.width ∧ p.width ≤ 256
  height : 1 ≤ p.height ∧ p.height ≤ 256
  depth : p.depth < 2 ^ 16

theorem entryPicture_file (icon : IconData) (bits : List BYTE) :
    entryPicture (icon.file bits) =
      ⟨pixels (icon.iconWidth.toNat % 2 ^ 8), pixels (icon.iconHeight.toNat % 2 ^ 8),
        (icon.iconBpp.toNat % 2 ^ 16 : Nat)⟩ := by
  have width : field (icon.file bits) 6 1 = decode [icon.iconWidth.toUInt8] := rfl
  have height : field (icon.file bits) 7 1 = decode [icon.iconHeight.toUInt8] := rfl
  have depth : field (icon.file bits) 12 2 = decode (word16 icon.iconBpp.toUInt16) := rfl
  rw [entryPicture, width, height, depth]
  simp [decode, word16, decode_encode]

theorem decode_word16 (v : UInt16) : decode (word16 v) = v.toNat :=
  decode_encode_of_lt (by simpa using v.toNat_lt)

theorem decode_word32 (v : UInt32) : decode (word32 v) = v.toNat :=
  decode_encode_of_lt (by simpa using v.toNat_lt)

theorem infoPicture_file (icon : IconData) (bits : List BYTE) :
    infoPicture (icon.file bits) =
      ⟨toLong icon.iconWidth.toNat, toLong (icon.iconHeight.toNat * 2 % 2 ^ 32) / 2,
        (icon.iconBpp.toNat % 2 ^ 16 : Nat)⟩ := by
  have width : field (icon.file bits) 26 4 = decode (word32 icon.iconWidth) := rfl
  have height : field (icon.file bits) 30 4 = decode (word32 (icon.iconHeight * 2)) := rfl
  have depth : field (icon.file bits) 36 2 = decode (word16 icon.iconBpp.toUInt16) := rfl
  rw [infoPicture, width, height, depth, decode_word32, decode_word32, decode_word16,
    UInt32.toNat_mul]
  rfl

/-- The words of the PDU are those in the struct. -/
theorem sentPicture_of_words {c : Cursor} {icon : IconData} (words : c.rest.take 28 = icon.words) :
    sentPicture c = ⟨icon.iconWidth.toNat, icon.iconHeight.toNat, icon.iconBpp.toNat⟩ := by
  have inside : ∀ off, off + 4 ≤ 28 → field c.rest off 4 = field icon.words off 4 := by
    intro off fits
    rw [← words, field, field, List.drop_take, List.take_take, Nat.min_eq_left (by omega)]
  have width : field icon.words 4 4 = decode (word32 icon.iconWidth) := rfl
  have height : field icon.words 8 4 = decode (word32 icon.iconHeight) := rfl
  have depth : field icon.words 16 4 = decode (word32 icon.iconBpp) := rfl
  rw [sentPicture, inside 4 (by decide), inside 8 (by decide), inside 16 (by decide), width,
    height, depth, decode_word32, decode_word32, decode_word32]

/-- One byte stands for the numbers of pixels from 1 to 256. -/
theorem pixels_mod_eq_iff (n : Nat) : pixels (n % 2 ^ 8) = n ↔ 1 ≤ (n : Int) ∧ (n : Int) ≤ 256 := by
  rw [pixels]
  split <;> omega

/-- The two descriptions of an accepted icon agree with each other and with the PDU exactly
where the size and the depth fit the directory entry. -/
theorem icon_agrees_iff (localAlloc : UInt32 → Bool) (d s : IconState) (c c' : Cursor)
    (block : Block) (accepted : readAppListIconData localAlloc d c = (.ok c', s))
    (built : s.icon.iconFileData = some block) :
    (entryPicture block.bytes = infoPicture block.bytes ∧
      infoPicture block.bytes = sentPicture c) ↔ (sentPicture c).Small := by
  obtain ⟨bits, length, took, fileSize, file, -⟩ :=
    file_of_readAppListIconDataBody (runReader_eq_ok accepted)
  cases file.symm.trans built
  have sent := sentPicture_of_words (soundFile_of_took length took fileSize).words
  rw [entryPicture_file, infoPicture_file, sent]
  constructor
  · rintro ⟨same, received⟩
    obtain ⟨width, height, depth⟩ := Picture.mk.inj (same.trans received)
    refine ⟨(pixels_mod_eq_iff _).mp width, (pixels_mod_eq_iff _).mp height, ?_⟩
    show (s.icon.iconBpp.toNat : Int) < 2 ^ 16
    have depth : ((s.icon.iconBpp.toNat % 2 ^ 16 : Nat) : Int) = s.icon.iconBpp.toNat := depth
    omega
  · rintro ⟨width, height, depth⟩
    simp only at width height depth
    have signedWidth : toLong s.icon.iconWidth.toNat = s.icon.iconWidth.toNat := if_pos (by omega)
    have doubled : s.icon.iconHeight.toNat * 2 % 2 ^ 32 = s.icon.iconHeight.toNat * 2 :=
      Nat.mod_eq_of_lt (by omega)
    have signedHeight : toLong (s.icon.iconHeight.toNat * 2) / 2 = s.icon.iconHeight.toNat := by
      rw [toLong, if_pos (by omega)]
      omega
    have narrowDepth : s.icon.iconBpp.toNat % 2 ^ 16 = s.icon.iconBpp.toNat :=
      Nat.mod_eq_of_lt (by omega)
    rw [(pixels_mod_eq_iff _).mpr width, (pixels_mod_eq_iff _).mpr height, signedWidth, doubled,
      signedHeight, narrowDepth]
    exact ⟨rfl, rfl⟩

/-- An icon whose width is said to be 300 pixels. -/
def widePixels : List BYTE :=
  word32 0 ++ word32 300 ++ word32 1 ++ word32 0 ++ word32 32 ++ word32 0 ++ word32 0

theorem icon_disagrees_widePixels :
    ∃ c' s, ∃ block : Block,
      readAppListIconData (fun _ => true) ⟨{}, {}⟩ (.of widePixels) = (.ok c', s) ∧
      s.icon.iconFileData = some block ∧
      ¬ (entryPicture block.bytes = infoPicture block.bytes ∧
        infoPicture block.bytes = sentPicture (.of widePixels)) := by
  refine ⟨_, _, _, rfl, rfl, ?_⟩
  decide

theorem icon_agrees_iff_onePixel :
    ∃ c' s, ∃ block : Block,
      readAppListIconData (fun _ => true) ⟨{}, {}⟩ (.of onePixel) = (.ok c', s) ∧
      ((entryPicture block.bytes = infoPicture block.bytes ∧
        infoPicture block.bytes = sentPicture (.of onePixel)) ↔
          (sentPicture (.of onePixel)).Small) :=
  ⟨_, _, _, rfl, icon_agrees_iff (fun _ => true) ⟨{}, {}⟩ _ (.of onePixel) _ _ rfl rfl⟩

end Wslg.Client
