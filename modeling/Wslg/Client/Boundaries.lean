/-
Where a received buffer ends.

`OnDataReceived` keeps nothing of a buffer but what its handlers did with it, so a PDU that
does not stand in one buffer as a whole is lost. Between two PDUs a buffer may end or go on:
a reader does not look past what it takes (`Alike`), and neither does a handler, so a buffer
is received as its parts are, one after the other (`received_append_iff`), and any number of
buffers as one (`received_flatten`).
-/

import Wslg.Client.IconBlocks

namespace Wslg.Client

open Wslg.Protocol Wslg.StateExcept

variable {δ ω α : Type} {more : List BYTE}

/-! ### Cursors -/

/-- The same place in a buffer that goes on. -/
def Cursor.withMore (c : Cursor) (more : List BYTE) : Cursor :=
  ⟨c.rest ++ more, c.len + more.length⟩

theorem Cursor.of_withMore (bs more : List BYTE) :
    (Cursor.of bs).withMore more = .of (bs ++ more) := by
  rw [withMore, of, of, List.length_append]

/-- A cursor whose count is that of the bytes to go, and not less than `n`. -/
structure Cursor.Has (n : Nat) (c : Cursor) : Prop where
  enough : n ≤ c.len
  counted : c.rest.length = c.len

/-- From `c` on to `c'`, with a right count only if it was right. -/
structure Cursor.Onward (c c' : Cursor) : Prop where
  less : c'.len ≤ c.len
  counted : c'.rest.length = c'.len ↔ c.rest.length = c.len

theorem Cursor.Has.of_onward {n : Nat} {c c' : Cursor} (onward : c.Onward c') (has : c'.Has n) :
    c.Has n :=
  ⟨has.enough.trans onward.less, onward.counted.mp has.counted⟩

theorem Cursor.Onward.trans {c c' c'' : Cursor} (h : c.Onward c') (h' : c'.Onward c'') :
    c.Onward c'' :=
  ⟨h'.less.trans h.less, h'.counted.trans h.counted⟩

/-! ### Readers -/

def ReadState.withMore (more : List BYTE) (s : ReadState δ) : ReadState δ :=
  { s with cur := s.cur.withMore more }

/-- The reader goes on in its buffer. -/
def Ahead (s s' : ReadState δ) : Prop := s.cur.Onward s'.cur

instance : Std.Refl (Ahead (δ := δ)) := ⟨fun _ => ⟨Nat.le_refl _, Iff.rfl⟩⟩

instance : IsTrans (ReadState δ) Ahead := ⟨fun _ _ _ => Cursor.Onward.trans⟩

/-- In front of `n` bytes of its buffer. -/
def Left (n : Nat) (s : ReadState δ) : Prop := s.cur.Has n

instance {n : Nat} : NotEntered (Ahead (δ := δ)) (Left n) := ⟨Cursor.Has.of_onward⟩

/-- The reader does not look past the bytes it takes. -/
abbrev Local (x : Read δ α) : Prop :=
  ∀ more : List BYTE, Alike Ahead (ReadState.withMore more) (Left more.length) x

theorem fetch_eq_ok_iff {n : Nat} {s s' : ReadState δ} {bs : List BYTE} :
    fetch n s = .ok bs s' ↔ n ≤ s.cur.len ∧ n ≤ s.cur.rest.length ∧ bs = s.cur.rest.take n ∧
      s' = { s with cur := ⟨s.cur.rest.drop n, s.cur.len - n⟩ } := by
  rw [fetch]
  split
  · exact ⟨fun run => (by cases run), fun h => by omega⟩
  split
  · exact ⟨fun run => (by cases run), fun h => by omega⟩
  constructor
  · intro run
    cases run
    exact ⟨by omega, by omega, rfl, rfl⟩
  · rintro ⟨-, -, rfl, rfl⟩
    rfl

/-- Taking from the front of a longer buffer. -/
theorem Cursor.drop_withMore {c : Cursor} {n : Nat} (left : n ≤ c.len) (there : n ≤ c.rest.length) :
    (⟨(c.withMore more).rest.drop n, (c.withMore more).len - n⟩ : Cursor) =
      (⟨c.rest.drop n, c.len - n⟩ : Cursor).withMore more := by
  simp only [Cursor.withMore, List.drop_append_of_le_length there, Nat.sub_add_comm left]

theorem local_fetch (n : Nat) : Local (fetch n : Read δ (List BYTE)) := by
  intro more
  constructor
  · intro s bs s' run
    obtain ⟨left, there, rfl, rfl⟩ := fetch_eq_ok_iff.mp run
    refine ⟨Nat.sub_le .., ?_⟩
    simp only [List.length_drop]
    omega
  · intro s bs s' run
    obtain ⟨left, there, rfl, rfl⟩ := fetch_eq_ok_iff.mp run
    refine fetch_eq_ok_iff.mpr ⟨Nat.le_add_right_of_le left, ?_, ?_, ?_⟩
    · exact there.trans (by rw [ReadState.withMore, Cursor.withMore, List.length_append]; omega)
    · exact (List.take_append_of_le_length there).symm
    · exact congrArg (ReadState.mk s.dest) (Cursor.drop_withMore left there).symm
  · intro s bs s' run inside
    obtain ⟨left, there, rfl, rfl⟩ := fetch_eq_ok_iff.mp run
    obtain ⟨enough, counted⟩ := inside
    simp only [ReadState.withMore, Cursor.withMore, List.length_append, List.length_drop]
      at left there enough counted
    have left' : n ≤ s.cur.len := by omega
    have there' : n ≤ s.cur.rest.length := by omega
    refine ⟨_, fetch_eq_ok_iff.mpr ⟨left', there', ?_, rfl⟩, ?_⟩
    · exact List.take_append_of_le_length there'
    · exact congrArg (ReadState.mk s.dest) (Cursor.drop_withMore left' there')

/-- A step on the struct that neither looks at the cursor nor moves it. -/
def OnStruct (x : Read δ α) : Prop :=
  ∀ {s a s'}, x s = .ok a s' →
    s'.cur = s.cur ∧ ∀ c, x { s with cur := c } = .ok a { s' with cur := c }

theorem OnStruct.isLocal {x : Read δ α} (onStruct : OnStruct x) : Local x := by
  intro more
  constructor
  · intro s a s' run
    rw [Ahead, (onStruct run).1]
    exact ⟨Nat.le_refl _, Iff.rfl⟩
  · intro s a s' run
    obtain ⟨still, anywhere⟩ := onStruct run
    rw [ReadState.withMore, ReadState.withMore, still]
    exact anywhere _
  · intro s a s' run _
    obtain ⟨still, anywhere⟩ := onStruct run
    refine ⟨{ s' with cur := s.cur }, anywhere s.cur, ?_⟩
    rw [ReadState.withMore, show s.cur.withMore more = s'.cur from still.symm]

theorem local_assign (f : δ → δ) : Local (assign f) :=
  OnStruct.isLocal fun run => by cases run; exact ⟨rfl, fun _ => rfl⟩

theorem local_writeArray {n : Nat} (b : Option (WBuf n)) :
    Local (writeArray b : Read δ (WBuf n)) := by
  intro more
  cases b with
  | none => exact Alike.throw (ε := Failure) _
  | some b => exact Alike.pure b

theorem local_readUINT16 (o : UInt16 → δ → δ) : Local (readUINT16 o) := fun more =>
  (local_fetch 2 more).bind fun _ => local_assign _ more

theorem local_readUINT32 (o : UInt32 → δ → δ) : Local (readUINT32 o) := fun more =>
  (local_fetch 4 more).bind fun _ => local_assign _ more

theorem local_readSTRING (o : Member δ) (required : Bool) : Local (readSTRING o required) := by
  intro more
  have chars : ∀ n, Local (readChars o n) := fun n more =>
    (local_fetch _ more).bind fun _ => Alike.get_bind (fun _ => rfl) fun _ =>
      (local_writeArray _ more).bind fun _ => (local_assign _ more).bind fun _ =>
        (local_writeArray _ more).bind fun _ => local_assign _ more
  exact (local_readUINT16 _ more).bind fun _ => Alike.get_bind (fun _ => rfl) fun _ =>
    Alike.ite (Alike.throw _)
      (Alike.ite (chars _ more) (Alike.ite (Alike.throw _) (Alike.pure ())))

theorem local_checkRequiredFlags (flags : δ → UInt32) (required : UInt32) :
    Local (checkRequiredFlags flags required) := fun _ =>
  Alike.get_bind (fun _ => rfl) fun _ => Alike.ite (Alike.pure ()) (Alike.throw _)

theorem local_whenFlag (flags : δ → UInt32) (bit : UInt32) {body : Read δ Unit}
    (h : Local body) : Local (whenFlag flags bit body) := fun more =>
  Alike.get_bind (fun _ => rfl) fun _ => Alike.ite (h more) (Alike.pure ())

theorem local_readAppListServerCapsBody : Local readAppListServerCapsBody := fun more =>
  (local_readUINT16 _ more).bind fun _ => (local_readSTRING _ _ more).bind fun _ =>
    Alike.get_bind (fun _ => rfl) fun _ => Alike.ite (local_readSTRING _ _ more) (Alike.pure ())

theorem local_readAppListUpdateBody : Local readAppListUpdateBody := fun more =>
  (local_readUINT32 _ more).bind fun _ => (local_checkRequiredFlags _ _ more).bind fun _ =>
    (local_whenFlag _ _ (local_readSTRING _ _) more).bind fun _ =>
      (local_whenFlag _ _ (local_readSTRING _ _) more).bind fun _ =>
        (local_whenFlag _ _ (local_readSTRING _ _) more).bind fun _ =>
          (local_whenFlag _ _ (local_readSTRING _ _) more).bind fun _ =>
            local_whenFlag _ _ (local_readSTRING _ _) more

theorem local_readAppListDeleteBody : Local readAppListDeleteBody := fun more =>
  (local_readUINT32 _ more).bind fun _ => (local_checkRequiredFlags _ _ more).bind fun _ =>
    (local_whenFlag _ _ (local_readSTRING _ _) more).bind fun _ =>
      local_whenFlag _ _ (local_readSTRING _ _) more

theorem local_readAssociateWindowIdBody : Local readAssociateWindowIdBody := fun more =>
  (local_readUINT32 _ more).bind fun _ => (local_checkRequiredFlags _ _ more).bind fun _ =>
    (local_readUINT32 _ more).bind fun _ =>
      (local_whenFlag _ _ (local_readSTRING _ _) more).bind fun _ =>
        (local_whenFlag _ _ (local_readSTRING _ _) more).bind fun _ =>
          (local_whenFlag _ _ (local_readSTRING _ _) more).bind fun _ =>
            local_whenFlag _ _ (local_readSTRING _ _) more

/-! ### The icon -/

theorem local_orErrorRead {x : Read IconState Unit} (h : Local x) : Local (orErrorRead x) :=
  fun more => (h more).of_ok_iff ⟨ok_of_orErrorRead, fun run => by rw [orErrorRead, run]⟩

theorem local_readIconWords : Local readIconWords := fun more =>
  (local_readUINT32 _ more).bind fun _ => (local_readUINT32 _ more).bind fun _ =>
    (local_readUINT32 _ more).bind fun _ => (local_readUINT32 _ more).bind fun _ =>
      (local_readUINT32 _ more).bind fun _ => (local_readUINT32 _ more).bind fun _ =>
        local_readUINT32 _ more

theorem local_addIconFileSize : Local addIconFileSize := by
  apply OnStruct.isLocal
  intro s a s' run
  simp only [addIconFileSize] at run ⊢
  split at run
  · rename_i fits
    cases run
    exact ⟨rfl, fun _ => if_pos fits⟩
  · cases run

theorem local_allocIconFile (localAlloc : UInt32 → Bool) : Local (allocIconFile localAlloc) := by
  apply OnStruct.isLocal
  intro s a s' run
  simp only [allocIconFile] at run ⊢
  split at run
  · rename_i served
    cases run
    exact ⟨rfl, fun _ => if_pos served⟩
  · cases run

theorem local_writeIconFile (off : Nat) (bs : List BYTE) : Local (writeIconFile off bs) := by
  apply OnStruct.isLocal
  intro s a s' run
  rw [writeIconFile] at run
  cases there : s.dest.icon.iconFileData with
  | none => rw [there] at run; cases run
  | some block =>
      cases wrote : writeAt block.bytes off bs with
      | none => simp only [there, wrote] at run; cases run
      | some mem =>
          simp only [there, wrote] at run
          cases run
          exact ⟨rfl, fun _ => by simp only [writeIconFile, there, wrote]⟩

theorem local_readIconBits : Local readIconBits := fun more =>
  Alike.get_bind (fun _ => rfl) fun _ => (local_fetch _ more).bind fun _ =>
    local_writeIconFile _ _ more

theorem local_writeIconHeaders : Local writeIconHeaders := fun more =>
  Alike.get_bind (fun _ => rfl) fun _ => (local_writeIconFile _ _ more).bind fun _ =>
    local_writeIconFile _ _ more

theorem local_readAppListIconDataBody (localAlloc : UInt32 → Bool) :
    Local (readAppListIconDataBody localAlloc) := fun more =>
  (local_assign _ more).bind fun _ => (local_orErrorRead local_readIconWords more).bind fun _ =>
    (local_addIconFileSize more).bind fun _ => (local_allocIconFile localAlloc more).bind fun _ =>
      (local_orErrorRead local_readIconBits more).bind fun _ => local_writeIconHeaders more

/-! ### Handlers -/

/-- A piece of a handler that is given a cursor and hands one on: it does the same at the same
place of a buffer that goes on, and only so while it leaves the added bytes alone. -/
structure LocalAt (cur : α → Cursor) (ext : List BYTE → α → α)
    (x : Cursor → Handler ω α) : Prop where
  moves : ∀ {c m a m'}, x c m = .ok a m' → c.Onward (cur a)
  into : ∀ {more c m a m'}, x c m = .ok a m' → x (c.withMore more) m = .ok (ext more a) m'
  back : ∀ {more c m a m'}, x (c.withMore more) m = .ok a m' → (cur a).Has more.length →
    ∃ b, x c m = .ok b m' ∧ a = ext more b

/-- The same of a whole handler. -/
abbrev LocalHandler (x : Cursor → Handler ω Cursor) : Prop :=
  LocalAt (fun c => c) (fun more c => c.withMore more) x

/-- A handler reads, and applies what it read without another look at the bytes. -/
theorem LocalAt.handler {cur : α → Cursor} {ext : List BYTE → α → α}
    {read : Cursor → Handler ω α} {apply : α → Handler ω Unit} (h : LocalAt cur ext read)
    (moves : ∀ more a, cur (ext more a) = (cur a).withMore more)
    (blind : ∀ more a, apply (ext more a) = apply a) :
    LocalHandler fun c => read c >>= fun a => apply a >>= fun _ => pure (cur a) where
  moves {c m a m'} run := by
    obtain ⟨r, m₁, first, rest⟩ := bind_eq_ok.mp run
    obtain ⟨u, m₂, applied, last⟩ := bind_eq_ok.mp rest
    cases last
    exact h.moves first
  into {more c m a m'} run := by
    obtain ⟨r, m₁, first, rest⟩ := bind_eq_ok.mp run
    obtain ⟨u, m₂, applied, last⟩ := bind_eq_ok.mp rest
    cases last
    refine bind_eq_ok.mpr ⟨_, m₁, h.into first, bind_eq_ok.mpr ⟨u, m', ?_, ?_⟩⟩
    · rw [blind, applied]
    · rw [moves]
      rfl
  back {more c m a m'} run inside := by
    obtain ⟨r, m₁, first, rest⟩ := bind_eq_ok.mp run
    obtain ⟨u, m₂, applied, last⟩ := bind_eq_ok.mp rest
    cases last
    obtain ⟨r', first', rfl⟩ := h.back first inside
    rw [blind] at applied
    exact ⟨cur r', bind_eq_ok.mpr ⟨r', m₁, first', bind_eq_ok.mpr ⟨u, m', applied, rfl⟩⟩,
      moves more r'⟩

theorem runReader_ok_iff {x : Read δ Unit} {d d' : δ} {c c' : Cursor} :
    runReader x d c = (.ok c', d') ↔ x ⟨d, c⟩ = .ok () ⟨d', c'⟩ := by
  rw [runReader]
  cases x ⟨d, c⟩ with
  | ok u s => exact ⟨fun run => by cases run; rfl, fun run => by cases run; rfl⟩
  | error e s => exact ⟨fun run => (by cases run), fun run => (by cases run)⟩

section Read

variable {x : Read δ Unit} (h : Local x) {d d' : δ} {c c' : Cursor}

include h

theorem runReader_withMore (run : runReader x d c = (.ok c', d')) :
    runReader x d (c.withMore more) = (.ok (c'.withMore more), d') := by
  have ran := (h more).into (runReader_ok_iff.mp run)
  exact runReader_ok_iff.mpr ran

theorem runReader_back (run : runReader x d (c.withMore more) = (.ok c', d'))
    (inside : c'.Has more.length) :
    ∃ c₀, runReader x d c = (.ok c₀, d') ∧ c' = c₀.withMore more := by
  obtain ⟨s, ran, same⟩ := (h more).back (s := ⟨d, c⟩) (runReader_ok_iff.mp run) inside
  injection same with dest cur
  subst dest cur
  exact ⟨s.cur, runReader_ok_iff.mpr ran, rfl⟩

theorem runReader_onward (run : runReader x d c = (.ok c', d')) : c.Onward c' :=
  (h []).moves (runReader_ok_iff.mp run)

end Read

/-- A buffer read scope: a reader of one PDU, and what is made of its cursor and struct. -/
theorem LocalAt.of_scope {cur : α → Cursor} {ext : List BYTE → α → α}
    {scope : Cursor → Handler ω α} {x : Machine ω → Read δ Unit} {d : Machine ω → δ}
    (value : Cursor → δ → α) (keep : Machine ω → δ → Machine ω) (h : ∀ m, Local (x m))
    (ok : ∀ {c m c' d'}, runReader (x m) (d m) c = (.ok c', d') →
      scope c m = .ok (value c' d') (keep m d'))
    (error : ∀ {c m e d'}, runReader (x m) (d m) c = (.error e, d') →
      ∃ m', scope c m = .error e m')
    (front : ∀ c d, cur (value c d) = c := by intros; rfl)
    (moves : ∀ more c d, value (c.withMore more) d = ext more (value c d) := by intros; rfl) :
    LocalAt cur ext scope := by
  have ran : ∀ {c m a m'}, scope c m = .ok a m' →
      ∃ c' d', runReader (x m) (d m) c = (.ok c', d') ∧ value c' d' = a ∧ keep m d' = m' := by
    intro c m a m' run
    rcases read : runReader (x m) (d m) c with ⟨e | c', d'⟩
    · obtain ⟨m₁, failed⟩ := error read
      cases failed.symm.trans run
    · cases (ok read).symm.trans run
      exact ⟨c', d', rfl, rfl, rfl⟩
  constructor
  · intro c m a m' run
    obtain ⟨c', d', read, rfl, rfl⟩ := ran run
    rw [front]
    exact runReader_onward (h m) read
  · intro more c m a m' run
    obtain ⟨c', d', read, rfl, rfl⟩ := ran run
    rw [ok (runReader_withMore (h m) read), moves]
  · intro more c m a m' run inside
    obtain ⟨c', d', read, rfl, rfl⟩ := ran run
    rw [front] at inside
    obtain ⟨c₀, read', rfl⟩ := runReader_back (h m) read inside
    exact ⟨value c₀ d', ok read', moves more c₀ d'⟩

theorem localAt_readServerCaps : LocalHandler (readServerCaps (ω := ω)) :=
  LocalAt.of_scope (fun c' _ => c')
    (fun m caps => { m with cb := { m.cb with serverCaps := caps } })
    (fun _ => local_readAppListServerCapsBody)
    (fun read => by rw [readServerCaps, readAppListServerCaps, read])
    (fun read => ⟨_, by rw [readServerCaps, readAppListServerCaps, read]⟩)

theorem localAt_readDelete :
    LocalAt (ω := ω) Prod.fst (fun more r => (r.1.withMore more, r.2)) readDelete :=
  LocalAt.of_scope Prod.mk (fun m _ => m) (fun _ => local_readAppListDeleteBody)
    (fun read => by rw [readDelete, readAppListDelete, read])
    (fun read => ⟨_, by rw [readDelete, readAppListDelete, read]⟩)

theorem localAt_readAssociate :
    LocalAt (ω := ω) Prod.fst (fun more r => (r.1.withMore more, r.2)) readAssociate :=
  LocalAt.of_scope Prod.mk (fun m _ => m) (fun _ => local_readAssociateWindowIdBody)
    (fun read => by rw [readAssociate, readAssociateWindowId, read])
    (fun read => ⟨_, by rw [readAssociate, readAssociateWindowId, read]⟩)

theorem localAt_readUpdateStrings :
    LocalAt (ω := ω) Prod.fst (fun more r => (r.1.withMore more, r.2)) readUpdateStrings :=
  LocalAt.of_scope Prod.mk (fun m _ => m) (fun _ => local_readAppListUpdateBody)
    (fun read => by rw [readUpdateStrings, readAppListUpdate, read])
    (fun read => ⟨_, by rw [readUpdateStrings, readAppListUpdate, read]⟩)

theorem localAt_readUpdateIcon (os : Os ω) :
    LocalAt Prod.fst (fun more r => (r.1.withMore more, r.2)) (readUpdateIcon os) :=
  LocalAt.of_scope (fun c' s => (c', s.icon)) (fun m s => { m with heap := s.heap })
    (fun m => local_readAppListIconDataBody (os.localAlloc m.world))
    (fun read => by rw [readUpdateIcon, readAppListIconData, read])
    (fun read => ⟨_, by rw [readUpdateIcon, readAppListIconData, read]⟩)

def UpdateRead.withMore (more : List BYTE) (r : UpdateRead) : UpdateRead :=
  { r with cur := r.cur.withMore more }

theorem localAt_readUpdate (os : Os ω) :
    LocalAt UpdateRead.cur UpdateRead.withMore (readUpdate os) := by
  have strings := localAt_readUpdateStrings (ω := ω)
  have icon := localAt_readUpdateIcon os
  constructor
  · intro c m a m' run
    obtain ⟨r, m₁, first, rest⟩ := bind_eq_ok.mp run
    split at rest
    · obtain ⟨i, m₂, second, last⟩ := bind_eq_ok.mp rest
      cases last
      exact (strings.moves first).trans (icon.moves second)
    · cases rest
      exact strings.moves first
  · intro more c m a m' run
    obtain ⟨r, m₁, first, rest⟩ := bind_eq_ok.mp run
    rw [readUpdate, bind_of_ok (strings.into first)]
    split at rest
    · rename_i flagged
      obtain ⟨i, m₂, second, last⟩ := bind_eq_ok.mp rest
      cases last
      rw [if_pos flagged, bind_of_ok (icon.into second)]
      rfl
    · rename_i unflagged
      cases rest
      rw [if_neg unflagged]
      rfl
  · intro more c m a m' run inside
    obtain ⟨r, m₁, first, rest⟩ := bind_eq_ok.mp run
    split at rest
    · rename_i flagged
      obtain ⟨i, m₂, second, last⟩ := bind_eq_ok.mp rest
      cases last
      obtain ⟨r', first', rfl⟩ := strings.back first (inside.of_onward (icon.moves second))
      obtain ⟨i', second', rfl⟩ := icon.back second inside
      refine ⟨⟨i'.1, r'.2, i'.2⟩, ?_, rfl⟩
      rw [readUpdate, bind_of_ok first', if_pos flagged, bind_of_ok second']
      rfl
    · rename_i unflagged
      cases rest
      obtain ⟨r', first', rfl⟩ := strings.back first inside
      refine ⟨⟨r'.1, r'.2, {}⟩, ?_, rfl⟩
      rw [readUpdate, bind_of_ok first', if_neg unflagged]
      rfl

theorem local_onCaps (os : Os ω) : LocalHandler (onCaps os) := by
  have blind : ∀ (more : List BYTE) (c : Cursor),
      (fun _ => applyCaps os) (c.withMore more) = (fun _ : Cursor => applyCaps os) c :=
    fun _ _ => rfl
  exact localAt_readServerCaps.handler (fun _ _ => rfl) blind

theorem local_onUpdateAppList (os : Os ω) : LocalHandler (onUpdateAppList os) := by
  have read : LocalHandler fun c => readUpdate os c >>= fun r =>
      applyUpdate os r.update r.icon >>= fun _ => pure (UpdateRead.cur r) :=
    (localAt_readUpdate os).handler (fun _ _ => rfl) fun more r => by rw [UpdateRead.withMore]
  exact read

theorem local_onDeleteAppList (os : Os ω) : LocalHandler (onDeleteAppList os) := by
  have read : LocalHandler fun c => readDelete c >>= fun r =>
      applyDelete os r.2 >>= fun _ => pure (Prod.fst r) :=
    localAt_readDelete.handler (fun _ _ => rfl) fun _ _ => rfl
  exact read

/-- A test of the members in front of a handler. -/
theorem LocalAt.guarded {p : Callback → Prop} [DecidablePred p] {x : Cursor → Handler ω Cursor}
    (h : LocalHandler x) {y : Cursor → Handler ω Cursor}
    (passes : ∀ {c m}, p m.cb → y c m = x c m)
    (stops : ∀ {c m}, ¬ p m.cb → y c m = .error (.hresult E_FAIL) m) : LocalHandler y := by
  have ran : ∀ {c m a m'}, y c m = .ok a m' → p m.cb ∧ x c m = .ok a m' := by
    intro c m a m' run
    by_cases holds : p m.cb
    · exact ⟨holds, (passes holds).symm.trans run⟩
    · cases (stops holds).symm.trans run
  constructor
  · intro c m a m' run
    exact h.moves (ran run).2
  · intro more c m a m' run
    obtain ⟨holds, runs⟩ := ran run
    exact (passes holds).trans (h.into runs)
  · intro more c m a m' run inside
    obtain ⟨holds, runs⟩ := ran run
    obtain ⟨b, runs', same⟩ := h.back runs inside
    exact ⟨b, (passes holds).trans runs', same⟩

theorem local_onAssociateWindowId (os : Os ω) : LocalHandler (onAssociateWindowId os) := by
  have read : LocalHandler fun c => readAssociate c >>= fun r =>
      applyAssociate os r.2 >>= fun _ => pure (Prod.fst r) :=
    localAt_readAssociate.handler (fun _ _ => rfl) fun _ _ => rfl
  apply read.guarded (p := fun cb => ¬ cb.serverCaps.version < 4)
  · intro c m version
    rw [onAssociateWindowId, members_bind, require_bind, if_pos version]
  · intro c m version
    rw [onAssociateWindowId, members_bind, require_bind, if_neg version]

theorem LocalAt.ite {p : Prop} [Decidable p] {x y : Cursor → Handler ω Cursor}
    (hx : LocalHandler x) (hy : LocalHandler y) : LocalHandler fun c => if p then x c else y c := by
  by_cases holds : p
  · simp only [if_pos holds]
    exact hx
  · simp only [if_neg holds]
    exact hy

theorem local_handle (os : Os ω) (cmdId : UInt32) : LocalHandler (handle os cmdId) := by
  have nothing : LocalHandler (pure : Cursor → Handler ω Cursor) :=
    { moves := fun run => by cases run; exact ⟨Nat.le_refl _, Iff.rfl⟩
      into := fun run => by cases run; rfl
      back := fun {_ c _ _ _} run _ => by cases run; exact ⟨c, rfl, rfl⟩ }
  have unknown : LocalHandler fun _ => (fail E_FAIL : Handler ω Cursor) :=
    { moves := nofun, into := nofun, back := nofun }
  exact LocalAt.ite (local_onUpdateAppList os) <| LocalAt.ite (local_onDeleteAppList os) <|
    LocalAt.ite nothing <| LocalAt.ite (local_onAssociateWindowId os) unknown

/-- No handler looks past the bytes of its PDU. -/
theorem local_dispatch (os : Os ω) (cmdId : UInt32) : LocalHandler (dispatch os cmdId) := by
  by_cases caps : cmdId = cmdIdCaps
  · have same : dispatch os cmdId = onCaps os := funext fun c => by rw [dispatch, if_pos caps]
    rw [same]
    exact local_onCaps os
  apply (local_handle os cmdId).guarded (p := fun cb => ¬ cb.handShakeComplated = false)
  · intro c m complete
    rw [dispatch_apply caps, if_neg complete]
  · intro c m incomplete
    rw [dispatch_apply caps, if_pos (not_not.mp incomplete)]

/-! ### One PDU of the loop -/

/-- The same step in a buffer that goes on. -/
def Step.withMore (more : List BYTE) (t : Step ω) : Step ω :=
  { t with
    input := match t.input with
      | .pdu cmdId c => .pdu cmdId (c.withMore more)
      | e => e
    output := { t.output with cur := t.output.cur.withMore more } }

theorem local_header : Local (do
    readUINT32 fun v d => { d with cmdId := v }
    readUINT32 fun v d => { d with length := v } : Read Header Unit) := fun more =>
  (local_readUINT32 _ more).bind fun _ => local_readUINT32 _ more

section Turn

variable {os : Os ω} {s : ClientState ω} {c : Cursor}

/-- A turn of the loop that served a PDU: its header, and the handler's run. -/
structure Turn (os : Os ω) (s : ClientState ω) (c : Cursor) (t : Step ω) : Prop where
  more : c.len ≠ 0
  header : ∃ header c', readAppListHeader c = (.ok c', header) ∧ t.input = .pdu header.cmdId c' ∧
    ∃ m, dispatch os header.cmdId c' s.start = .ok t.output.cur m ∧
      t.output.calls = m.log ∧ t.after = m.state
  start : t.before = s
  ok : t.output.failure = none

/-- The loop goes on behind a turn, and with enough fuel nothing else comes of it. -/
theorem Turn.receiveLoop {t : Step ω} (turn : Turn os s c t) (isOpen : s.cb.channelClosed = false)
    (fuel : Nat) :
    receiveLoop os (fuel + 1) s c = (receiveLoop os fuel t.after t.output.cur).map fun r =>
      { r with steps := t :: r.steps } := by
  obtain ⟨before, input, ⟨failure, cur, calls⟩, after⟩ := t
  obtain ⟨more, ⟨header, c', read, rfl, m, run, rfl, rfl⟩, rfl, rfl⟩ := turn
  exact receiveLoop_served fuel ⟨more, isOpen⟩ read (step_of_ok isOpen run)

theorem Turn.isOpen {t : Step ω} (turn : Turn os s c t) (isOpen : s.cb.channelClosed = false) :
    t.after.cb.channelClosed = false := by
  obtain ⟨header, c', -, -, m, run, -, after⟩ := turn.header
  rw [after]
  exact ((keepsClosed_dispatch os header.cmdId c').of_ok run).trans isOpen

theorem Turn.onward {t : Step ω} (turn : Turn os s c t) : c.Onward t.output.cur := by
  obtain ⟨header, c', read, -, m, run, -, -⟩ := turn.header
  exact (runReader_onward local_header read).trans ((local_dispatch os header.cmdId).moves run)

theorem Turn.into {t : Step ω} (turn : Turn os s c t) (more : List BYTE) :
    Turn os s (c.withMore more) (t.withMore more) := by
  obtain ⟨header, c', read, input, m, run, calls, after⟩ := turn.header
  refine ⟨?_, ⟨header, c'.withMore more, runReader_withMore local_header read, ?_, m,
    (local_dispatch os header.cmdId).into run, calls, after⟩, turn.start, turn.ok⟩
  · exact fun none => turn.more (Nat.eq_zero_of_add_eq_zero_right none)
  · rw [Step.withMore, input]

theorem Turn.back {t : Step ω} (turn : Turn os s (c.withMore more) t) (nonempty : c.len ≠ 0)
    (inside : t.output.cur.Has more.length) :
    ∃ t₀, Turn os s c t₀ ∧ t = t₀.withMore more := by
  obtain ⟨header, c', read, input, m, run, calls, after⟩ := turn.header
  have moves := (local_dispatch os header.cmdId).moves run
  obtain ⟨c₀, read', rfl⟩ := runReader_back local_header read (inside.of_onward moves)
  obtain ⟨cur, run', same⟩ := (local_dispatch os header.cmdId).back run inside
  obtain ⟨before, input', ⟨failure, cur', calls'⟩, after'⟩ := t
  cases input
  cases same
  exact ⟨⟨before, .pdu header.cmdId c₀, ⟨failure, cur, calls'⟩, after'⟩,
    ⟨nonempty, ⟨header, c₀, read', rfl, m, run', calls, after⟩, turn.start, turn.ok⟩, rfl⟩

/-- The loop of `OnDataReceived` goes through a buffer turn by turn and returns `S_OK`. -/
inductive Serves (os : Os ω) : ClientState ω → Cursor → Received ω → Prop where
  | done {s : ClientState ω} {c : Cursor} (ended : c.len = 0) : Serves os s c ⟨none, c, []⟩
  | turn {s : ClientState ω} {c : Cursor} {t : Step ω} {r : Received ω} (turn : Turn os s c t)
      (rest : Serves os t.after t.output.cur r) : Serves os s c { r with steps := t :: r.steps }

theorem Serves.ok {r : Received ω} (serves : Serves os s c r) : r.failure = none := by
  induction serves with
  | done => rfl
  | turn _ _ ih => exact ih

theorem Serves.of_receiveLoop {fuel : Nat} {r : Received ω} (isOpen : s.cb.channelClosed = false)
    (received : receiveLoop os fuel s c = some r) (ok : r.failure = none) : Serves os s c r := by
  induction fuel generalizing s c r with
  | zero =>
      rw [Client.receiveLoop] at received
      split at received
      · cases received
      · rename_i ended
        cases received
        exact .done (not_not.mp fun more => ended ⟨more, isOpen⟩)
  | succ fuel ih =>
      by_cases more : c.len ≠ 0
      · rw [Client.receiveLoop, if_pos ⟨more, isOpen⟩] at received
        rcases read : readAppListHeader c with ⟨e | c', header⟩
        · simp only [read] at received
          cases received
          cases ok
        simp only [read, Runs.take] at received
        cases run : dispatch os header.cmdId c' s.start with
        | error e m =>
            rw [step_of_error isOpen run] at received
            cases received
            cases ok
        | ok cur m =>
            rw [step_of_ok isOpen run] at received
            obtain ⟨r', later, rfl⟩ := Option.map_eq_some_iff.mp received
            have turn : Turn os s c ⟨s, .pdu header.cmdId c', ⟨none, cur, m.log⟩, m.state⟩ :=
              ⟨more, ⟨header, c', read, rfl, m, run, rfl, rfl⟩, rfl, rfl⟩
            exact .turn turn (ih (turn.isOpen isOpen) later ok)
      · rw [receiveLoop_ended fun h => more h.1] at received
        cases received
        exact .done (not_not.mp more)

theorem Serves.receiveLoop {r : Received ω} (serves : Serves os s c r)
    (isOpen : s.cb.channelClosed = false) : ∃ fuel, receiveLoop os fuel s c = some r := by
  induction serves with
  | done ended => exact ⟨0, receiveLoop_ended fun more => more.1 ended⟩
  | turn turn _ ih =>
      obtain ⟨fuel, rest⟩ := ih (turn.isOpen isOpen)
      exact ⟨fuel + 1, by rw [turn.receiveLoop isOpen, rest]; rfl⟩

/-- More fuel changes nothing. -/
theorem receiveLoop_mono {fuel fuel' : Nat} {r : Received ω} (enough : fuel ≤ fuel')
    (received : receiveLoop os fuel s c = some r) : receiveLoop os fuel' s c = some r := by
  induction fuel generalizing fuel' s c r with
  | zero =>
      rw [Client.receiveLoop] at received
      split at received
      · cases received
      · rename_i ended
        rw [receiveLoop_ended ended, ← received]
  | succ fuel ih =>
      obtain ⟨fuel', rfl⟩ : ∃ n, fuel' = n + 1 := ⟨fuel' - 1, by omega⟩
      rw [Client.receiveLoop] at received ⊢
      split at received
      · rename_i more
        rw [if_pos more]
        simp only at received ⊢
        rcases read : readAppListHeader c with ⟨e | c', header⟩
        · simpa only [read] using received
        simp only [read] at received ⊢
        cases failure : (Runs.take (step os) s (.pdu header.cmdId c')).output.failure with
        | some e => simpa only [failure] using received
        | none =>
            simp only [failure] at received ⊢
            obtain ⟨r', later, same⟩ := Option.map_eq_some_iff.mp received
            rw [ih (Nat.le_of_succ_le_succ enough) later, Option.map_some, same]
      · rename_i ended
        rw [if_neg ended, ← received]

/-- A buffer is served when `OnDataReceived` returns `S_OK` for it. -/
theorem serves_iff {buffer : List BYTE} {r : Received ω} (isOpen : s.cb.channelClosed = false) :
    Serves os s (.of buffer) r ↔ onDataReceived os s buffer = some r ∧ r.failure = none := by
  constructor
  · intro serves
    obtain ⟨fuel, ran⟩ := serves.receiveLoop isOpen
    obtain ⟨r', ran'⟩ := Option.isSome_iff_exists.mp (onDataReceived_isSome os s buffer)
    have both := receiveLoop_mono (Nat.le_max_left _ fuel) ran'
    rw [receiveLoop_mono (Nat.le_max_right _ fuel) ran] at both
    exact ⟨by rw [ran', both], serves.ok⟩
  · rintro ⟨received, ok⟩
    exact .of_receiveLoop isOpen received ok

end Turn

/-! ### Two buffers -/

/-- The client behind a buffer. -/
def Received.finish (r : Received ω) (s : ClientState ω) : ClientState ω :=
  (r.steps.getLast?.map (·.after)).getD s

/-- One buffer, and what followed it in the same. -/
def Received.append (more : List BYTE) (r r' : Received ω) : Received ω :=
  ⟨r'.failure, r'.cur, r.steps.map (Step.withMore more) ++ r'.steps⟩

/-- The loop came to stand in front of `more`, with `b` behind it. -/
def Received.Passes (b more : List BYTE) (r : Received ω) : Prop :=
  b = [] ∨ ∃ t ∈ r.steps, t.output.cur = .of more

variable {os : Os ω} {s : ClientState ω} {c : Cursor} {r r' : Received ω}

theorem Received.finish_cons (t : Step ω) (r : Received ω) :
    ({ r with steps := t :: r.steps } : Received ω).finish s = r.finish t.after := by
  rw [finish, finish, List.getLast?_cons]
  cases r.steps.getLast? <;> rfl

theorem Serves.isOpen (serves : Serves os s c r) (isOpen : s.cb.channelClosed = false) :
    (r.finish s).cb.channelClosed = false := by
  induction serves with
  | done => exact isOpen
  | turn turn _ ih =>
      rw [Received.finish_cons]
      exact ih (turn.isOpen isOpen)

/-- The loop only goes on in its buffer. -/
theorem Serves.onward (serves : Serves os s c r) : ∀ t ∈ r.steps, c.Onward t.output.cur := by
  induction serves with
  | done => exact List.forall_mem_nil _
  | turn turn _ ih =>
      exact List.forall_mem_cons.mpr ⟨turn.onward, fun t mem => turn.onward.trans (ih t mem)⟩

/-- A cursor at the end of its buffer stands in front of what is added. -/
theorem Cursor.withMore_of_end (counted : c.rest.length = c.len) (ended : c.len = 0) :
    c.withMore more = .of more := by
  have nothing : c.rest = [] := List.eq_nil_of_length_eq_zero (counted.trans ended)
  rw [withMore, of, nothing, ended, List.nil_append, Nat.zero_add]

/-- The loop comes to the end of its buffer. -/
theorem Serves.ended (serves : Serves os s c r) (counted : c.rest.length = c.len) :
    c.len = 0 ∨ ∃ t ∈ r.steps, t.output.cur = .of [] := by
  induction serves with
  | done ended => exact Or.inl ended
  | @turn s c t r turn _ ih =>
      have behind := turn.onward.counted.mpr counted
      rcases ih behind with ended | ⟨t', mem, ended⟩
      · refine Or.inr ⟨t, List.mem_cons_self, ?_⟩
        have front : t.output.cur.withMore [] = .of [] := Cursor.withMore_of_end behind ended
        rwa [Cursor.withMore, List.append_nil] at front
      · exact Or.inr ⟨t', List.mem_cons_of_mem _ mem, ended⟩

/-- A buffer that is served is served the same in front of more, which comes next. -/
theorem Serves.into (serves : Serves os s c r) (counted : c.rest.length = c.len)
    (later : Serves os (r.finish s) (.of more) r') :
    Serves os s (c.withMore more) (r.append more r') := by
  induction serves with
  | done ended =>
      rw [Cursor.withMore_of_end counted ended]
      exact later
  | turn turn _ ih =>
      rw [Received.finish_cons] at later
      exact .turn (turn.into more) (ih (turn.onward.counted.mpr counted) later)

/-- A buffer that is served in front of more, the loop passing from one to the other, is served
the same alone, and what is more after it. -/
theorem Serves.back (serves : Serves os s (c.withMore more) r) (counted : c.rest.length = c.len)
    (passes : c.len = 0 ∨ ∃ t ∈ r.steps, t.output.cur = .of more) :
    ∃ r₁ r₂, Serves os s c r₁ ∧ Serves os (r₁.finish s) (.of more) r₂ ∧ r = r₁.append more r₂ := by
  obtain ⟨whole, same⟩ : ∃ whole, whole = c.withMore more := ⟨_, rfl⟩
  rw [← same] at serves
  induction serves generalizing c with
  | @done s whole ended =>
      subst same
      have none : c.len = 0 := Nat.eq_zero_of_add_eq_zero_right ended
      refine ⟨⟨.none, c, []⟩, ⟨.none, c.withMore more, []⟩, .done none, ?_, rfl⟩
      rw [← Cursor.withMore_of_end counted none]
      exact .done ended
  | @turn s whole t r turn rest ih =>
      subst same
      by_cases ended : c.len = 0
      · refine ⟨⟨none, c, []⟩, { r with steps := t :: r.steps }, .done ended, ?_, rfl⟩
        rw [← Cursor.withMore_of_end counted ended]
        exact .turn turn rest
      obtain ⟨last, mem, passed⟩ := passes.resolve_left ended
      -- as the loop still has to pass, this turn leaves what is more alone
      have behind : t.output.cur.rest.length = t.output.cur.len :=
        turn.onward.counted.mpr (by rw [Cursor.withMore, List.length_append, counted])
      have enough : more.length ≤ t.output.cur.len := by
        rcases List.mem_cons.mp mem with rfl | later
        · exact passed ▸ Nat.le_refl more.length
        · have onward := (rest.onward last later).less
          rwa [passed] at onward
      obtain ⟨t₀, turn₀, rfl⟩ := turn.back ended ⟨enough, behind⟩
      have passes' : t₀.output.cur.len = 0 ∨ ∃ t ∈ r.steps, t.output.cur = .of more := by
        rcases List.mem_cons.mp mem with rfl | later
        · have length : t₀.output.cur.len + more.length = more.length :=
            congrArg Cursor.len passed
          exact Or.inl (by omega)
        · exact Or.inr ⟨last, later, passed⟩
      obtain ⟨r₁, r₂, serves₁, serves₂, rfl⟩ :=
        ih (turn₀.onward.counted.mpr counted) passes' rfl
      refine ⟨{ r₁ with steps := t₀ :: r₁.steps }, r₂, .turn turn₀ serves₁, ?_, rfl⟩
      rw [Received.finish_cons]
      exact serves₂

/-- Parts that are received one after the other are received as one buffer, in which the loop
passes from one to the other. -/
theorem received_append (isOpen : s.cb.channelClosed = false) {b : List BYTE} {r₁ r₂ : Received ω}
    (received : onDataReceived os s b = some r₁) (ok : r₁.failure = none)
    (later : onDataReceived os (r₁.finish s) more = some r₂) (ok' : r₂.failure = none) :
    onDataReceived os s (b ++ more) = some (r₁.append more r₂) ∧
      (r₁.append more r₂).Passes b more := by
  have serves := (serves_iff isOpen).mpr ⟨received, ok⟩
  have serves' := (serves_iff (serves.isOpen isOpen)).mpr ⟨later, ok'⟩
  have whole := serves.into rfl serves'
  rw [Cursor.of_withMore] at whole
  refine ⟨((serves_iff isOpen).mp whole).1, ?_⟩
  rcases serves.ended rfl with none | ⟨t, mem, ended⟩
  · exact Or.inl (List.eq_nil_of_length_eq_zero none)
  · refine Or.inr ⟨t.withMore more, ?_, ?_⟩
    · exact List.mem_append_left _ (List.mem_map_of_mem mem)
    · rw [Step.withMore, ended, Cursor.of_withMore, List.nil_append]

/-- A buffer is received with `S_OK`, the loop passing from one part to the other, exactly if
the parts are, one after the other; what is done is the same. -/
theorem received_append_iff (os : Os ω) (s : ClientState ω) (isOpen : s.cb.channelClosed = false)
    (b more : List BYTE) (r : Received ω) :
    (onDataReceived os s (b ++ more) = some r ∧ r.failure = none ∧ r.Passes b more) ↔
      ∃ r₁ r₂, onDataReceived os s b = some r₁ ∧ r₁.failure = none ∧
        onDataReceived os (r₁.finish s) more = some r₂ ∧ r₂.failure = none ∧
        r = r₁.append more r₂ := by
  constructor
  · rintro ⟨received, ok, passes⟩
    have serves := (serves_iff isOpen).mpr ⟨received, ok⟩
    rw [← Cursor.of_withMore] at serves
    obtain ⟨r₁, r₂, serves₁, serves₂, rfl⟩ :=
      serves.back rfl (passes.imp_left fun none => by rw [none]; rfl)
    obtain ⟨received₁, ok₁⟩ := (serves_iff isOpen).mp serves₁
    obtain ⟨received₂, ok₂⟩ := (serves_iff (serves₁.isOpen isOpen)).mp serves₂
    exact ⟨r₁, r₂, received₁, ok₁, received₂, ok₂, rfl⟩
  · rintro ⟨r₁, r₂, received, ok, later, ok', rfl⟩
    obtain ⟨both, passes⟩ := received_append isOpen received ok later ok'
    exact ⟨both, ok', passes⟩

/-- The handshake, and an update with an icon behind it. -/
theorem caps_then_icon : ∃ r₁ r₂, onDataReceived diskOs (.fresh {}) capsBuffer = some r₁ ∧
    r₁.failure = none ∧ onDataReceived diskOs (r₁.finish (.fresh {})) iconBuffer = some r₂ ∧
    r₂.failure = none := by
  obtain ⟨r₁, received⟩ :=
    Option.isSome_iff_exists.mp (onDataReceived_isSome diskOs (.fresh {}) capsBuffer)
  obtain ⟨r₂, later⟩ :=
    Option.isSome_iff_exists.mp (onDataReceived_isSome diskOs beforeIcon iconBuffer)
  have finish : r₁.finish (.fresh {}) = beforeIcon := by
    have received' : beforeIcon = receive diskOs (.fresh {}) (.data capsBuffer) := rfl
    rw [received', receive, received]
    rfl
  have ok : (onDataReceived diskOs (.fresh {}) capsBuffer).any (·.failure.isNone) = true := by
    decide +kernel
  have ok' : (onDataReceived diskOs beforeIcon iconBuffer).any (·.failure.isNone) = true := by
    decide +kernel
  rw [received, Option.any_some, Option.isNone_iff_eq_none] at ok
  rw [later, Option.any_some, Option.isNone_iff_eq_none] at ok'
  exact ⟨r₁, r₂, received, ok, by rw [finish, later], ok'⟩

theorem received_append_iff_caps_icon : ∃ r,
    onDataReceived diskOs (.fresh {}) (capsBuffer ++ iconBuffer) = some r ∧ r.failure = none ∧
      r.Passes capsBuffer iconBuffer := by
  obtain ⟨r₁, r₂, received, ok, later, ok'⟩ := caps_then_icon
  exact ⟨r₁.append iconBuffer r₂, (received_append_iff diskOs (.fresh {}) rfl capsBuffer iconBuffer
    _).mpr ⟨r₁, r₂, received, ok, later, ok', rfl⟩⟩

/-! ### Any number of buffers -/

/-- The calls of a buffer. -/
def Received.calls (r : Received ω) : List (Call ω) := r.steps.flatMap (·.output.calls)

/-- The buffers come one after the other, each is received with `S_OK`, and this is where the
client ends and what it called. -/
def ReceivedInTurn (os : Os ω) : ClientState ω → List (List BYTE) → ClientState ω →
    List (Call ω) → Prop
  | s, [], s', calls => s' = s ∧ calls = []
  | s, b :: bs, s', calls => ∃ r calls', onDataReceived os s b = some r ∧ r.failure = none ∧
      ReceivedInTurn os (r.finish s) bs s' calls' ∧ calls = r.calls ++ calls'

theorem Received.finish_append (more : List BYTE) (r r' : Received ω) (s : ClientState ω) :
    (r.append more r').finish s = r'.finish (r.finish s) := by
  simp only [finish, append, List.getLast?_append, List.getLast?_map, Option.map_or, Option.map_map]
  cases r'.steps.getLast? with
  | some t => rfl
  | none =>
      rw [Option.map_none, Option.none_or, Option.getD_none]
      rfl

theorem Received.calls_append (more : List BYTE) (r r' : Received ω) :
    (r.append more r').calls = r.calls ++ r'.calls := by
  simp only [calls, append, List.flatMap_append, List.flatMap_map]
  rfl

/-- A closed channel takes nothing. -/
theorem onDataReceived_of_closed (closed : s.cb.channelClosed = true) (b : List BYTE) :
    onDataReceived os s b = some ⟨none, .of b, []⟩ :=
  receiveLoop_ended fun more => by rw [closed] at more; cases more.2

theorem receivedInTurn_of_closed (closed : s.cb.channelClosed = true) {buffers : List (List BYTE)}
    {s' : ClientState ω} {calls : List (Call ω)} (inTurn : ReceivedInTurn os s buffers s' calls) :
    s' = s ∧ calls = [] := by
  induction buffers generalizing calls with
  | nil => exact inTurn
  | cons b bs ih =>
      obtain ⟨r, calls', received, -, later, rfl⟩ := inTurn
      cases (onDataReceived_of_closed closed b).symm.trans received
      exact ih later

/-- Buffers that are received one after the other are received as one. -/
theorem received_flatten (os : Os ω) (s s' : ClientState ω) (buffers : List (List BYTE))
    (calls : List (Call ω))
    (inTurn : ReceivedInTurn os s buffers s' calls) :
    ∃ r, onDataReceived os s buffers.flatten = some r ∧ r.failure = none ∧ r.finish s = s' ∧
      r.calls = calls := by
  cases isOpen : s.cb.channelClosed with
  | true =>
      obtain ⟨rfl, rfl⟩ := receivedInTurn_of_closed isOpen inTurn
      exact ⟨_, onDataReceived_of_closed isOpen _, rfl, rfl, rfl⟩
  | false =>
      induction buffers generalizing s calls with
      | nil =>
          obtain ⟨rfl, rfl⟩ := inTurn
          exact ⟨⟨none, .of [], []⟩, receiveLoop_ended fun more => more.1 rfl, rfl, rfl, rfl⟩
      | cons b bs ih =>
          obtain ⟨r₁, calls', received, ok, later, rfl⟩ := inTurn
          have staysOpen := ((serves_iff isOpen).mpr ⟨received, ok⟩).isOpen isOpen
          obtain ⟨r₂, received', ok', rfl, rfl⟩ := ih (r₁.finish s) calls' later staysOpen
          obtain ⟨both, -⟩ := received_append isOpen received ok received' ok'
          exact ⟨_, both, ok', Received.finish_append _ r₁ r₂ s, Received.calls_append _ r₁ r₂⟩

theorem received_flatten_caps_icon : ∃ r s' calls,
    onDataReceived diskOs (.fresh {}) [capsBuffer, iconBuffer].flatten = some r ∧
      r.failure = none ∧ r.finish (.fresh {}) = s' ∧ r.calls = calls := by
  obtain ⟨r₁, r₂, received, ok, later, ok'⟩ := caps_then_icon
  obtain ⟨r, whole⟩ := received_flatten diskOs (.fresh {}) _ [capsBuffer, iconBuffer] _
    ⟨r₁, _, received, ok, ⟨r₂, _, later, ok', ⟨rfl, rfl⟩, rfl⟩, rfl⟩
  exact ⟨r, _, _, whole⟩

end Wslg.Client
