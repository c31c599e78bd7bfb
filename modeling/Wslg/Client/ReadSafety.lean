/-
What the six readers do to memory, whatever the bytes.

A reader works on a cursor whose count is the number of bytes left (`Exact`). From one
it never reads past the end of the buffer nor writes past the end of an array, and the
cursor it gives back has moved its pointer and its count by the same number of bytes
(`ReaderSafe`). A string member keeps a NUL inside its array through every read, one
that fails included: the characters and the NUL behind them are written together.
-/

import Wslg.Client.Icon

namespace Wslg.Client

open Wslg.LittleEndian Wslg.Protocol Wslg.StateExcept

variable {δ α β : Type}

/-! ### Cursors -/

/-- The bytes from the pointer on are as many as the count says. -/
def Exact (c : Cursor) : Prop := c.rest.length = c.len

/-- The pointer has moved on and the count gone down by the same number of bytes. -/
def Moved (c c' : Cursor) : Prop := ∃ k ≤ c.len, c' = ⟨c.rest.drop k, c.len - k⟩

theorem exact_of (bs : List BYTE) : Exact (.of bs) := rfl

theorem Moved.refl (c : Cursor) : Moved c c := ⟨0, Nat.zero_le _, rfl⟩

theorem Moved.trans {c c' c'' : Cursor} (first : Moved c c') (second : Moved c' c'') :
    Moved c c'' := by
  obtain ⟨k, inside, rfl⟩ := first
  obtain ⟨k', inside', rfl⟩ := second
  simp only at inside'
  refine ⟨k + k', by omega, ?_⟩
  simp only [List.drop_drop, Nat.sub_sub]

theorem Exact.moved {c c' : Cursor} (exact_ : Exact c) (moved : Moved c c') : Exact c' := by
  obtain ⟨k, inside, rfl⟩ := moved
  show (c.rest.drop k).length = c.len - k
  rw [List.length_drop, show c.rest.length = c.len from exact_]

/-! ### Readers that stay inside -/

/-- While a reader that began at `c` is at work: the cursor has moved on, the struct
has `T`. -/
def Within (T : δ → Prop) (c : Cursor) (s : ReadState δ) : Prop := Moved c s.cur ∧ T s.dest

/-- The reader left with an error code. -/
def LeftEarly (T : δ → Prop) (e : Failure) (s : ReadState δ) : Prop :=
  e ≠ .accessViolation ∧ T s.dest

theorem hresult_ne (hr : HRESULT) : Failure.hresult hr ≠ .accessViolation := by
  intro same
  cases same

/-- A stretch of a reader that keeps inside the buffer and the arrays, and keeps `T`. -/
def Careful (T : δ → Prop) (x : Read δ α) : Prop :=
  ∀ c, Exact c → Triple (Within T c) x (fun _ => Within T c) (LeftEarly T)

section Careful

variable {T : δ → Prop}

theorem Careful.bind {x : Read δ α} {f : α → Read δ β} (hx : Careful T x)
    (hf : ∀ a, Careful T (f a)) : Careful T (x >>= f) :=
  fun c start => (hx c start).bind fun a => hf a c start

theorem Careful.pure (a : α) : Careful T (Pure.pure a : Read δ α) :=
  fun _ _ => Triple.pure fun _ within => within

theorem Careful.get : Careful T (MonadState.get : Read δ (ReadState δ)) := by
  intro c _ s within
  constructor
  · rintro a s' run
    cases run
    exact within
  · rintro e s' run
    cases run

theorem Careful.ite {p : Prop} [Decidable p] {x y : Read δ α} (hx : Careful T x)
    (hy : Careful T y) : Careful T (if p then x else y) :=
  fun c start => Triple.ite (fun _ => hx c start) fun _ => hy c start

theorem careful_errorRead : Careful T (errorRead : Read δ α) :=
  fun _ _ => Triple.throw fun _ within => ⟨hresult_ne _, within.2⟩

theorem careful_assign {f : δ → δ} (keeps : ∀ d, T d → T (f d)) : Careful T (assign f) := by
  intro c _ s within
  constructor
  · rintro a s' run
    cases run
    exact ⟨within.1, keeps _ within.2⟩
  · rintro e s' run
    cases run

/-- The bytes asked for are there, or the macro jumps to `Error_Read`. -/
theorem fetch_triple (n : Nat) {c : Cursor} (start : Exact c) :
    Triple (Within T c) (fetch n) (fun bs s => bs.length = n ∧ Within T c s) (LeftEarly T) := by
  intro s within
  have exact_ : Exact s.cur := start.moved within.1
  have enough : ¬ s.cur.len < n → ¬ s.cur.rest.length < n := by
    rw [show s.cur.rest.length = s.cur.len from exact_]
    exact id
  constructor
  · intro bs s' run
    rw [fetch] at run
    split at run
    · cases run
    rename_i short
    rw [if_neg (enough short)] at run
    cases run
    refine ⟨List.length_take_of_le (Nat.not_lt.mp (enough short)), ?_, within.2⟩
    exact within.1.trans ⟨n, Nat.not_lt.mp short, rfl⟩
  · intro e s' run
    rw [fetch] at run
    split at run
    · cases run
      exact ⟨hresult_ne _, within.2⟩
    rename_i short
    rw [if_neg (enough short)] at run
    cases run

theorem keepsDest_fetch {n : Nat} {s s' : ReadState δ} {bs : List BYTE}
    (run : fetch n s = .ok bs s') : s'.dest = s.dest := by
  rw [fetch] at run
  split at run
  · cases run
  split at run
  · cases run
  · cases run
    rfl

theorem careful_fetch (n : Nat) : Careful T (fetch n : Read δ (List BYTE)) :=
  fun _ start => (fetch_triple n start).weaken (fun _ => id) fun _ _ => And.right

theorem careful_readUINT16 {o : UInt16 → δ → δ} (keeps : ∀ v d, T d → T (o v d)) :
    Careful T (readUINT16 o) :=
  (careful_fetch 2).bind fun _ => careful_assign (keeps _)

theorem careful_readUINT32 {o : UInt32 → δ → δ} (keeps : ∀ v d, T d → T (o v d)) :
    Careful T (readUINT32 o) :=
  (careful_fetch 4).bind fun _ => careful_assign (keeps _)

theorem careful_checkRequiredFlags (flags : δ → UInt32) (required : UInt32) :
    Careful T (checkRequiredFlags flags required) :=
  Careful.get.bind fun _ => (Careful.pure ()).ite careful_errorRead

theorem careful_whenFlag (flags : δ → UInt32) (bit : UInt32) {body : Read δ Unit}
    (h : Careful T body) : Careful T (whenFlag flags bit body) :=
  Careful.get.bind fun _ => h.ite (Careful.pure ())

end Careful

/-! ### Strings -/

/-- There is a NUL inside the array. -/
def NulInside (f : PduString) : Prop := (0 : WCHAR) ∈ f.buf.chars

instance (f : PduString) : Decidable (NulInside f) := inferInstanceAs (Decidable (_ ∈ _))

/-- A member whose NUL is one of the things `T` says. -/
structure Guards (T : δ → Prop) (o : Member δ) : Prop where
  get : ∀ d, T d → NulInside (o.get d)
  set : ∀ f d, NulInside f → T d → T (o.set f d)

section Strings

variable {T : δ → Prop} {o : Member δ} (guards : Guards T o)

include guards

/-- The characters and the NUL behind them fit, whatever the length, if it has passed
the check of `ReadSTRING`. -/
theorem careful_readChars {n : UInt16} (room : n.toNat + 2 ≤ maxStringSize) :
    Careful T (readChars o n) := by
  have size : maxStringSize = 2 * maxStringSizeInWchar := rfl
  intro c start
  refine (fetch_triple n.toNat start).bind fun bytes => ?_
  rintro s ⟨length, within⟩
  have fits : bytes.length ≤ 2 * maxStringSizeInWchar := by omega
  have copied := WBuf.copyBytes_eq_some (b := (o.get s.dest).buf) fits
  obtain ⟨buf, copy⟩ : ∃ buf, (o.get s.dest).buf.copyBytes bytes = some buf := ⟨_, copied⟩
  have inside : n.toNat / 2 < maxStringSizeInWchar := by omega
  have put := WBuf.put_eq_some (b := buf) (c := 0) inside
  have run : (do
      let s ← MonadState.get
      let buf ← writeArray ((o.get s.dest).buf.copyBytes bytes)
      assign (o.set ⟨n, buf⟩)
      let buf ← writeArray (buf.put (n.toNat / 2) 0)
      assign (o.set ⟨n, buf⟩) : Read δ Unit) s =
      .ok () { s with dest := o.set ⟨n, ⟨buf.chars.set (n.toNat / 2) 0,
        List.length_set.trans buf.size⟩⟩ (o.set ⟨n, buf⟩ s.dest) } := by
    have first : writeArray ((o.get s.dest).buf.copyBytes bytes) s = .ok buf s := by
      rw [copy]
      rfl
    have second : assign (o.set ⟨n, buf⟩) s =
        .ok () { s with dest := o.set ⟨n, buf⟩ s.dest } := rfl
    rw [bind_of_ok (get_apply _), bind_of_ok first, bind_of_ok second, put]
    rfl
  constructor
  · intro a s' done
    cases run.symm.trans done
    refine ⟨within.1, ?_⟩
    show T (o.set _ (o.set _ s.dest))
    rw [o.set_set]
    refine guards.set _ _ ?_ within.2
    exact List.mem_set (by rw [buf.size]; exact inside) 0
  · intro e s' failed
    cases run.symm.trans failed

theorem careful_readSTRING (required : Bool) : Careful T (readSTRING o required) := by
  have length : Careful T (readUINT16 fun n d => o.set { o.get d with length := n } d) :=
    careful_readUINT16 fun v d holds => guards.set _ _ (guards.get d holds) holds
  refine length.bind fun _ c start => ?_
  refine (Careful.get c start).bind fun s => Triple.ite (fun _ => careful_errorRead c start)
    fun room => Triple.ite (fun _ => ?_) fun _ => Triple.ite (fun _ => careful_errorRead c start)
      fun _ => Careful.pure () c start
  exact careful_readChars guards (Nat.not_lt.mp room) c start

end Strings

/-! ### Whole readers -/

/-- What a caller can rely on, whatever the bytes: from a cursor that counts right the
reader does not touch memory outside the buffer and its arrays; where it succeeds it has
moved the pointer and the count by the same number of bytes, and where it fails it has
given no cursor back; and the struct keeps `T` both ways. -/
structure ReaderSafe (T : δ → Prop) (read : δ → Cursor → Except Failure Cursor × δ) : Prop where
  noViolation : ∀ d c, Exact c → T d → (read d c).1 ≠ .error .accessViolation
  moved : ∀ d c c', Exact c → T d → (read d c).1 = .ok c' → Moved c c'
  keeps : ∀ d c, Exact c → T d → T (read d c).2

theorem Careful.readerSafe {T : δ → Prop} {body : Read δ Unit} (careful : Careful T body) :
    ReaderSafe T (runReader body) := by
  have ends : ∀ d c, Exact c → T d →
      (∃ s, runReader body d c = (.ok s.cur, s.dest) ∧ Within T c s) ∨
        ∃ e s, runReader body d c = (.error e, s.dest) ∧ LeftEarly T e s := by
    intro d c start holds
    obtain ⟨ok, error⟩ := careful c start ⟨d, c⟩ ⟨Moved.refl c, holds⟩
    unfold runReader
    cases run : body ⟨d, c⟩ with
    | ok u s => exact Or.inl ⟨s, rfl, ok u s run⟩
    | error e s => exact Or.inr ⟨e, s, rfl, error e s run⟩
  constructor
  · intro d c start holds violation
    rcases ends d c start holds with ⟨s, eq, -⟩ | ⟨e, s, eq, noViolation, -⟩
    · rw [eq] at violation
      cases violation
    · rw [eq] at violation
      exact noViolation (Except.error.inj violation)
  · intro d c c' start holds read
    rcases ends d c start holds with ⟨s, eq, within⟩ | ⟨e, s, eq, -⟩
    · rw [eq] at read
      exact Except.ok.inj read ▸ within.1
    · rw [eq] at read
      cases read
  · intro d c start holds
    rcases ends d c start holds with ⟨s, eq, within⟩ | ⟨e, s, eq, rejected⟩
    · rw [eq]
      exact within.2
    · rw [eq]
      exact rejected.2

/-- Every string of the struct has a NUL. -/
structure ServerCapsPdu.NulInside (d : ServerCapsPdu) : Prop where
  appListProviderName : Client.NulInside d.appListProviderName
  appListProviderUniqueId : Client.NulInside d.appListProviderUniqueId

structure UpdateAppListPdu.NulInside (d : UpdateAppListPdu) : Prop where
  appId : Client.NulInside d.appId
  appGroup : Client.NulInside d.appGroup
  appExecPath : Client.NulInside d.appExecPath
  appWorkingDir : Client.NulInside d.appWorkingDir
  appDesc : Client.NulInside d.appDesc

structure DeleteAppListPdu.NulInside (d : DeleteAppListPdu) : Prop where
  appId : Client.NulInside d.appId
  appGroup : Client.NulInside d.appGroup

structure AssociateWindowIdPdu.NulInside (d : AssociateWindowIdPdu) : Prop where
  appId : Client.NulInside d.appId
  appGroup : Client.NulInside d.appGroup
  appExecPath : Client.NulInside d.appExecPath
  appDesc : Client.NulInside d.appDesc

theorem nulInside_empty : NulInside {} := by decide

theorem ServerCapsPdu.nulInside_empty : ServerCapsPdu.NulInside {} :=
  ⟨Client.nulInside_empty, Client.nulInside_empty⟩

theorem UpdateAppListPdu.nulInside_empty : UpdateAppListPdu.NulInside {} :=
  ⟨Client.nulInside_empty, Client.nulInside_empty, Client.nulInside_empty, Client.nulInside_empty,
    Client.nulInside_empty⟩

theorem DeleteAppListPdu.nulInside_empty : DeleteAppListPdu.NulInside {} :=
  ⟨Client.nulInside_empty, Client.nulInside_empty⟩

theorem AssociateWindowIdPdu.nulInside_empty : AssociateWindowIdPdu.NulInside {} :=
  ⟨Client.nulInside_empty, Client.nulInside_empty, Client.nulInside_empty, Client.nulInside_empty⟩

theorem readerSafe_header : ReaderSafe (fun _ => True) fun _ c => readAppListHeader c := by
  have body : Careful (fun _ : Header => True) (do
      readUINT32 fun v d => { d with cmdId := v }
      readUINT32 fun v d => { d with length := v }) :=
    (careful_readUINT32 fun _ _ _ => trivial).bind fun _ => careful_readUINT32 fun _ _ _ => trivial
  have safe := body.readerSafe
  exact ⟨fun _ c start => safe.noViolation {} c start, fun _ c c' start => safe.moved {} c c' start,
    fun _ c start => safe.keeps {} c start⟩

theorem readerSafe_serverCaps : ReaderSafe ServerCapsPdu.NulInside readAppListServerCaps := by
  have name : Guards ServerCapsPdu.NulInside ServerCapsPdu.nameMember :=
    ⟨fun _ h => h.1, fun _ _ nul h => ⟨nul, h.2⟩⟩
  have uniqueId : Guards ServerCapsPdu.NulInside ServerCapsPdu.uniqueIdMember :=
    ⟨fun _ h => h.2, fun _ _ nul h => ⟨h.1, nul⟩⟩
  refine Careful.readerSafe ?_
  refine (careful_readUINT16 fun _ _ h => ⟨h.1, h.2⟩).bind fun _ => ?_
  exact (careful_readSTRING name true).bind fun _ => Careful.get.bind fun _ =>
    (careful_readSTRING uniqueId true).ite (Careful.pure ())

theorem readerSafe_update : ReaderSafe UpdateAppListPdu.NulInside readAppListUpdate := by
  have id_ : Guards UpdateAppListPdu.NulInside UpdateAppListPdu.idMember :=
    ⟨fun _ h => h.appId, fun _ _ nul h => { h with appId := nul }⟩
  have group : Guards UpdateAppListPdu.NulInside UpdateAppListPdu.groupMember :=
    ⟨fun _ h => h.appGroup, fun _ _ nul h => { h with appGroup := nul }⟩
  have execPath : Guards UpdateAppListPdu.NulInside UpdateAppListPdu.execPathMember :=
    ⟨fun _ h => h.appExecPath, fun _ _ nul h => { h with appExecPath := nul }⟩
  have workingDir : Guards UpdateAppListPdu.NulInside UpdateAppListPdu.workingDirMember :=
    ⟨fun _ h => h.appWorkingDir, fun _ _ nul h => { h with appWorkingDir := nul }⟩
  have desc : Guards UpdateAppListPdu.NulInside UpdateAppListPdu.descMember :=
    ⟨fun _ h => h.appDesc, fun _ _ nul h => { h with appDesc := nul }⟩
  refine Careful.readerSafe ?_
  refine (careful_readUINT32 fun _ _ h => { h with }).bind fun _ => ?_
  refine (careful_checkRequiredFlags _ _).bind fun _ => ?_
  refine (careful_whenFlag _ _ (careful_readSTRING id_ _)).bind fun _ => ?_
  refine (careful_whenFlag _ _ (careful_readSTRING group _)).bind fun _ => ?_
  refine (careful_whenFlag _ _ (careful_readSTRING execPath _)).bind fun _ => ?_
  refine (careful_whenFlag _ _ (careful_readSTRING workingDir _)).bind fun _ => ?_
  exact careful_whenFlag _ _ (careful_readSTRING desc _)

theorem readerSafe_delete : ReaderSafe DeleteAppListPdu.NulInside readAppListDelete := by
  have id_ : Guards DeleteAppListPdu.NulInside DeleteAppListPdu.idMember :=
    ⟨fun _ h => h.appId, fun _ _ nul h => { h with appId := nul }⟩
  have group : Guards DeleteAppListPdu.NulInside DeleteAppListPdu.groupMember :=
    ⟨fun _ h => h.appGroup, fun _ _ nul h => { h with appGroup := nul }⟩
  refine Careful.readerSafe ?_
  refine (careful_readUINT32 fun _ _ h => { h with }).bind fun _ => ?_
  refine (careful_checkRequiredFlags _ _).bind fun _ => ?_
  refine (careful_whenFlag _ _ (careful_readSTRING id_ _)).bind fun _ => ?_
  exact careful_whenFlag _ _ (careful_readSTRING group _)

theorem readerSafe_associate : ReaderSafe AssociateWindowIdPdu.NulInside readAssociateWindowId := by
  have id_ : Guards AssociateWindowIdPdu.NulInside AssociateWindowIdPdu.idMember :=
    ⟨fun _ h => h.appId, fun _ _ nul h => { h with appId := nul }⟩
  have group : Guards AssociateWindowIdPdu.NulInside AssociateWindowIdPdu.groupMember :=
    ⟨fun _ h => h.appGroup, fun _ _ nul h => { h with appGroup := nul }⟩
  have execPath : Guards AssociateWindowIdPdu.NulInside AssociateWindowIdPdu.execPathMember :=
    ⟨fun _ h => h.appExecPath, fun _ _ nul h => { h with appExecPath := nul }⟩
  have desc : Guards AssociateWindowIdPdu.NulInside AssociateWindowIdPdu.descMember :=
    ⟨fun _ h => h.appDesc, fun _ _ nul h => { h with appDesc := nul }⟩
  refine Careful.readerSafe ?_
  refine (careful_readUINT32 fun _ _ h => { h with }).bind fun _ => ?_
  refine (careful_checkRequiredFlags _ _).bind fun _ => ?_
  refine (careful_readUINT32 fun _ _ h => { h with }).bind fun _ => ?_
  refine (careful_whenFlag _ _ (careful_readSTRING id_ _)).bind fun _ => ?_
  refine (careful_whenFlag _ _ (careful_readSTRING group _)).bind fun _ => ?_
  refine (careful_whenFlag _ _ (careful_readSTRING execPath _)).bind fun _ => ?_
  exact careful_whenFlag _ _ (careful_readSTRING desc _)

/-! ### The icon -/

/-- No block yet. -/
def NoBlock (d : IconState) : Prop := d.icon.iconFileData = none

/-- The size of the file did not wrap, and there is no block yet. -/
structure Sized (d : IconState) : Prop where
  noBlock : NoBlock d
  size : d.icon.iconFileSize.toNat =
    sizeofIconHeader + sizeofBitmapInfoHeader + d.icon.iconBitsLength.toNat

/-- There is a block of the heap with room for the headers and the bits. -/
def HasBlock (d : IconState) : Prop :=
  ∃ block, d.icon.iconFileData = some block ∧ block.id ∈ d.heap.live ∧
    block.bytes.length =
      sizeofIconHeader + sizeofBitmapInfoHeader + d.icon.iconBitsLength.toNat

section Icon

variable {c : Cursor}

/-- `Error_Read` frees a block of the heap, or none. -/
theorem iconErrorRead_rejects {s : ReadState IconState} (owned : NoBlock s.dest ∨ HasBlock s.dest) :
    ∃ s', (iconErrorRead s : EStateM.Result Failure _ α) = .error (.hresult E_FAIL) s' := by
  rcases owned with none_ | ⟨block, here, live, -⟩
  · exact ⟨_, by rw [iconErrorRead, show s.dest.icon.iconFileData = none from none_]⟩
  · have freed : s.dest.heap.free block.id =
        some { s.dest.heap with live := s.dest.heap.live.erase block.id } := if_pos live
    refine
      ⟨{ s with dest := ⟨{}, { s.dest.heap with live := s.dest.heap.live.erase block.id }⟩ }, ?_⟩
    rw [iconErrorRead, here]
    simp only [freed]

theorem orErrorRead_triple {P : ReadState IconState → Prop} {T : IconState → Prop}
    {Q : α → ReadState IconState → Prop} {x : Read IconState α}
    (owned : ∀ d, T d → NoBlock d ∨ HasBlock d) (body : Triple P x Q (LeftEarly T)) :
    Triple P (orErrorRead x) Q (LeftEarly fun _ => True) := by
  intro s pre
  obtain ⟨ok, error⟩ := body s pre
  cases run : x s with
  | ok a s' =>
      have same : orErrorRead x s = .ok a s' := by rw [orErrorRead, run]
      rw [same]
      constructor
      · intro b s'' done
        cases done
        exact ok a s' run
      · intro e s'' failed
        cases failed
  | error e s' =>
      obtain ⟨noViolation, holds⟩ := error e s' run
      cases e with
      | accessViolation => exact absurd rfl noViolation
      | hresult hr =>
          obtain ⟨s'', rejects⟩ := iconErrorRead_rejects (α := α) (owned s'.dest holds)
          have jumps : orErrorRead x s = .error (.hresult E_FAIL) s'' := by
            rw [orErrorRead, run]
            exact rejects
          rw [jumps]
          constructor
          · intro b s''' done
            cases done
          · intro e s''' failed
            cases failed
            exact ⟨hresult_ne _, trivial⟩

theorem careful_readIconWords : Careful NoBlock readIconWords := by
  have word : ∀ (o : UInt32 → IconState → IconState),
      (∀ v d, (o v d).icon.iconFileData = d.icon.iconFileData) → Careful NoBlock (readUINT32 o) :=
    fun o other => careful_readUINT32 fun v d none_ => (other v d).trans none_
  refine Careful.bind (word _ ?_) fun _ => Careful.bind (word _ ?_) fun _ =>
    Careful.bind (word _ ?_) fun _ => Careful.bind (word _ ?_) fun _ =>
      Careful.bind (word _ ?_) fun _ => Careful.bind (word _ ?_) fun _ => word _ ?_
  all_goals
    intro v d
    rfl

theorem addIconFileSize_triple :
    Triple (Within NoBlock c) addIconFileSize (fun _ => Within Sized c)
      (LeftEarly fun _ => True) := by
  intro s within
  constructor
  · intro a s' run
    simp only [addIconFileSize] at run
    split at run
    · rename_i fits
      cases run
      refine ⟨within.1, within.2, ?_⟩
      show (UInt32.ofNat _).toNat = _
      rw [UInt32.toNat_ofNat', Nat.mod_eq_of_lt fits]
    · cases run
  · intro e s' run
    simp only [addIconFileSize] at run
    split at run
    · cases run
    · cases run
      exact ⟨hresult_ne _, trivial⟩

theorem allocIconFile_triple (localAlloc : UInt32 → Bool) :
    Triple (Within Sized c) (allocIconFile localAlloc) (fun _ => Within HasBlock c)
      (LeftEarly fun _ => True) := by
  intro s within
  constructor
  · intro a s' run
    simp only [allocIconFile] at run
    split at run
    · cases run
      refine ⟨within.1, _, rfl, List.mem_cons_self, ?_⟩
      exact List.length_replicate.trans within.2.size
    · cases run
  · intro e s' run
    simp only [allocIconFile] at run
    split at run
    · cases run
    · cases run
      exact ⟨hresult_ne _, trivial⟩

/-- A write inside the block. -/
theorem writeIconFile_triple {off n : Nat} {bs : List BYTE}
    (fits : off + bs.length ≤ sizeofIconHeader + sizeofBitmapInfoHeader + n) :
    Triple (fun s => Within HasBlock c s ∧ n = s.dest.icon.iconBitsLength.toNat)
      (writeIconFile off bs)
      (fun _ s => Within HasBlock c s ∧ n = s.dest.icon.iconBitsLength.toNat)
      (LeftEarly HasBlock) := by
  rintro s ⟨⟨moved, block, here, live, length⟩, rfl⟩
  have inside : off + bs.length ≤ block.bytes.length := length ▸ fits
  have written : writeAt block.bytes off bs =
      some (block.bytes.take off ++ bs ++ block.bytes.drop (off + bs.length)) := if_pos inside
  have run : writeIconFile off bs s = .ok () { s with
      dest := { s.dest with
        icon := { s.dest.icon with iconFileData := some { block with
          bytes := block.bytes.take off ++ bs ++ block.bytes.drop (off + bs.length) } } } } := by
    rw [writeIconFile, here]
    simp only [written]
  rw [run]
  constructor
  · intro a s' done
    cases done
    refine ⟨⟨moved, _, rfl, live, ?_⟩, rfl⟩
    simp only [List.length_append, List.length_take, List.length_drop]
    omega
  · intro e s' failed
    cases failed

theorem readIconBits_triple (start : Exact c) :
    Triple (Within HasBlock c) readIconBits (fun _ => Within HasBlock c) (LeftEarly HasBlock) := by
  intro s within
  have fetched := fetch_triple (T := HasBlock) s.dest.icon.iconBitsLength.toNat start s within
  have run : readIconBits s = (fetch s.dest.icon.iconBitsLength.toNat >>=
    writeIconFile (sizeofIconHeader + sizeofBitmapInfoHeader) : Read IconState Unit) s := rfl
  rw [run]
  constructor
  · intro a s' done
    obtain ⟨bits, mid, first, second⟩ := bind_eq_ok.mp done
    obtain ⟨length, inside⟩ := fetched.1 bits mid first
    have same : mid.dest = s.dest := keepsDest_fetch first
    exact ((writeIconFile_triple (n := s.dest.icon.iconBitsLength.toNat) (by rw [length]) mid
      ⟨inside, by rw [same]⟩).1 a s' second).1
  · intro e s' failed
    rcases bind_eq_error.mp failed with first | ⟨bits, mid, first, second⟩
    · exact fetched.2 e s' first
    · obtain ⟨length, inside⟩ := fetched.1 bits mid first
      have same : mid.dest = s.dest := keepsDest_fetch first
      exact (writeIconFile_triple (n := s.dest.icon.iconBitsLength.toNat) (by rw [length]) mid
        ⟨inside, by rw [same]⟩).2 e s' second

theorem writeIconHeaders_triple :
    Triple (Within HasBlock c) writeIconHeaders (fun _ => Within HasBlock c)
      (LeftEarly HasBlock) := by
  intro s within
  have run : writeIconHeaders s = (writeIconFile 0 s.dest.icon.header.toBytes >>= fun _ =>
    writeIconFile sizeofIconHeader s.dest.icon.bitmapInfo.toBytes : Read IconState Unit) s := rfl
  rw [run]
  have header : 0 + s.dest.icon.header.toBytes.length ≤
      sizeofIconHeader + sizeofBitmapInfoHeader + s.dest.icon.iconBitsLength.toNat := by
    rw [IconHeader.length_toBytes]
    omega
  have bitmapInfo : sizeofIconHeader + s.dest.icon.bitmapInfo.toBytes.length ≤
      sizeofIconHeader + sizeofBitmapInfoHeader + s.dest.icon.iconBitsLength.toNat := by
    rw [BitmapInfoHeader.length_toBytes]
    omega
  obtain ⟨ok, error⟩ := ((writeIconFile_triple header).bind fun _ =>
    writeIconFile_triple bitmapInfo) s ⟨within, rfl⟩
  exact ⟨fun a s' done => (ok a s' done).1, error⟩

end Icon

theorem readerSafe_iconData (localAlloc : UInt32 → Bool) :
    ReaderSafe (fun _ => True) (readAppListIconData localAlloc) := by
  refine Careful.readerSafe ?_
  intro c start
  have cleared : Triple (Within (fun _ => True) c) (assign fun s => { s with icon := {} })
      (fun _ => Within NoBlock c) (LeftEarly fun _ => True) := by
    intro s within
    constructor
    · intro a s' done
      cases done
      exact ⟨within.1, rfl⟩
    · intro e s' failed
      cases failed
  refine cleared.bind fun _ => ?_
  refine (orErrorRead_triple (fun _ => Or.inl) (careful_readIconWords c start)).bind fun _ => ?_
  refine addIconFileSize_triple.bind fun _ => ?_
  refine (allocIconFile_triple localAlloc).bind fun _ => ?_
  refine (orErrorRead_triple (fun _ => Or.inr) (readIconBits_triple start)).bind fun _ => ?_
  refine (writeIconHeaders_triple.weaken_exit fun _ _ h => ⟨h.1, trivial⟩).weaken (fun _ => id) ?_
  exact fun _ _ h => ⟨h.1, trivial⟩

end Wslg.Client
