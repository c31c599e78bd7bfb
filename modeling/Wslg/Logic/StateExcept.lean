/-
Programs that read and write a state and may leave early with an error.

Such a program is core's `EStateM ε σ α`: it ends in a result and a state, and
an early exit keeps every write made before it, as a C function that returns in
the middle does. Three things are said about one here, for any state and error.

* Inversion: how a sequence can have ended (`bind_eq_ok`, `bind_eq_error`). A
  proof about one run peels a sequence apart with these and never unfolds the
  monad.
* Guarantees: `Guarantees R x` says that every run of `x`, early exits included,
  ends in a state that `R` relates to the one it started in. For a preorder `R`
  guarantees compose along a sequence (`Guarantees.bind`), so a frame condition
  of a long function is assembled from those of the calls it makes.
* Triples: `Triple P x Q E` says how a run of `x` from a state with `P` can end,
  with `Q` where it succeeds and with `E` where it leaves early.
* Embeddings: `Alike G f In x` says that `x` cannot tell a state from its image under
  `f` as long as it ends inside `In`, so that a reader behaves on a longer input as on
  the part of it that it reads.
-/

import Mathlib.Order.Defs.Unbundled

namespace Wslg.StateExcept

variable {ε σ α β : Type}

/-! ### Inversion -/

/-- The state a run ends in, whichever way it ends. -/
def final : EStateM.Result ε σ α → σ
  | .ok _ s => s
  | .error _ s => s

@[simp] theorem final_ok (a : α) (s : σ) : final (.ok a s : EStateM.Result ε σ α) = s := rfl

@[simp] theorem final_error (e : ε) (s : σ) : final (.error e s : EStateM.Result ε σ α) = s := rfl

/-- A run that did not leave early. -/
def isOk : EStateM.Result ε σ α → Bool
  | .ok _ _ => true
  | .error _ _ => false

theorem exists_of_isOk {r : EStateM.Result ε σ α} (h : isOk r = true) : ∃ a s, r = .ok a s := by
  cases r with
  | ok a s => exact ⟨a, s, rfl⟩
  | error e s => cases h

theorem get_apply (s : σ) : (get : EStateM ε σ σ) s = .ok s s := rfl

/-- A sequence runs its second part from where the first one succeeded. -/
theorem bind_of_ok {x : EStateM ε σ α} {f : α → EStateM ε σ β} {s s' : σ} {a : α}
    (h : x s = .ok a s') : (x >>= f) s = f a s' := by
  show EStateM.bind x f s = f a s'
  simp only [EStateM.bind, h]

/-- A sequence ends where its first part leaves early. -/
theorem bind_of_error {x : EStateM ε σ α} {f : α → EStateM ε σ β} {s s' : σ} {e : ε}
    (h : x s = .error e s') : (x >>= f) s = .error e s' := by
  show EStateM.bind x f s = .error e s'
  simp only [EStateM.bind, h]

theorem bind_eq_ok {x : EStateM ε σ α} {f : α → EStateM ε σ β} {s s'' : σ} {b : β} :
    (x >>= f) s = .ok b s'' ↔ ∃ a s', x s = .ok a s' ∧ f a s' = .ok b s'' := by
  constructor
  · intro h
    cases hx : x s with
    | ok a s' => exact ⟨a, s', rfl, (bind_of_ok hx).symm.trans h⟩
    | error e s' => cases (bind_of_error hx).symm.trans h
  · rintro ⟨a, s', hx, hf⟩
    rw [bind_of_ok hx, hf]

theorem bind_eq_error {x : EStateM ε σ α} {f : α → EStateM ε σ β} {s s'' : σ} {e : ε} :
    (x >>= f) s = .error e s'' ↔
      x s = .error e s'' ∨ ∃ a s', x s = .ok a s' ∧ f a s' = .error e s'' := by
  constructor
  · intro h
    cases hx : x s with
    | ok a s' => exact Or.inr ⟨a, s', rfl, (bind_of_ok hx).symm.trans h⟩
    | error e' s' => cases (bind_of_error hx).symm.trans h; exact Or.inl rfl
  · rintro (hx | ⟨a, s', hx, hf⟩)
    · exact bind_of_error hx
    · rw [bind_of_ok hx, hf]

/-- How a sequence runs depends on its first part only through the run of it. -/
theorem bind_congr_left {x y : EStateM ε σ α} {f : α → EStateM ε σ β} {s : σ}
    (same : x s = y s) : (x >>= f) s = (y >>= f) s := by
  cases run : y s with
  | ok a s' => rw [bind_of_ok run, bind_of_ok (same.trans run)]
  | error e s' => rw [bind_of_error run, bind_of_error (same.trans run)]

/-! ### Guarantees -/

/-- Every run of `x` ends in a state that `R` relates to its start. -/
def Guarantees (R : σ → σ → Prop) (x : EStateM ε σ α) : Prop :=
  ∀ s, R s (final (x s))

variable {R R' : σ → σ → Prop}

theorem Guarantees.of_ok {x : EStateM ε σ α} (hx : Guarantees R x) {s s' : σ} {a : α}
    (h : x s = .ok a s') : R s s' := by
  simpa [h] using hx s

theorem Guarantees.of_error {x : EStateM ε σ α} (hx : Guarantees R x) {s s' : σ} {e : ε}
    (h : x s = .error e s') : R s s' := by
  simpa [h] using hx s

theorem Guarantees.weaken {x : EStateM ε σ α} (hx : Guarantees R x)
    (sub : ∀ s s', R s s' → R' s s') : Guarantees R' x :=
  fun s => sub _ _ (hx s)

theorem Guarantees.pure [Std.Refl R] (a : α) :
    Guarantees R (Pure.pure a : EStateM ε σ α) :=
  fun s => Std.Refl.refl s

theorem Guarantees.throw [Std.Refl R] (e : ε) :
    Guarantees R (MonadExcept.throw e : EStateM ε σ α) :=
  fun s => Std.Refl.refl s

theorem Guarantees.get [Std.Refl R] : Guarantees R (MonadState.get : EStateM ε σ σ) :=
  fun s => Std.Refl.refl s

theorem Guarantees.bind [IsTrans σ R] {x : EStateM ε σ α} {f : α → EStateM ε σ β}
    (hx : Guarantees R x) (hf : ∀ a, Guarantees R (f a)) : Guarantees R (x >>= f) := by
  intro s
  cases h : x s with
  | ok a s' =>
      rw [bind_of_ok h]
      exact IsTrans.trans _ _ _ (hx.of_ok h) (hf a s')
  | error e s' =>
      rw [bind_of_error h]
      exact hx.of_error h

theorem Guarantees.ite {p : Prop} [Decidable p] {x y : EStateM ε σ α}
    (hx : Guarantees R x) (hy : Guarantees R y) : Guarantees R (if p then x else y) := by
  split
  · exact hx
  · exact hy

/-- What a program gives may be dropped. -/
theorem Guarantees.discard {x : EStateM ε σ α} (hx : Guarantees R x) :
    Guarantees R (Functor.discard x) := by
  intro s
  show R s (final (EStateM.map (Function.const α PUnit.unit) x s))
  unfold EStateM.map
  cases run : x s with
  | ok a s' => exact hx.of_ok run
  | error e s' => exact hx.of_error run

theorem Guarantees.forM [Std.Refl R] [IsTrans σ R] {xs : List α} {f : α → EStateM ε σ PUnit}
    (hf : ∀ x ∈ xs, Guarantees R (f x)) : Guarantees R (xs.forM f) := by
  induction xs with
  | nil => exact .pure _
  | cons x xs ih =>
      exact (hf x List.mem_cons_self).bind fun _ =>
        ih fun y mem => hf y (List.mem_cons_of_mem _ mem)

/-- What each turn of a loop keeps, and one of them brings about, holds behind the loop. -/
theorem holds_of_forM {I : σ → Prop} {xs : List α} {f : α → EStateM ε σ PUnit} {s s' : σ}
    {u : PUnit} (keeps : ∀ x ∈ xs, ∀ s u s', f x s = .ok u s' → I s → I s')
    (run : xs.forM f s = .ok u s') (start : I s ∨ ∃ x ∈ xs, ∀ s u s', f x s = .ok u s' → I s') :
    I s' := by
  induction xs generalizing s with
  | nil =>
      cases run
      exact start.resolve_right nofun
  | cons x xs ih =>
      obtain ⟨_, s₁, first, others⟩ := bind_eq_ok.mp run
      refine ih (fun y mem => keeps y (List.mem_cons_of_mem _ mem)) others ?_
      rcases start with holds | ⟨y, mem, sets⟩
      · exact Or.inl (keeps x List.mem_cons_self s _ s₁ first holds)
      · rcases List.mem_cons.mp mem with rfl | later
        · exact Or.inl (sets s _ s₁ first)
        · exact Or.inr ⟨y, later, sets⟩

/-! ### Triples -/

/-- From a state with `P` a run of `x` succeeds in `Q`, or leaves early in `E`. -/
def Triple (P : σ → Prop) (x : EStateM ε σ α) (Q : α → σ → Prop) (E : ε → σ → Prop) : Prop :=
  ∀ s, P s → (∀ a s', x s = .ok a s' → Q a s') ∧ ∀ e s', x s = .error e s' → E e s'

namespace Triple

variable {P P' : σ → Prop} {Q Q' : α → σ → Prop} {E : ε → σ → Prop}

theorem pure {a : α} (post : ∀ s, P s → Q a s) :
    Triple P (Pure.pure a : EStateM ε σ α) Q E := by
  intro s pre
  constructor
  · rintro a s' run
    cases run
    exact post s pre
  · rintro e s' run
    cases run

theorem throw {e : ε} (exit : ∀ s, P s → E e s) :
    Triple P (MonadExcept.throw e : EStateM ε σ α) Q E := by
  intro s pre
  constructor
  · rintro a s' run
    cases run
  · rintro e' s' run
    cases run
    exact exit s pre

theorem bind {x : EStateM ε σ α} {f : α → EStateM ε σ β} {R : β → σ → Prop}
    (hx : Triple P x Q E) (hf : ∀ a, Triple (Q a) (f a) R E) : Triple P (x >>= f) R E := by
  intro s pre
  obtain ⟨ok, error⟩ := hx s pre
  constructor
  · intro b s'' run
    obtain ⟨a, s', first, second⟩ := bind_eq_ok.mp run
    exact (hf a s' (ok a s' first)).1 b s'' second
  · intro e s'' run
    rcases bind_eq_error.mp run with first | ⟨a, s', first, second⟩
    · exact error e s'' first
    · exact (hf a s' (ok a s' first)).2 e s'' second

theorem ite {p : Prop} [Decidable p] {x y : EStateM ε σ α} (hx : p → Triple P x Q E)
    (hy : ¬ p → Triple P y Q E) : Triple P (if p then x else y) Q E := by
  by_cases h : p
  · rw [if_pos h]
    exact hx h
  · rw [if_neg h]
    exact hy h

theorem weaken {x : EStateM ε σ α} (hx : Triple P x Q E) (pre : ∀ s, P' s → P s)
    (post : ∀ a s, Q a s → Q' a s) : Triple P' x Q' E := by
  intro s start
  obtain ⟨ok, error⟩ := hx s (pre s start)
  exact ⟨fun a s' run => post a s' (ok a s' run), error⟩

/-- The second parts of two sequences need to agree where the first part can end. -/
theorem bind_congr {x : EStateM ε σ α} {f g : α → EStateM ε σ β} (hx : Triple P x Q E)
    (same : ∀ a s, Q a s → f a s = g a s) {s : σ} (pre : P s) : (x >>= f) s = (x >>= g) s := by
  cases run : x s with
  | ok a s' => rw [bind_of_ok run, bind_of_ok run, same a s' ((hx s pre).1 a s' run)]
  | error e s' => rw [bind_of_error run, bind_of_error run]

theorem weaken_exit {x : EStateM ε σ α} {E' : ε → σ → Prop} (hx : Triple P x Q E)
    (exit : ∀ e s, E e s → E' e s) : Triple P x Q E' := by
  intro s start
  obtain ⟨ok, error⟩ := hx s start
  exact ⟨ok, fun e s' run => exit e s' (error e s' run)⟩

end Triple

/-! ### Embeddings -/

/-- A step that `G` allows does not enter `In`. -/
class NotEntered (G : σ → σ → Prop) (In : σ → Prop) : Prop where
  inside : ∀ {s s'}, G s s' → In s' → In s

/-- `x` moves as `G` allows, and it succeeds from the image of a state as it does from the
state, and only so while it ends inside `In`. -/
structure Alike (G : σ → σ → Prop) (f : σ → σ) (In : σ → Prop) (x : EStateM ε σ α) :
    Prop where
  moves : ∀ {s a s'}, x s = .ok a s' → G s s'
  into : ∀ {s a s'}, x s = .ok a s' → x (f s) = .ok a (f s')
  back : ∀ {s a s'}, x (f s) = .ok a s' → In s' → ∃ t, x s = .ok a t ∧ s' = f t

namespace Alike

variable {G : σ → σ → Prop} {f : σ → σ} {In : σ → Prop}

theorem pure [Std.Refl G] (a : α) : Alike G f In (Pure.pure a : EStateM ε σ α) where
  moves {s _ _} run := by cases run; exact Std.Refl.refl s
  into run := by cases run; rfl
  back {s _ _} run _ := by cases run; exact ⟨s, rfl, rfl⟩

theorem throw (e : ε) : Alike G f In (MonadExcept.throw e : EStateM ε σ α) where
  moves run := by cases run
  into run := by cases run
  back run := by cases run

theorem bind [IsTrans σ G] [NotEntered G In] {x : EStateM ε σ α} {g : α → EStateM ε σ β}
    (hx : Alike G f In x) (hg : ∀ a, Alike G f In (g a)) : Alike G f In (x >>= g) where
  moves run := by
    obtain ⟨a, s', first, second⟩ := bind_eq_ok.mp run
    exact IsTrans.trans _ _ _ (hx.moves first) ((hg a).moves second)
  into run := by
    obtain ⟨a, s', first, second⟩ := bind_eq_ok.mp run
    exact bind_eq_ok.mpr ⟨a, f s', hx.into first, (hg a).into second⟩
  back run inside := by
    obtain ⟨a, s', first, second⟩ := bind_eq_ok.mp run
    obtain ⟨t, runs, rfl⟩ := hx.back first (NotEntered.inside ((hg a).moves second) inside)
    obtain ⟨t', runs', same⟩ := (hg a).back second inside
    exact ⟨t', bind_eq_ok.mpr ⟨a, t, runs, runs'⟩, same⟩

theorem ite {p : Prop} [Decidable p] {x y : EStateM ε σ α} (hx : Alike G f In x)
    (hy : Alike G f In y) : Alike G f In (if p then x else y) := by
  split
  · exact hx
  · exact hy

/-- Which runs of `x` succeed is all that counts. -/
theorem of_ok_iff {x y : EStateM ε σ α} (hx : Alike G f In x)
    (same : ∀ {s a s'}, y s = .ok a s' ↔ x s = .ok a s') : Alike G f In y where
  moves run := hx.moves (same.mp run)
  into run := same.mpr (hx.into (same.mp run))
  back run inside := by
    obtain ⟨t, runs, rfl⟩ := hx.back (same.mp run) inside
    exact ⟨t, same.mpr runs, rfl⟩

/-- What follows a look at the state must not look at what `f` changes. -/
theorem get_bind {g : σ → EStateM ε σ β} (same : ∀ s, g (f s) = g s)
    (hg : ∀ s, Alike G f In (g s)) : Alike G f In (MonadState.get >>= g) where
  moves {s _ _} run := by
    rw [bind_of_ok (get_apply _)] at run
    exact (hg s).moves run
  into {s _ _} run := by
    rw [bind_of_ok (get_apply _)] at run ⊢
    rw [same]
    exact (hg s).into run
  back {s _ _} run inside := by
    rw [bind_of_ok (get_apply _)] at run ⊢
    rw [same] at run
    exact (hg s).back run inside

end Alike

end Wslg.StateExcept
