/-
A store that keeps its entries under keys made of names.

What is meant is a register: a list of names with their entries, at most one a name.
What is there is a store, told by what it gives for a key. `Image` says that the store
holds what the register holds, each entry under the key of its name. Putting an entry
under a name keeps that, as long as the store keeps an entry it has. Taking a name out
keeps it if no other registered name has the same key: keys need not be apart in
general, only there.
-/

import Mathlib.Data.List.Basic

namespace Wslg.KeyedStore

variable {N K E : Type} {key : N → K} {reg : List (N × E)} {store store' : K → Option E}
  {n : N} {e : E}

/-- The store holds the register. -/
def Image (key : N → K) (reg : List (N × E)) (store : K → Option E) : Prop :=
  ∀ k e, store k = some e ↔ ∃ n, (n, e) ∈ reg ∧ key n = k

theorem Image.holds (image : Image key reg store) (mem : (n, e) ∈ reg) :
    store (key n) = some e :=
  (image _ _).mpr ⟨n, mem, rfl⟩

variable [DecidableEq N]

/-- The register without a name. -/
def drop (n : N) (reg : List (N × E)) : List (N × E) := reg.filter (·.1 ≠ n)

/-- The register with an entry for a name. -/
def put (n : N) (e : E) (reg : List (N × E)) : List (N × E) := (n, e) :: drop n reg

@[simp] theorem mem_drop {n' : N} {e' : E} : (n', e') ∈ drop n reg ↔ (n', e') ∈ reg ∧ n' ≠ n := by
  simp [drop]

@[simp] theorem mem_put {n' : N} {e' : E} :
    (n', e') ∈ put n e reg ↔ (n' = n ∧ e' = e) ∨ ((n', e') ∈ reg ∧ n' ≠ n) := by
  simp [put]

/-- An entry for a key that was free. -/
theorem Image.put_new [DecidableEq K] (image : Image key reg store)
    (free : store (key n) = none)
    (after : ∀ k, store' k = if k = key n then some e else store k) :
    Image key (put n e reg) store' := by
  intro k e'
  rw [after]
  -- no name with this key was registered
  have unused : ∀ n' e', (n', e') ∈ reg → key n' ≠ key n := by
    intro n' e' mem same
    have held := image.holds mem
    rw [same, free] at held
    cases held
  by_cases here : k = key n
  · rw [if_pos here]
    constructor
    · intro held
      cases held
      exact ⟨n, mem_put.mpr (Or.inl ⟨rfl, rfl⟩), here.symm⟩
    · rintro ⟨n', mem, same⟩
      rcases mem_put.mp mem with ⟨-, rfl⟩ | ⟨old, -⟩
      · rfl
      · exact absurd (same.trans here) (unused n' e' old)
  · rw [if_neg here, image k e']
    constructor
    · rintro ⟨n', mem, rfl⟩
      refine ⟨n', mem_put.mpr (Or.inr ⟨mem, ?_⟩), rfl⟩
      rintro rfl
      exact here rfl
    · rintro ⟨n', mem, rfl⟩
      rcases mem_put.mp mem with ⟨rfl, -⟩ | ⟨old, -⟩
      · exact absurd rfl here
      · exact ⟨n', old, rfl⟩

/-- An entry the store has under the key already. -/
theorem Image.put_same (image : Image key reg store) (held : store (key n) = some e) :
    Image key (put n e reg) store := by
  intro k e'
  rw [image k e']
  constructor
  · rintro ⟨n', mem, rfl⟩
    by_cases same : n' = n
    · subst same
      have one := (image.holds mem).symm.trans held
      exact ⟨n', mem_put.mpr (Or.inl ⟨rfl, Option.some.inj one⟩), rfl⟩
    · exact ⟨n', mem_put.mpr (Or.inr ⟨mem, same⟩), rfl⟩
  · rintro ⟨n', mem, rfl⟩
    rcases mem_put.mp mem with ⟨rfl, rfl⟩ | ⟨old, -⟩
    · exact (image _ _).mp held
    · exact ⟨n', old, rfl⟩

/-- A name whose key no other registered name has. -/
theorem Image.drop [DecidableEq K] (image : Image key reg store)
    (apart : ∀ n' e', (n', e') ∈ reg → n' ≠ n → key n' ≠ key n)
    (after : ∀ k, store' k = if k = key n then none else store k) :
    Image key (drop n reg) store' := by
  intro k e
  rw [after]
  by_cases here : k = key n
  · rw [if_pos here]
    constructor
    · intro held
      cases held
    · rintro ⟨n', mem, same⟩
      obtain ⟨old, other⟩ := mem_drop.mp mem
      exact absurd (same.trans here) (apart n' e old other)
  · rw [if_neg here, image k e]
    constructor
    · rintro ⟨n', mem, rfl⟩
      refine ⟨n', mem_drop.mpr ⟨mem, ?_⟩, rfl⟩
      rintro rfl
      exact here rfl
    · rintro ⟨n', mem, rfl⟩
      exact ⟨n', (mem_drop.mp mem).1, rfl⟩

end Wslg.KeyedStore
