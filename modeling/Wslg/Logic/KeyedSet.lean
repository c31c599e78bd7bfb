/-
Ordered sets whose comparator looks at a key only.

Two elements with one key compare equal, so a set holds at most one of them and an
insertion under a key that is there changes nothing. Looking an element up takes any
element with its key (`probe`); what is found under a key, as a function of the key, is
the finite map that the set stands for.
-/

import Mathlib.Data.List.Nodup
import Mathlib.Data.Set.Finite.List
import Std.Data.TreeSet.Lemmas

namespace Wslg

/-- Sets of `α` ordered by a key. -/
abbrev KeyedSet {α κ : Type} [Ord κ] (key : α → κ) := Std.TreeSet α (compareOn key)

namespace KeyedSet

variable {α κ : Type} [Ord κ] {key : α → κ} {probe : κ → α}

/-- `insert` with its answer: the element that is there under the key then, and whether
it is the new one. -/
def insertNew (s : KeyedSet key) (a : α) : (α × Bool) × KeyedSet key :=
  match s.get? a with
  | some present => ((present, false), s)
  | none => ((a, true), s.insert a)

/-- What the set holds under a key, `probe` making an element with that key. -/
def find (probe : κ → α) (s : KeyedSet key) (k : κ) : Option α := s.get? (probe k)

section Map

variable [Std.LawfulEqOrd κ] {s : KeyedSet key} {a : α} {k : κ}

theorem compareOn_eq_iff {a b : α} : compareOn key a b = .eq ↔ key a = key b :=
  Std.LawfulEqOrd.compare_eq_iff_eq

variable [Std.TransOrd κ]

/-- One element a key. -/
theorem nodup_keys (s : KeyedSet key) : (s.toList.map key).Nodup := by
  rw [List.nodup_iff_pairwise_ne, List.pairwise_map]
  exact Std.TreeSet.distinct_toList.imp fun apart same => apart (compareOn_eq_iff.mpr same)

variable (probes : ∀ k, key (probe k) = k)

include probes

/-- Any element with the key finds what the probe finds. -/
theorem get?_eq_find (s : KeyedSet key) (a : α) : s.get? a = find probe s (key a) :=
  Std.TreeSet.get?_congr (compareOn_eq_iff.mpr (probes _).symm)

theorem key_of_find (found : find probe s k = some a) : key a = k := by
  have same := @Std.TreeSet.compare_getKey?_self _ _ s _ (probe k)
  rw [show s.get? (probe k) = some a from found] at same
  exact (compareOn_eq_iff.mp (of_decide_eq_true same)).trans (probes k)

theorem mem_iff_find : a ∈ s ↔ find probe s (key a) ≠ none := by
  rw [Std.TreeSet.mem_iff_isSome_get?, get?_eq_find probes, Option.isSome_iff_ne_none]

/-- An insertion under a key that is there. -/
theorem insertNew_of_find {present : α} (found : find probe s (key a) = some present) :
    s.insertNew a = ((present, false), s) := by
  rw [insertNew, get?_eq_find probes, found]

/-- An insertion under a key that is not. -/
theorem insertNew_of_absent (absent : find probe s (key a) = none) :
    s.insertNew a = ((a, true), s.insert a) := by
  rw [insertNew, get?_eq_find probes, absent]

/-- The set stands for a finite map. -/
theorem finite_find (s : KeyedSet key) : {k | find probe s k ≠ none}.Finite := by
  apply (List.finite_toSet (s.toList.map key)).subset
  intro k held
  -- the set's own notion of equality, by which the list contains the probe
  let _ : BEq α := ⟨fun a b => compareOn key a b == .eq⟩
  have beq_iff {a b : α} : a == b ↔ compareOn key a b = .eq :=
    show (compareOn key a b == Ordering.eq) = true ↔ _ from beq_iff_eq
  have _ : Std.LawfulBEqCmp (compareOn key) := ⟨beq_iff.symm⟩
  have mem : probe k ∈ s := (mem_iff_find probes).mpr (by rw [probes]; exact held)
  have listed : s.toList.contains (probe k) := by
    rw [Std.TreeSet.contains_toList]
    exact mem
  obtain ⟨a, inList, same⟩ := List.contains_iff_exists_mem_beq.mp listed
  exact List.mem_map.mpr
    ⟨a, inList, (compareOn_eq_iff.mp (beq_iff.mp same)).symm.trans (probes k)⟩

variable [DecidableEq κ]

theorem find_insert (absent : find probe s (key a) = none) (k : κ) :
    find probe (s.insert a) k = if k = key a then some a else find probe s k := by
  have notMem : a ∉ s := fun mem => (mem_iff_find probes).mp mem absent
  simp only [find, Std.TreeSet.get?_insert, compareOn_eq_iff, probes, notMem,
    not_false_eq_true, and_true, @eq_comm _ (key a)]

theorem find_erase (k : κ) :
    find probe (s.erase a) k = if k = key a then none else find probe s k := by
  simp only [find, Std.TreeSet.get?_erase, compareOn_eq_iff, probes, @eq_comm _ (key a)]

end Map

end KeyedSet

end Wslg
