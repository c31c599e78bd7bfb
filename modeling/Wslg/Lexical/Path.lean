/-
Paths as strings, resolved without looking at a file system.

A path syntax is an alphabet with separators and a dot. A path is split at its
separators; resolving it drops empty and `.` components and lets `..` take back
the component before it. `Inside` and `StrictlyInside` compare resolved paths,
and `SameName` is the coarser equality of a file system that folds characters.

The results are about joining: a string appended after a separator either
resolves below the path it is appended to or, when it names nothing, to that
path itself (`strictlyInside_join_iff`). The only way out is a `..` component,
and a string without two dots in a row has none (`no_up_of_no_dots`).
-/

import Mathlib.Data.List.Infix

namespace Wslg.Lexical

/-- An alphabet with path separators and a dot that is not one of them. -/
structure PathSyntax (α : Type) where
  sep : α → Bool
  dot : α
  dot_not_sep : sep dot = false

variable {α : Type} (S : PathSyntax α)

/-- The pieces of a path between separators, empty ones included. -/
def components (p : List α) : List (List α) := p.splitOnP S.sep

/-- A component that names something: neither empty nor `.`. -/
def Named (c : List α) : Prop := c ≠ [] ∧ c ≠ [S.dot]

section Resolve

variable [DecidableEq α]

instance (c : List α) : Decidable (Named S c) := by unfold Named; infer_instance

/-- One component against the components resolved so far. -/
def descend (stack : List (List α)) (c : List α) : List (List α) :=
  if ¬ Named S c then stack
  else if c = [S.dot, S.dot] then stack.dropLast
  else stack ++ [c]

/-- The components a path comes down to. -/
def resolve (p : List α) : List (List α) := (components S p).foldl (descend S) []

/-- `p` is `base` or lies somewhere below it. -/
def Inside (base p : List α) : Prop := resolve S base <+: resolve S p

/-- `p` lies below `base` and is not `base` itself. -/
def StrictlyInside (base p : List α) : Prop :=
  ∃ below, below ≠ [] ∧ resolve S p = resolve S base ++ below

instance (base p : List α) : Decidable (Inside S base p) := by unfold Inside; infer_instance

theorem strictlyInside_iff {base p : List α} :
    StrictlyInside S base p ↔ Inside S base p ∧ resolve S p ≠ resolve S base := by
  constructor
  · rintro ⟨below, nonempty, eq⟩
    refine ⟨⟨below, eq.symm⟩, fun same => nonempty ?_⟩
    rw [eq] at same
    exact List.append_right_eq_self.mp same
  · rintro ⟨⟨below, eq⟩, other⟩
    refine ⟨below, fun none_ => other ?_, eq.symm⟩
    rw [← eq, none_, List.append_nil]

instance (base p : List α) : Decidable (StrictlyInside S base p) :=
  decidable_of_iff _ (strictlyInside_iff S).symm

end Resolve

variable {S}

/-! ### Components -/

theorem components_append_sep (p q : List α) {s : α} (hs : S.sep s = true) :
    components S (p ++ s :: q) = components S p ++ components S q :=
  List.splitOnP_append_cons p q hs

theorem components_of_no_sep {p : List α} (h : ∀ c ∈ p, S.sep c = false) :
    components S p = [p] :=
  List.splitOnP_eq_singleton h

theorem components_cons (x : α) (xs : List α) :
    components S (x :: xs) =
      if S.sep x then [] :: components S xs else (components S xs).modifyHead (List.cons x) :=
  List.splitOnP_cons_eq_if_modifyHead x xs

/-- Text without separators only lengthens the last component. -/
theorem components_append_of_no_sep (p : List α) {t : List α} (h : ∀ c ∈ t, S.sep c = false) :
    ∃ front last, components S p = front ++ [last] ∧
      components S (p ++ t) = front ++ [last ++ t] := by
  induction p with
  | nil => exact ⟨[], [], rfl, by simpa using components_of_no_sep h⟩
  | cons x xs ih =>
      obtain ⟨front, last, hp, hpt⟩ := ih
      rw [components_cons, List.cons_append, components_cons, hp, hpt]
      cases S.sep x with
      | true => exact ⟨[] :: front, last, rfl, rfl⟩
      | false =>
          cases front with
          | nil => exact ⟨[], x :: last, rfl, rfl⟩
          | cons c front => exact ⟨(x :: c) :: front, last, rfl, rfl⟩

/-- The first component is a prefix of the path and the others are stretches of
it. -/
theorem components_shape (p : List α) :
    ∃ first rest, components S p = first :: rest ∧ first <+: p ∧ ∀ c ∈ rest, c <:+: p := by
  induction p with
  | nil => exact ⟨[], [], rfl, List.prefix_rfl, by simp⟩
  | cons x xs ih =>
      obtain ⟨first, rest, hxs, hfirst, hrest⟩ := ih
      rw [components_cons, hxs]
      cases S.sep x with
      | true =>
          refine ⟨[], first :: rest, rfl, List.nil_prefix, fun c hc => ?_⟩
          rcases List.mem_cons.mp hc with rfl | tail
          · exact List.infix_cons hfirst.isInfix
          · exact List.infix_cons (hrest c tail)
      | false =>
          exact ⟨x :: first, rest, rfl, List.cons_prefix_cons.mpr ⟨rfl, hfirst⟩,
            fun c hc => List.infix_cons (hrest c hc)⟩

/-- Each component is a stretch of the path. -/
theorem infix_of_mem_components {p c : List α} (h : c ∈ components S p) : c <:+: p := by
  obtain ⟨first, rest, hp, hfirst, hrest⟩ := components_shape (S := S) p
  rw [hp] at h
  rcases List.mem_cons.mp h with rfl | tail
  · exact hfirst.isInfix
  · exact hrest c tail

/-- A string without two dots in a row has no `..` component. -/
theorem no_up_of_no_dots {p : List α} (h : ¬ [S.dot, S.dot] <:+: p) :
    ∀ c ∈ components S p, c ≠ [S.dot, S.dot] := by
  intro c hc up
  exact h (up ▸ infix_of_mem_components hc)

/-! ### Resolving a joined path -/

section Join

variable [DecidableEq α]

theorem resolve_append_sep (p q : List α) {s : α} (hs : S.sep s = true) :
    resolve S (p ++ s :: q) = (components S q).foldl (descend S) (resolve S p) := by
  simp only [resolve, components_append_sep p q hs, List.foldl_append]

/-- Components that never go up only add the named ones to what is there. -/
theorem foldl_descend_of_no_up {cs : List (List α)} (h : ∀ c ∈ cs, c ≠ [S.dot, S.dot])
    (stack : List (List α)) :
    cs.foldl (descend S) stack = stack ++ cs.filter (fun c => decide (Named S c)) := by
  induction cs generalizing stack with
  | nil => simp
  | cons c cs ih =>
      have step : descend S stack c = stack ++ if Named S c then [c] else [] := by
        by_cases named : Named S c
        · simp [descend, named, h c List.mem_cons_self]
        · simp [descend, named]
      rw [List.foldl_cons, ih (fun d hd => h d (List.mem_cons_of_mem c hd)), step]
      by_cases named : Named S c <;> simp [named]

/-- Joining a string without `..` components appends its named components. -/
theorem resolve_join {p q : List α} {s : α} (hs : S.sep s = true)
    (h : ∀ c ∈ components S q, c ≠ [S.dot, S.dot]) :
    resolve S (p ++ s :: q) =
      resolve S p ++ (components S q).filter (fun c => decide (Named S c)) := by
  rw [resolve_append_sep p q hs, foldl_descend_of_no_up h]

/-- A joined string without `..` components never leaves what it is joined to. -/
theorem inside_join {p q : List α} {s : α} (hs : S.sep s = true)
    (h : ∀ c ∈ components S q, c ≠ [S.dot, S.dot]) : Inside S p (p ++ s :: q) := by
  rw [Inside, resolve_join hs h]
  exact List.prefix_append ..

/-- It goes below it exactly when it names something. -/
theorem strictlyInside_join_iff {p q : List α} {s : α} (hs : S.sep s = true)
    (h : ∀ c ∈ components S q, c ≠ [S.dot, S.dot]) :
    StrictlyInside S p (p ++ s :: q) ↔ ∃ c ∈ components S q, Named S c := by
  unfold StrictlyInside
  rw [resolve_join hs h]
  constructor
  · rintro ⟨below, nonempty, eq⟩
    rw [← List.append_cancel_left eq] at nonempty
    obtain ⟨c, hc⟩ := List.exists_mem_of_ne_nil _ nonempty
    exact ⟨c, (List.mem_filter.mp hc).1, by simpa using (List.mem_filter.mp hc).2⟩
  · rintro ⟨c, hc, named⟩
    exact ⟨_, List.ne_nil_of_mem (List.mem_filter.mpr ⟨hc, decide_eq_true named⟩), rfl⟩

/-- A file name with an extension of more than two characters names something, so
joining it always goes below. -/
theorem strictlyInside_join_extension {p q t : List α} {s : α} (hs : S.sep s = true)
    (h : ∀ c ∈ components S q, c ≠ [S.dot, S.dot]) (plain : ∀ c ∈ t, S.sep c = false)
    (long : 2 < t.length) : StrictlyInside S p (p ++ s :: (q ++ t)) := by
  obtain ⟨front, last, hq, hqt⟩ := components_append_of_no_sep (S := S) q plain
  have length_last : 2 < (last ++ t).length := by
    rw [List.length_append]
    omega
  have noUp : ∀ c ∈ components S (q ++ t), c ≠ [S.dot, S.dot] := by
    intro c hc
    rw [hqt] at hc
    rcases List.mem_append.mp hc with inFront | isLast
    · exact h c (hq ▸ List.mem_append_left _ inFront)
    · rw [List.mem_singleton.mp isLast]
      intro up
      rw [up] at length_last
      exact absurd length_last (by simp)
  refine (strictlyInside_join_iff hs noUp).mpr ⟨last ++ t, ?_, ?_, ?_⟩
  · rw [hqt]
    exact List.mem_append_right _ List.mem_cons_self
  · exact List.ne_nil_of_length_pos (by omega)
  · intro one
    rw [one] at length_last
    exact absurd length_last (by simp)

/-- A path strictly inside another is inside it. -/
theorem StrictlyInside.inside {base p : List α} (h : StrictlyInside S base p) :
    Inside S base p := by
  obtain ⟨below, -, eq⟩ := h
  exact ⟨below, eq.symm⟩

theorem Inside.trans_strictly {p q r : List α} (hpq : Inside S p q)
    (hqr : StrictlyInside S q r) : StrictlyInside S p r := by
  obtain ⟨front, eq⟩ := hpq
  obtain ⟨below, nonempty, eq'⟩ := hqr
  exact ⟨front ++ below, List.append_ne_nil_of_right_ne_nil _ nonempty,
    by rw [eq', ← eq, List.append_assoc]⟩

theorem Inside.refl (p : List α) : Inside S p p := List.prefix_rfl

theorem Inside.trans {p q r : List α} (hpq : Inside S p q) (hqr : Inside S q r) :
    Inside S p r :=
  List.IsPrefix.trans hpq hqr

end Join

/-! ### Names of one file -/

section SameName

variable [DecidableEq α]

/-- The named components with their characters folded: what a file system that
ignores case, repeated separators and `.` components goes by. -/
def canonical (S : PathSyntax α) (fold : α → α) (p : List α) : List (List α) :=
  ((components S p).filter (fun c => decide (Named S c))).map (List.map fold)

/-- Two spellings of one name. -/
def SameName (S : PathSyntax α) (fold : α → α) (p q : List α) : Prop :=
  canonical S fold p = canonical S fold q

instance (fold : α → α) (p q : List α) : Decidable (SameName S fold p q) := by
  unfold SameName; infer_instance

end SameName

end Wslg.Lexical
