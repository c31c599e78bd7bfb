/-
Command lines, split into arguments the Windows way.

An argument syntax is an alphabet with separators, a quote and an escape. Separators
end an argument unless quotes are open; a quote opens or closes them and is no part
of the argument; `2n` escapes in front of a quote stand for `n`, one more makes the
quote a character of the argument, and escapes in front of anything else stand for
themselves. `argument` reads one argument and says where it ended.

The results are about fields that a template joins. A bare field without separators
or quotes is read back as it is (`argument_bare`); one between quotes is read back
exactly if it does not end in an escape (`argument_quoted`, `argument_escaped_ne`).
-/

import Mathlib.Data.List.Infix

namespace Wslg.Lexical

/-- An alphabet with argument separators, a quote and an escape. -/
structure ArgumentSyntax (α : Type) where
  sep : α → Bool
  quote : α
  escape : α
  quote_ne_escape : quote ≠ escape
  quote_not_sep : sep quote = false
  escape_not_sep : sep escape = false

namespace ArgumentSyntax

variable {α : Type} [DecidableEq α] (S : ArgumentSyntax α)

/-- Reads to the end of an argument: the rest of the argument and what stands behind
it. `quoted` says whether quotes are open, `n` counts the escapes just read. -/
def argument : Bool → Nat → List α → List α × List α
  | _, n, [] => (List.replicate n S.escape, [])
  | quoted, n, c :: s =>
      if c = S.escape then argument quoted (n + 1) s
      else if c = S.quote then
        if n % 2 = 0 then
          let r := argument (!quoted) 0 s
          (List.replicate (n / 2) S.escape ++ r.1, r.2)
        else
          let r := argument quoted 0 s
          (List.replicate (n / 2) S.escape ++ S.quote :: r.1, r.2)
      else if S.sep c ∧ quoted = false then (List.replicate n S.escape, c :: s)
      else
        let r := argument quoted 0 s
        (List.replicate n S.escape ++ c :: r.1, r.2)

/-- The next argument behind some separators, and what stands behind it. -/
def nextArgument (s : List α) : Option (List α × List α) :=
  match s.dropWhile S.sep with
  | [] => none
  | c :: s => some (S.argument false 0 (c :: s))

/-- The first `k` arguments, and what stands behind the last of them. -/
def takeArguments : Nat → List α → Option (List (List α) × List α)
  | 0, s => some ([], s)
  | k + 1, s =>
      match S.nextArgument s with
      | none => none
      | some (a, rest) => (takeArguments k rest).map fun r => (a :: r.1, r.2)

variable {S}

/-! ### One character -/

theorem argument_escape (quoted : Bool) (n : Nat) (s : List α) :
    S.argument quoted n (S.escape :: s) = S.argument quoted (n + 1) s := by
  rw [argument, if_pos rfl]

theorem argument_quote (quoted : Bool) (s : List α) :
    S.argument quoted 0 (S.quote :: s) = S.argument (!quoted) 0 s := by
  rw [argument, if_neg S.quote_ne_escape, if_pos rfl, if_pos rfl]
  rfl

theorem argument_sep {c : α} (sep : S.sep c = true) (n : Nat) (s : List α) :
    S.argument false n (c :: s) = (List.replicate n S.escape, c :: s) := by
  have plain : c ≠ S.escape := fun same => by
    rw [same, S.escape_not_sep] at sep
    cases sep
  have bare : c ≠ S.quote := fun same => by
    rw [same, S.quote_not_sep] at sep
    cases sep
  rw [argument, if_neg plain, if_neg bare, if_pos ⟨sep, rfl⟩]

/-- A character that is part of the argument. -/
theorem argument_char {quoted : Bool} {c : α} (plain : c ≠ S.escape) (bare : c ≠ S.quote)
    (inside : S.sep c = true → quoted = true) (n : Nat) (s : List α) :
    S.argument quoted n (c :: s) =
      (List.replicate n S.escape ++ c :: (S.argument quoted 0 s).1,
        (S.argument quoted 0 s).2) := by
  rw [argument, if_neg plain, if_neg bare, if_neg]
  rintro ⟨sep, open_⟩
  exact absurd ((inside sep).symm.trans open_) Bool.false_ne_true.symm

theorem argument_replicate_escape (quoted : Bool) (n k : Nat) (s : List α) :
    S.argument quoted n (List.replicate k S.escape ++ s) = S.argument quoted (n + k) s := by
  induction k generalizing n with
  | zero => rfl
  | succ k ih =>
      rw [List.replicate_succ, List.cons_append, argument_escape, ih]
      congr 1
      omega

/-! ### Fields -/

/-- A field without quotes or separators is an argument as it is. -/
theorem argument_bare {w : List α} {c : α} (sep : S.sep c = true)
    (plain : ∀ x ∈ w, x ≠ S.quote ∧ S.sep x = false) (n : Nat) (s : List α) :
    S.argument false n (w ++ c :: s) = (List.replicate n S.escape ++ w, c :: s) := by
  induction w generalizing n with
  | nil => rw [List.nil_append, argument_sep sep, List.append_nil]
  | cons x w ih =>
      obtain ⟨⟨bare, inside⟩, rest⟩ := List.forall_mem_cons.mp plain
      by_cases escape : x = S.escape
      · rw [escape, List.cons_append, argument_escape, ih rest, List.replicate_succ',
          List.append_assoc, List.singleton_append]
      · rw [List.cons_append, argument_char escape bare (fun on => by rw [inside] at on; cases on),
          ih rest 0]
        rfl

theorem argument_quoted_pending {w : List α} (noQuote : S.quote ∉ w) (n : Nat)
    (last : (List.replicate n S.escape ++ w).getLast? ≠ some S.escape) (s : List α) :
    S.argument true n (w ++ s) =
      (List.replicate n S.escape ++ w ++ (S.argument true 0 s).1, (S.argument true 0 s).2) := by
  induction w generalizing n with
  | nil =>
      cases n with
      | zero => rfl
      | succ n =>
          rw [List.append_nil, List.replicate_succ', List.getLast?_concat] at last
          exact absurd rfl last
  | cons x w ih =>
      obtain ⟨bare, rest⟩ := not_or.mp (List.mem_cons.not.mp noQuote)
      by_cases escape : x = S.escape
      · have pending : List.replicate n S.escape ++ x :: w =
            List.replicate (n + 1) S.escape ++ w := by
          rw [List.replicate_succ', List.append_assoc, List.singleton_append, escape]
        rw [pending] at last ⊢
        rw [List.cons_append, escape, argument_escape, ih rest (n + 1) last]
      · have behind : (List.replicate 0 S.escape ++ w).getLast? ≠ some S.escape := by
          cases w with
          | nil => exact nofun
          | cons y w =>
              rw [List.getLast?_append_of_ne_nil _ (List.cons_ne_nil _ _),
                List.getLast?_cons_cons] at last
              exact last
        rw [List.cons_append, argument_char escape (Ne.symm bare) (fun _ => rfl),
          ih rest 0 behind]
        simp

/-- A quoted text without quotes that ends in no escape is part of the argument as it
is. -/
theorem argument_quoted {w : List α} (noQuote : S.quote ∉ w)
    (last : w.getLast? ≠ some S.escape) (s : List α) :
    S.argument true 0 (w ++ s) = (w ++ (S.argument true 0 s).1, (S.argument true 0 s).2) :=
  argument_quoted_pending noQuote 0 last s

/-- The escapes at the end of a list. -/
theorem exists_escapes (e : α) (w : List α) :
    ∃ v k, w = v ++ List.replicate k e ∧ v.getLast? ≠ some e := by
  induction w using List.reverseRecOn with
  | nil => exact ⟨[], 0, rfl, nofun⟩
  | append_singleton w x ih =>
      by_cases escape : x = e
      · obtain ⟨v, k, rfl, last⟩ := ih
        exact ⟨v, k + 1, by rw [escape, List.replicate_succ', List.append_assoc], last⟩
      · refine ⟨w ++ [x], 0, (List.append_nil _).symm, ?_⟩
        rw [List.getLast?_concat]
        exact fun same => escape (Option.some.inj same)

/-- One that ends in an escape is not read back: the escapes are halved, and an odd one
takes the closing quote into the argument. -/
theorem argument_escaped_ne {w : List α} {c : α} (sep : S.sep c = true) (noQuote : S.quote ∉ w)
    (last : w.getLast? = some S.escape) (s : List α) :
    (S.argument true 0 (w ++ S.quote :: c :: s)).1 ≠ w := by
  obtain ⟨v, k, rfl, bare⟩ := exists_escapes S.escape w
  have some_ : k ≠ 0 := by
    rintro rfl
    rw [List.replicate_zero, List.append_nil] at last
    exact bare last
  have front : S.quote ∉ v := fun mem => noQuote (List.mem_append_left _ mem)
  rw [List.append_assoc, argument_quoted front bare, argument_replicate_escape, Nat.zero_add]
  rw [argument, if_neg S.quote_ne_escape, if_pos rfl]
  by_cases even : k % 2 = 0
  · rw [if_pos even, Bool.not_true, argument_sep sep]
    intro same
    have length := congrArg List.length same
    simp only [List.length_append, List.length_replicate] at length
    omega
  · rw [if_neg even]
    intro same
    apply noQuote
    rw [← same]
    simp

/-! ### Behind separators -/

theorem nextArgument_sep {c : α} (sep : S.sep c = true) (s : List α) :
    S.nextArgument (c :: s) = S.nextArgument s := by
  rw [nextArgument, nextArgument, List.dropWhile_cons, if_pos sep]

theorem nextArgument_of_not_sep {c : α} (start : S.sep c = false) (s : List α) :
    S.nextArgument (c :: s) = some (S.argument false 0 (c :: s)) := by
  rw [nextArgument, List.dropWhile_cons, if_neg (by rw [start]; exact Bool.false_ne_true)]

theorem nextArgument_bare {w : List α} {c : α} (some_ : w ≠ []) (sep : S.sep c = true)
    (plain : ∀ x ∈ w, x ≠ S.quote ∧ S.sep x = false) (s : List α) :
    S.nextArgument (w ++ c :: s) = some (w, c :: s) := by
  obtain ⟨x, w, rfl⟩ := List.exists_cons_of_ne_nil some_
  rw [List.cons_append, nextArgument_of_not_sep (plain x List.mem_cons_self).2,
    ← List.cons_append, argument_bare sep plain]
  rfl

/-- A quoted field. -/
theorem nextArgument_quote (s : List α) :
    S.nextArgument (S.quote :: s) = some (S.argument true 0 s) := by
  rw [nextArgument_of_not_sep S.quote_not_sep, argument_quote]
  rfl

theorem nextArgument_quoted {w : List α} {c : α} (sep : S.sep c = true) (noQuote : S.quote ∉ w)
    (last : w.getLast? ≠ some S.escape) (s : List α) :
    S.nextArgument (S.quote :: (w ++ S.quote :: c :: s)) = some (w, c :: s) := by
  rw [nextArgument_quote, argument_quoted noQuote last, argument_quote, Bool.not_true,
    argument_sep sep]
  simp

omit [DecidableEq α] in
/-- A text with a separator behind it, up to the first separator. -/
theorem exists_first_sep {w : List α} {c : α} (sep : S.sep c = true) (s : List α) :
    ∃ v c' s', w ++ c :: s = v ++ c' :: s' ∧ S.sep c' = true ∧
      ∀ y ∈ v, y ∈ w ∧ S.sep y = false := by
  induction w with
  | nil => exact ⟨[], c, s, rfl, sep, nofun⟩
  | cons x w ih =>
      by_cases here : S.sep x = true
      · exact ⟨[], x, w ++ c :: s, rfl, here, nofun⟩
      · obtain ⟨v, c', s', same, sep', inside⟩ := ih
        refine ⟨x :: v, c', s', by rw [List.cons_append, same, List.cons_append], sep', ?_⟩
        refine List.forall_mem_cons.mpr ⟨⟨List.mem_cons_self, Bool.eq_false_iff.mpr here⟩, ?_⟩
        exact fun y mem => ⟨List.mem_cons_of_mem _ (inside y mem).1, (inside y mem).2⟩

/-- An unquoted field with a separator in it is not read back: what is read has none. -/
theorem nextArgument_unquoted {w : List α} {c : α} (sep : S.sep c = true)
    (noQuote : S.quote ∉ w) (s : List α) :
    ((∀ x ∈ w, S.sep x = true) ∧ S.nextArgument (w ++ c :: s) = S.nextArgument s) ∨
      ∃ a r, S.nextArgument (w ++ c :: s) = some (a, r) ∧ a ≠ [] ∧ ∀ x ∈ a, S.sep x = false := by
  induction w with
  | nil => exact Or.inl ⟨nofun, nextArgument_sep sep s⟩
  | cons x w ih =>
      obtain ⟨bare, rest⟩ := not_or.mp (List.mem_cons.not.mp noQuote)
      by_cases start : S.sep x = true
      · rw [List.cons_append, nextArgument_sep start]
        refine (ih rest).imp_left fun ⟨all, next⟩ => ⟨?_, next⟩
        exact List.forall_mem_cons.mpr ⟨start, all⟩
      · -- the argument goes as far as the first separator
        have inside : S.sep x = false := Bool.eq_false_iff.mpr start
        obtain ⟨v, c', s', same, sep', plain⟩ := exists_first_sep (w := w) sep s
        refine Or.inr ⟨x :: v, c' :: s', ?_, List.cons_ne_nil _ _, ?_⟩
        · rw [List.cons_append, same, ← List.cons_append]
          refine nextArgument_bare (List.cons_ne_nil _ _) sep' ?_ s'
          refine List.forall_mem_cons.mpr ⟨⟨Ne.symm bare, inside⟩, fun y mem => ?_⟩
          exact ⟨fun same => rest (same ▸ (plain y mem).1), (plain y mem).2⟩
        · exact List.forall_mem_cons.mpr ⟨inside, fun y mem => (plain y mem).2⟩

theorem takeArguments_eq_cons {k : Nat} {s a r : List α} {as : List (List α)} :
    S.takeArguments (k + 1) s = some (a :: as, r) ↔
      ∃ rest, S.nextArgument s = some (a, rest) ∧ S.takeArguments k rest = some (as, r) := by
  rw [takeArguments]
  cases next : S.nextArgument s with
  | none => exact ⟨nofun, fun ⟨_, h, _⟩ => nomatch h⟩
  | some read =>
      obtain ⟨b, rest⟩ := read
      simp only [Option.map_eq_some_iff, Option.some.injEq, Prod.mk.injEq, List.cons.injEq]
      constructor
      · rintro ⟨others, taken, ⟨rfl, rfl⟩, rfl⟩
        exact ⟨rest, ⟨rfl, rfl⟩, taken⟩
      · rintro ⟨rest', ⟨rfl, rfl⟩, taken⟩
        exact ⟨_, taken, ⟨rfl, rfl⟩, rfl⟩

/-! ### Fields of a template -/

theorem takeArguments_sep {c : α} (sep : S.sep c = true) (k : Nat) (s : List α) :
    S.takeArguments (k + 1) (c :: s) = S.takeArguments (k + 1) s := by
  rw [takeArguments, takeArguments, nextArgument_sep sep]

section Fields

variable {k : Nat} {w s r : List α} {as : List (List α)} {c : α}

/-- A word of the template. -/
theorem takeArguments_bare (sep : S.sep c = true) (some_ : w ≠ [])
    (plain : ∀ x ∈ w, x ≠ S.quote ∧ S.sep x = false) :
    S.takeArguments (k + 1) (w ++ c :: s) = some (w :: as, r) ↔
      S.takeArguments k (c :: s) = some (as, r) := by
  rw [takeArguments_eq_cons, nextArgument_bare some_ sep plain]
  simp

/-- An unquoted field, with a word of the template behind it. -/
theorem takeArguments_unquoted {v : List α} {c' : α} (sep : S.sep c = true)
    (sep' : S.sep c' = true) (some_ : v ≠ [])
    (plain : ∀ x ∈ v, x ≠ S.quote ∧ S.sep x = false) (noQuote : S.quote ∉ w) :
    S.takeArguments (k + 1) (w ++ c :: (v ++ c' :: s)) = some (w :: as, r) ↔
      (w ≠ [] ∧ ∀ x ∈ w, S.sep x = false) ∧
        S.takeArguments k (c :: (v ++ c' :: s)) = some (as, r) := by
  constructor
  · intro taken
    have field : w ≠ [] ∧ ∀ x ∈ w, S.sep x = false := by
      obtain ⟨rest, next, -⟩ := takeArguments_eq_cons.mp taken
      rcases nextArgument_unquoted sep noQuote (v ++ c' :: s) with
        ⟨all, skipped⟩ | ⟨a, rest', read, field⟩
      · -- a field of separators only gives the word behind it
        rw [skipped, nextArgument_bare some_ sep' plain] at next
        obtain ⟨x, mem⟩ := List.exists_mem_of_ne_nil v some_
        cases next
        exact absurd ((all x mem).symm.trans (plain x mem).2) (by decide)
      · cases next.symm.trans read
        exact field
    refine ⟨field, (takeArguments_bare sep field.1 fun x mem => ⟨?_, field.2 x mem⟩).mp taken⟩
    exact fun same => noQuote (same ▸ mem)
  · rintro ⟨⟨there, inside⟩, others⟩
    refine (takeArguments_bare sep there fun x mem => ⟨?_, inside x mem⟩).mpr others
    exact fun same => noQuote (same ▸ mem)

/-- A quoted field. -/
theorem takeArguments_quoted (sep : S.sep c = true) (noQuote : S.quote ∉ w) :
    S.takeArguments (k + 1) (S.quote :: (w ++ S.quote :: c :: s)) = some (w :: as, r) ↔
      w.getLast? ≠ some S.escape ∧ S.takeArguments k (c :: s) = some (as, r) := by
  rw [takeArguments_eq_cons]
  by_cases last : w.getLast? = some S.escape
  · refine iff_of_false ?_ fun h => h.1 last
    rintro ⟨rest, next, -⟩
    rw [nextArgument_quote] at next
    exact argument_escaped_ne sep noQuote last s (congrArg Prod.fst (Option.some.inj next))
  · rw [nextArgument_quoted sep noQuote last]
    simp [last]

end Fields

end ArgumentSyntax

end Wslg.Lexical
