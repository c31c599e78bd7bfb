/-
Words that end without quotes, in the shell that runs them.

`Sh` is what a shell adds to the words of `Shell`: the names a word with a pattern in it
matches where the shell runs, and whether it takes a brace for the beginning of an
expansion, as bash does and others do not. A word with a pattern becomes the names it
matches; if there are none, it stays as it is.

A template puts a field at the end of a text, where a word has begun or is about to. The
shell takes it as it is exactly if every byte of it is one of a word and no other name
matches that word (`Sh.read_field_iff`). This is about fields whose bytes alone say what
becomes of them (`Sh.Clear`): with bytes that are none of a word next to a pattern, the
names may make up for what the reader loses.
-/

import Wslg.Lexical.Shell

namespace Wslg.Lexical.Shell

/-! ### Shells -/

/-- A shell, where it runs: whether it takes an `extension` for the beginning of an expansion,
as bash does, and the names that a word with a pattern in it matches. -/
structure Sh where
  extended : Bool
  names : List Letter → List (List UInt8)

/-- A word with a pattern becomes the names it matches. -/
def Sh.expand (sh : Sh) (w : List Letter) : List (List UInt8) :=
  if w.any Letter.isPattern ∧ sh.names w ≠ [] then sh.names w else [text w]

/-- The words of a text that is one simple command, or why they are not known. -/
def Sh.read (sh : Sh) (s : List UInt8) : Except Obstacle (List (List UInt8)) :=
  match scan (.unquoted true) s with
  | .error e => .error e
  | .ok syms =>
      if sh.extended ∧ (words syms).any (·.any Letter.isExtension) then .error .expansion
      else .ok ((words syms).flatMap sh.expand)

/-! ### Words with a pattern -/

theorem Sh.expand_of_literal (sh : Sh) {w : List Letter}
    (literal : w.any Letter.isPattern = false) : sh.expand w = [text w] := by
  rw [Sh.expand, literal, if_neg fun both => Bool.false_ne_true both.1]

theorem Sh.flatMap_expand (sh : Sh) {ws : List (List Letter)}
    (literal : ws.any (·.any Letter.isPattern) = false) :
    ws.flatMap sh.expand = ws.map text := by
  induction ws with
  | nil => rfl
  | cons w ws ih =>
      rw [List.any_cons, Bool.or_eq_false_iff] at literal
      rw [List.flatMap_cons, sh.expand_of_literal literal.1, ih literal.2]
      rfl

/-- Literal words are what a shell without extensions makes of a text, wherever it runs. -/
theorem Sh.read_of_read {sh : Sh} (plain : sh.extended = false) {s : List UInt8}
    {ws : List (List UInt8)} (literal : Shell.read s = .ok ws) : sh.read s = .ok ws := by
  rw [Shell.read] at literal
  rw [Sh.read]
  cases scanned : scan (.unquoted true) s with
  | error e =>
      rw [scanned] at literal
      cases literal
  | ok syms =>
      simp only [scanned] at literal ⊢
      split at literal
      · cases literal
      · rename_i noPattern
        rw [plain, if_neg fun both => Bool.false_ne_true both.1,
          sh.flatMap_expand (Bool.eq_false_iff.mpr noPattern)]
        exact literal

/-- Bare words are themselves in every shell. -/
theorem Sh.read_bareText {sh : Sh} {ws : List (List UInt8)} (bare : ∀ w ∈ ws, Bare w) :
    sh.read (bareText ws) = .ok ws := by
  have scanned := scan_bareText bare []
  have split := words_bareSymbols bare []
  rw [List.append_nil] at scanned split
  rw [Sh.read, scanned]
  simp only [scan, Except.map, List.append_nil]
  rw [split, show words [] = [] from rfl, List.append_nil, if_neg (by simp),
    sh.flatMap_expand (by simp), List.map_map]
  simp [Function.comp_def, text_map_literal]

/-- A word matches no name, or only itself. -/
def Sh.Stays (sh : Sh) (w : List Letter) : Prop :=
  w.any Letter.isPattern = true → sh.names w = [] ∨ sh.names w = [text w]

theorem Sh.expand_eq_iff {sh : Sh} {w : List Letter} :
    sh.expand w = [text w] ↔ sh.Stays w := by
  rw [Sh.expand, Sh.Stays]
  cases w.any Letter.isPattern with
  | false => simp
  | true =>
      by_cases none_ : sh.names w = []
      · simp [none_]
      · simp [none_]

/-! ### A field without quotes -/

/-- Outside quotes `c` in front of `next` is a byte of a word. -/
def isWordByte (start : Bool) (c : UInt8) (next : List UInt8) : Bool :=
  !(isBlank c || isOperator c || [dquote, squote, backslash, backquote].contains c ||
    ((c = hash || c = tilde) && start) || (c = dollar && startsExpansion next))

/-- Every byte of a field that ends the text is one of a word. -/
def isWord : Bool → List UInt8 → Bool
  | _, [] => true
  | start, c :: s => isWordByte start c s && isWord false s

theorem isWordByte_eq_true {start : Bool} {c : UInt8} {next : List UInt8} :
    isWordByte start c next = true ↔
      isBlank c = false ∧ isOperator c = false ∧
        (c ≠ dquote ∧ c ≠ squote ∧ c ≠ backslash ∧ c ≠ backquote) ∧
        (c ≠ hash ∧ c ≠ tilde ∨ start = false) ∧ (c ≠ dollar ∨ startsExpansion next = false) := by
  simp [isWordByte, and_assoc]

/-- A byte of a word is what is taken as it is. -/
theorem step_isWordByte_iff {start start' : Bool} {c : UInt8} {next : List UInt8} :
    step next (.unquoted start) c = .ok ([.letter (letter false c next)], .unquoted start') ↔
      isWordByte start c next = true ∧ start' = false := by
  rw [isWordByte_eq_true]
  constructor
  · intro stepped
    simp only [step] at stepped
    repeat' split at stepped
    all_goals
      simp only [reduceCtorEq, Except.ok.injEq, Prod.mk.injEq, List.cons.injEq, List.nil_eq,
        List.cons_ne_self, false_and, Mode.unquoted.injEq] at stepped
    rename_i noBlank noDquote noSquote noBackslash noOperator noHash others
    obtain ⟨noBackquote, noTilde, noDollar⟩ : c ≠ backquote ∧
        (c = tilde → start = false) ∧ (c = dollar → startsExpansion next = false) := by
      simpa using others
    refine ⟨⟨by simpa using noBlank, by simpa using noOperator,
      ⟨noDquote, noSquote, noBackslash, noBackquote⟩, ?_, ?_⟩, ?_⟩
    · cases start with
      | false => exact Or.inr rfl
      | true => exact Or.inl ⟨by simpa using noHash, fun isTilde =>
          Bool.false_ne_true (noTilde isTilde).symm⟩
    · by_cases isDollar : c = dollar
      · exact Or.inr (noDollar isDollar)
      · exact Or.inl isDollar
    · exact stepped.2.symm
  · rintro ⟨⟨noBlank, noOperator, ⟨noDquote, noSquote, noBackslash, noBackquote⟩, noStart,
      noDollar⟩, rfl⟩
    have noHash : ¬ (c = hash ∧ start = true) := by
      rintro ⟨rfl, rfl⟩
      exact noStart.elim (fun both => both.1 rfl) fun inside => Bool.false_ne_true inside.symm
    have others : ¬ (c = backquote ∨ (c = tilde ∧ start = true) ∨
        (c = dollar ∧ startsExpansion next = true)) := by
      rintro (backquoted | ⟨rfl, rfl⟩ | ⟨rfl, expands⟩)
      · exact noBackquote backquoted
      · exact noStart.elim (fun both => both.2 rfl) fun inside => Bool.false_ne_true inside.symm
      · exact noDollar.elim (· rfl) fun none_ => Bool.false_ne_true (none_.symm.trans expands)
    simp [step, noBlank, noOperator, noDquote, noSquote, noBackslash, noHash, others]

theorem scan_isWord {start : Bool} {s : List UInt8} (word : isWord start s = true) :
    scan (.unquoted start) s = .ok ((letters false s).map .letter) := by
  induction s generalizing start with
  | nil => rfl
  | cons c s ih =>
      obtain ⟨first, others⟩ : isWordByte start c s = true ∧ isWord false s = true := by
        simpa [isWord] using word
      rw [scan_cons (step_isWordByte_iff.mpr ⟨first, rfl⟩), ih others]
      rfl

/-- A field with a byte that is none of a word loses a byte at least. -/
theorem scan_not_isWord {start : Bool} {s : List UInt8} {syms : List Symbol}
    (other : isWord start s = false) (scanned : scan (.unquoted start) s = .ok syms) :
    (bytes syms).length < s.length := by
  induction s generalizing start syms with
  | nil => cases other
  | cons c s ih =>
      obtain ⟨out, m', rest, stepped, behind, rfl⟩ := scan_cons_eq_ok scanned
      rw [bytes_append, List.length_append, List.length_cons]
      obtain ⟨unheld, lost | ⟨-, rfl, rfl⟩⟩ := step_unquoted stepped
      · have others := scan_bytes behind
        rw [lost, List.length_nil]
        omega
      · have others : isWord false s = false := by
          simpa [isWord, (step_isWordByte_iff.mp stepped).1] using other
        have fewer := ih others behind
        show 1 + _ < _
        omega

def patternFree (s : List UInt8) : Bool := s.all (!isPattern ·)

/-- No byte of a field may begin an expansion in some shells only. -/
def extensionFree (s : List UInt8) : Bool := (letters false s).all (!·.isExtension)

theorem step_patternFree {next : List UInt8} {m m' : Mode} {c : UInt8} {out : List Symbol}
    (stepped : step next m c = .ok (out, m')) (other : isPattern c = false) :
    (lettersOf out).any Letter.isPattern = false := by
  have plain : ∀ quoted, (letter quoted c next).isPattern = false := by
    intro quoted
    rw [letter, other, Bool.and_false, if_neg Bool.false_ne_true]
    split <;> rfl
  cases m <;> simp only [step] at stepped <;> (repeat' split at stepped) <;> cases stepped <;>
    simp [lettersOf, plain]

theorem scan_patternFree {m : Mode} {s : List UInt8} {syms : List Symbol}
    (scanned : scan m s = .ok syms) (free : patternFree s = true) :
    (lettersOf syms).any Letter.isPattern = false := by
  induction s generalizing m syms with
  | nil =>
      cases m with
      | unquoted start =>
          cases scanned
          rfl
      | escape start => cases scanned
      | single => cases scanned
      | double => cases scanned
      | doubleEscape => cases scanned
  | cons c s ih =>
      obtain ⟨out, m', rest, stepped, behind, rfl⟩ := scan_cons_eq_ok scanned
      obtain ⟨first, others⟩ : isPattern c = false ∧ patternFree s = true := by
        simpa [patternFree] using free
      rw [lettersOf_append, List.any_append, step_patternFree stepped first, ih behind others]
      rfl

/-- The symbols of the front of a text, and the mode behind it. -/
def scanTo : Mode → List UInt8 → Except Obstacle (List Symbol × Mode)
  | m, [] => .ok ([], m)
  | m, c :: s =>
      match step s m c with
      | .error e => .error e
      | .ok (out, m') => (scanTo m' s).map fun r => (out ++ r.1, r.2)

/-- Only a dollar sign looks at what comes next. -/
theorem step_next {c : UInt8} (other : c ≠ dollar) (next next' : List UInt8) (m : Mode) :
    step next m c = step next' m c := by
  cases m <;> simp [step, letter, other]

/-- A text is read behind its front in the mode the front ends in. -/
theorem scan_append {m m' : Mode} {s : List UInt8} {syms : List Symbol}
    (front : scanTo m s = .ok (syms, m')) (noDollar : dollar ∉ s) (t : List UInt8) :
    scan m (s ++ t) = (scan m' t).map (syms ++ ·) := by
  induction s generalizing m syms with
  | nil =>
      cases front
      show scan m' t = _
      cases scan m' t <;> rfl
  | cons c s ih =>
      obtain ⟨first, others⟩ : dollar ≠ c ∧ dollar ∉ s := not_or.mp (mt List.mem_cons.mpr noDollar)
      rw [scanTo] at front
      cases stepped : step s m c with
      | error e =>
          rw [stepped] at front
          cases front
      | ok r =>
          obtain ⟨out, m₁⟩ := r
          simp only [stepped] at front
          cases rest : scanTo m₁ s with
          | error e =>
              rw [rest] at front
              cases front
          | ok r =>
              rw [rest] at front
              cases front
              rw [List.cons_append, scan_cons ((step_next first.symm _ s m).trans stepped),
                ih rest others]
              cases scan r.2 t with
              | error e => rfl
              | ok syms => exact congrArg Except.ok (List.append_assoc ..).symm

/-- The bytes of a field alone say what becomes of it: it has no pattern next to bytes that are
none of a word, nor anything the shell may take for an expansion and others do not. -/
structure Sh.Clear (sh : Sh) (start : Bool) (field : List UInt8) : Prop where
  patterns : patternFree field = true ∨ isWord start field = true
  extensions : sh.extended = true → extensionFree field = true

/-- A shell takes a field as it is at the end of a word that begins with `front`. -/
structure Sh.Takes (sh : Sh) (start : Bool) (front field : List UInt8) : Prop where
  word : isWord start field = true
  stays : sh.Stays (front.map .literal ++ letters false field)

/-- A field that ends a text and has its place in the words of it is read as it is exactly if
its bytes are of one word, and nothing else matches that word. -/
theorem Sh.read_field_iff {sh : Sh} {s field front : List UInt8} {syms : List Symbol}
    {start : Bool} {ws : List (List UInt8)}
    (scanned : scan (.unquoted true) (s ++ field) = (scan (.unquoted start) field).map (syms ++ ·))
    (place : words (syms ++ (letters false field).map .letter) =
      ws.map (·.map .literal) ++ [front.map .literal ++ letters false field])
    (clear : sh.Clear start field) :
    sh.read (s ++ field) = .ok (ws ++ [front ++ field]) ↔ sh.Takes start front field := by
  have texts : (ws.map (·.map Letter.literal)).map text = ws := by
    simp [Function.comp_def, text_map_literal]
  have fieldText : text (front.map .literal ++ letters false field) = front ++ field := by
    rw [text_append, text_map_literal, text_letters]
  have literalWords : (ws.map (·.map Letter.literal)).any (·.any Letter.isPattern) = false := by
    simp
  have total : lettersOf syms ++ letters false field =
      (ws.map (·.map Letter.literal)).flatten ++ (front.map .literal ++ letters false field) := by
    have flat := congrArg List.flatten place
    rwa [flatten_words, lettersOf_append, lettersOf_map_letter, List.flatten_append,
      List.flatten_singleton] at flat
  have literalFront : lettersOf syms = ws.flatten.map .literal ++ front.map .literal := by
    rw [← List.append_assoc] at total
    rw [List.append_cancel_right total, List.map_flatten]
  rw [Sh.read, scanned]
  cases word : isWord start field with
  | true =>
      have free : ¬ (sh.extended = true ∧
          (words (syms ++ (letters false field).map .letter)).any
            (·.any Letter.isExtension) = true) := by
        rintro ⟨extended, some_⟩
        have literal : (ws.flatten.map Letter.literal ++ front.map Letter.literal).any
            Letter.isExtension = false := by simp
        rw [any_words, lettersOf_append, lettersOf_map_letter, literalFront, List.any_append,
          literal, Bool.false_or] at some_
        obtain ⟨l, mem, isExtension⟩ := List.any_eq_true.mp some_
        have other := List.all_eq_true.mp (clear.extensions extended) l mem
        rw [isExtension] at other
        cases other
      rw [scan_isWord word]
      simp only [Except.map]
      rw [if_neg free, place, List.flatMap_append, sh.flatMap_expand literalWords, texts,
        List.flatMap_singleton, Except.ok.injEq, List.append_cancel_left_eq, ← fieldText,
        Sh.expand_eq_iff]
      exact ⟨fun stays => ⟨word, stays⟩, Takes.stays⟩
  | false =>
      refine iff_of_false ?_ fun takes => by rw [takes.word] at word; cases word
      have patternFree_ : patternFree field = true :=
        clear.patterns.resolve_right (by rw [word]; exact Bool.false_ne_true)
      cases inner : scan (.unquoted start) field with
      | error e => exact nofun
      | ok out =>
          simp only [Except.map]
          split
          · exact nofun
          intro same
          have literal : (words (syms ++ out)).any (·.any Letter.isPattern) = false := by
            rw [any_words, lettersOf_append, List.any_append, literalFront,
              scan_patternFree inner patternFree_]
            simp
          have split : (words (syms ++ out)).map text = ws ++ [front ++ field] :=
            (sh.flatMap_expand literal).symm.trans (Except.ok.inj same)
          have kept : bytes out = field := by
            have flat := congrArg List.flatten split
            rw [flatten_map_text, flatten_words, lettersOf_append, text_append, literalFront,
              text_append, text_map_literal, text_map_literal, List.flatten_append,
              List.flatten_singleton, List.append_assoc] at flat
            exact List.append_cancel_left (List.append_cancel_left flat)
          have fewer := scan_not_isWord word inner
          rw [kept] at fewer
          exact Nat.lt_irrefl _ fewer

end Wslg.Lexical.Shell
