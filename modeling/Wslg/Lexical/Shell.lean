/-
Words of a shell command line, read the POSIX way.

The reader goes through the text byte by byte, in a mode that says which quotes are open
and whether an escape has just been read. It gives symbols: the letters of words, quotes,
which belong to a word without being a part of it, and blanks. `words` cuts the symbols at
the blanks. A letter remembers whether it is one of a pattern, or may begin an expansion in
some shells and in others does not.

Where the shell would do more than make words of the text, `scan` says what it came to: an
expansion, an operator or the end of a line, a comment, or a quote that is never closed.
`read` is for a text of literal words, in which a pattern is an obstacle too.

The results are about a field that a template puts between double quotes behind some bare
words. It is read back as it is exactly if no byte of it means something there
(`read_quoted_iff`). Where one does, the reader loses it, and the words come out too short.
-/

import Mathlib.Data.List.Basic

namespace Wslg.Lexical.Shell

/-! ### Alphabet -/

def tab : UInt8 := 0x09
def newline : UInt8 := 0x0A
def space : UInt8 := 0x20
def dquote : UInt8 := 0x22
def hash : UInt8 := 0x23
def dollar : UInt8 := 0x24
def squote : UInt8 := 0x27
def backslash : UInt8 := 0x5C
def bracket : UInt8 := 0x5B
def backquote : UInt8 := 0x60
def brace : UInt8 := 0x7B
def tilde : UInt8 := 0x7E

def isBlank (c : UInt8) : Bool := c = space || c = tab

/-- The end of a line, and the bytes of `|`, `&`, `;`, `<`, `>`, `(` and `)`. -/
def isOperator (c : UInt8) : Bool :=
  [newline, 0x7C, 0x26, 0x3B, 0x3C, 0x3E, 0x28, 0x29].contains c

/-- `*`, `?` and `[`. -/
def isPattern (c : UInt8) : Bool := [0x2A, 0x3F, bracket].contains c

/-- A letter, a digit or an underscore. -/
def isNameByte (c : UInt8) : Bool :=
  0x41 ≤ c && c ≤ 0x5A || 0x61 ≤ c && c ≤ 0x7A || 0x30 ≤ c && c ≤ 0x39 || c = 0x5F

/-- A dollar sign in front of this text begins an expansion: a name, a positional or
special parameter, `{` or `(` follows. -/
def startsExpansion : List UInt8 → Bool
  | [] => false
  | c :: _ => isNameByte c || [0x40, 0x2A, 0x23, 0x3F, 0x2D, 0x24, 0x21, 0x7B, 0x28].contains c

/-- In front of this text a dollar sign begins an expansion in some shells: `[` follows, or
outside quotes a quote. -/
def startsExtension (quoted : Bool) : List UInt8 → Bool
  | [] => false
  | c :: _ => c = bracket || (!quoted && (c = squote || c = dquote))

/-- What a backslash between double quotes escapes, the end of a line apart. -/
def isEscapable (c : UInt8) : Bool := [dollar, backquote, dquote, backslash].contains c

/-! ### Reader -/

/-- Which quotes are open. `start` says that no word has begun; the two escape modes
stand behind a backslash. -/
inductive Mode where
  | unquoted (start : Bool)
  | escape (start : Bool)
  | single
  | double
  | doubleEscape
deriving DecidableEq

/-- A byte of a word. Some shells take an `extension` for the beginning of an expansion: an
opening brace, or a dollar sign in front of a bracket or a quote. -/
inductive Letter where
  | literal (c : UInt8)
  | pattern (c : UInt8)
  | extension (c : UInt8)
deriving DecidableEq

def Letter.byte : Letter → UInt8
  | literal c => c
  | pattern c => c
  | extension c => c

def Letter.isPattern : Letter → Bool
  | pattern _ => true
  | _ => false

def Letter.isExtension : Letter → Bool
  | extension _ => true
  | _ => false

@[simp] theorem Letter.isPattern_literal (c : UInt8) : (literal c).isPattern = false := rfl

@[simp] theorem Letter.isExtension_literal (c : UInt8) : (literal c).isExtension = false := rfl

/-- The bytes of a word. -/
def text (w : List Letter) : List UInt8 := w.map Letter.byte

inductive Symbol where
  | letter (l : Letter)
  | quote
  | blank
deriving DecidableEq

/-- A byte that stands for itself. -/
abbrev Symbol.byte (c : UInt8) : Symbol := .letter (.literal c)

/-- A byte that is one of a word, in front of the text `next`. -/
def letter (quoted : Bool) (c : UInt8) (next : List UInt8) : Letter :=
  if !quoted && isPattern c then .pattern c
  else if (!quoted && c = brace) || (c = dollar && startsExtension quoted next) then .extension c
  else .literal c

/-- The letters of a text whose bytes all are of one word. -/
def letters (quoted : Bool) : List UInt8 → List Letter
  | [] => []
  | c :: s => letter quoted c s :: letters quoted s

/-- Why a text is more than words. `openQuote` is a quote that is not closed, or an
escape of nothing. -/
inductive Obstacle where
  | expansion
  | operator
  | comment
  | openQuote
deriving DecidableEq

/-- One byte, in front of the text `next`. -/
def step (next : List UInt8) : Mode → UInt8 → Except Obstacle (List Symbol × Mode)
  | .unquoted start, c =>
      if isBlank c then .ok ([.blank], .unquoted true)
      else if c = dquote then .ok ([.quote], .double)
      else if c = squote then .ok ([.quote], .single)
      else if c = backslash then .ok ([], .escape start)
      else if isOperator c then .error .operator
      else if c = hash ∧ start then .error .comment
      else if c = backquote ∨ (c = tilde ∧ start) ∨ (c = dollar ∧ startsExpansion next) then
        .error .expansion
      else .ok ([.letter (letter false c next)], .unquoted false)
  | .escape start, c =>
      if c = newline then .ok ([], .unquoted start) else .ok ([.byte c], .unquoted false)
  | .single, c =>
      if c = squote then .ok ([.quote], .unquoted false) else .ok ([.byte c], .single)
  | .double, c =>
      if c = dquote then .ok ([.quote], .unquoted false)
      else if c = backslash then .ok ([], .doubleEscape)
      else if c = backquote ∨ (c = dollar ∧ startsExpansion next) then .error .expansion
      else .ok ([.letter (letter true c next)], .double)
  | .doubleEscape, c =>
      if c = newline then .ok ([], .double)
      else if isEscapable c then .ok ([.byte c], .double)
      else .ok ([.byte backslash, .byte c], .double)

/-- The symbols of a text. -/
def scan : Mode → List UInt8 → Except Obstacle (List Symbol)
  | .unquoted _, [] => .ok []
  | _, [] => .error .openQuote
  | m, c :: s =>
      match step s m c with
      | .error e => .error e
      | .ok (out, m') => (scan m' s).map (out ++ ·)

/-- The word that begins right here, if one does, and the words behind it. -/
def wordsFrom : List Symbol → Option (List Letter) × List (List Letter)
  | [] => (none, [])
  | .blank :: s => (none, (wordsFrom s).1.toList ++ (wordsFrom s).2)
  | .quote :: s => (some ((wordsFrom s).1.getD []), (wordsFrom s).2)
  | .letter l :: s => (some (l :: (wordsFrom s).1.getD []), (wordsFrom s).2)

def words (s : List Symbol) : List (List Letter) := (wordsFrom s).1.toList ++ (wordsFrom s).2

/-- The words of a text that is one simple command of literal words, or why it is not. -/
def read (s : List UInt8) : Except Obstacle (List (List UInt8)) :=
  match scan (.unquoted true) s with
  | .error e => .error e
  | .ok syms =>
      if (words syms).any (·.any Letter.isPattern) then .error .expansion
      else .ok ((words syms).map text)

/-! ### Words -/

/-- The letters that stand in words. -/
def lettersOf : List Symbol → List Letter
  | [] => []
  | .letter l :: s => l :: lettersOf s
  | .quote :: s => lettersOf s
  | .blank :: s => lettersOf s

def bytes (s : List Symbol) : List UInt8 := text (lettersOf s)

theorem lettersOf_append (a b : List Symbol) : lettersOf (a ++ b) = lettersOf a ++ lettersOf b := by
  induction a with
  | nil => rfl
  | cons x a ih => cases x <;> simp only [List.cons_append, lettersOf, ih]

theorem lettersOf_map_letter (w : List Letter) : lettersOf (w.map .letter) = w := by
  induction w with
  | nil => rfl
  | cons l w ih => exact congrArg (l :: ·) ih

theorem text_append (v w : List Letter) : text (v ++ w) = text v ++ text w := List.map_append

theorem text_map_literal (w : List UInt8) : text (w.map .literal) = w := by
  rw [text, List.map_map]
  exact List.map_id w

theorem byte_letter (quoted : Bool) (c : UInt8) (next : List UInt8) :
    (letter quoted c next).byte = c := by
  unfold letter
  split_ifs <;> rfl

theorem text_letters (quoted : Bool) (s : List UInt8) : text (letters quoted s) = s := by
  induction s with
  | nil => rfl
  | cons c s ih => exact congrArg₂ List.cons (byte_letter quoted c s) ih

theorem bytes_append (a b : List Symbol) : bytes (a ++ b) = bytes a ++ bytes b := by
  rw [bytes, lettersOf_append, text_append, bytes, bytes]

/-- No letter is lost between the symbols and the words. -/
theorem flatten_words (s : List Symbol) : (words s).flatten = lettersOf s := by
  rw [words]
  induction s with
  | nil => rfl
  | cons x s ih =>
      cases x with
      | blank => exact ih
      | quote =>
          rw [wordsFrom, lettersOf, ← ih]
          cases (wordsFrom s).1 <;> rfl
      | letter l =>
          rw [wordsFrom, lettersOf, ← ih]
          cases (wordsFrom s).1 <;> rfl

theorem flatten_map_text (ws : List (List Letter)) : (ws.map text).flatten = text ws.flatten := by
  rw [text, List.map_flatten]
  rfl

/-- The letters of the words are those of the symbols. -/
theorem any_words (p : Letter → Bool) (s : List Symbol) :
    (words s).any (·.any p) = (lettersOf s).any p := by
  rw [← flatten_words, List.any_flatten]

theorem words_append_blank (a b : List Symbol) :
    words (a ++ .blank :: b) = words a ++ words b := by
  have both : wordsFrom (a ++ .blank :: b) = ((wordsFrom a).1, (wordsFrom a).2 ++ words b) := by
    induction a with
    | nil => rfl
    | cons x a ih =>
        cases x with
        | blank => rw [List.cons_append, wordsFrom, ih, wordsFrom, List.append_assoc]
        | quote => rw [List.cons_append, wordsFrom, ih, wordsFrom]
        | letter l => rw [List.cons_append, wordsFrom, ih, wordsFrom]
  rw [words, both, ← List.append_assoc, ← words]

theorem words_quoted (w : List Letter) :
    words (.quote :: (w.map .letter ++ [.quote])) = [w] := by
  have inner : wordsFrom (w.map .letter ++ [.quote]) = (some w, []) := by
    induction w with
    | nil => rfl
    | cons l w ih => rw [List.map_cons, List.cons_append, wordsFrom, ih]; rfl
  rw [words, wordsFrom, inner]
  rfl

theorem words_bare {w : List Letter} (some_ : w ≠ []) : words (w.map .letter) = [w] := by
  have inner : ∀ w : List Letter, (wordsFrom (w.map .letter)).1.getD [] = w ∧
      (wordsFrom (w.map .letter)).2 = [] := by
    intro w
    induction w with
    | nil => exact ⟨rfl, rfl⟩
    | cons l w ih => exact ⟨congrArg (l :: ·) ih.1, ih.2⟩
  cases w with
  | nil => exact absurd rfl some_
  | cons l w =>
      rw [words, List.map_cons, wordsFrom, (inner w).1, (inner w).2]
      rfl

/-! ### What a text loses -/

theorem scan_cons {m m' : Mode} {c : UInt8} {s : List UInt8} {out : List Symbol}
    (stepped : step s m c = .ok (out, m')) : scan m (c :: s) = (scan m' s).map (out ++ ·) := by
  cases m <;> rw [scan, stepped]

theorem scan_cons_error {m : Mode} {c : UInt8} {s : List UInt8} {e : Obstacle}
    (stepped : step s m c = .error e) : scan m (c :: s) = .error e := by
  cases m <;> rw [scan, stepped]

theorem ok_of_map {x : Except Obstacle (List Symbol)} {out syms : List Symbol}
    (mapped : x.map (out ++ ·) = .ok syms) : ∃ rest, x = .ok rest ∧ syms = out ++ rest := by
  cases x with
  | error e => cases mapped
  | ok rest =>
      cases mapped
      exact ⟨rest, rfl, rfl⟩

/-- A text that was read to its end has read its first byte, and the rest. -/
theorem scan_cons_eq_ok {m : Mode} {c : UInt8} {s : List UInt8} {syms : List Symbol}
    (scanned : scan m (c :: s) = .ok syms) :
    ∃ out m' rest, step s m c = .ok (out, m') ∧ scan m' s = .ok rest ∧ syms = out ++ rest := by
  cases stepped : step s m c with
  | error e =>
      rw [scan_cons_error stepped] at scanned
      cases scanned
  | ok r =>
      obtain ⟨out, m'⟩ := r
      rw [scan_cons stepped] at scanned
      obtain ⟨rest, behind, same⟩ := ok_of_map scanned
      exact ⟨out, m', rest, rfl, behind, same⟩

/-- The closing quote a mode still waits for. -/
def owed : Mode → Nat
  | .unquoted _ => 0
  | .escape _ => 0
  | .single => 1
  | .double => 1
  | .doubleEscape => 1

/-- The backslash behind which a mode stands, if it may yet be a byte. -/
def held : Mode → Nat
  | .doubleEscape => 1
  | _ => 0

/-- A step adds no more bytes to the words than it takes from the text. -/
theorem step_bytes {next : List UInt8} {m m' : Mode} {c : UInt8} {out : List Symbol}
    (stepped : step next m c = .ok (out, m')) :
    (bytes out).length + held m' + owed m ≤ 1 + held m + owed m' := by
  cases m <;> simp only [step] at stepped <;> (repeat' split at stepped) <;> cases stepped <;>
    simp [bytes, lettersOf, text, held, owed]

theorem scan_bytes {m : Mode} {s : List UInt8} {syms : List Symbol}
    (scanned : scan m s = .ok syms) : (bytes syms).length + owed m ≤ s.length + held m := by
  induction s generalizing m syms with
  | nil =>
      cases m with
      | unquoted start =>
          cases scanned
          exact Nat.le_refl 0
      | escape start => cases scanned
      | single => cases scanned
      | double => cases scanned
      | doubleEscape => cases scanned
  | cons c s ih =>
      obtain ⟨out, m', rest, stepped, behind, rfl⟩ := scan_cons_eq_ok scanned
      have one := step_bytes stepped
      have others := ih behind
      rw [bytes_append, List.length_append, List.length_cons]
      omega

/-- Outside quotes a byte is taken as it is, or it is not part of a word. -/
theorem step_unquoted {next : List UInt8} {start : Bool} {m' : Mode} {c : UInt8}
    {out : List Symbol} (stepped : step next (.unquoted start) c = .ok (out, m')) :
    held m' = 0 ∧ (bytes out = [] ∨
      c ≠ dquote ∧ out = [.letter (letter false c next)] ∧ m' = .unquoted false) := by
  simp only [step] at stepped
  repeat' split at stepped
  all_goals
    cases stepped
    try exact ⟨rfl, Or.inl rfl⟩
  rename_i plain _ _ _ _ _
  exact ⟨rfl, Or.inr ⟨plain, rfl, rfl⟩⟩

/-- A text with a double quote loses a byte at least: that quote, or what keeps it from
being one. -/
theorem scan_dquote {start : Bool} {s : List UInt8} {syms : List Symbol}
    (scanned : scan (.unquoted start) s = .ok syms) (here : dquote ∈ s) :
    (bytes syms).length < s.length := by
  induction s generalizing start syms with
  | nil => exact absurd here List.not_mem_nil
  | cons c s ih =>
      obtain ⟨out, m', rest, stepped, behind, rfl⟩ := scan_cons_eq_ok scanned
      rw [bytes_append, List.length_append, List.length_cons]
      obtain ⟨unheld, lost | ⟨other, rfl, rfl⟩⟩ := step_unquoted stepped
      · have others := scan_bytes behind
        rw [lost, List.length_nil]
        omega
      · have later : dquote ∈ s := (List.mem_cons.mp here).resolve_left (Ne.symm other)
        have fewer := ih behind later
        show 1 + _ < _
        omega

/-! ### A field between double quotes -/

/-- A backslash in front of this text is an escape; at the end of a field it escapes the
closing quote. -/
def escapes : List UInt8 → Bool
  | [] => true
  | c :: _ => c = newline || isEscapable c

/-- Between double quotes `c` in front of `next` is more than itself. -/
def isActive (c : UInt8) (next : List UInt8) : Bool :=
  c = dquote || c = backquote || (c = dollar && startsExpansion next) ||
    (c = backslash && escapes next)

/-- No byte of a field means anything between double quotes. -/
def inert : List UInt8 → Bool
  | [] => true
  | c :: s => !isActive c s && inert s

/-- The closing quote starts no expansion. -/
theorem startsExpansion_append (s : List UInt8) :
    startsExpansion (s ++ [dquote]) = startsExpansion s := by
  cases s with
  | nil => decide
  | cons c s => rfl

theorem isActive_eq_false {c : UInt8} {next : List UInt8} (passive : isActive c next = false) :
    c ≠ dquote ∧ c ≠ backquote ∧ ¬ (c = dollar ∧ startsExpansion next = true) ∧
      ¬ (c = backslash ∧ escapes next = true) := by
  simpa [isActive, and_assoc] using passive

theorem scan_plain {c : UInt8} {s : List UInt8} (plain : c ≠ backslash)
    (passive : isActive c s = false) :
    scan .double (c :: s) = (scan .double s).map ([.letter (letter true c s)] ++ ·) := by
  obtain ⟨noQuote, noBackquote, noExpansion, -⟩ := isActive_eq_false passive
  have stepped : step s .double c = .ok ([.letter (letter true c s)], .double) := by
    rw [step, if_neg noQuote, if_neg plain, if_neg]
    rintro (backquoted | expands)
    · exact noBackquote backquoted
    · exact noExpansion expands
  exact scan_cons stepped

theorem isEscapable_eq_false {c : UInt8} (other : isEscapable c = false) :
    c ≠ dollar ∧ c ≠ backquote ∧ c ≠ dquote ∧ c ≠ backslash := by
  simpa [isEscapable] using other

theorem step_backslash (next : List UInt8) :
    step next .double backslash = .ok ([], .doubleEscape) := rfl

/-- Between quotes only a dollar sign may begin an expansion. -/
theorem letter_quoted {c : UInt8} (other : c ≠ dollar) (next : List UInt8) :
    letter true c next = .literal c := by
  simp [letter, other]

/-- The closing quote is no bracket. -/
theorem letter_append_dquote (c : UInt8) (s : List UInt8) :
    letter true c (s ++ [dquote]) = letter true c s := by
  cases s with
  | nil => simp [letter, startsExtension, dquote, bracket]
  | cons d s => rfl

/-- A backslash in front of a byte it does not escape stands for itself. -/
theorem scan_backslash {c : UInt8} {s t : List UInt8} (other : escapes (c :: s) = false) :
    scan .double (backslash :: c :: t) = (scan .double (c :: t)).map ([.byte backslash] ++ ·) := by
  obtain ⟨noLine, noEscape⟩ : c ≠ newline ∧ isEscapable c = false := by
    simpa [escapes] using other
  obtain ⟨noDollar, noBackquote, noQuote, noBackslash⟩ := isEscapable_eq_false noEscape
  have escaped : step t .doubleEscape c = .ok ([.byte backslash, .byte c], .double) := by
    rw [step, if_neg noLine, noEscape, if_neg Bool.false_ne_true]
  have passive : isActive c t = false := by
    simp [isActive, noQuote, noBackquote, noDollar, noBackslash]
  rw [scan_cons (step_backslash _), scan_cons escaped, scan_plain noBackslash passive,
    letter_quoted noDollar]
  cases scan .double t <;> rfl

/-- An inert field is read as it is. -/
theorem scan_inert {field : List UInt8} (passive : inert field = true) :
    scan .double (field ++ [dquote]) = .ok ((letters true field).map .letter ++ [.quote]) := by
  induction field with
  | nil => rfl
  | cons c s ih =>
      obtain ⟨first, others⟩ : isActive c s = false ∧ inert s = true := by
        simpa [inert] using passive
      rw [List.cons_append]
      by_cases escape : c = backslash
      · subst escape
        cases s with
        | nil => cases first
        | cons d s =>
            have other : escapes (d :: s) = false := by
              simpa using (isActive_eq_false first).2.2.2
            rw [List.cons_append, scan_backslash other, ← List.cons_append, ih others]
            rfl
      · have first' : isActive c (s ++ [dquote]) = false := by
          rw [isActive, startsExpansion_append]
          simpa [isActive, escape] using first
        rw [scan_plain escape first', ih others, letter_append_dquote]
        rfl

/-- Behind an active byte the field comes out too short. -/
theorem scan_isActive {c : UInt8} {s : List UInt8} {syms : List Symbol}
    (active : isActive c s = true) (scanned : scan .double (c :: (s ++ [dquote])) = .ok syms) :
    (bytes syms).length < (c :: s).length := by
  have cases_ : c = dquote ∨ c = backquote ∨ (c = dollar ∧ startsExpansion s = true) ∨
      (c = backslash ∧ escapes s = true) := by
    simpa [isActive, or_assoc] using active
  rcases cases_ with rfl | rfl | ⟨rfl, expands⟩ | ⟨rfl, escape⟩
  · -- the quotes close here, and the last quote of the text opens new ones
    rw [scan_cons (show step _ .double dquote = .ok ([.quote], .unquoted false) from rfl)]
      at scanned
    obtain ⟨rest, behind, rfl⟩ := ok_of_map scanned
    have fewer := scan_dquote behind (List.mem_append_right s List.mem_cons_self)
    rw [List.length_append] at fewer
    exact fewer
  · rw [scan_cons_error (show step _ .double backquote = .error .expansion from rfl)] at scanned
    cases scanned
  · have stepped : step (s ++ [dquote]) .double dollar = .error .expansion := by
      have starts : startsExpansion (s ++ [dquote]) = true := by
        rw [startsExpansion_append, expands]
      exact if_pos (Or.inr ⟨rfl, starts⟩)
    rw [scan_cons_error stepped] at scanned
    cases scanned
  · rw [scan_cons (step_backslash _)] at scanned
    obtain ⟨rest, behind, rfl⟩ := ok_of_map scanned
    cases s with
    | nil =>
        -- the closing quote is escaped, and the text ends inside the quotes
        cases (show scan .doubleEscape [dquote] = .error .openQuote from rfl).symm.trans behind
    | cons d s =>
        obtain ⟨out, stepped, short⟩ : ∃ out,
            step (s ++ [dquote]) .doubleEscape d = .ok (out, .double) ∧
              (bytes out).length ≤ 1 := by
          by_cases line : d = newline
          · exact ⟨[], if_pos line, Nat.zero_le 1⟩
          · have escapable : isEscapable d = true := by simpa [escapes, line] using escape
            refine ⟨[.byte d], ?_, Nat.le_refl 1⟩
            rw [step, if_neg line, if_pos escapable]
        rw [List.cons_append, scan_cons stepped] at behind
        obtain ⟨rest, last, rfl⟩ := ok_of_map behind
        have others := scan_bytes last
        rw [List.length_append] at others
        show (bytes (out ++ rest)).length < s.length + 1 + 1
        rw [bytes_append, List.length_append]
        simp only [owed, held, List.length_singleton] at others
        omega

/-- A field that is not inert loses a byte at least. -/
theorem scan_active {field : List UInt8} {syms : List Symbol} (active : inert field = false)
    (scanned : scan .double (field ++ [dquote]) = .ok syms) :
    (bytes syms).length < field.length := by
  induction field generalizing syms with
  | nil => cases active
  | cons c s ih =>
      rw [List.cons_append] at scanned
      cases first : isActive c s with
      | true => exact scan_isActive first scanned
      | false =>
          have others : inert s = false := by simpa [inert, first] using active
          by_cases escape : c = backslash
          · subst escape
            cases s with
            | nil => cases others
            | cons d s =>
                have other : escapes (d :: s) = false := by
                  simpa using (isActive_eq_false first).2.2.2
                rw [List.cons_append, scan_backslash other] at scanned
                obtain ⟨rest, behind, rfl⟩ := ok_of_map scanned
                have fewer := ih others behind
                exact Nat.succ_lt_succ fewer
          · have first' : isActive c (s ++ [dquote]) = false := by
              rw [isActive, startsExpansion_append]
              simpa [isActive, escape] using first
            rw [scan_plain escape first'] at scanned
            obtain ⟨rest, behind, rfl⟩ := ok_of_map scanned
            have fewer := ih others behind
            exact Nat.succ_lt_succ fewer

/-! ### Bare words in front -/

/-- A byte that stands for itself outside quotes, also at the start of a word. -/
def isBare (c : UInt8) : Bool :=
  !(isBlank c || isOperator c || isPattern c ||
    [dquote, squote, backslash, hash, backquote, brace, tilde, dollar].contains c)

theorem step_bare {c : UInt8} (bare : isBare c = true) (next : List UInt8) (start : Bool) :
    step next (.unquoted start) c = .ok ([.byte c], .unquoted false) := by
  obtain ⟨⟨⟨noBlank, noOperator⟩, noPattern⟩, others⟩ : ((isBlank c = false ∧
      isOperator c = false) ∧ isPattern c = false) ∧
        ¬ [dquote, squote, backslash, hash, backquote, brace, tilde, dollar].contains c = true := by
    simpa [isBare] using bare
  obtain ⟨noDquote, noSquote, noBackslash, noHash, noBackquote, noBrace, noTilde, noDollar⟩ :
      c ≠ dquote ∧ c ≠ squote ∧ c ≠ backslash ∧ c ≠ hash ∧ c ≠ backquote ∧ c ≠ brace ∧
        c ≠ tilde ∧ c ≠ dollar := by
    simpa using others
  have literal : letter false c next = .literal c := by simp [letter, noPattern, noBrace, noDollar]
  simp [step, noBlank, noOperator, noDquote, noSquote, noBackslash, noHash, noBackquote, noTilde,
    noDollar, literal]

/-- A bare word and the blank behind it. -/
theorem scan_bare {w : List UInt8} (bare : w.all isBare = true) (start : Bool) (t : List UInt8) :
    scan (.unquoted start) (w ++ space :: t) =
      (scan (.unquoted true) t).map ((w.map .byte ++ [.blank]) ++ ·) := by
  induction w generalizing start with
  | nil => exact scan_cons (show step t _ space = .ok ([.blank], .unquoted true) from rfl)
  | cons c w ih =>
      obtain ⟨first, others⟩ : isBare c = true ∧ w.all isBare = true := by simpa using bare
      rw [List.cons_append, scan_cons (step_bare first _ start), ih others]
      cases scan (.unquoted true) t <;> rfl

/-- Bare words, each with a blank behind it. -/
def bareText (ws : List (List UInt8)) : List UInt8 := ws.flatMap (· ++ [space])

structure Bare (w : List UInt8) : Prop where
  some_ : w ≠ []
  bare : w.all isBare = true

def bareSymbols (ws : List (List UInt8)) : List Symbol := ws.flatMap (·.map .byte ++ [.blank])

theorem scan_bareText {ws : List (List UInt8)} (bare : ∀ w ∈ ws, Bare w) (t : List UInt8) :
    scan (.unquoted true) (bareText ws ++ t) =
      (scan (.unquoted true) t).map (bareSymbols ws ++ ·) := by
  induction ws with
  | nil =>
      show scan (.unquoted true) t = _
      cases scan (.unquoted true) t <;> rfl
  | cons w ws ih =>
      have others := ih fun w mem => bare w (List.mem_cons_of_mem _ mem)
      have text : bareText (w :: ws) ++ t = w ++ space :: (bareText ws ++ t) := by
        simp [bareText]
      have symbols : bareSymbols (w :: ws) = (w.map .byte ++ [.blank]) ++ bareSymbols ws := by
        simp [bareSymbols]
      rw [text, scan_bare (bare w List.mem_cons_self).bare, others, symbols]
      cases scan (.unquoted true) t with
      | error e => rfl
      | ok syms => exact congrArg Except.ok (List.append_assoc ..).symm

theorem words_bareSymbols {ws : List (List UInt8)} (bare : ∀ w ∈ ws, Bare w) (s : List Symbol) :
    words (bareSymbols ws ++ s) = ws.map (·.map .literal) ++ words s := by
  induction ws with
  | nil => rfl
  | cons w ws ih =>
      have symbols : bareSymbols (w :: ws) ++ s =
          (w.map .literal).map .letter ++ .blank :: (bareSymbols ws ++ s) := by
        simp [bareSymbols]
      have some_ : w.map Letter.literal ≠ [] :=
        mt List.map_eq_nil_iff.mp (bare w List.mem_cons_self).some_
      rw [symbols, words_append_blank, words_bare some_,
        ih fun w mem => bare w (List.mem_cons_of_mem _ mem)]
      rfl

theorem isPattern_letters_quoted (s : List UInt8) :
    (letters true s).any Letter.isPattern = false := by
  induction s with
  | nil => rfl
  | cons c s ih =>
      have first : (letter true c s).isPattern = false := by
        unfold letter
        split_ifs <;> first | rfl | contradiction
      rw [letters, List.any_cons, first, ih]
      rfl

/-- A field between double quotes behind bare words is read back exactly if it is inert. -/
theorem read_quoted_iff {ws : List (List UInt8)} (bare : ∀ w ∈ ws, Bare w) (field : List UInt8) :
    read (bareText ws ++ dquote :: (field ++ [dquote])) = .ok (ws ++ [field]) ↔
      inert field = true := by
  have opened : scan (.unquoted true) (dquote :: (field ++ [dquote])) =
      (scan .double (field ++ [dquote])).map ([.quote] ++ ·) := scan_cons rfl
  have front : (ws.map (·.map Letter.literal)).map text = ws := by
    simp [Function.comp_def, text_map_literal]
  rw [read, scan_bareText bare, opened]
  constructor
  · intro same
    cases inner : scan .double (field ++ [dquote]) with
    | error e =>
        rw [inner] at same
        cases same
    | ok syms =>
        simp only [inner, Except.map] at same
        split at same
        · cases same
        have split : (words (bareSymbols ws ++ .quote :: syms)).map text = ws ++ [field] :=
          Except.ok.inj same
        rw [words_bareSymbols bare, List.map_append, front] at split
        have word : (words (.quote :: syms)).map text = [field] := List.append_cancel_left split
        have kept : bytes syms = field := by
          have flat := congrArg List.flatten word
          rw [flatten_map_text, flatten_words, List.flatten_singleton] at flat
          exact flat
        cases active : inert field with
        | true => rfl
        | false =>
            have fewer := scan_active active inner
            rw [kept] at fewer
            exact absurd fewer (Nat.lt_irrefl _)
  · intro passive
    have split : words (bareSymbols ws ++
        .quote :: ((letters true field).map .letter ++ [.quote])) =
          ws.map (·.map .literal) ++ [letters true field] := by
      rw [words_bareSymbols bare, words_quoted]
    have noPattern : (ws.map (·.map Letter.literal) ++ [letters true field]).any
        (·.any Letter.isPattern) = false := by
      simp [isPattern_letters_quoted]
    rw [scan_inert passive]
    simp only [Except.map, List.singleton_append]
    rw [split, noPattern, if_neg Bool.false_ne_true, List.map_append, front]
    exact congrArg (fun w => Except.ok (ws ++ [w])) (text_letters true field)

end Wslg.Lexical.Shell
