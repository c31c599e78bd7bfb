/-
Windows paths, translated by a child process: `TranslateWindowsPath`.

The path is put between double quotes into a command line, which `popen` hands to a shell.
The shell is the reader of `Lexical.Shell`; what the child writes and how it exits is given.
The output is read in chunks of a buffer of 128 bytes, newlines are trimmed from its end,
and then the exit status is looked at.

Two things can go wrong. Backslashes, dollar signs, backquotes and quotes mean something
between double quotes (`path_reaches_wslpath_iff`). And the trim loop does not ask whether
there is a last character: `std::string::back` of an empty string is an outcome of its own,
and comes before the exit status (`translates_iff`).
-/

import Mathlib.Data.List.DropRight
import Wslg.Lexical.Shell
import Wslg.WSLGd.ProcessMonitor

namespace Wslg.WSLGd

open Wslg.Lexical

/-! ### The command line -/

/-- `commandLine` of `TranslateWindowsPath`. -/
def wslpathCommandLine (path : CxxString) : CxxString :=
  ascii "/usr/bin/wslpath -a \"" ++ path ++ ascii "\""

/-- The words `wslpath` is to be started with. -/
def wslpathWords (path : CxxString) : List CxxString :=
  [ascii "/usr/bin/wslpath", ascii "-a", path]

theorem wslpathCommandLine_eq (path : CxxString) :
    wslpathCommandLine path =
      Shell.bareText [ascii "/usr/bin/wslpath", ascii "-a"] ++
        Shell.dquote :: (path ++ [Shell.dquote]) := by
  have front : ascii "/usr/bin/wslpath -a \"" =
      Shell.bareText [ascii "/usr/bin/wslpath", ascii "-a"] ++ [Shell.dquote] := by decide
  have back : ascii "\"" = [Shell.dquote] := by decide
  rw [wslpathCommandLine, front, back, List.append_assoc, List.append_assoc]
  rfl

theorem wslpathCommandLine_nul_free {path : CxxString} (nulFree : (0 : UInt8) ∉ path) :
    (0 : UInt8) ∉ wslpathCommandLine path := by
  have front : (0 : UInt8) ∉ ascii "/usr/bin/wslpath -a \"" := by decide
  have back : (0 : UInt8) ∉ ascii "\"" := by decide
  simp [wslpathCommandLine, front, back, nulFree]

/-- The shell starts `wslpath` with the path as it is, and nothing else, exactly if no byte
of the path means anything between double quotes. -/
theorem path_reaches_wslpath_iff (path : CxxString) (nulFree : (0 : UInt8) ∉ path) :
    Shell.read (cStr (wslpathCommandLine path)) = .ok (wslpathWords path) ↔
      Shell.inert path = true := by
  have bare : ∀ w ∈ [ascii "/usr/bin/wslpath", ascii "-a"], Shell.Bare w := by
    intro w mem
    rcases List.mem_pair.mp mem with rfl | rfl
    · exact ⟨by decide, by decide⟩
    · exact ⟨by decide, by decide⟩
  rw [cStr_of_nul_free (wslpathCommandLine_nul_free nulFree), wslpathCommandLine_eq]
  exact Shell.read_quoted_iff bare path

theorem path_reaches_wslpath_iff_home :
    Shell.read (cStr (wslpathCommandLine (ascii "C:\\Users\\me"))) =
      .ok (wslpathWords (ascii "C:\\Users\\me")) :=
  (path_reaches_wslpath_iff _ (by decide)).mpr (by decide)

/-- The backslash at the end of a drive escapes the closing quote. -/
theorem drive_does_not_reach :
    (0 : UInt8) ∉ ascii "C:\\" ∧
      Shell.read (cStr (wslpathCommandLine (ascii "C:\\"))) = .error .openQuote ∧
      ¬ Shell.read (cStr (wslpathCommandLine (ascii "C:\\"))) =
        .ok (wslpathWords (ascii "C:\\")) := by
  have lost : Shell.read (cStr (wslpathCommandLine (ascii "C:\\"))) = .error .openQuote := by rfl
  refine ⟨by decide, lost, ?_⟩
  rw [lost]
  rintro ⟨⟩

/-! ### The output -/

def EINVAL : Int := 22

/-- What the child of a `popen` writes, and what `pclose` gives for it. -/
structure Child where
  output : List UInt8
  status : Int

/-- How `TranslateWindowsPath` ends. `violation` is `back` or `pop_back` of an empty
string. -/
inductive Translation where
  | returned (path : CxxString)
  | threw (errno : Int)
  | violation
deriving DecidableEq

/-- Up to `n` bytes of a stream, to the end of a line at most, and the bytes behind. -/
def takeLine : Nat → List UInt8 → CxxString × List UInt8
  | 0, stream => ([], stream)
  | _, [] => ([], [])
  | n + 1, c :: stream =>
      if c = Shell.newline then ([c], stream)
      else (c :: (takeLine n stream).1, (takeLine n stream).2)

/-- `fgets` with a buffer of this size; null at the end of the stream. -/
def fgets (size : Nat) (stream : List UInt8) : Option (CxxString × List UInt8) :=
  if stream = [] then none else some (takeLine (size - 1) stream)

/-- The `while` loop around `fgets`; no result when the fuel is used up first. -/
def readOutput : Nat → List UInt8 → CxxString → Option CxxString
  | fuel, stream, result =>
      match fgets 128 stream with
      | none => some result
      | some (buffer, stream) =>
          match fuel with
          | 0 => none
          | fuel + 1 => readOutput fuel stream (result ++ cStr buffer)

/-- The trim loop on a string given from its back; no result when it asks for the back of
an empty string. -/
def trimBack : List UInt8 → Option (List UInt8)
  | [] => none
  | c :: s => if c = Shell.newline then trimBack s else some (c :: s)

/-- `while (result.back() == '\n') result.pop_back();`. -/
def trimNewlines (result : CxxString) : Option CxxString :=
  (trimBack result.reverse).map List.reverse

/-- Everything behind a `popen` that succeeded. -/
def translateOutput (child : Child) : Option Translation :=
  (readOutput child.output.length child.output []).map fun result =>
    match trimNewlines result with
    | none => .violation
    | some result => if child.status ≠ 0 then .threw EINVAL else .returned result

/-- `TranslateWindowsPath`, by what `popen` does with the command line. -/
def translateWindowsPath (popen : CxxString → Except Int Child) (path : CxxString) :
    Option Translation :=
  match popen (cStr (wslpathCommandLine path)) with
  | .error errno => some (.threw errno)
  | .ok child => translateOutput child

theorem takeLine_append (n : Nat) (stream : List UInt8) :
    (takeLine n stream).1 ++ (takeLine n stream).2 = stream := by
  induction n generalizing stream with
  | zero => rfl
  | succ n ih =>
      cases stream with
      | nil => rfl
      | cons c stream =>
          rw [takeLine]
          split
          · rfl
          · exact congrArg (c :: ·) (ih stream)

/-- Of a stream that is not at its end a byte is taken at least. -/
theorem takeLine_ne_nil (n : Nat) {stream : List UInt8} (some_ : stream ≠ []) :
    (takeLine (n + 1) stream).1 ≠ [] := by
  cases stream with
  | nil => exact absurd rfl some_
  | cons c stream =>
      rw [takeLine]
      split <;> exact List.cons_ne_nil _ _

/-- The loop puts the chunks together again, whatever the lengths of the lines. -/
theorem readOutput_eq {fuel : Nat} {stream : List UInt8} (nulFree : (0 : UInt8) ∉ stream)
    (enough : stream.length ≤ fuel) (result : CxxString) :
    readOutput fuel stream result = some (result ++ stream) := by
  induction fuel generalizing stream result with
  | zero =>
      cases List.eq_nil_of_length_eq_zero (Nat.le_zero.mp enough)
      rw [List.append_nil]
      rfl
  | succ fuel ih =>
      by_cases ended : stream = []
      · subst ended
        rw [List.append_nil]
        rfl
      · have parts := takeLine_append 127 stream
        have some_ : (takeLine 127 stream).1 ≠ [] := takeLine_ne_nil 126 ended
        rw [readOutput, fgets, if_neg ended]
        show readOutput fuel (takeLine 127 stream).2 (result ++ cStr (takeLine 127 stream).1) = _
        rw [← parts] at nulFree
        have lengths := congrArg List.length parts
        rw [List.length_append] at lengths
        have positive := List.length_pos_iff.mpr some_
        rw [cStr_of_nul_free fun mem => nulFree (List.mem_append_left _ mem),
          ih (fun mem => nulFree (List.mem_append_right _ mem)) (by omega), List.append_assoc,
          parts]

theorem trimBack_eq (s : List UInt8) :
    trimBack s =
      if s.all (· = Shell.newline) then none else some (s.dropWhile (· = Shell.newline)) := by
  induction s with
  | nil => rfl
  | cons c s ih =>
      rw [trimBack]
      by_cases line : c = Shell.newline
      · simp [line, ih]
      · simp [line]

/-- The loop trims the newlines if it comes to another character, else it runs out of
them. -/
theorem trimNewlines_eq (result : CxxString) :
    trimNewlines result = if result.all (· = Shell.newline) then none
      else some (result.rdropWhile (· = Shell.newline)) := by
  rw [trimNewlines, trimBack_eq, List.all_reverse]
  split <;> rfl

/-- What the function is for: the output without the newlines at its end, unless the child
failed. -/
def translated (child : Child) : Translation :=
  if child.status = 0 then .returned (child.output.rdropWhile (· = Shell.newline))
  else .threw EINVAL

/-- The output is translated safely exactly if there is something else than newlines in
it. -/
theorem translates_iff (popen : CxxString → Except Int Child) (path : CxxString) (child : Child)
    (started : popen (cStr (wslpathCommandLine path)) = .ok child)
    (nulFree : (0 : UInt8) ∉ child.output) :
    translateWindowsPath popen path = some (translated child) ↔
      ∃ c ∈ child.output, c ≠ Shell.newline := by
  rw [translateWindowsPath, started]
  show translateOutput child = _ ↔ _
  rw [translateOutput, readOutput_eq nulFree (Nat.le_refl _), List.nil_append, Option.map_some,
    trimNewlines_eq]
  cases only : child.output.all (· = Shell.newline) with
  | true =>
      constructor
      · intro same
        have violates : Translation.violation = translated child := Option.some.inj same
        rw [translated] at violates
        split at violates <;> cases violates
      · rintro ⟨c, mem, other⟩
        have line : c = Shell.newline := by simpa using List.all_eq_true.mp only c mem
        exact absurd line other
  | false =>
      constructor
      · intro _
        simpa using only
      · intro _
        by_cases ok : child.status = 0
        · simp [translated, ok]
        · simp [translated, ok]

theorem translates_iff_home :
    translateWindowsPath (fun _ => .ok ⟨ascii "/mnt/c/Users/me\n", 0⟩) (ascii "C:\\Users\\me") =
      some (.returned (ascii "/mnt/c/Users/me")) :=
  (translates_iff _ _ ⟨ascii "/mnt/c/Users/me\n", 0⟩ rfl (by decide)).mpr
    ⟨0x2F, by decide, by decide⟩

/-- A child that fails without a word takes the loop past the front of the string. -/
theorem silent_failure_violates :
    translateWindowsPath (fun _ => .ok ⟨[], 1⟩) (ascii "C:\\Users\\me") = some .violation ∧
      ¬ translateWindowsPath (fun _ => .ok ⟨[], 1⟩) (ascii "C:\\Users\\me") =
        some (translated ⟨[], 1⟩) := by
  have violates : translateWindowsPath (fun _ => .ok ⟨[], 1⟩) (ascii "C:\\Users\\me") =
      some .violation := rfl
  refine ⟨violates, ?_⟩
  rw [violates]
  decide

end Wslg.WSLGd
