/-
The command line of a shortcut.

`OnUpdateAppList` joins the provider, the working directory and the command into
`-d <provider> --cd "<dir>" -- <command>`. `OnCaps` keeps quotes and spaces out of the
provider and `OnUpdateAppList` quotes out of the working directory. What starts the
shortcut splits the line by `windowsArguments`, which also knows the tab and the
backslash: `unbroken_iff` says which fields come back as they were.
-/

import Wslg.Client.Disk
import Wslg.Client.Steps
import Wslg.Lexical.Arguments

namespace Wslg.Client

open Wslg.LittleEndian Wslg.Protocol Wslg.StateExcept Wslg.Lexical

variable {ω : Type} {os : Os ω}

def tab : WCHAR := 0x09

/-- How Windows splits a command line: at spaces and tabs. -/
def windowsArguments : ArgumentSyntax WCHAR where
  sep c := c = space ∨ c = tab
  quote := quote
  escape := backslash
  quote_ne_escape := by decide
  quote_not_sep := by decide
  escape_not_sep := by decide

/-- The directory of the command line: the one that was sent, or `~`. -/
def UpdateAppListPdu.commandDir (u : UpdateAppListPdu) : WStr :=
  if u.appWorkingDir.length ≠ 0 then u.appWorkingDir.str else wide "~"

/-- The arguments in front of the command, and the command behind `-- `, come back from
the command line of an update. -/
def Unbroken (cb : Callback) (u : UpdateAppListPdu) : Prop :=
  windowsArguments.takeArguments 5 (exeArgsOf cb u) =
    some ([wide "-d", cb.appProvider.str, wide "--cd", u.commandDir, wide "--"],
      space :: u.appExecPath.str)

instance (cb : Callback) (u : UpdateAppListPdu) : Decidable (Unbroken cb u) :=
  inferInstanceAs (Decidable (_ = _))

/-- The command line, field by field. -/
theorem exeArgsOf_eq (cb : Callback) (u : UpdateAppListPdu) :
    exeArgsOf cb u = wide "-d" ++ space :: (cb.appProvider.str ++ space :: (wide "--cd" ++
      space :: quote :: (u.commandDir ++ quote :: space :: (wide "--" ++
        space :: u.appExecPath.str)))) := by
  have parts : wide "-d " = wide "-d" ++ [space] ∧
      wide " --cd \"" = space :: (wide "--cd" ++ [space, quote]) ∧
      wide "\" -- " = quote :: space :: (wide "--" ++ [space]) := by decide
  rw [exeArgsOf, parts.1, parts.2.1, parts.2.2, UpdateAppListPdu.commandDir]
  simp only [List.append_assoc, List.cons_append, List.nil_append]

theorem not_mem_of_wcsstr {s : WStr} {c : WCHAR} (free : wcsstr s [c] = false) : c ∉ s :=
  fun mem => of_decide_eq_false free ((List.singleton_infix_iff c s).mpr mem)

theorem commandDir_unquoted {u : UpdateAppListPdu} (plain : u.PlainNames) :
    quote ∉ u.commandDir := by
  rw [UpdateAppListPdu.commandDir]
  split
  · exact not_mem_of_wcsstr plain.appWorkingDir
  · decide

/-- An update that returns `S_OK` has passed the filters on its names. -/
theorem plainNames_of_applied {t : Step ω} {u : UpdateAppListPdu}
    (taken : Runs.Taken (step os) t) (applied : Applied os t u) : u.PlainNames := by
  have arrived_ := applied.2
  cases did_of_taken taken with
  | published ok update did =>
      rw [updateOf, update] at arrived_
      cases arrived_
      exact did.plain
  | rejected failed => exact absurd applied.1 failed
  | closed input =>
      rw [updateOf, arrived, input] at arrived_
      cases arrived_
  | spared input noUpdate =>
      rw [updateOf, noUpdate] at arrived_
      cases arrived_

theorem not_sep_iff_no_tab {name : WStr} (noSpace : space ∉ name) :
    (∀ x ∈ name, windowsArguments.sep x = false) ↔ tab ∉ name := by
  constructor
  · intro all mem
    exact absurd (all tab mem) (by decide)
  · intro noTab x mem
    apply decide_eq_false
    rintro (rfl | rfl)
    · exact noSpace mem
    · exact noTab mem

/-- A word of characters that are neither quotes nor white space. -/
theorem bare_of_all {word : WStr}
    (all : (word.all fun x => decide (x ≠ windowsArguments.quote) && !windowsArguments.sep x) =
      true) : ∀ x ∈ word, x ≠ windowsArguments.quote ∧ windowsArguments.sep x = false := by
  intro x mem
  simpa using List.all_eq_true.mp all x mem

/-- The fields of an update's command line come back exactly if the provider has a name
without tabs and the directory does not end in a backslash. -/
theorem unbroken_iff (os : Os ω) {t : Step ω} {u : UpdateAppListPdu}
    (taken : Runs.Taken (step os) t) (applied : Applied os t u)
    (accepted : PlainProvider t.before.cb.appProvider.str) :
    Unbroken t.before.cb u ↔
      (t.before.cb.appProvider.str ≠ [] ∧ tab ∉ t.before.cb.appProvider.str) ∧
        u.commandDir.getLast? ≠ some backslash := by
  obtain ⟨-, noQuote, noSpace⟩ := accepted
  have words : (∀ x ∈ wide "-d", x ≠ windowsArguments.quote ∧ windowsArguments.sep x = false) ∧
      (∀ x ∈ wide "--cd", x ≠ windowsArguments.quote ∧ windowsArguments.sep x = false) ∧
      ∀ x ∈ wide "--", x ≠ windowsArguments.quote ∧ windowsArguments.sep x = false :=
    ⟨bare_of_all (by decide), bare_of_all (by decide), bare_of_all (by decide)⟩
  have sep : windowsArguments.sep space = true := by decide
  -- the line is peeled field by field
  have dir : windowsArguments.takeArguments 2
        (quote :: (u.commandDir ++ quote :: space :: (wide "--" ++ space :: u.appExecPath.str))) =
      some ([u.commandDir, wide "--"], space :: u.appExecPath.str) ↔
        u.commandDir.getLast? ≠ some backslash := by
    refine (ArgumentSyntax.takeArguments_quoted sep
      (commandDir_unquoted (plainNames_of_applied taken applied))).trans ?_
    rw [ArgumentSyntax.takeArguments_sep sep,
      ArgumentSyntax.takeArguments_bare sep (by decide) words.2.2]
    exact and_iff_left rfl
  rw [Unbroken, exeArgsOf_eq, ArgumentSyntax.takeArguments_bare sep (by decide) words.1,
    ArgumentSyntax.takeArguments_sep sep,
    ArgumentSyntax.takeArguments_unquoted sep sep (by decide) words.2.1
      (not_mem_of_wcsstr noQuote),
    not_sep_iff_no_tab (not_mem_of_wcsstr noSpace), ArgumentSyntax.takeArguments_sep sep,
    ArgumentSyntax.takeArguments_bare sep (by decide) words.2.1,
    ArgumentSyntax.takeArguments_sep sep]
  exact and_congr_right fun _ => dir

/-- An update with a working directory. -/
def updateIn (dir : String) : Event Disk :=
  .pdu cmdIdUpdateAppList (.of (word32 (fieldId ||| fieldExecPath ||| fieldWorkingDir |||
    fieldDesc) ++ (pduText "a" ++ (pduText "x" ++ (pduText dir ++ pduText "A")))))

/-- The first update of a channel, by the provider `U`. -/
def placed (dir : String) : Step Disk :=
  Runs.take (step diskOs) (Runs.finish (step diskOs) (.fresh {}) [caps "U"]) (updateIn dir)

theorem unbroken_iff_placed : ∃ u, Applied diskOs (placed "/a b\\c") u ∧
    u.commandDir = wide "/a b\\c" ∧ Unbroken (placed "/a b\\c").before.cb u := by
  have read : ∃ u ∈ updateOf diskOs (placed "/a b\\c"), u.commandDir = wide "/a b\\c" := by
    decide +kernel
  obtain ⟨u, isUpdate, dir⟩ := read
  have applied : Applied diskOs (placed "/a b\\c") u := ⟨by decide +kernel, isUpdate⟩
  refine ⟨u, applied, dir, (unbroken_iff diskOs (Runs.taken_take _ _) applied ?_).mpr ⟨?_, ?_⟩⟩
  · decide +kernel
  · decide +kernel
  · rw [dir]
    decide

/-- In a directory that ends in a backslash the closing quote is a character, and the
command is part of the directory. -/
theorem backslash_breaks_out : ∃ u, Applied diskOs (placed "/a\\") u ∧
    PlainProvider (placed "/a\\").before.cb.appProvider.str ∧
    windowsArguments.takeArguments 4 (exeArgsOf (placed "/a\\").before.cb u) =
      some ([wide "-d", wide "U", wide "--cd", wide "/a\" -- x"], []) ∧
    ¬ Unbroken (placed "/a\\").before.cb u := by
  have read : ∃ u ∈ updateOf diskOs (placed "/a\\"),
      windowsArguments.takeArguments 4 (exeArgsOf (placed "/a\\").before.cb u) =
        some ([wide "-d", wide "U", wide "--cd", wide "/a\" -- x"], []) ∧
      ¬ Unbroken (placed "/a\\").before.cb u := by decide +kernel
  obtain ⟨u, isUpdate, split, broken⟩ := read
  exact ⟨u, ⟨by decide +kernel, isUpdate⟩, by decide +kernel, split, broken⟩

end Wslg.Client
