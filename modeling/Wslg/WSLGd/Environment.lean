/-
The environment of the daemon: `setenv` and `unsetenv`, and how `main` reads a variable.

A variable that is set is found with its new value, or with its old one where it is not to be
overridden; one that is unset is not found; others are as before (`getenv_setenv`,
`getenv_unsetenv`).
-/

import Wslg.WSLGd.Startup

namespace Wslg.WSLGd

/-! ### Setting -/

section Replace

variable (environ : Environ) (e : EnvEntry)

/-- The entry in the place of the one of its name. -/
def inPlace (f : EnvEntry) : EnvEntry := if f.name = e.name then e else f

theorem name_inPlace (f : EnvEntry) : (inPlace e f).name = f.name := by
  unfold inPlace
  split
  · rename_i same
    exact same.symm
  · rfl

/-- Another value for a name that has one. -/
def Environ.replace : Environ where
  entries := environ.entries.map (inPlace e)
  distinct := by
    rw [List.map_map]
    have names : EnvEntry.name ∘ inPlace e = EnvEntry.name := funext (name_inPlace e)
    rw [names]
    exact environ.distinct

/-- A name that has no value yet. -/
def Environ.append (absent : environ.find e.name = none) : Environ where
  entries := environ.entries ++ [e]
  distinct := by
    rw [List.map_append, List.nodup_append]
    refine ⟨environ.distinct, List.nodup_singleton _, ?_⟩
    rintro _ mem _ isName rfl
    obtain ⟨f, inside, same⟩ := List.mem_map.mp mem
    rw [List.map_singleton, List.mem_singleton] at isName
    have other := List.find?_eq_none.mp absent f inside
    simp [same, isName] at other

end Replace

/-- `setenv`. -/
def setenv (environ : Environ) (name value : CxxString) (override : Bool) : Option Environ :=
  if ok : Assignable (name, value) then
    match absent : environ.find name with
    | none => some (environ.append ⟨name, value, ok.named, ok.noEquals, ok.nulFree⟩ absent)
    | some _ =>
        some (if override then environ.replace ⟨name, value, ok.named, ok.noEquals, ok.nulFree⟩
          else environ)
  else none

def unsetenv (environ : Environ) (name : CxxString) : Environ where
  entries := environ.entries.filter (·.name ≠ name)
  distinct := environ.distinct.sublist (List.filter_sublist.map _)

theorem find_replace (environ : Environ) (e : EnvEntry) (name : CxxString) :
    (environ.replace e).find name = (environ.find name).map (inPlace e) := by
  have same : ((fun f : EnvEntry => decide (f.name = name)) ∘ inPlace e) =
      fun f => decide (f.name = name) := by
    funext f
    simp only [Function.comp_apply, name_inPlace]
  rw [Environ.find, Environ.replace, List.find?_map, same, Environ.find]

theorem find_append {environ : Environ} {e : EnvEntry} (absent : environ.find e.name = none)
    (name : CxxString) :
    (environ.append e absent).find name = if e.name = name then some e else environ.find name := by
  rw [Environ.find, Environ.append, List.find?_append]
  by_cases same : e.name = name
  · have none_ : environ.entries.find? (·.name = name) = none := by
      rw [← same]
      exact absent
    simp [none_, same]
  · simp [same, Environ.find]

/-- A variable that was set. -/
theorem getenv_setenv {environ environ' : Environ} {name value : CxxString} {override : Bool}
    (set : setenv environ name value override = some environ') (other : CxxString) :
    getenv environ' other =
      if name = other then some (if override then value else (getenv environ name).getD value)
      else getenv environ other := by
  unfold setenv at set
  split at set
  · split at set
    · rename_i absent
      cases set
      rw [getenv, find_append, getenv, absent]
      by_cases same : name = other
      · simp [same]
      · simp [same, getenv]
    · rename_i f found
      cases set
      have isName : f.name = name := by simpa using List.find?_some found
      cases override with
      | false =>
          simp only [Bool.false_eq_true, if_false]
          by_cases same : name = other
          · rw [if_pos same, ← same, getenv, found]
            rfl
          · rw [if_neg same]
      | true =>
          simp only [if_true]
          rw [getenv, find_replace]
          by_cases same : name = other
          · rw [if_pos same, ← same, found]
            simp [inPlace, isName]
          · rw [if_neg same, getenv]
            cases found' : environ.find other with
            | none => rfl
            | some g =>
                have isOther : g.name = other := by simpa using List.find?_some found'
                have differs : ¬ g.name = name := fun h => same (h.symm.trans isOther)
                simp [inPlace, differs]
  · cases set

theorem getenv_unsetenv (environ : Environ) (name other : CxxString) :
    getenv (unsetenv environ name) other =
      if name = other then none else getenv environ other := by
  rw [getenv, Environ.find, unsetenv, List.find?_filter]
  by_cases same : name = other
  · rw [if_pos same, Option.map_eq_none_iff, List.find?_eq_none]
    intro f _ both
    simp [same] at both
  · rw [if_neg same, getenv, Environ.find]
    congr 2
    funext f
    by_cases isOther : f.name = other
    · simp [isOther, Ne.symm same]
    · simp [isOther]

/-! ### Reading -/

/-- `GetEnvBool`. -/
def getEnvBool (environ : Environ) (envName : CxxString) (defaultValue : Bool) : Bool :=
  match getenv environ envName with
  | none => defaultValue
  | some s =>
      if s = ascii "true" then true
      else if s = ascii "false" then false
      else if s = ascii "1" then true
      else if s = ascii "0" then false
      else defaultValue

def isSpace (c : UInt8) : Bool := c = 0x20 || 0x09 ≤ c && c ≤ 0x0D

def isDigit (c : UInt8) : Bool := 0x30 ≤ c && c ≤ 0x39

/-- Where `strtol` of base 10 stops; without a digit it does not begin. -/
def strtolEnd (str : CxxString) : CxxString :=
  let number := str.dropWhile isSpace
  let digits := match number with
    | c :: s => if c = 0x2B || c = 0x2D then s else number
    | [] => []
  if (digits.takeWhile isDigit) = [] then str else digits.dropWhile isDigit

/-- `IsNumeric`. -/
def isNumeric : Option CxxString → Bool
  | none => false
  | some str => strtolEnd str = []

end Wslg.WSLGd
