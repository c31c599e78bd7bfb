/-
What `main` prepares before it launches the compositor: a vsock port and an environment.

The port is searched from 1 up to the end of the reserved range. The loop keeps the port it
tries in the address, and the check behind the loop looks for a port the loop never tries
(`stops_soundly_iff`).

The environment of a child is the daemon's own, followed by the entries that `main` adds.
Three of these are meant as defaults for settings the user did not make. One of them is
written as two entries (`settings_win_iff`).
-/

import Mathlib.Data.List.Nodup
import Wslg.WSLGd.ProcessMonitor
import Wslg.WSLGd.WindowsPath

namespace Wslg.WSLGd

/-! ### The vsock port -/

/-- `MAX_RESERVED_PORT`. -/
def maxReservedPort : Nat := 1024

def EADDRINUSE : Int := 98

/-- How a call of `bind` ends. -/
inductive BindResult where
  | bound
  | failed (errno : Int)
deriving DecidableEq

/-- The `for` loop with `left` turns to go: `address.svm_port` behind it, or the error that
was thrown. -/
def bindLoop (bind : Nat → BindResult) : Nat → Nat → Except Int Nat
  | 0, svmPort => .ok svmPort
  | left + 1, _ =>
      let port := maxReservedPort - (left + 1)
      match bind port with
      | .bound => .ok port
      | .failed errno =>
          if errno ≠ EADDRINUSE then .error errno else bindLoop bind left port

/-- The loop from port 1 on and the range check behind it. -/
def reservePort (bind : Nat → BindResult) : Except Int Nat :=
  match bindLoop bind (maxReservedPort - 1) 0 with
  | .error errno => .error errno
  | .ok svmPort => if svmPort = maxReservedPort then .error EINVAL else .ok svmPort

/-- The ports of the reserved range. -/
def Reserved (port : Nat) : Prop := 1 ≤ port ∧ port < maxReservedPort

/-- Every reserved port is in use. -/
def Exhausted (bind : Nat → BindResult) : Prop :=
  ∀ port, Reserved port → bind port = .failed EADDRINUSE

/-- What the search is for. -/
structure StopsSoundly (bind : Nat → BindResult) : Prop where
  passed : ∀ svmPort, reservePort bind = .ok svmPort →
    Reserved svmPort ∧ bind svmPort = .bound ∧
      ∀ port, Reserved port → bind port = .bound → svmPort ≤ port
  exhausted : Exhausted bind → reservePort bind = .error EINVAL

/-- A loop that begins at port `start` stops at the first one that is not in use; behind the
last one the address still has that. -/
inductive Searched (bind : Nat → BindResult) (start : Nat) : Except Int Nat → Prop where
  | bound {port : Nat} (from_ : start ≤ port) (inside : port < maxReservedPort)
      (before : ∀ p, start ≤ p → p < port → bind p = .failed EADDRINUSE)
      (bound : bind port = .bound) : Searched bind start (.ok port)
  | failed {port : Nat} {errno : Int} (from_ : start ≤ port) (inside : port < maxReservedPort)
      (failed : bind port = .failed errno) (other : errno ≠ EADDRINUSE) :
      Searched bind start (.error errno)
  | exhausted {last : Nat} (last_ : last + 1 = maxReservedPort)
      (inUse : ∀ p, start ≤ p → p < maxReservedPort → bind p = .failed EADDRINUSE) :
      Searched bind start (.ok last)

/-- A port in use is passed over. -/
theorem Searched.cons {bind : Nat → BindResult} {start : Nat} {r : Except Int Nat}
    (inUse : bind start = .failed EADDRINUSE) (searched : Searched bind (start + 1) r) :
    Searched bind start r := by
  have here : ∀ {q : Nat}, (∀ p, start + 1 ≤ p → p < q → bind p = .failed EADDRINUSE) →
      ∀ p, start ≤ p → p < q → bind p = .failed EADDRINUSE := by
    intro q later p from_ below
    rcases Nat.eq_or_lt_of_le from_ with rfl | after
    · exact inUse
    · exact later p after below
  cases searched with
  | bound from_ inside before bound =>
      exact .bound (Nat.le_of_succ_le from_) inside (here before) bound
  | failed from_ inside failed other =>
      exact .failed (Nat.le_of_succ_le from_) inside failed other
  | exhausted last_ inUse => exact .exhausted last_ (here inUse)

theorem searched_bindLoop (bind : Nat → BindResult) {left svmPort : Nat}
    (last : svmPort + 1 + left = maxReservedPort) :
    Searched bind (svmPort + 1) (bindLoop bind left svmPort) := by
  induction left generalizing svmPort with
  | zero =>
      apply Searched.exhausted last
      intro p from_ below
      omega
  | succ left ih =>
      have port : maxReservedPort - (left + 1) = svmPort + 1 := by omega
      rw [bindLoop, port]
      cases result : bind (svmPort + 1) with
      | bound =>
          apply Searched.bound (Nat.le_refl _) (by omega) _ result
          intro p from_ below
          exact absurd from_ (Nat.not_le.mpr below)
      | failed errno =>
          by_cases other : errno ≠ EADDRINUSE
          · simp only [if_pos other]
            exact .failed (Nat.le_refl _) (by omega) result other
          · simp only [if_neg other]
            rw [not_not] at other
            exact .cons (other ▸ result) (ih (by omega))

theorem searched_reserved (bind : Nat → BindResult) :
    Searched bind 1 (bindLoop bind (maxReservedPort - 1) 0) := searched_bindLoop bind rfl

/-- A port is the first one that `bind` gives. -/
structure FirstFree (bind : Nat → BindResult) (svmPort : Nat) : Prop where
  reserved : Reserved svmPort
  bound : bind svmPort = .bound
  before : ∀ port, Reserved port → port < svmPort → bind port = .failed EADDRINUSE

/-- A port that passes the check and was bound is the first free one. -/
theorem firstFree_of_bound {bind : Nat → BindResult} {svmPort : Nat}
    (passed : reservePort bind = .ok svmPort) (bound : bind svmPort = .bound) :
    FirstFree bind svmPort := by
  have searched := searched_reserved bind
  obtain ⟨r, loop⟩ : ∃ r, bindLoop bind (maxReservedPort - 1) 0 = r := ⟨_, rfl⟩
  rw [reservePort, loop] at passed
  rw [loop] at searched
  cases searched with
  | bound from_ inside before here =>
      simp only at passed
      split at passed
      · cases passed
      · cases passed
        exact ⟨⟨from_, inside⟩, here, fun p reserved below => before p reserved.1 below⟩
  | failed => cases passed
  | @exhausted last last_ inUse =>
      simp only at passed
      split at passed
      · cases passed
      · cases passed
        cases bound.symm.trans (inUse svmPort (by rw [maxReservedPort] at last_; omega) (by omega))

/-- The search stops with a bound port or an error exactly if a reserved port is not in
use. -/
theorem stops_soundly_iff (bind : Nat → BindResult) : StopsSoundly bind ↔ ¬ Exhausted bind := by
  have searched := searched_reserved bind
  obtain ⟨r, loop⟩ : ∃ r, bindLoop bind (maxReservedPort - 1) 0 = r := ⟨_, rfl⟩
  rw [loop] at searched
  constructor
  · intro sound exhausted
    have stopped := sound.exhausted exhausted
    rw [reservePort, loop] at stopped
    cases searched with
    | @bound port from_ inside before bound =>
        cases bound.symm.trans (exhausted port ⟨from_, inside⟩)
    | @failed port errno from_ inside failed other =>
        cases failed.symm.trans (exhausted port ⟨from_, inside⟩)
        exact other rfl
    | @exhausted last last_ inUse =>
        have low : last ≠ maxReservedPort := by omega
        simp only [if_neg low] at stopped
        cases stopped
  · intro free
    constructor
    · intro svmPort passed
      rw [reservePort, loop] at passed
      cases searched with
      | @bound port from_ inside before bound =>
          have low : port ≠ maxReservedPort := Nat.ne_of_lt inside
          simp only [if_neg low] at passed
          cases passed
          refine ⟨⟨from_, inside⟩, bound, fun p reserved other => ?_⟩
          by_contra smaller
          cases other.symm.trans (before p reserved.1 (Nat.lt_of_not_le smaller))
      | failed => cases passed
      | exhausted last_ inUse => exact absurd (fun p reserved => inUse p reserved.1 reserved.2) free
    · intro exhausted
      exact absurd exhausted free

/-- With every port in use the check lets the last one pass. -/
theorem exhausted_passes :
    Exhausted (fun _ => .failed EADDRINUSE) ∧
      reservePort (fun _ => .failed EADDRINUSE) = .ok 1023 ∧
      ¬ StopsSoundly fun _ => .failed EADDRINUSE := by
  have passes : reservePort (fun _ => .failed EADDRINUSE) = .ok 1023 := by decide +kernel
  refine ⟨fun _ _ => rfl, passes, fun sound => ?_⟩
  cases (sound.passed 1023 passes).2.1

/-! ### The environment of a child -/

/-- `=`. -/
def equals : UInt8 := 0x3D

/-- An entry `NAME=VALUE` of an environment. -/
structure EnvEntry where
  name : CxxString
  value : CxxString
  named : name ≠ []
  noEquals : equals ∉ name
  nulFree : (0 : UInt8) ∉ name ++ value

def EnvEntry.str (e : EnvEntry) : CxxString := e.name ++ equals :: e.value

/-- An environment: entries with distinct names. -/
structure Environ where
  entries : List EnvEntry
  distinct : (entries.map EnvEntry.name).Nodup

/-- The entry of a name. -/
def Environ.find (environ : Environ) (name : CxxString) : Option EnvEntry :=
  environ.entries.find? (·.name = name)

def getenv (environ : Environ) (name : CxxString) : Option CxxString :=
  (environ.find name).map EnvEntry.value

/-- The environment array `LaunchProcess` passes to `execvpe`: what `environ` has, and the
strings of `env` that are not empty. -/
def environments (environ : Environ) (env : List CxxString) : List CxxString :=
  environ.entries.map EnvEntry.str ++ (env.filter (· ≠ [])).map cStr

/-- A digit of `%X`. -/
def hexDigit (n : Nat) : UInt8 := if n < 10 then UInt8.ofNat (0x30 + n) else UInt8.ofNat (0x37 + n)

/-- `%08X`. -/
def hex8 (v : UInt32) : CxxString :=
  (List.range 8).map fun i => hexDigit (v.toNat >>> (28 - 4 * i) % 16)

/-- `ToServiceId`: the string has the NUL of `snprintf` at its end. -/
def toServiceId (port : UInt32) : CxxString :=
  hex8 port ++ ascii "-FACB-11E6-BD58-64006A7986D3" ++ [0]

/-- The `env` argument of the launch of `wsland`. The operand of the comma behind `? :` is an
element of its own. -/
def wslandEnv (environ : Environ) (socketFd : Int) (svmPort : UInt32) : List CxxString :=
  [ascii "USE_VSOCK=" ++ ascii (toString socketFd),
    ascii "WSLG_SERVICE_ID=" ++ toServiceId svmPort,
    ascii "WSLGD_NOTIFY_SOCKET=/mnt/wslg/wsland-notify.sock",
    ascii "WSLAND_DISABLE_ABSTRACT_FD=1",
    (getenv environ (ascii "WLOG_APPENDER")).getD [],
    ascii "WLOG_APPENDER=file",
    if (getenv environ (ascii "WLOG_FILEAPPENDER_OUTPUT_FILE_NAME")).isSome then []
    else ascii "WLOG_FILEAPPENDER_OUTPUT_FILE_NAME=wlog.log",
    if (getenv environ (ascii "WLOG_FILEAPPENDER_OUTPUT_FILE_PATH")).isSome then []
    else ascii "WLOG_FILEAPPENDER_OUTPUT_FILE_PATH=/mnt/wslg"]

/-- An entry of a name. -/
def Names (name s : CxxString) : Prop := name ++ [equals] <+: s

instance (name s : CxxString) : Decidable (Names name s) := inferInstanceAs (Decidable (_ <+: _))

/-- The settings a user can make, with the defaults. -/
def wlogSettings : List (CxxString × CxxString) :=
  [(ascii "WLOG_APPENDER", ascii "file"),
    (ascii "WLOG_FILEAPPENDER_OUTPUT_FILE_NAME", ascii "wlog.log"),
    (ascii "WLOG_FILEAPPENDER_OUTPUT_FILE_PATH", ascii "/mnt/wslg")]

/-- The daemon's own entry of a name, or else one with the default. -/
def setting (environ : Environ) (name default_ : CxxString) : CxxString :=
  ((environ.find name).map EnvEntry.str).getD (name ++ equals :: default_)

/-- Every string of an array is an entry, and each setting has exactly one, the user's if
there is one. -/
structure SettingsWin (environ : Environ) (array : List CxxString) : Prop where
  entries : ∀ s ∈ array, ∃ e : EnvEntry, s = e.str
  settings : ∀ d ∈ wlogSettings, array.filter (Names d.1) = [setting environ d.1 d.2]

/-! ### Entries by name -/

/-- `NAME=VALUE`. -/
def assign (d : CxxString × CxxString) : CxxString := d.1 ++ equals :: d.2

/-- A name and a value that make an entry. -/
structure Assignable (d : CxxString × CxxString) : Prop where
  named : d.1 ≠ []
  noEquals : equals ∉ d.1
  nulFree : (0 : UInt8) ∉ d.1 ++ d.2

instance (d : CxxString × CxxString) : Decidable (Assignable d) :=
  decidable_of_iff (d.1 ≠ [] ∧ equals ∉ d.1 ∧ (0 : UInt8) ∉ d.1 ++ d.2)
    ⟨fun h => ⟨h.1, h.2.1, h.2.2⟩, fun h => ⟨h.named, h.noEquals, h.nulFree⟩⟩

theorem Assignable.entry {d : CxxString × CxxString} (assignable : Assignable d) :
    ∃ e : EnvEntry, assign d = e.str :=
  ⟨⟨d.1, d.2, assignable.named, assignable.noEquals, assignable.nulFree⟩, rfl⟩

/-- A name ends at the first `=`. -/
theorem takeWhile_assign {name : CxxString} (noEquals : equals ∉ name) (value : CxxString) :
    (name ++ equals :: value).takeWhile (· ≠ equals) = name := by
  rw [List.takeWhile_append_of_pos]
  · simp
  · intro c mem
    have other : c ≠ equals := fun same => noEquals (same ▸ mem)
    simpa using other

theorem names_assign_iff {name other : CxxString} (noEquals : equals ∉ name)
    (noEquals' : equals ∉ other) (value : CxxString) :
    Names name (other ++ equals :: value) ↔ other = name := by
  constructor
  · rintro ⟨rest, same⟩
    rw [List.append_assoc, List.singleton_append] at same
    rw [← takeWhile_assign noEquals' value, ← same, takeWhile_assign noEquals rest]
  · rintro rfl
    exact ⟨value, by simp⟩

/-- The entries of a name, found by the name. -/
theorem filter_map_names {α : Type} {str : α → CxxString} {nameOf : α → CxxString}
    {name : CxxString} {entries : List α}
    (names : ∀ e ∈ entries, Names name (str e) ↔ nameOf e = name) :
    (entries.map str).filter (Names name) = (entries.filter (nameOf · = name)).map str := by
  rw [List.filter_map]
  apply congrArg (List.map str)
  apply List.filter_congr
  intro e mem
  exact decide_eq_decide.mpr (names e mem)

theorem filter_distinct {entries : List EnvEntry}
    (distinct : (entries.map EnvEntry.name).Nodup) (name : CxxString) :
    entries.filter (·.name = name) = (entries.find? (·.name = name)).toList := by
  induction entries with
  | nil => rfl
  | cons e rest ih =>
      rw [List.map_cons, List.nodup_cons] at distinct
      by_cases here : e.name = name
      · have later : rest.filter (·.name = name) = [] := by
          rw [List.filter_eq_nil_iff]
          intro other mem
          have apart : other.name ≠ name := fun same =>
            distinct.1 (List.mem_map.mpr ⟨other, mem, same.trans here.symm⟩)
          simpa using apart
        simp [here, later]
      · simpa [here] using ih distinct.2

theorem filter_entries (environ : Environ) {name : CxxString} (noEquals : equals ∉ name) :
    (environ.entries.map EnvEntry.str).filter (Names name) =
      ((environ.find name).map EnvEntry.str).toList := by
  rw [filter_map_names fun e _ => names_assign_iff noEquals e.noEquals e.value,
    filter_distinct environ.distinct, Environ.find]
  cases environ.entries.find? (·.name = name) <;> rfl

/-! ### What a launch adds -/

/-- The strings of `env` in the array. -/
def added (env : List CxxString) : List CxxString := (env.filter (· ≠ [])).map cStr

theorem filter_environments (environ : Environ) (env : List CxxString) {name : CxxString}
    (noEquals : equals ∉ name) :
    (environments environ env).filter (Names name) =
      ((environ.find name).map EnvEntry.str).toList ++ (added env).filter (Names name) := by
  rw [environments, List.filter_append, filter_entries environ noEquals, added]

theorem added_empty (env : List CxxString) : added ([] :: env) = added env := rfl

/-- An entry is added up to its first NUL. -/
theorem added_cut {name : CxxString} (nulFree : (0 : UInt8) ∉ name) (value : CxxString)
    (env : List CxxString) :
    added ((name ++ equals :: value) :: env) = assign (name, cStr value) :: added env := by
  have cut : cStr (name ++ equals :: value) = assign (name, cStr value) := by
    rw [cStr, List.takeWhile_append_of_pos]
    · rfl
    · intro c mem
      have other : c ≠ 0 := fun nul => nulFree (nul ▸ mem)
      simpa using other
  simp [added, cut]

theorem added_cons {d : CxxString × CxxString} (assignable : Assignable d)
    (env : List CxxString) : added (assign d :: env) = assign d :: added env := by
  have name : (0 : UInt8) ∉ d.1 := fun mem =>
    assignable.nulFree (List.mem_append_left _ mem)
  have value : (0 : UInt8) ∉ d.2 := fun mem =>
    assignable.nulFree (List.mem_append_right _ mem)
  rw [assign, added_cut name, cStr_of_nul_free value]
  rfl

/-- An entry behind a `? ""`. -/
theorem added_unless {d : CxxString × CxxString} (assignable : Assignable d) (made : Bool)
    (env : List CxxString) :
    added ((if made then [] else assign d) :: env) =
      (if made then [] else [assign d]) ++ added env := by
  cases made with
  | true => rfl
  | false => exact added_cons assignable env

theorem nul_free_cStr (s : CxxString) : (0 : UInt8) ∉ cStr s := by
  intro mem
  simpa using List.mem_takeWhile_imp mem

/-! ### The launch of wsland -/

/-- The entries the launch is to add: its own, and the settings the user did not make. -/
def wslandEntries (environ : Environ) (socketFd : Int) (svmPort : UInt32) :
    List (CxxString × CxxString) :=
  [(ascii "USE_VSOCK", cStr (ascii (toString socketFd))),
    (ascii "WSLG_SERVICE_ID", cStr (toServiceId svmPort)),
    (ascii "WSLGD_NOTIFY_SOCKET", ascii "/mnt/wslg/wsland-notify.sock"),
    (ascii "WSLAND_DISABLE_ABSTRACT_FD", ascii "1")] ++
  wlogSettings.filter (fun d => getenv environ d.1 = none)

theorem assignable_of_wlogSettings {d : CxxString × CxxString} (mem : d ∈ wlogSettings) :
    Assignable d := by
  have all : ∀ d ∈ wlogSettings, Assignable d := by decide
  exact all d mem

theorem assignable_cStr {name : CxxString} (assignable : Assignable (name, []))
    (value : CxxString) : Assignable (name, cStr value) := by
  obtain ⟨named, noEquals, nulFree⟩ := assignable
  rw [List.append_nil] at nulFree
  refine ⟨named, noEquals, fun both => ?_⟩
  exact (List.mem_append.mp both).elim nulFree (nul_free_cStr value)

theorem assignable_of_wslandEntries {environ : Environ} {socketFd : Int} {svmPort : UInt32}
    {d : CxxString × CxxString} (mem : d ∈ wslandEntries environ socketFd svmPort) :
    Assignable d := by
  rw [wslandEntries, List.mem_append] at mem
  rcases mem with mem | mem
  · simp only [List.mem_cons, List.not_mem_nil, or_false] at mem
    rcases mem with rfl | rfl | rfl | rfl
    · exact assignable_cStr (by decide) _
    · exact assignable_cStr (by decide) _
    · decide
    · decide
  · exact assignable_of_wlogSettings (List.mem_filter.mp mem).1

/-- Without an appender of the user's the launch adds these and nothing else. -/
theorem added_wslandEnv {environ : Environ} (unset : getenv environ (ascii "WLOG_APPENDER") = none)
    (socketFd : Int) (svmPort : UInt32) :
    added (wslandEnv environ socketFd svmPort) =
      (wslandEntries environ socketFd svmPort).map assign := by
  have vsock : ascii "USE_VSOCK=" = ascii "USE_VSOCK" ++ [equals] := by decide
  have service : ascii "WSLG_SERVICE_ID=" = ascii "WSLG_SERVICE_ID" ++ [equals] := by decide
  have notify : ascii "WSLGD_NOTIFY_SOCKET=/mnt/wslg/wsland-notify.sock" =
      assign (ascii "WSLGD_NOTIFY_SOCKET", ascii "/mnt/wslg/wsland-notify.sock") := by decide
  have abstract : ascii "WSLAND_DISABLE_ABSTRACT_FD=1" =
      assign (ascii "WSLAND_DISABLE_ABSTRACT_FD", ascii "1") := by decide
  have appender : ascii "WLOG_APPENDER=file" = assign (ascii "WLOG_APPENDER", ascii "file") := by
    decide
  have name : ascii "WLOG_FILEAPPENDER_OUTPUT_FILE_NAME=wlog.log" =
      assign (ascii "WLOG_FILEAPPENDER_OUTPUT_FILE_NAME", ascii "wlog.log") := by decide
  have path : ascii "WLOG_FILEAPPENDER_OUTPUT_FILE_PATH=/mnt/wslg" =
      assign (ascii "WLOG_FILEAPPENDER_OUTPUT_FILE_PATH", ascii "/mnt/wslg") := by decide
  have wlog : ∀ d ∈ wlogSettings, Assignable d := fun d => assignable_of_wlogSettings
  simp only [wlogSettings, List.forall_mem_cons] at wlog
  rw [wslandEnv, vsock, service, notify, abstract, appender, name, path, unset, Option.getD_none,
    List.append_assoc, List.append_assoc, List.singleton_append, List.singleton_append,
    added_cut (by decide), added_cut (by decide), added_cons (by decide), added_cons (by decide),
    added_empty, added_cons wlog.1, added_unless wlog.2.1, added_unless wlog.2.2.1]
  simp only [wslandEntries, wlogSettings, List.filter_cons, List.filter_nil, unset, decide_true,
    if_true]
  cases getenv environ (ascii "WLOG_FILEAPPENDER_OUTPUT_FILE_NAME") <;>
    cases getenv environ (ascii "WLOG_FILEAPPENDER_OUTPUT_FILE_PATH") <;> rfl

/-- One entry of each setting that is not made. -/
theorem filter_wslandEntries (environ : Environ) (socketFd : Int) (svmPort : UInt32)
    {d : CxxString × CxxString} (mem : d ∈ wlogSettings) :
    (wslandEntries environ socketFd svmPort).filter (·.1 = d.1) =
      if getenv environ d.1 = none then [d] else [] := by
  have alone : ∀ d ∈ wlogSettings, wlogSettings.filter (·.1 = d.1) = [d] := by decide
  have others : ∀ d ∈ wlogSettings, ascii "USE_VSOCK" ≠ d.1 ∧ ascii "WSLG_SERVICE_ID" ≠ d.1 ∧
      ascii "WSLGD_NOTIFY_SOCKET" ≠ d.1 ∧ ascii "WSLAND_DISABLE_ABSTRACT_FD" ≠ d.1 := by decide
  obtain ⟨vsock, service, notify, abstract⟩ := others d mem
  rw [wslandEntries, List.filter_append, List.filter_comm, alone d mem]
  simp [List.filter_cons, vsock, service, notify, abstract]

theorem filter_map_wslandEntries {environ : Environ} {socketFd : Int} {svmPort : UInt32}
    {d : CxxString × CxxString} (mem : d ∈ wlogSettings) :
    ((wslandEntries environ socketFd svmPort).map assign).filter (Names d.1) =
      if getenv environ d.1 = none then [assign d] else [] := by
  have noEquals : equals ∉ d.1 := (assignable_of_wlogSettings mem).noEquals
  have names : ∀ e ∈ wslandEntries environ socketFd svmPort,
      Names d.1 (assign e) ↔ e.1 = d.1 := by
    intro e entry
    exact names_assign_iff noEquals (assignable_of_wslandEntries entry).noEquals e.2
  rw [filter_map_names names, filter_wslandEntries environ socketFd svmPort mem]
  split <;> rfl

/-- The user's settings win exactly if the user did not choose an appender. -/
theorem settings_win_iff (environ : Environ) (socketFd : Int) (svmPort : UInt32) :
    SettingsWin environ (environments environ (wslandEnv environ socketFd svmPort)) ↔
      getenv environ (ascii "WLOG_APPENDER") = none := by
  constructor
  · intro win
    by_contra made
    obtain ⟨own, found⟩ : ∃ own, environ.find (ascii "WLOG_APPENDER") = some own := by
      cases found : environ.find (ascii "WLOG_APPENDER") with
      | none => exact absurd (by rw [getenv, found]; rfl) made
      | some own => exact ⟨own, rfl⟩
    have one := win.settings (ascii "WLOG_APPENDER", ascii "file") List.mem_cons_self
    rw [filter_environments environ _ (by decide), found] at one
    -- The default is in the array next to the user's entry.
    have default_ : ascii "WLOG_APPENDER=file" ∈
        (added (wslandEnv environ socketFd svmPort)).filter (Names (ascii "WLOG_APPENDER")) := by
      refine List.mem_filter.mpr ⟨List.mem_map.mpr ⟨ascii "WLOG_APPENDER=file", ?_, by decide⟩,
        by decide⟩
      exact List.mem_filter.mpr ⟨by simp [wslandEnv], by decide⟩
    have none_ : (added (wslandEnv environ socketFd svmPort)).filter
        (Names (ascii "WLOG_APPENDER")) = [] := by
      simpa [setting, found] using one
    rw [none_] at default_
    cases default_
  · intro unset
    constructor
    · intro s mem
      rw [environments, List.mem_append] at mem
      rcases mem with mem | mem
      · obtain ⟨e, _, rfl⟩ := List.mem_map.mp mem
        exact ⟨e, rfl⟩
      · rw [← added, added_wslandEnv unset] at mem
        obtain ⟨d, entry, rfl⟩ := List.mem_map.mp mem
        exact (assignable_of_wslandEntries entry).entry
    · intro d mem
      rw [filter_environments environ _ (assignable_of_wlogSettings mem).noEquals,
        added_wslandEnv unset, filter_map_wslandEntries mem, getenv, setting]
      cases environ.find d.1 with
      | none => rfl
      | some own => rfl

/-- The daemon's environment with one entry, the user's appender. -/
def consoleEnviron : Environ where
  entries := [⟨ascii "WLOG_APPENDER", ascii "console", by decide, by decide, by decide⟩]
  distinct := by decide

/-- With `WLOG_APPENDER=console` the value is in the array as a string of its own, and the
default follows the user's entry. -/
theorem appender_added_twice :
    ascii "console" ∈ environments consoleEnviron (wslandEnv consoleEnviron 7 50000) ∧
      (environments consoleEnviron (wslandEnv consoleEnviron 7 50000)).filter
        (Names (ascii "WLOG_APPENDER")) =
          [ascii "WLOG_APPENDER=console", ascii "WLOG_APPENDER=file"] ∧
      ¬ SettingsWin consoleEnviron
        (environments consoleEnviron (wslandEnv consoleEnviron 7 50000)) := by
  have two : (environments consoleEnviron (wslandEnv consoleEnviron 7 50000)).filter
      (Names (ascii "WLOG_APPENDER")) =
        [ascii "WLOG_APPENDER=console", ascii "WLOG_APPENDER=file"] := by decide +kernel
  refine ⟨by decide +kernel, two, fun win => ?_⟩
  have one := win.settings (ascii "WLOG_APPENDER", ascii "file") List.mem_cons_self
  rw [two] at one
  cases one

end Wslg.WSLGd
