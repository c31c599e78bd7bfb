/-
The crash limit of `ProcessMonitor::Run`.

`crashes[cmd]` is pruned only when a child with that command line exits, and only to
the last minute. That is enough: it holds the exits of the command line in that minute
(`crash_limit`), so the limit on its size is a limit on every minute.

`Run` is followed here on its own, from any children it finds in `m_children` and with
whatever `waitpid`, `time` and `fork` answer. A `fork` that fails ends it by the
exception `LaunchProcess` throws.
-/

import Wslg.Logic.SlidingWindow
import Wslg.WSLGd.ProcessMonitor
import Mathlib.Algebra.Order.Group.Int

namespace Wslg.WSLGd

open Wslg.Runs Wslg.SlidingWindow

/-! ### The loop of `Run` -/

/-- The answers of one iteration: the pid `waitpid` returns, the time, and the pid
`fork` returns, if it is called and does not fail. -/
structure Wakeup where
  pid : Int
  now : Int
  forked : Option Int
deriving DecidableEq

/-- `Run` before an iteration, or left by an exception. -/
inductive RunState where
  | looping (m : ProcessMonitor)
  | thrown (m : ProcessMonitor)

def RunState.monitor : RunState → ProcessMonitor
  | looping m => m
  | thrown m => m

/-- One iteration: what it calls `LaunchProcess` with, if it does, and `Run` after it. -/
def iterate : RunState → Wakeup → Option ProcessInfo × RunState
  | .thrown m, _ => (none, .thrown m)
  | .looping m, ⟨pid, now, some forked⟩ =>
      let r := runIteration m pid now forked
      (r.1.map (·.info), .looping r.2)
  | .looping m, ⟨pid, now, none⟩ =>
      match m.children pid with
      | none => (none, .looping m)
      | some info =>
          if info.argv = [] then (none, .looping (eraseChild m pid))
          else
            let recorded := recordCrash m info now
            if crashLimit m info now then (none, .looping (eraseChild recorded pid))
            else (some info, .thrown recorded)

/-- Before an iteration in which `waitpid` returns the pid of a tracked child. -/
def Reaps (s : RunState) (w : Wakeup) (info : ProcessInfo) : Prop :=
  ∃ m, s = .looping m ∧ m.children w.pid = some info

/-! ### Exits -/

/-- The exit of a child with a command line: when, and whether the child was to be
launched again. -/
structure Exit where
  command : CxxString
  time : Int
  relaunched : Bool
deriving DecidableEq

def exitOf (t : Transition RunState Wakeup (Option ProcessInfo)) : Option Exit :=
  match t.before with
  | .thrown _ => none
  | .looping m =>
      match m.children t.input.pid with
      | none => none
      | some info =>
          if info.argv = [] then none
          else some ⟨commandLine info.argv, t.input.now, t.output.isSome⟩

/-- The exits handled in some iterations. -/
def exits (ts : List (Transition RunState Wakeup (Option ProcessInfo))) : List Exit :=
  ts.filterMap exitOf

/-- The exits of a command line: their times and whether the child was launched again. -/
def exitsOf (command : CxxString)
    (ts : List (Transition RunState Wakeup (Option ProcessInfo))) : List (Int × Bool) :=
  (exits ts).filterMap fun e => if e.command = command then some (e.time, e.relaunched) else none

/-- When the children with a command line exited. -/
def timesOf (command : CxxString)
    (ts : List (Transition RunState Wakeup (Option ProcessInfo))) : List Int :=
  (exitsOf command ts).map (·.1)

/-- The clock, read at every exit of a child with a command line, does not go back. -/
def Clock (ts : List (Transition RunState Wakeup (Option ProcessInfo))) : Prop :=
  ((exits ts).map (·.time)).Pairwise (· ≤ ·)

instance (ts : List (Transition RunState Wakeup (Option ProcessInfo))) : Decidable (Clock ts) :=
  inferInstanceAs (Decidable (List.Pairwise _ _))

section History

variable {ts : List (Transition RunState Wakeup (Option ProcessInfo))}
  {t : Transition RunState Wakeup (Option ProcessInfo)}

theorem exits_append (ts' : List (Transition RunState Wakeup (Option ProcessInfo))) :
    exits (ts ++ ts') = exits ts ++ exits ts' := List.filterMap_append

theorem exits_concat : exits (ts ++ [t]) = exits ts ++ (exitOf t).toList := by
  rw [exits_append]
  cases h : exitOf t <;> simp [exits, h]

theorem timesOf_concat_none (noExit : exitOf t = none) (command : CxxString) :
    timesOf command (ts ++ [t]) = timesOf command ts := by
  simp [timesOf, exitsOf, exits_concat, noExit]

theorem timesOf_concat_some {e : Exit} (exited : exitOf t = some e) (command : CxxString) :
    timesOf command (ts ++ [t]) =
      timesOf command ts ++ if e.command = command then [e.time] else [] := by
  by_cases same : e.command = command <;>
    simp [timesOf, exitsOf, exits_concat, exited, same]

/-- An exit of a command line was handled by an iteration. -/
theorem exitsOf_split {command : CxxString} {front back : List (Int × Bool)} {p : Int × Bool}
    (split : exitsOf command ts = front ++ p :: back) :
    ∃ ts₁ t ts₂ e, ts = ts₁ ++ t :: ts₂ ∧ exitOf t = some e ∧ e.command = command ∧
      p = (e.time, e.relaunched) ∧ timesOf command ts₁ = front.map (·.1) := by
  rw [exitsOf, exits, List.filterMap_filterMap] at split
  obtain ⟨ts₁, ts₂, rfl, isFront, rest⟩ := List.filterMap_eq_append_iff.mp split
  obtain ⟨others, t, ts₃, rfl, none_, here, -⟩ := List.filterMap_eq_cons_iff.mp rest
  obtain ⟨e, exited, ofCommand⟩ := Option.bind_eq_some_iff.mp here
  split at ofCommand
  · rename_i same
    cases ofCommand
    refine ⟨ts₁ ++ others, t, ts₃, e, (List.append_assoc ..).symm, exited, same, rfl, ?_⟩
    rw [timesOf, exitsOf, exits, List.filterMap_filterMap, List.filterMap_append, isFront,
      List.filterMap_eq_nil_iff.mpr none_, List.append_nil]
  · cases ofCommand

theorem timesOf_sublist (command : CxxString) :
    (timesOf command ts).Sublist ((exits ts).map (·.time)) := by
  unfold timesOf exitsOf
  induction exits ts with
  | nil => exact List.Sublist.refl _
  | cons e es ih =>
      by_cases same : e.command = command
      · simpa [same] using ih.cons_cons e.time
      · simpa [same] using ih.cons e.time

theorem Clock.of_append {ts' : List (Transition RunState Wakeup (Option ProcessInfo))}
    (clock : Clock (ts ++ ts')) : Clock ts := by
  rw [Clock, exits_append, List.map_append, List.pairwise_append] at clock
  exact clock.1

/-- An exit is no earlier than those before it. -/
theorem Clock.last (clock : Clock (ts ++ [t])) {e : Exit} (exited : exitOf t = some e)
    (command : CxxString) : ∀ time ∈ timesOf command ts, time ≤ e.time := by
  rw [Clock, exits_concat, exited, List.map_append, List.pairwise_append] at clock
  intro time mem
  obtain ⟨p, inCommand, rfl⟩ := List.mem_map.mp mem
  obtain ⟨d, inExits, ofCommand⟩ := List.mem_filterMap.mp inCommand
  split at ofCommand
  · cases ofCommand
    exact clock.2.2 _ (List.mem_map_of_mem inExits) _ List.mem_cons_self
  · cases ofCommand

end History

/-! ### What one iteration does -/

/-- What an iteration does to `crashes`, and whether it launches, is decided by the exit
it handles. -/
theorem iterate_cases (m : ProcessMonitor) (w : Wakeup) :
    (exitOf (take iterate (.looping m) w) = none ∧
      (iterate (.looping m) w).2.monitor.crashes = m.crashes ∧
      (iterate (.looping m) w).1 = none) ∨
    ∃ info, m.children w.pid = some info ∧ info.argv ≠ [] ∧
      exitOf (take iterate (.looping m) w) =
        some ⟨commandLine info.argv, w.now, (iterate (.looping m) w).1.isSome⟩ ∧
      (iterate (.looping m) w).2.monitor.crashes = (recordCrash m info w.now).crashes ∧
      (iterate (.looping m) w).1 = if crashLimit m info w.now then none else some info := by
  obtain ⟨pid, now, forked⟩ := w
  cases entry : m.children pid with
  | none =>
      refine Or.inl ?_
      cases forked <;> simp [exitOf, take, iterate, runIteration, entry, RunState.monitor]
  | some info =>
      by_cases noCommand : info.argv = []
      · refine Or.inl ?_
        cases forked <;>
          simp [exitOf, take, iterate, runIteration, entry, noCommand, RunState.monitor, eraseChild]
      · refine Or.inr ⟨info, rfl, noCommand, ?_⟩
        by_cases limit : crashLimit m info now
        · cases forked <;>
            simp [exitOf, take, iterate, runIteration, entry, noCommand, limit, RunState.monitor,
              eraseChild]
        · cases forked <;>
            simp [exitOf, take, iterate, runIteration, entry, noCommand, limit, RunState.monitor,
              eraseChild, relaunch, launchProcess]

/-- The pruned list is the log of the source. -/
theorem crashTimestamps_eq (m : ProcessMonitor) (info : ProcessInfo) (now : Int) :
    crashTimestamps m info now = record 60 now (m.crashes (commandLine info.argv)) := by
  simp only [crashTimestamps, record, recent, not_lt]

/-! ### Every run -/

/-- `crashes` has, for each command line, the exits so far as far as they can still
matter. -/
def Remembers (ts : List (Transition RunState Wakeup (Option ProcessInfo))) (s : RunState) :
    Prop :=
  Clock ts → ∀ command, Represents 60 (s.monitor.crashes command) (timesOf command ts)

theorem remembers_step {ts : List (Transition RunState Wakeup (Option ProcessInfo))}
    {t : Transition RunState Wakeup (Option ProcessInfo)} (taken : Taken iterate t)
    (before : Remembers ts t.before) : Remembers (ts ++ [t]) t.after := by
  intro clock command
  have represents := before clock.of_append command
  rw [taken.eq_take] at clock ⊢
  cases state : t.before with
  | thrown m =>
      rw [state] at represents
      rw [timesOf_concat_none rfl]
      exact represents
  | looping m =>
      rw [state] at represents clock
      show Represents 60 ((iterate (.looping m) t.input).2.monitor.crashes command) _
      rcases iterate_cases m t.input with ⟨noExit, crashes, -⟩ | ⟨info, -, -, exit, crashes, -⟩
      · rw [timesOf_concat_none noExit, crashes]
        exact represents
      · have last := clock.last exit command
        rw [timesOf_concat_some exit, crashes]
        show Represents 60 (Function.update m.crashes _ _ _) _
        by_cases same : commandLine info.argv = command
        · subst same
          rw [Function.update_self, crashTimestamps_eq, if_pos rfl]
          exact represents.record last
        · rw [Function.update_of_ne (Ne.symm same), if_neg same, List.append_nil]
          exact represents

/-- The exits of a command line in the minute up to `now`. -/
def lastMinute (command : CxxString) (now : Int)
    (ts : List (Transition RunState Wakeup (Option ProcessInfo))) : List Int :=
  (timesOf command ts).filter fun time => now - 60 ≤ time ∧ time ≤ now

section LastMinute

variable {ts : List (Transition RunState Wakeup (Option ProcessInfo))} {m : ProcessMonitor}
  {w : Wakeup} {info : ProcessInfo} (remembers : Remembers ts (.looping m))
  (clock : Clock (ts ++ [take iterate (.looping m) w]))

include remembers clock

/-- The pruned list after an exit is the recent part of all exits so far. -/
theorem crashTimestamps_eq_recent
    (exit : exitOf (take iterate (.looping m) w) =
      some ⟨commandLine info.argv, w.now, (iterate (.looping m) w).1.isSome⟩) :
    crashTimestamps m info w.now =
      recent 60 w.now (timesOf (commandLine info.argv) ts ++ [w.now]) := by
  have last := clock.last exit (commandLine info.argv)
  have represents := remembers clock.of_append (commandLine info.argv)
  rw [crashTimestamps_eq]
  exact record_eq_recent (by decide) represents last

/-- It has the exits of the last minute, this one included. -/
theorem crashTimestamps_eq_lastMinute
    (exit : exitOf (take iterate (.looping m) w) =
      some ⟨commandLine info.argv, w.now, (iterate (.looping m) w).1.isSome⟩) :
    crashTimestamps m info w.now =
      lastMinute (commandLine info.argv) w.now (ts ++ [take iterate (.looping m) w]) := by
  have last := clock.last exit (commandLine info.argv)
  rw [crashTimestamps_eq_recent remembers clock exit, lastMinute, timesOf_concat_some exit,
    if_pos rfl, recent]
  apply List.filter_congr
  intro time mem
  -- no exit so far is later than this one
  have notLater : time ≤ w.now := by
    rcases List.mem_append.mp mem with earlier | this
    · exact last time earlier
    · exact (List.mem_singleton.mp this).le
  simp [notLater]

/-- The exit of a tracked child. -/
theorem exit_of_reaped (entry : m.children w.pid = some info) :
    (info.argv ≠ [] → (iterate (.looping m) w).2.monitor.crashes (commandLine info.argv) =
      lastMinute (commandLine info.argv) w.now (ts ++ [take iterate (.looping m) w])) ∧
    ((iterate (.looping m) w).1 = some info ↔ info.argv ≠ [] ∧
      (lastMinute (commandLine info.argv) w.now
        (ts ++ [take iterate (.looping m) w])).length ≤ 10) := by
  rcases iterate_cases m w with ⟨noExit, -, kept⟩ | ⟨info', entry', command, exit, crashes, output⟩
  · have noCommand : info.argv = [] := by
      by_contra command
      simp [exitOf, take, entry, command] at noExit
    rw [kept]
    exact ⟨fun command => absurd noCommand command,
      fun h => (by cases h), fun h => absurd noCommand h.1⟩
  · obtain rfl : info' = info := Option.some.inj (entry'.symm.trans entry)
    have recorded := crashTimestamps_eq_lastMinute remembers clock exit
    constructor
    · intro _
      rw [crashes, ← recorded]
      exact Function.update_self ..
    · rw [output, ← recorded]
      by_cases limit : crashLimit m info' w.now
      · rw [if_pos limit]
        exact ⟨fun h => (by cases h), fun h => absurd h.2 (Nat.not_le.mpr limit)⟩
      · rw [if_neg limit]
        exact ⟨fun _ => ⟨command, Nat.not_lt.mp limit⟩, fun _ => rfl⟩

/-- An exit after which the child was launched again is one of at most ten in the minute
up to it. -/
theorem recent_of_relaunched {e : Exit} (exit : exitOf (take iterate (.looping m) w) = some e)
    (relaunched : e.relaunched = true) :
    (recent 60 e.time (timesOf e.command ts ++ [e.time])).length ≤ 10 := by
  rcases iterate_cases m w with ⟨noExit, -, -⟩ | ⟨info, -, -, exit', -, output⟩
  · rw [noExit] at exit
    cases exit
  · obtain rfl := Option.some.inj (exit'.symm.trans exit)
    have within : ¬ crashLimit m info w.now := by
      intro limit
      simp [output, limit] at relaunched
    rw [← crashTimestamps_eq_recent remembers clock exit']
    exact Nat.not_lt.mp within

end LastMinute

/-- In every run of `Run`, whatever children exit in whatever order: `crashes` has the
exits of a command line in the last minute; a child is launched again exactly when it
has a command line and that minute had at most ten exits of it; and no minute has more
than ten exits of one command line after which the child was launched again. -/
theorem crash_limit (children : Int → Option ProcessInfo) (ws : List Wakeup)
    (clock : Clock (transitions iterate (.looping { children }) ws)) :
    (∀ ts t ts', transitions iterate (.looping { children }) ws = ts ++ t :: ts' →
      ∀ info, Reaps t.before t.input info →
        (info.argv ≠ [] → t.after.monitor.crashes (commandLine info.argv) =
          lastMinute (commandLine info.argv) t.input.now (ts ++ [t])) ∧
        (t.output = some info ↔ info.argv ≠ [] ∧
          (lastMinute (commandLine info.argv) t.input.now (ts ++ [t])).length ≤ 10)) ∧
    ∀ command start, ((exitsOf command (transitions iterate (.looping { children }) ws)).filter
      fun e => e.2 ∧ start ≤ e.1 ∧ e.1 ≤ start + 60).length ≤ 10 := by
  have remembers : ∀ es, Remembers (transitions iterate (.looping { children }) es)
      (finish iterate (.looping { children }) es) :=
    invariant_history (fun _ _ => remembers_step) fun _ _ => Represents.nil
  have handled : ∀ ts t ts', transitions iterate (.looping { children }) ws = ts ++ t :: ts' →
      Remembers ts t.before ∧ Clock (ts ++ [t]) ∧ t = take iterate t.before t.input := by
    intro ts t ts' split
    obtain ⟨es₁, es₂, -, rfl, last⟩ := split_transitions split
    rw [split, List.append_cons] at clock
    exact ⟨last ▸ remembers es₁, clock.of_append, by rw [last]; rfl⟩
  constructor
  · rintro ts t ts' split info ⟨m, looping, entry⟩
    obtain ⟨past, clock', taken⟩ := handled ts t ts' split
    rw [looping] at past taken
    rw [taken] at clock' ⊢
    exact exit_of_reaped past clock' entry
  · intro command start
    apply length_window_le
    · exact clock.sublist (timesOf_sublist command)
    · intro front p back split launched
      obtain ⟨ts₁, t, ts₂, e, isRun, exited, rfl, rfl, times⟩ := exitsOf_split split
      obtain ⟨past, clock', taken⟩ := handled ts₁ t ts₂ isRun
      rw [List.map_append, ← times]
      cases state : t.before with
      | thrown m => simp [exitOf, state] at exited
      | looping m =>
          rw [state] at past taken
          rw [taken] at clock' exited
          exact recent_of_relaunched past clock' exited launched

/-! ### A daemon that does not stay up -/

/-- The daemon runs as pid 5. -/
def oneDaemon : Int → Option ProcessInfo := fun pid => if pid = 5 then some daemon else none

/-- It exits at once, and again after each of its ten relaunches. -/
def elevenExits : List Wakeup :=
  [⟨5, 0, some 6⟩, ⟨6, 0, some 7⟩, ⟨7, 1, some 8⟩, ⟨8, 2, some 9⟩, ⟨9, 2, some 10⟩,
    ⟨10, 3, some 11⟩, ⟨11, 5, some 12⟩, ⟨12, 5, some 13⟩, ⟨13, 6, some 14⟩, ⟨14, 60, some 15⟩,
    ⟨15, 60, some 16⟩]

theorem crash_limit_elevenExits :
    (exits (transitions iterate (.looping { children := oneDaemon }) elevenExits)).length = 11 ∧
    ((exitsOf (commandLine daemon.argv)
      (transitions iterate (.looping { children := oneDaemon }) elevenExits)).filter
      fun e => e.2 ∧ 0 ≤ e.1 ∧ e.1 ≤ 0 + 60).length ≤ 10 :=
  ⟨by decide +kernel, (crash_limit oneDaemon elevenExits (by decide +kernel)).2 _ 0⟩

end Wslg.WSLGd
