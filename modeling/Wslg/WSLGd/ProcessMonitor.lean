/-
The process monitor of WSLGd: `ProcessMonitor::LaunchProcess` and
`ProcessMonitor::Run`.

The monitor's state is `m_children` and the crash timestamps of `Run`. Next to it
stands what the kernel knows: which processes are not yet reaped, and what each
one launched by the monitor was started with. One step is a launch, a child the
monitor did not start, or one iteration of `Run`: `waitpid` returns a pid and, if
the child is started again, `fork` returns another.

`Tracks` says that `m_children` is what the kernel knows. An iteration keeps it
unless `fork` gives the new child the very pid that was just reaped, which the
kernel may: then the relaunch writes to the entry that is erased next.
-/

import Mathlib.Logic.Function.Basic
import Mathlib.Data.List.TakeWhile
import Wslg.Logic.Runs

namespace Wslg.WSLGd

open Wslg.Runs

/-- A `std::string`. -/
abbrev CxxString := List UInt8

/-- The bytes of a literal. -/
def ascii (s : String) : CxxString := s.toList.map fun c => UInt8.ofNat c.toNat

/-- `c_str()` read as a C string. -/
def cStr (s : CxxString) : CxxString := s.takeWhile (· ≠ 0)

theorem cStr_of_nul_free {s : CxxString} (nulFree : (0 : UInt8) ∉ s) : cStr s = s :=
  List.takeWhile_eq_self_iff.mpr fun c mem => by
    have other : c ≠ 0 := fun nul => nulFree (nul ▸ mem)
    simpa using other

structure ProcessInfo where
  argv : List CxxString
  capabilities : List Int
  env : List CxxString
deriving DecidableEq

/-- What is left of an entry whose members were moved out. -/
def ProcessInfo.moved : ProcessInfo := ⟨[], [], []⟩

/-- The monitor: `m_children`, and `crashes` of `Run`. -/
structure ProcessMonitor where
  children : Int → Option ProcessInfo := fun _ => none
  crashes : CxxString → List Int := fun _ => []

/-! ### The two functions -/

/-- `LaunchProcess` in the parent, `fork` having returned `childPid`. -/
def launchProcess (m : ProcessMonitor) (info : ProcessInfo) (childPid : Int) : ProcessMonitor :=
  { m with children := Function.update m.children childPid (some info) }

/-- The command line by which crashes are counted. -/
def commandLine (argv : List CxxString) : CxxString :=
  argv.flatMap fun arg => cStr arg ++ [0x20]

/-- `crashTimestamps` after an exit at time `now`. -/
def crashTimestamps (m : ProcessMonitor) (info : ProcessInfo) (now : Int) : List Int :=
  (m.crashes (commandLine info.argv)).filter (fun ts => ¬ ts < now - 60) ++ [now]

def recordCrash (m : ProcessMonitor) (info : ProcessInfo) (now : Int) : ProcessMonitor :=
  { m with
    crashes := Function.update m.crashes (commandLine info.argv) (crashTimestamps m info now) }

/-- The crash limit stops this child from being started again. -/
def crashLimit (m : ProcessMonitor) (info : ProcessInfo) (now : Int) : Prop :=
  (crashTimestamps m info now).length > 10

instance (m : ProcessMonitor) (info : ProcessInfo) (now : Int) :
    Decidable (crashLimit m info now) :=
  inferInstanceAs (Decidable (_ > _))

/-- `m_children.erase(found)`. -/
def eraseChild (m : ProcessMonitor) (pid : Int) : ProcessMonitor :=
  { m with children := Function.update m.children pid none }

/-- A call of `LaunchProcess`: the pid of the child and what it runs. -/
structure Launched where
  pid : Int
  info : ProcessInfo
deriving DecidableEq

/-- The relaunch: the entry's members are moved into the new entry. -/
def relaunch (m : ProcessMonitor) (pid : Int) (info : ProcessInfo) (forked : Int) :
    ProcessMonitor :=
  launchProcess { m with children := Function.update m.children pid (some .moved) } info forked

/-- One iteration of `Run` after `waitpid` has returned `pid` at time `now`;
`forked` is what `fork` would return. -/
def runIteration (m : ProcessMonitor) (pid now forked : Int) : Option Launched × ProcessMonitor :=
  match m.children pid with
  | none => (none, m)
  | some info =>
      if info.argv = [] then (none, eraseChild m pid)
      else
        let recorded := recordCrash m info now
        if crashLimit m info now then (none, eraseChild recorded pid)
        else (some ⟨forked, info⟩, eraseChild (relaunch recorded pid info forked) pid)

/-! ### The monitor and the kernel -/

/-- The monitor and the kernel's table of processes it has not reaped: what each
one was launched with, or `none` for one the monitor did not launch. -/
structure System where
  monitor : ProcessMonitor := {}
  unreaped : Int → Option (Option ProcessInfo) := fun _ => none

inductive Event where
  | launch (info : ProcessInfo) (forked : Int)
  | appear (pid : Int)
  | reap (pid now forked : Int)
deriving DecidableEq

/-- The kernel's table after a process with this pid has come up. -/
def started (table : Int → Option (Option ProcessInfo)) (l : Launched) :
    Int → Option (Option ProcessInfo) :=
  Function.update table l.pid (some (some l.info))

def step (s : System) : Event → Option Launched × System
  | .launch info forked =>
      (some ⟨forked, info⟩,
        ⟨launchProcess s.monitor info forked, started s.unreaped ⟨forked, info⟩⟩)
  | .appear pid => (none, { s with unreaped := Function.update s.unreaped pid (some none) })
  | .reap pid now forked =>
      let (launched, monitor) := runIteration s.monitor pid now forked
      let reaped := Function.update s.unreaped pid none
      (launched, ⟨monitor, launched.elim reaped (started reaped)⟩)

/-- A step the kernel can take: `waitpid` returns a process that is not yet
reaped, and a pid given out belongs to none. The pid just reaped does not. -/
def KernelAllows (s : System) : Event → Prop
  | .launch _ forked => s.unreaped forked = none
  | .appear pid => s.unreaped pid = none
  | .reap pid _ forked => s.unreaped pid ≠ none ∧ (forked = pid ∨ s.unreaped forked = none)

/-- The entry that `Run` would start again if `pid` exited at `now`. -/
def restarts (m : ProcessMonitor) (pid now : Int) : Prop :=
  ∃ info, m.children pid = some info ∧ info.argv ≠ [] ∧ ¬ crashLimit m info now

/-- A child that is started again does not get the pid of the one just reaped. -/
def FreshPid (s : System) : Event → Prop
  | .reap pid now forked => restarts s.monitor pid now → forked ≠ pid
  | _ => True

/-! ### What the monitor is for -/

/-- The table has every launched process that is not reaped, under its pid and
with what it was started with, and no other. -/
def Tracks (s : System) : Prop := ∀ pid, s.monitor.children pid = (s.unreaped pid).join

/-- A reaped child that was launched with a command leads to exactly one launch
of the same, unless the crash limit applies. -/
def RelaunchesOnce (t : Transition System Event (Option Launched)) : Prop :=
  match t.input with
  | .reap pid now forked => ∀ info, t.before.unreaped pid = some (some info) → info.argv ≠ [] →
      t.output = if crashLimit t.before.monitor info now then none else some ⟨forked, info⟩
  | _ => True

/-! ### Every run -/

theorem tracks_launch {s : System} (tracks : Tracks s) (info : ProcessInfo) (forked : Int) :
    Tracks (step s (.launch info forked)).2 := by
  intro pid
  show Function.update s.monitor.children forked (some info) pid =
    (Function.update s.unreaped forked (some (some info)) pid).join
  by_cases new : pid = forked
  · rw [new, Function.update_self, Function.update_self]
    rfl
  · rw [Function.update_of_ne new, Function.update_of_ne new]
    exact tracks pid

theorem tracks_appear {s : System} (tracks : Tracks s) {pid : Int}
    (unused : s.unreaped pid = none) : Tracks (step s (.appear pid)).2 := by
  intro other
  show s.monitor.children other = (Function.update s.unreaped pid (some none) other).join
  by_cases new : other = pid
  · rw [new, Function.update_self, tracks pid, unused]
    rfl
  · rw [Function.update_of_ne new]
    exact tracks other

/-- Without a relaunch the reaped entry goes and nothing else changes. -/
theorem tracks_erase {s : System} (tracks : Tracks s) (pid : Int) (crashes) :
    Tracks ⟨⟨Function.update s.monitor.children pid none, crashes⟩,
      Function.update s.unreaped pid none⟩ := by
  intro other
  show Function.update s.monitor.children pid none other =
    (Function.update s.unreaped pid none other).join
  by_cases gone : other = pid
  · rw [gone, Function.update_self, Function.update_self]
    rfl
  · rw [Function.update_of_ne gone, Function.update_of_ne gone]
    exact tracks other

/-- With a relaunch under another pid the new entry stays. -/
theorem tracks_relaunch {s : System} (tracks : Tracks s) {pid forked : Int} (info : ProcessInfo)
    (fresh : forked ≠ pid) (m : ProcessMonitor) (same : m.children = s.monitor.children) :
    Tracks ⟨eraseChild (relaunch m pid info forked) pid,
      started (Function.update s.unreaped pid none) ⟨forked, info⟩⟩ := by
  intro other
  show Function.update (Function.update (Function.update m.children pid (some .moved))
      forked (some info)) pid none other =
    (Function.update (Function.update s.unreaped pid none) forked (some (some info)) other).join
  by_cases gone : other = pid
  · rw [gone, Function.update_self, Function.update_of_ne (Ne.symm fresh), Function.update_self]
    rfl
  by_cases new : other = forked
  · rw [new, Function.update_of_ne fresh, Function.update_self, Function.update_self]
    rfl
  · rw [Function.update_of_ne gone, Function.update_of_ne new, Function.update_of_ne gone,
      Function.update_of_ne new, Function.update_of_ne gone, same]
    exact tracks other

/-- What an iteration of `Run` launches is decided by the entry of the reaped
pid. -/
theorem runIteration_cases (m : ProcessMonitor) (pid now forked : Int) :
    (m.children pid = none ∧ runIteration m pid now forked = (none, m)) ∨
    ∃ info, m.children pid = some info ∧
      ((info.argv = [] ∧ runIteration m pid now forked = (none, eraseChild m pid)) ∨
      (info.argv ≠ [] ∧ crashLimit m info now ∧
        runIteration m pid now forked = (none, eraseChild (recordCrash m info now) pid)) ∨
      (info.argv ≠ [] ∧ ¬ crashLimit m info now ∧ runIteration m pid now forked =
        (some ⟨forked, info⟩,
          eraseChild (relaunch (recordCrash m info now) pid info forked) pid))) := by
  cases entry : m.children pid with
  | none => exact Or.inl ⟨rfl, by simp only [runIteration, entry]⟩
  | some info =>
      refine Or.inr ⟨info, rfl, ?_⟩
      by_cases noCommand : info.argv = []
      · exact Or.inl ⟨noCommand, by simp only [runIteration, entry, if_pos noCommand]⟩
      by_cases limit : crashLimit m info now
      · exact Or.inr (Or.inl ⟨noCommand, limit, by
          simp only [runIteration, entry, if_neg noCommand, if_pos limit]⟩)
      · exact Or.inr (Or.inr ⟨noCommand, limit, by
          simp only [runIteration, entry, if_neg noCommand, if_neg limit]⟩)

/-- An iteration keeps track of every child if the relaunch, where there is one,
gets another pid than the one just reaped. -/
theorem tracks_reap {s : System} (tracks : Tracks s) {pid now forked : Int}
    (fresh : restarts s.monitor pid now → forked ≠ pid) :
    Tracks (step s (.reap pid now forked)).2 := by
  have reaped : step s (.reap pid now forked) =
      ((runIteration s.monitor pid now forked).1,
        ⟨(runIteration s.monitor pid now forked).2,
          (runIteration s.monitor pid now forked).1.elim (Function.update s.unreaped pid none)
            (started (Function.update s.unreaped pid none))⟩) := rfl
  rcases runIteration_cases s.monitor pid now forked with
    ⟨untracked, eq⟩ | ⟨info, entry, ⟨-, eq⟩ | ⟨-, -, eq⟩ | ⟨command, noLimit, eq⟩⟩
  · rw [reaped, eq]
    have same : s.monitor.children = Function.update s.monitor.children pid none := by
      rw [← untracked, Function.update_eq_self]
    intro other
    show s.monitor.children other = _
    rw [same]
    exact tracks_erase tracks pid s.monitor.crashes other
  · rw [reaped, eq]
    exact tracks_erase tracks pid s.monitor.crashes
  · rw [reaped, eq]
    exact tracks_erase tracks pid (recordCrash s.monitor info now).crashes
  · rw [reaped, eq]
    exact tracks_relaunch tracks info (fresh ⟨info, entry, command, noLimit⟩)
      (recordCrash s.monitor info now) rfl

/-- One step the kernel can take, with a fresh pid for a relaunch, keeps track. -/
theorem tracks_step {t : Transition System Event (Option Launched)} (taken : Taken step t)
    (allowed : KernelAllows t.before t.input) (fresh : FreshPid t.before t.input)
    (tracks : Tracks t.before) : Tracks t.after := by
  have after : t.after = (step t.before t.input).2 := (congrArg Prod.snd taken).symm
  rw [after]
  cases input : t.input with
  | launch info forked => exact tracks_launch tracks info forked
  | appear pid =>
      rw [input] at allowed
      exact tracks_appear tracks allowed
  | reap pid now forked =>
      rw [input] at fresh
      exact tracks_reap tracks fresh

/-- A reaped child whose entry is in the table is started again as the source
says. -/
theorem relaunchesOnce_of_tracks {t : Transition System Event (Option Launched)}
    (taken : Taken step t) (tracks : Tracks t.before) : RelaunchesOnce t := by
  have output : t.output = (step t.before t.input).1 := (congrArg Prod.fst taken).symm
  unfold RelaunchesOnce
  cases input : t.input with
  | launch info forked => trivial
  | appear pid => trivial
  | reap pid now forked =>
      intro info launched command
      have entry : t.before.monitor.children pid = some info := by
        rw [tracks pid, launched]
        rfl
      rw [output, input]
      show (runIteration t.before.monitor pid now forked).1 = _
      rw [runIteration]
      simp only [entry, if_neg command]
      split <;> rfl

/-- In every run the kernel allows and in which no relaunched child gets the pid
of the one just reaped, every state has the launched and unreaped children in the
table, and every reaped one led to its relaunch. -/
theorem monitor_keeps_children (es : List Event)
    (steps : ∀ t ∈ transitions step {} es,
      KernelAllows t.before t.input ∧ FreshPid t.before t.input) :
    ∀ t ∈ transitions step {} es, Tracks t.after ∧ RelaunchesOnce t := by
  intro t mem
  have start : Tracks {} := fun _ => rfl
  obtain ⟨before, after⟩ := invariant_transitions
    (fun t taken ok tracks => tracks_step taken ok.1 ok.2 tracks) start steps t mem
  exact ⟨after, relaunchesOnce_of_tracks (taken_of_mem mem) before⟩

/-! ### A relaunch under the reaped pid -/

/-- A daemon without arguments, capabilities or environment of its own. -/
def daemon : ProcessInfo := ⟨[[0x64]], [], []⟩

/-- The monitor launches a daemon as pid 5 and reaps it; the relaunch is 6. -/
def freshRun : List Event := [.launch daemon 5, .reap 5 0 6]

/-- The same, but `fork` gives the pid just reaped. -/
def reusedRun : List Event := [.launch daemon 5, .reap 5 0 5]

theorem monitor_keeps_children_freshRun :
    ∃ t ∈ transitions step {} freshRun, t.input = .reap 5 0 6 ∧ Tracks t.after ∧
      RelaunchesOnce t := by
  refine ⟨take step (finish step {} [.launch daemon 5]) (.reap 5 0 6),
    List.mem_cons_of_mem _ List.mem_cons_self, rfl, ?_⟩
  refine monitor_keeps_children freshRun (fun t mem => ?_) _
    (List.mem_cons_of_mem _ List.mem_cons_self)
  rcases List.mem_cons.mp mem with rfl | tail
  · exact ⟨rfl, trivial⟩
  · rw [List.mem_singleton.mp tail]
    refine ⟨⟨?_, Or.inr rfl⟩, fun _ => by decide⟩
    simp [take, step, started]

/-- The relaunched child is alive and not in the table. -/
theorem reusedRun_loses_child :
    ¬ ∀ es, (∀ t ∈ transitions step {} es, KernelAllows t.before t.input) →
      ∀ t ∈ transitions step {} es, Tracks t.after ∧ RelaunchesOnce t := by
  intro all
  have allowed : ∀ t ∈ transitions step {} reusedRun, KernelAllows t.before t.input := by
    intro t mem
    rcases List.mem_cons.mp mem with rfl | tail
    · exact rfl
    · rw [List.mem_singleton.mp tail]
      refine ⟨?_, Or.inl rfl⟩
      simp [take, step, started]
  have tracks := (all reusedRun allowed _ (List.mem_cons_of_mem _ List.mem_cons_self)).1 5
  revert tracks
  decide

end Wslg.WSLGd
