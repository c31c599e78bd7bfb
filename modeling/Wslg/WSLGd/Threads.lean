/-
Two threads of WSLGd that wait for children: `ProcessMonitor::Run` for any in its own group,
`FontFolder::ExecuteShellCommand` for the one it has forked.

The font monitor's thread puts its child into a group of its own, from both sides of the
`fork`, so that `Run` does not see it. The kernel's table of children stands next to the
process monitor's, and the steps of the three of them (the monitor, the font monitor's
thread, its child) come in any order the kernel permits.

As long as a child of the font monitor does not end before it is in its own group, and a
child that is started again does not get the pid of the one just reaped, each thread gets the
children it has started, whatever the order: the monitor goes through the run it would go
through alone, and `ExecuteShellCommand` returns true exactly if its program ran and exited
with 0 (`threads_apart`).
-/

import Wslg.Logic.Children
import Wslg.WSLGd.ProcessMonitor

namespace Wslg.WSLGd.Threads

open Wslg.Runs

/-! ### The steps -/

/-- Where the child of a shell command is: it calls `setpgid`, then `execvp`, and `_exit(1)`
when one of them fails. -/
inductive Stage where
  | born
  | moved
  | running
  | failed
deriving DecidableEq

/-- A call of `ExecuteShellCommand` behind its `fork`; `moved` says that the parent is past
its own `setpgid`. -/
structure Command where
  pid : Int
  moved : Bool := false
  stage : Stage := .born
deriving DecidableEq

/-- The process monitor, the kernel's table of the children of WSLGd, each tagged with what
the monitor has launched there, and the shell command that is being executed. -/
structure State where
  monitor : ProcessMonitor := {}
  children : Children (Option ProcessInfo) := fun _ => none
  command : Option Command := none

/-- What can happen. The monitor launches a program, or `waitpid(0)` returns in `Run`; a
launched program ends or changes its group; a shell command forks, its child goes on or ends,
and its parent goes on. -/
inductive Event where
  | launch (info : ProcessInfo) (forked : Int)
  | reap (pid now forked : Int)
  | exit (pid : Int) (status : WaitStatus)
  | regroup (pid group : Int)
  | shellFork (forked : Option Int)
  | childSetpgid (ok : Bool)
  | childExecvp (ok : Bool)
  | childExit (status : WaitStatus)
  | parentSetpgid (ok : Bool)
  | parentWait
deriving DecidableEq

inductive Output where
  | nothing
  | launched (l : Option Launched)
  | returned (success : Bool)
deriving DecidableEq

/-- `WIFEXITED(status) && WEXITSTATUS(status) == 0`; without such a child `waitpid` fails. -/
def success (children : Children (Option ProcessInfo)) (pid : Int) : Bool :=
  decide ((children pid).bind (·.status) = some (.exited 0))

/-- A step of the shell command that is being executed. -/
def onCommand (s : State) (f : Command → Command)
    (g : Int → Children (Option ProcessInfo) → Children (Option ProcessInfo)) : State :=
  match s.command with
  | some c => { s with command := some (f c), children := g c.pid s.children }
  | none => s

/-- `own` is the group of WSLGd. -/
def step (own : Int) (s : State) : Event → Output × State
  | .launch info forked =>
      (.launched (some ⟨forked, info⟩),
        { s with
          monitor := launchProcess s.monitor info forked
          children := s.children.fork own forked (some info) })
  | .reap pid now forked =>
      let (launched, monitor) := runIteration s.monitor pid now forked
      let reaped := s.children.reap pid
      (.launched launched,
        { s with
          monitor
          children := launched.elim reaped fun l => reaped.fork own l.pid (some l.info) })
  | .exit pid status => (.nothing, { s with children := s.children.exit pid status })
  | .regroup pid group => (.nothing, { s with children := s.children.setpgid pid group })
  | .shellFork none => (.returned false, s)
  | .shellFork (some pid) =>
      (.nothing,
        { s with command := some { pid }, children := s.children.fork own pid none })
  | .childSetpgid ok =>
      (.nothing, onCommand s (fun c => { c with stage := if ok then .moved else .failed })
        fun pid cs => if ok then cs.setpgid pid pid else cs)
  | .childExecvp ok =>
      (.nothing, onCommand s (fun c => { c with stage := if ok then .running else .failed })
        fun pid cs => if ok then cs.execve pid else cs)
  | .childExit status => (.nothing, onCommand s id fun pid cs => cs.exit pid status)
  | .parentSetpgid ok =>
      (.nothing, onCommand s (fun c => { c with moved := true })
        fun pid cs => if ok then cs.setpgid pid pid else cs)
  | .parentWait =>
      match s.command with
      | some c =>
          (.returned (success s.children c.pid),
            { s with command := none, children := s.children.reap c.pid })
      | none => (.nothing, s)

/-- The child of the shell command is alive and at this stage. -/
def ChildAt (s : State) (stage : Stage) : Prop :=
  ∃ c child, s.command = some c ∧ c.stage = stage ∧ s.children c.pid = some child ∧
    child.tag = none ∧ child.status = none

/-- The order of the program and the rules of the kernel. A pid given out belongs to none,
and not to the group of WSLGd; a child executes and exits where it has got; its parent cannot
move it once it has executed, and waits until it has ended. -/
def Permitted (own : Int) (s : State) : Event → Prop
  | .launch _ forked => s.children forked = none
  | .reap pid _ forked =>
      s.children.WaitableIn own pid ∧ (forked = pid ∨ s.children forked = none)
  | .exit pid _ => ∃ child, s.children pid = some child ∧ child.tag ≠ none ∧ child.status = none
  | .regroup pid _ =>
      ∃ child, s.children pid = some child ∧ child.tag ≠ none ∧ child.status = none
  | .shellFork forked =>
      s.command = none ∧ ∀ pid, forked = some pid → s.children pid = none ∧ pid ≠ own
  | .childSetpgid _ => ChildAt s .born
  | .childExecvp _ => ChildAt s .moved
  | .childExit status =>
      match status with
      | .exited code => ChildAt s .running ∨ code = 1 ∧ ChildAt s .failed
      | .signaled _ => ∃ stage, ChildAt s stage
  | .parentSetpgid ok =>
      ∃ c, s.command = some c ∧ c.moved = false ∧
        (ok = true → ∃ child, s.children c.pid = some child ∧ child.exec = false)
  | .parentWait =>
      ∃ c, s.command = some c ∧ c.moved = true ∧ ¬ s.children.Alive c.pid

/-- The child of a shell command does not end before it is in its own group. -/
def Undisturbed (s : State) : Event → Prop
  | .childExit _ => ∀ c child, s.command = some c → s.children c.pid = some child →
      child.group = c.pid
  | _ => True

/-! ### What each thread sees -/

/-- What a table says of the children the monitor has launched. -/
def launchedIn (cs : Children (Option ProcessInfo)) (pid : Int) : Option (Option ProcessInfo) :=
  ((cs pid).bind Child.tag).map some

/-- The monitor, and the kernel's table as far as it has launched what is there. -/
def State.system (s : State) : System := ⟨s.monitor, launchedIn s.children⟩

/-- The events the monitor has a part in, as it would meet them alone. -/
def Event.monitor? : Event → Option WSLGd.Event
  | .launch info forked => some (.launch info forked)
  | .reap pid now forked => some (.reap pid now forked)
  | _ => none

/-- A child that is started again does not get the pid of the one just reaped. -/
def FreshPid (s : State) (e : Event) : Prop := e.monitor?.elim True (WSLGd.FreshPid s.system)

/-- The child of the shell command: not one of the monitor's, and out of its group once it
has ended. -/
structure OwnChild (own : Int) (s : State) (c : Command) (child : Child (Option ProcessInfo)) :
    Prop where
  there : s.children c.pid = some child
  tag : child.tag = none
  notOwn : c.pid ≠ own
  moved : child.status ≠ none → child.group = c.pid
  ran : child.exec = true ↔ c.stage = .running
  zero : child.status = some (.exited 0) → child.exec = true

/-- The children of the two threads are apart. -/
structure Apart (own : Int) (s : State) : Prop where
  tracks : Tracks s.system
  command : ∀ c, s.command = some c → ∃ child, OwnChild own s c child
  others : ∀ pid child, s.children pid = some child → child.tag = none →
    ∃ c, s.command = some c ∧ c.pid = pid

/-! ### The monitor's view -/

variable {own : Int}

theorem launchedIn_change {cs : Children (Option ProcessInfo)} {pid : Int}
    {f : Child (Option ProcessInfo) → Child (Option ProcessInfo)} (keeps : ∀ c, (f c).tag = c.tag) :
    launchedIn (cs.change pid f) = launchedIn cs := by
  funext other
  have tags : (cs.change pid f other).map Child.tag = (cs other).map Child.tag :=
    Children.tag_change keeps other
  cases before : cs other <;> cases after : cs.change pid f other
  · simp only [launchedIn, before, after]
  · rw [before, after] at tags
    cases tags
  · rw [before, after] at tags
    cases tags
  · rw [before, after] at tags
    simp only [launchedIn, before, after, Option.bind_some, Option.some.inj tags]

theorem launchedIn_fork (cs : Children (Option ProcessInfo)) (forked : Int) (info : ProcessInfo) :
    launchedIn (cs.fork own forked (some info)) =
      Function.update (launchedIn cs) forked (some (some info)) := by
  funext other
  by_cases same : other = forked
  · rw [same, launchedIn, Children.fork_self, Function.update_self]
    rfl
  · rw [launchedIn, Children.fork_of_ne same, Function.update_of_ne same, launchedIn]

theorem launchedIn_reap (cs : Children (Option ProcessInfo)) (pid : Int) :
    launchedIn (cs.reap pid) = Function.update (launchedIn cs) pid none := by
  funext other
  by_cases same : other = pid
  · rw [same, launchedIn, Children.reap_self, Function.update_self]
    rfl
  · rw [launchedIn, Children.reap_of_ne same, Function.update_of_ne same, launchedIn]

/-- The child of a shell command is none of the monitor's. -/
theorem launchedIn_fork_none {cs : Children (Option ProcessInfo)} {pid : Int}
    (unused : cs pid = none) : launchedIn (cs.fork own pid none) = launchedIn cs := by
  funext other
  by_cases same : other = pid
  · rw [same, launchedIn, launchedIn, Children.fork_self, unused]
    rfl
  · rw [launchedIn, Children.fork_of_ne same, launchedIn]

theorem launchedIn_reap_none {cs : Children (Option ProcessInfo)} {pid : Int}
    {child : Child (Option ProcessInfo)} (there : cs pid = some child) (tag : child.tag = none) :
    launchedIn (cs.reap pid) = launchedIn cs := by
  rw [launchedIn_reap]
  refine Function.update_eq_self_iff.mpr ?_
  rw [launchedIn, there, Option.bind_some, tag]
  rfl

theorem system_launch (s : State) (info : ProcessInfo) (forked : Int) :
    (step own s (.launch info forked)).2.system =
      (WSLGd.step s.system (.launch info forked)).2 :=
  congrArg (System.mk _) (launchedIn_fork s.children forked info)

theorem system_reap (s : State) (pid now forked : Int) :
    (step own s (.reap pid now forked)).2.system =
      (WSLGd.step s.system (.reap pid now forked)).2 := by
  refine congrArg (System.mk _) ?_
  show launchedIn ((runIteration s.monitor pid now forked).1.elim (s.children.reap pid)
      fun l => (s.children.reap pid).fork own l.pid (some l.info)) =
    (runIteration s.monitor pid now forked).1.elim
      (Function.update (launchedIn s.children) pid none)
      (started (Function.update (launchedIn s.children) pid none))
  cases (runIteration s.monitor pid now forked).1 with
  | none => exact launchedIn_reap s.children pid
  | some l =>
      exact (launchedIn_fork _ l.pid l.info).trans
        (congrArg (started · l) (launchedIn_reap s.children pid))

theorem system_onCommand {s : State} {f : Command → Command}
    {g : Int → Children (Option ProcessInfo) → Children (Option ProcessInfo)}
    (keeps : ∀ pid cs, launchedIn (g pid cs) = launchedIn cs) :
    (onCommand s f g).system = s.system := by
  unfold onCommand
  split
  · exact congrArg (System.mk _) (keeps _ _)
  · rfl

/-- The monitor's side of a step is a step of its own, or none. -/
theorem system_step {s : State} {e : Event} (permitted : Permitted own s e)
    (apart : Apart own s) :
    (step own s e).2.system =
      e.monitor?.elim s.system fun e' => (WSLGd.step s.system e').2 := by
  cases e with
  | launch info forked => exact system_launch s info forked
  | reap pid now forked => exact system_reap s pid now forked
  | exit | regroup => exact congrArg (System.mk _) (launchedIn_change fun _ => rfl)
  | shellFork forked =>
      cases forked with
      | none => rfl
      | some pid => exact congrArg (System.mk _) (launchedIn_fork_none (permitted.2 pid rfl).1)
  | childSetpgid ok | parentSetpgid ok =>
      refine system_onCommand fun pid cs => ?_
      cases ok
      · rfl
      · exact launchedIn_change fun _ => rfl
  | childExecvp ok =>
      refine system_onCommand fun pid cs => ?_
      cases ok
      · rfl
      · exact launchedIn_change fun _ => rfl
  | childExit status => exact system_onCommand fun pid cs => launchedIn_change fun _ => rfl
  | parentWait =>
      obtain ⟨c, executing, -⟩ := permitted
      obtain ⟨child, own_⟩ := apart.command c executing
      simp only [step, executing]
      exact congrArg (System.mk _) (launchedIn_reap_none own_.there own_.tag)

/-! ### One step -/

/-- The monitor keeps track of its children in every step. -/
theorem Apart.tracks_step {s : State} {e : Event} (apart : Apart own s)
    (permitted : Permitted own s e) (fresh : FreshPid s e) : Tracks (step own s e).2.system := by
  rw [system_step permitted apart]
  cases e with
  | launch info forked => exact tracks_launch apart.tracks info forked
  | reap pid now forked => exact tracks_reap apart.tracks fresh
  | _ => exact apart.tracks

/-- A child that `Run` can wait for is one the monitor has launched. -/
theorem Apart.reaped {s : State} (apart : Apart own s) {pid : Int}
    (waitable : s.children.WaitableIn own pid) :
    ∃ child info, s.children pid = some child ∧ child.tag = some info := by
  obtain ⟨child, there, group, ended⟩ := waitable
  cases tag : child.tag with
  | some info => exact ⟨child, info, there, tag⟩
  | none =>
      obtain ⟨c, executing, rfl⟩ := apart.others pid child there tag
      obtain ⟨child', own_⟩ := apart.command c executing
      obtain rfl : child' = child := Option.some.inj (own_.there.symm.trans there)
      exact absurd ((own_.moved ended).symm.trans group) own_.notOwn

/-- The shell command's child is not touched by what happens to another. -/
theorem OwnChild.of_other {s s' : State} {c : Command} {child : Child (Option ProcessInfo)}
    (h : OwnChild own s c child) (same : s'.children c.pid = s.children c.pid) :
    OwnChild own s' c child :=
  ⟨same.trans h.there, h.tag, h.notOwn, h.moved, h.ran, h.zero⟩

/-- Where the table changes, it is about what the monitor has launched. -/
def Launches (before after : Option (Child (Option ProcessInfo))) : Prop :=
  after = before ∨
    (∀ child, before = some child → child.tag ≠ none) ∧
      ∀ child, after = some child → child.tag ≠ none

theorem Apart.of_launched {s s' : State} (apart : Apart own s) (tracks : Tracks s'.system)
    (command : s'.command = s.command)
    (launches : ∀ pid, Launches (s.children pid) (s'.children pid)) : Apart own s' where
  tracks := tracks
  command c executing := by
    rw [command] at executing
    obtain ⟨child, own_⟩ := apart.command c executing
    rcases launches c.pid with same | ⟨before, -⟩
    · exact ⟨child, own_.of_other same⟩
    · exact absurd own_.tag (before child own_.there)
  others pid child there tag := by
    rw [command]
    rcases launches pid with same | ⟨-, after⟩
    · exact apart.others pid child (same ▸ there) tag
    · exact absurd tag (after child there)

/-- A child of the monitor that does not change hands. -/
theorem launches_change {cs : Children (Option ProcessInfo)} {pid : Int}
    {child : Child (Option ProcessInfo)} (there : cs pid = some child) (tag : child.tag ≠ none)
    {f : Child (Option ProcessInfo) → Child (Option ProcessInfo)} (keeps : ∀ c, (f c).tag = c.tag)
    (other : Int) : Launches (cs other) (cs.change pid f other) := by
  by_cases same : other = pid
  · subst same
    rw [Children.change_self, there]
    refine Or.inr ⟨?_, ?_⟩
    · rintro _ ⟨⟩
      exact tag
    · rintro _ ⟨⟩
      rw [keeps]
      exact tag
  · exact Or.inl (Children.change_of_ne same)

theorem launches_fork {cs : Children (Option ProcessInfo)} {forked : Int}
    (unused : ∀ child, cs forked = some child → child.tag ≠ none) (info : ProcessInfo)
    (other : Int) : Launches (cs other) (cs.fork own forked (some info) other) := by
  by_cases same : other = forked
  · subst same
    rw [Children.fork_self]
    refine Or.inr ⟨unused, ?_⟩
    rintro _ ⟨⟩
    exact nofun
  · exact Or.inl (Children.fork_of_ne same)

theorem launches_reap {cs : Children (Option ProcessInfo)} {pid : Int}
    (launched : ∀ child, cs pid = some child → child.tag ≠ none) (other : Int) :
    Launches (cs other) (cs.reap pid other) := by
  by_cases same : other = pid
  · subst same
    exact Or.inr ⟨launched, fun child there => nomatch Children.reap_self.symm.trans there⟩
  · exact Or.inl (Children.reap_of_ne same)

theorem Launches.trans {a b c : Option (Child (Option ProcessInfo))} (h : Launches a b)
    (h' : Launches b c) : Launches a c := by
  rcases h with rfl | ⟨before, middle⟩
  · exact h'
  · rcases h' with rfl | ⟨-, after⟩
    · exact Or.inr ⟨before, middle⟩
    · exact Or.inr ⟨before, after⟩

/-- A change to the child of the shell command. -/
theorem Apart.of_command {s s' : State} (apart : Apart own s) {c c' : Command}
    (executing : s.command = some c) (executing' : s'.command = some c') (pid : c'.pid = c.pid)
    (monitor : s'.monitor = s.monitor)
    {f : Child (Option ProcessInfo) → Child (Option ProcessInfo)}
    (children : s'.children = s.children.change c.pid f)
    (keeps : ∀ child, (f child).tag = child.tag)
    (own_ : ∀ child, OwnChild own s c child → OwnChild own s' c' (f child)) : Apart own s' where
  tracks := by
    have same : s'.system = s.system := by
      rw [State.system, State.system, monitor, children, launchedIn_change keeps]
    rw [same]
    exact apart.tracks
  command d executing_ := by
    obtain rfl : c' = d := Option.some.inj (executing'.symm.trans executing_)
    obtain ⟨child, h⟩ := apart.command c executing
    exact ⟨f child, own_ child h⟩
  others other child there tag := by
    refine ⟨c', executing', ?_⟩
    by_cases same : other = c.pid
    · rw [pid, same]
    · rw [children, Children.change_of_ne same] at there
      obtain ⟨d, executing_, rfl⟩ := apart.others other child there tag
      rw [pid, ← Option.some.inj (executing.symm.trans executing_)]

theorem Apart.shellFork {s : State} (apart : Apart own s) {pid : Int} (idle : s.command = none)
    (unused : s.children pid = none) (notOwn : pid ≠ own) :
    Apart own (step own s (.shellFork (some pid))).2 where
  tracks := by
    have same : (step own s (.shellFork (some pid))).2.system = s.system :=
      congrArg (System.mk _) (launchedIn_fork_none unused)
    rw [same]
    exact apart.tracks
  command c executing := by
    cases executing
    exact ⟨{ tag := none, group := own }, Children.fork_self, rfl, notOwn,
      fun ended => absurd rfl ended, by simp, nofun⟩
  others other child there tag := by
    by_cases same : other = pid
    · exact ⟨_, rfl, same.symm⟩
    · have before : s.children other = some child := (Children.fork_of_ne same).symm.trans there
      obtain ⟨c, executing, -⟩ := apart.others other child before tag
      cases idle.symm.trans executing

theorem Apart.parentWait {s : State} (apart : Apart own s) {c : Command}
    (executing : s.command = some c) : Apart own (step own s .parentWait).2 := by
  obtain ⟨child, own_⟩ := apart.command c executing
  simp only [step, executing]
  refine ⟨?_, nofun, fun other child' there tag => ?_⟩
  · show Tracks ⟨s.monitor, launchedIn (s.children.reap c.pid)⟩
    rw [launchedIn_reap_none own_.there own_.tag]
    exact apart.tracks
  · by_cases same : other = c.pid
    · subst same
      exact nomatch Children.reap_self.symm.trans there
    · have before : s.children other = some child' := (Children.reap_of_ne same).symm.trans there
      obtain ⟨d, executing_, rfl⟩ := apart.others other child' before tag
      exact absurd (congrArg Command.pid (Option.some.inj (executing_.symm.trans executing))) same

theorem Apart.reap {s : State} (apart : Apart own s) {pid now forked : Int}
    (waitable : s.children.WaitableIn own pid)
    (unused : forked = pid ∨ s.children forked = none)
    (fresh : FreshPid s (.reap pid now forked)) :
    Apart own (step own s (.reap pid now forked)).2 := by
  obtain ⟨child, info, there, tag⟩ := apart.reaped waitable
  have launched : ∀ child, s.children pid = some child → child.tag ≠ none := by
    intro child' there'
    cases there.symm.trans there'
    rw [tag]
    exact nofun
  have permitted : Permitted own s (.reap pid now forked) := ⟨waitable, unused⟩
  have tracks := apart.tracks_step permitted fresh
  refine apart.of_launched tracks rfl fun other => ?_
  have reaped := launches_reap launched other
  have either : (step own s (.reap pid now forked)).2.children = s.children.reap pid ∨
      ∃ info, (step own s (.reap pid now forked)).2.children =
        (s.children.reap pid).fork own forked (some info) := by
    show (runIteration s.monitor pid now forked).1.elim _ _ = _ ∨ ∃ info,
      (runIteration s.monitor pid now forked).1.elim _ _ = _
    rcases runIteration_cases s.monitor pid now forked with
      ⟨-, eq⟩ | ⟨info, -, ⟨-, eq⟩ | ⟨-, -, eq⟩ | ⟨-, -, eq⟩⟩
    · rw [eq]
      exact Or.inl rfl
    · rw [eq]
      exact Or.inl rfl
    · rw [eq]
      exact Or.inl rfl
    · rw [eq]
      exact Or.inr ⟨info, rfl⟩
  rcases either with eq | ⟨info, eq⟩
  · rw [eq]
    exact reaped
  · rw [eq]
    refine reaped.trans (launches_fork (fun child' there' => ?_) info other)
    rcases unused with rfl | unused
    · exact nomatch Children.reap_self.symm.trans there'
    · by_cases same : forked = pid
      · rw [same] at there'
        exact nomatch Children.reap_self.symm.trans there'
      · rw [Children.reap_of_ne same, unused] at there'
        cases there'

theorem onCommand_eq {s : State} {c : Command} (executing : s.command = some c)
    (f : Command → Command)
    (g : Int → Children (Option ProcessInfo) → Children (Option ProcessInfo)) :
    onCommand s f g = { s with command := some (f c), children := g c.pid s.children } := by
  rw [onCommand, executing]

/-- A step of the shell command that may change its child. -/
theorem Apart.onCommand {s : State} (apart : Apart own s) {c : Command}
    (executing : s.command = some c) {f : Command → Command} (pid : (f c).pid = c.pid)
    (change : Child (Option ProcessInfo) → Child (Option ProcessInfo))
    (keeps : ∀ child, (change child).tag = child.tag)
    {g : Int → Children (Option ProcessInfo) → Children (Option ProcessInfo)}
    (changes : g c.pid s.children = s.children.change c.pid change)
    (moved : ∀ child, OwnChild own s c child → (change child).status ≠ none →
      (change child).group = c.pid)
    (ran : ∀ child, OwnChild own s c child → ((change child).exec = true ↔ (f c).stage = .running))
    (zero : ∀ child, OwnChild own s c child → (change child).status = some (.exited 0) →
      (change child).exec = true) : Apart own (onCommand s f g) := by
  rw [onCommand_eq executing, changes]
  refine apart.of_command executing rfl pid rfl rfl keeps fun child h => ⟨?_, ?_, ?_, ?_, ?_, ?_⟩
  · show s.children.change c.pid change (f c).pid = _
    rw [pid, Children.change_self, h.there]
    rfl
  · exact (keeps child).trans h.tag
  · rw [pid]
    exact h.notOwn
  · rw [pid]
    exact moved child h
  · exact ran child h
  · exact zero child h

/-- Every step the kernel permits keeps the children of the two threads apart. -/
theorem apart_step {s : State} {e : Event} (permitted : Permitted own s e) (fresh : FreshPid s e)
    (undisturbed : Undisturbed s e) (apart : Apart own s) : Apart own (step own s e).2 := by
  cases e with
  | launch info forked =>
      have unused : s.children forked = none := permitted
      exact apart.of_launched (apart.tracks_step permitted fresh) rfl
        (launches_fork (fun child there => nomatch unused.symm.trans there) info)
  | reap pid now forked => exact apart.reap permitted.1 permitted.2 fresh
  | exit | regroup =>
      obtain ⟨child, there, tag, -⟩ := id permitted
      exact apart.of_launched (apart.tracks_step permitted fresh) rfl
        (launches_change there tag fun _ => rfl)
  | shellFork forked =>
      obtain ⟨idle, free⟩ := permitted
      cases forked with
      | none => exact apart
      | some pid => exact apart.shellFork idle (free pid rfl).1 (free pid rfl).2
  | childSetpgid ok =>
      obtain ⟨c, -, executing, stage, -⟩ := permitted
      have unmoved : ∀ child, OwnChild own s c child → child.exec ≠ true := fun child h ran => by
        cases stage.symm.trans (h.ran.mp ran)
      cases ok with
      | true =>
          show Apart own (onCommand s (fun c => { c with stage := .moved })
            fun pid cs => cs.setpgid pid pid)
          exact apart.onCommand executing rfl (fun child => { child with group := c.pid })
            (fun _ => rfl) rfl (fun _ _ _ => rfl)
            (fun child h => iff_of_false (unmoved child h) nofun) fun child h => h.zero
      | false =>
          show Apart own (onCommand s (fun c => { c with stage := .failed }) fun _ cs => cs)
          exact apart.onCommand executing rfl id (fun _ => rfl) Children.change_id.symm
            (fun child h => h.moved) (fun child h => iff_of_false (unmoved child h) nofun)
            fun child h => h.zero
  | childExecvp ok =>
      obtain ⟨c, -, executing, stage, -⟩ := permitted
      cases ok with
      | true =>
          show Apart own (onCommand s (fun c => { c with stage := .running })
            fun pid cs => cs.execve pid)
          exact apart.onCommand executing rfl (fun child => { child with exec := true })
            (fun _ => rfl) rfl (fun child h => h.moved) (fun _ _ => iff_of_true rfl rfl)
            fun _ _ _ => rfl
      | false =>
          show Apart own (onCommand s (fun c => { c with stage := .failed }) fun _ cs => cs)
          refine apart.onCommand executing rfl id (fun _ => rfl) Children.change_id.symm
            (fun child h => h.moved) (fun child h => iff_of_false (fun ran => ?_) nofun)
            fun child h => h.zero
          cases stage.symm.trans (h.ran.mp ran)
  | childExit status =>
      obtain ⟨c, executing, code⟩ : ∃ c, s.command = some c ∧
          (status = .exited 0 → c.stage = .running) := by
        cases status with
        | exited code =>
            rcases permitted with ⟨c, -, executing, stage, -⟩ | ⟨rfl, c, -, executing, -⟩
            · exact ⟨c, executing, fun _ => stage⟩
            · exact ⟨c, executing, nofun⟩
        | signaled signal =>
            obtain ⟨-, c, -, executing, -⟩ := permitted
            exact ⟨c, executing, nofun⟩
      show Apart own (onCommand s id fun pid cs => cs.exit pid status)
      exact apart.onCommand executing rfl (fun child => { child with status := some status })
        (fun _ => rfl) rfl (fun child h _ => undisturbed c child executing h.there)
        (fun child h => h.ran) fun child h zero => h.ran.mpr (code (Option.some.inj zero))
  | parentSetpgid ok =>
      obtain ⟨c, executing, -⟩ := permitted
      cases ok with
      | true =>
          show Apart own (onCommand s (fun c => { c with moved := true })
            fun pid cs => cs.setpgid pid pid)
          exact apart.onCommand executing rfl (fun child => { child with group := c.pid })
            (fun _ => rfl) rfl (fun _ _ _ => rfl) (fun child h => h.ran) fun child h => h.zero
      | false =>
          show Apart own (onCommand s (fun c => { c with moved := true }) fun _ cs => cs)
          exact apart.onCommand executing rfl id (fun _ => rfl) Children.change_id.symm
            (fun child h => h.moved) (fun child h => h.ran) fun child h => h.zero
  | parentWait =>
      obtain ⟨c, executing, -⟩ := permitted
      exact apart.parentWait executing

/-! ### Every run -/

/-- Each thread waits for what it has started: `Run` for a program of the monitor, which is
started again as the source says, the shell command for its own child, which ran and exited
with 0 if the command succeeds. -/
structure EachItsOwn (t : Transition State Event Output) : Prop where
  run : ∀ pid now forked, t.input = .reap pid now forked →
    ∃ child info, t.before.children pid = some child ∧ child.tag = some info ∧
      (info.argv ≠ [] → t.output = .launched
        (if crashLimit t.before.monitor info now then none else some ⟨forked, info⟩))
  shell : t.input = .parentWait →
    ∃ c child, t.before.command = some c ∧ t.before.children c.pid = some child ∧
      child.tag = none ∧ child.status ≠ none ∧
      ∃ success, t.output = .returned success ∧
        (success = true ↔ child.exec = true ∧ child.status = some (.exited 0))

theorem eachItsOwn_of_apart {s : State} {e : Event} (apart : Apart own s)
    (permitted : Permitted own s e) : EachItsOwn (take (step own) s e) := by
  constructor
  · rintro pid now forked rfl
    obtain ⟨child, info, there, tag⟩ := apart.reaped permitted.1
    refine ⟨child, info, there, tag, fun command => ?_⟩
    have launched : s.system.unreaped pid = some (some info) := by
      show ((s.children pid).bind Child.tag).map some = _
      rw [there, Option.bind_some, tag]
      rfl
    have once := relaunchesOnce_of_tracks
      (t := take WSLGd.step s.system (.reap pid now forked)) rfl apart.tracks
    exact congrArg Output.launched (once info launched command)
  · rintro rfl
    obtain ⟨c, executing, -, dead⟩ := permitted
    obtain ⟨child, own_⟩ := apart.command c executing
    have ended : child.status ≠ none := fun alive => dead ⟨child, own_.there, alive⟩
    refine ⟨c, child, executing, own_.there, own_.tag, ended, success s.children c.pid, ?_, ?_⟩
    · simp only [take, step, executing]
    · rw [success, own_.there, Option.bind_some, decide_eq_true_eq]
      exact ⟨fun zero => ⟨own_.zero zero, zero⟩, And.right⟩

/-- What the monitor is told of in a step: a launch, or that there was none. -/
def Output.launches : Output → List (Option Launched)
  | .launched l => [l]
  | _ => []

/-- A run of both threads in which the monitor goes through a run of its own: the kernel
allows that run, it launches the same and ends in the same state. -/
structure MonitorAlone (own : Int) (es : List Event) : Prop where
  allowed : ∀ t ∈ transitions WSLGd.step {} (es.filterMap Event.monitor?),
    KernelAllows t.before t.input ∧ WSLGd.FreshPid t.before t.input
  system : (finish (step own) {} es).system =
    finish WSLGd.step {} (es.filterMap Event.monitor?)
  launches : (transitions (step own) {} es).flatMap (·.output.launches) =
    (transitions WSLGd.step {} (es.filterMap Event.monitor?)).map (·.output)

/-- The kernel allows the monitor alone what it permits it here. -/
theorem kernelAllows_of_permitted {s : State} {e : Event} (permitted : Permitted own s e)
    (apart : Apart own s) {e' : WSLGd.Event} (mine : e.monitor? = some e') :
    KernelAllows s.system e' := by
  have unused : ∀ {pid}, s.children pid = none → s.system.unreaped pid = none := by
    intro pid unused
    show ((s.children pid).bind Child.tag).map some = none
    rw [unused]
    rfl
  cases e with
  | launch info forked =>
      cases mine
      exact unused permitted
  | reap pid now forked =>
      cases mine
      obtain ⟨child, info, there, tag⟩ := apart.reaped permitted.1
      refine ⟨?_, permitted.2.imp_right unused⟩
      show ((s.children pid).bind Child.tag).map some ≠ none
      rw [there, Option.bind_some, tag]
      exact nofun
  | _ => cases mine

theorem launches_step (s : State) (e : Event) :
    (step own s e).1.launches =
      e.monitor?.elim [] fun e' => [(WSLGd.step s.system e').1] := by
  cases e with
  | shellFork forked => cases forked <;> rfl
  | parentWait =>
      simp only [step]
      split <;> rfl
  | _ => rfl

/-- Both together: what a step is for the monitor. -/
theorem monitor_step {t : Transition State Event Output} (taken : Taken (step own) t)
    (permitted : Permitted own t.before t.input) (apart : Apart own t.before) :
    t.after.system =
        t.input.monitor?.elim t.before.system (fun e => (WSLGd.step t.before.system e).2) ∧
      t.output.launches =
        t.input.monitor?.elim [] fun e => [(WSLGd.step t.before.system e).1] := by
  have system := system_step permitted apart
  have launches := @launches_step own t.before t.input
  rw [taken] at system launches
  exact ⟨system, launches⟩

/-- What the order of the program, the kernel and the two conditions allow. -/
def Allowed (own : Int) (t : Transition State Event Output) : Prop :=
  Permitted own t.before t.input ∧ FreshPid t.before t.input ∧ Undisturbed t.before t.input

theorem apart_taken {t : Transition State Event Output} (taken : Taken (step own) t)
    (allowed : Allowed own t) (apart : Apart own t.before) : Apart own t.after := by
  have after : t.after = (step own t.before t.input).2 := (congrArg Prod.snd taken).symm
  rw [after]
  exact apart_step allowed.1 allowed.2.1 allowed.2.2 apart

theorem apart_start : Apart own {} := ⟨fun _ => rfl, nofun, nofun⟩

/-- Alone the monitor is always in the state that is its part of the other. -/
theorem monitorAlone {es : List Event}
    (steps : ∀ t ∈ transitions (step own) {} es, Allowed own t) : MonitorAlone own es := by
  have related : Apart own {} ∧ State.system {} = {} := ⟨apart_start, rfl⟩
  have runs : (Apart own (finish (step own) {} es) ∧ (finish (step own) {} es).system =
        finish WSLGd.step {} (es.filterMap Event.monitor?)) ∧
      (transitions (step own) {} es).flatMap (·.output.launches) =
        (transitions WSLGd.step {} (es.filterMap Event.monitor?)).flatMap
          fun t => [t.output] := by
    refine refines_stuttering (R := fun s s' => Apart own s ∧ s.system = s')
      (fun t s' taken ok ⟨apart, same⟩ => ?_) related steps
    have later := apart_taken taken ok apart
    obtain ⟨system, launches⟩ := monitor_step taken ok.1 apart
    rw [same] at system launches
    revert system launches
    cases t.input.monitor? with
    | none => exact fun system launches => ⟨⟨later, system⟩, launches⟩
    | some e => exact fun system launches => ⟨⟨later, system⟩, launches⟩
  have allowed : ∀ t ∈ transitions WSLGd.step {} (es.filterMap Event.monitor?),
      KernelAllows t.before t.input ∧ WSLGd.FreshPid t.before t.input := by
    refine meets_stuttering (R := fun s s' => Apart own s ∧ s.system = s')
      (fun t s' taken ok ⟨apart, same⟩ => ?_) related steps
    have later := apart_taken taken ok apart
    have system := (monitor_step taken ok.1 apart).1
    have fresh := ok.2.1
    have allows : ∀ e, t.input.monitor? = some e → KernelAllows t.before.system e :=
      fun _ => kernelAllows_of_permitted ok.1 apart
    rw [FreshPid] at fresh
    rw [same] at system fresh allows
    revert system fresh allows
    cases t.input.monitor? with
    | none => exact fun system _ _ => ⟨later, system⟩
    | some e => exact fun system fresh allows => ⟨⟨later, system⟩, allows e rfl, fresh⟩
  exact ⟨allowed, runs.1.2, by rw [runs.2, List.map_eq_flatMap]⟩

/-- In every order the kernel permits, with a fresh pid for a child that is started again and
no child of a shell command ending before it is in its own group, each thread gets what it has
started, and the monitor keeps track of every program it has launched, as it does alone. -/
theorem threads_apart (own : Int) (es : List Event)
    (steps : ∀ t ∈ transitions (step own) {} es, Permitted own t.before t.input ∧
      FreshPid t.before t.input ∧ Undisturbed t.before t.input) :
    (∀ t ∈ transitions (step own) {} es, EachItsOwn t ∧ Tracks t.after.system) ∧
      MonitorAlone own es := by
  refine ⟨fun t mem => ?_, monitorAlone steps⟩
  obtain ⟨before, after⟩ :=
    invariant_transitions (fun t => apart_taken) apart_start steps t mem
  refine ⟨?_, after.tracks⟩
  rw [(taken_of_mem mem).eq_take]
  exact eachItsOwn_of_apart before (steps t mem).1

/-- A daemon is launched and `xset` is run, in turn; the daemon dies while `xset` is on its
way and is started again. -/
def interleaved : List Event :=
  [.launch daemon 5, .shellFork (some 6), .exit 5 (.exited 1), .childSetpgid true, .reap 5 0 7,
    .childExecvp true, .parentSetpgid false, .childExit (.exited 0), .parentWait]

theorem interleaved_permitted :
    ∀ t ∈ transitions (step 1) {} interleaved, Permitted 1 t.before t.input ∧
      FreshPid t.before t.input ∧ Undisturbed t.before t.input := by
  simp only [interleaved, transitions, List.forall_mem_cons]
  refine ⟨⟨rfl, trivial, trivial⟩, ⟨⟨rfl, ?_⟩, trivial, trivial⟩,
    ⟨⟨_, rfl, by decide, rfl⟩, trivial, trivial⟩,
    ⟨⟨_, _, rfl, rfl, rfl, rfl, rfl⟩, trivial, trivial⟩,
    ⟨⟨⟨_, rfl, rfl, by decide⟩, Or.inr rfl⟩, fun _ => by decide, trivial⟩,
    ⟨⟨_, _, rfl, rfl, rfl, rfl, rfl⟩, trivial, trivial⟩,
    ⟨⟨_, rfl, rfl, by decide⟩, trivial, trivial⟩,
    ⟨Or.inl ⟨_, _, rfl, rfl, rfl, rfl, rfl⟩, trivial, ?_⟩,
    ⟨⟨_, rfl, rfl, ?_⟩, trivial, trivial⟩, List.forall_mem_nil _⟩
  · rintro pid ⟨⟩
    exact ⟨rfl, by decide⟩
  · rintro c child ⟨⟩ ⟨⟩
    rfl
  · rintro ⟨child, ⟨⟩, ⟨⟩⟩

theorem threads_apart_interleaved :
    (∃ t ∈ transitions (step 1) {} interleaved, t.input = .parentWait ∧ EachItsOwn t ∧
      Tracks t.after.system) ∧ MonitorAlone 1 interleaved := by
  have split : interleaved = interleaved.dropLast ++ [.parentWait] := rfl
  have mem := @mem_transitions _ _ _ (step 1) {} interleaved.dropLast .parentWait []
  rw [← split] at mem
  obtain ⟨apart, alone⟩ := threads_apart 1 interleaved interleaved_permitted
  exact ⟨⟨_, mem, rfl, apart _ mem⟩, alone⟩

/-- What the condition is for: a child that has ended in the group of WSLGd can be returned to
`Run`, and then the shell command fails, however the child ended. -/
theorem lost_of_ended_in_group {s : State} {c : Command} {child : Child (Option ProcessInfo)}
    (executing : s.command = some c) (there : s.children c.pid = some child)
    (group : child.group = own) (ended : child.status ≠ none)
    (untracked : s.monitor.children c.pid = none) (now : Int) :
    Permitted own s (.reap c.pid now c.pid) ∧
      (finish (step own) s [.reap c.pid now c.pid, .parentSetpgid false]).children c.pid = none ∧
      (step own (finish (step own) s [.reap c.pid now c.pid, .parentSetpgid false])
        .parentWait).1 = .returned false := by
  have iteration : runIteration s.monitor c.pid now c.pid = (none, s.monitor) := by
    simp only [runIteration, untracked]
  have after : finish (step own) s [.reap c.pid now c.pid, .parentSetpgid false] =
      { s with command := some { c with moved := true }, children := s.children.reap c.pid } := by
    simp only [finish, step, iteration, onCommand, executing, Option.elim_none]
    rfl
  have gone : s.children.reap c.pid c.pid = none := Children.reap_self
  refine ⟨⟨⟨child, there, group, ended⟩, Or.inl rfl⟩, by rw [after]; exact gone, ?_⟩
  rw [after]
  simp only [step, success, gone]
  rfl

end Wslg.WSLGd.Threads
