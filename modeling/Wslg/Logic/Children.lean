/-
The children of a process, and who can wait for them.

The kernel keeps a child until its parent has waited for it. A child starts in the group of
its parent; it leaves for a group of its own, or is moved there, until it executes a program.
A wait for a group returns any ended child that is in the group at that time, a wait for one
child that child. So what two threads of the parent wait for is apart as soon as the groups
of their children are.

What a child was started for is its tag, of any type.
-/

import Mathlib.Logic.Function.Basic

namespace Wslg

/-- How a process ended. -/
inductive WaitStatus where
  | exited (code : UInt8)
  | signaled (signal : Nat)
deriving DecidableEq

/-- A child that its parent has not waited for; `status` is there once it has ended. -/
structure Child (τ : Type) where
  tag : τ
  group : Int
  exec : Bool := false
  status : Option WaitStatus := none
deriving DecidableEq

/-- The children by their process ids. -/
abbrev Children (τ : Type) := Int → Option (Child τ)

namespace Children

variable {τ : Type}

/-- `fork` in a process of group `own`. -/
def fork (cs : Children τ) (own pid : Int) (tag : τ) : Children τ :=
  Function.update cs pid (some { tag, group := own })

def change (cs : Children τ) (pid : Int) (f : Child τ → Child τ) : Children τ :=
  Function.update cs pid ((cs pid).map f)

def setpgid (cs : Children τ) (pid group : Int) : Children τ :=
  cs.change pid fun c => { c with group }

def execve (cs : Children τ) (pid : Int) : Children τ :=
  cs.change pid fun c => { c with exec := true }

/-- The child ends. -/
def exit (cs : Children τ) (pid : Int) (status : WaitStatus) : Children τ :=
  cs.change pid fun c => { c with status := some status }

/-- The parent has waited for the child. -/
def reap (cs : Children τ) (pid : Int) : Children τ := Function.update cs pid none

/-- The child is there and has not ended. -/
def Alive (cs : Children τ) (pid : Int) : Prop := ∃ c, cs pid = some c ∧ c.status = none

/-- `waitpid(0)` in a process of this group can return this child. -/
def WaitableIn (cs : Children τ) (group pid : Int) : Prop :=
  ∃ c, cs pid = some c ∧ c.group = group ∧ c.status ≠ none

variable {cs : Children τ} {own pid other : Int} {tag : τ} {f : Child τ → Child τ}

@[simp] theorem fork_self : cs.fork own pid tag pid = some { tag, group := own } :=
  Function.update_self ..

@[simp] theorem fork_of_ne (ne : other ≠ pid) : cs.fork own pid tag other = cs other :=
  Function.update_of_ne ne ..

@[simp] theorem change_self : cs.change pid f pid = (cs pid).map f := Function.update_self ..

@[simp] theorem change_of_ne (ne : other ≠ pid) : cs.change pid f other = cs other :=
  Function.update_of_ne ne ..

@[simp] theorem change_id : cs.change pid id = cs := by
  rw [change, Option.map_id_fun, id, Function.update_eq_self]

@[simp] theorem reap_self : cs.reap pid pid = none := Function.update_self ..

@[simp] theorem reap_of_ne (ne : other ≠ pid) : cs.reap pid other = cs other :=
  Function.update_of_ne ne ..

/-- Whatever happens to a child leaves what it was started for. -/
theorem tag_change (keeps : ∀ c, (f c).tag = c.tag) (other : Int) :
    (cs.change pid f other).map Child.tag = (cs other).map Child.tag := by
  by_cases same : other = pid
  · rw [same, change_self, Option.map_map]
    exact congrArg (fun g => Option.map g (cs pid)) (funext keeps)
  · rw [change_of_ne same]

end Children

end Wslg
