/-
Directories, and the kernel's watches on them.

Directories have a path and an inode; a rename changes the paths of a whole subtree and
no inode. A watch is on an inode: `addWatch` looks the path up and gives the descriptor
of the watch there is on its inode, or a new one. Each change of a watched directory puts
an event with that descriptor into one queue, which is read first in, first out. Events
of a directory about itself have no name and are left out.

A path is a list of bytes, `child p n` the path of the entry `n` of the directory `p`.
The operations are total: one that the kernel would refuse changes nothing.
-/

import Mathlib.Data.List.Infix
import Mathlib.Data.List.Nodup
import Mathlib.Logic.Function.Basic

namespace Wslg.Inotify

/-! ### Paths -/

abbrev Path := List UInt8

abbrev Name := List UInt8

def slash : UInt8 := 0x2F

/-- The path of an entry of a directory. -/
def child (p : Path) (n : Name) : Path := p ++ slash :: n

/-- What a directory entry can be called. -/
def Plain (n : Name) : Prop := n ≠ [] ∧ slash ∉ n

instance (n : Name) : Decidable (Plain n) := inferInstanceAs (Decidable (_ ∧ _))

/-- `q` is the path of an entry of `p`. -/
def IsChild (p q : Path) : Prop :=
  Plain (q.drop (p.length + 1)) ∧ child p (q.drop (p.length + 1)) = q

instance (p q : Path) : Decidable (IsChild p q) := inferInstanceAs (Decidable (_ ∧ _))

theorem isChild_iff {p q : Path} : IsChild p q ↔ ∃ n, Plain n ∧ child p n = q := by
  constructor
  · rintro ⟨plain, same⟩
    exact ⟨_, plain, same⟩
  · rintro ⟨n, plain, rfl⟩
    have isName : (child p n).drop (p.length + 1) = n := by simp [child]
    unfold IsChild
    rw [isName]
    exact ⟨plain, rfl⟩

theorem isChild_child {p : Path} {n : Name} (plain : Plain n) : IsChild p (child p n) :=
  isChild_iff.mpr ⟨n, plain, rfl⟩

theorem IsChild.length_lt {p q : Path} (isChild : IsChild p q) : p.length < q.length := by
  obtain ⟨n, -, rfl⟩ := isChild_iff.mp isChild
  simp only [child, List.length_append, List.length_cons]
  omega

/-- `q` is strictly below `p`. -/
def Under (p q : Path) : Prop := p ++ [slash] <+: q

instance (p q : Path) : Decidable (Under p q) := inferInstanceAs (Decidable (_ <+: _))

theorem under_child (p : Path) (n : Name) : Under p (child p n) :=
  ⟨n, by rw [child, List.append_assoc, List.singleton_append]⟩

theorem Under.trans {p q r : Path} (first : Under p q) (second : Under q r) : Under p r :=
  List.IsPrefix.trans first ((List.prefix_append q [slash]).trans second)

/-- A path with a plain last name has one parent and one last name. -/
theorem child_inj {p p' : Path} {n n' : Name} (plain : Plain n) (plain' : Plain n')
    (same : child p n = child p' n') : p = p' ∧ n = n' := by
  have last : ∀ (q : Path) (m : Name), Plain m →
      (child q m).reverse.takeWhile (· ≠ slash) = m.reverse := by
    intro q m ok
    rw [child, List.reverse_append, List.reverse_cons, List.append_assoc,
      List.takeWhile_append_of_pos]
    · simp
    · intro c mem
      refine decide_eq_true fun isSlash => ok.2 ?_
      rw [← isSlash]
      exact List.mem_reverse.mp mem
  have names : n = n' := by
    apply List.reverse_injective
    rw [← last p n plain, same, last p' n' plain']
  subst names
  exact ⟨List.append_cancel_right same, rfl⟩

/-- What is below a directory is below an entry of it or is one. -/
theorem under_child_iff {r p : Path} {n : Name} (plain : Plain n) :
    Under r (child p n) ↔ p = r ∨ Under r p := by
  constructor
  · rintro ⟨rest, eq⟩
    -- the rest ends in the last name, with the slash before it in the prefix or not
    rw [List.append_assoc, List.singleton_append] at eq
    rcases List.append_eq_append_iff.mp eq with ⟨mid, isP, isRest⟩ | ⟨mid, isR, isName⟩
    · cases mid with
      | nil =>
          left
          rw [isP, List.append_nil]
      | cons c mid =>
          right
          obtain ⟨rfl, -⟩ := List.cons.inj isRest
          exact ⟨mid, by rw [isP, List.append_assoc, List.singleton_append]⟩
    · cases mid with
      | nil =>
          left
          rw [isR, List.append_nil]
      | cons c mid =>
          obtain ⟨-, inName⟩ := List.cons.inj isName
          refine absurd ?_ plain.2
          rw [inName]
          simp
  · rintro (rfl | below)
    · exact under_child p n
    · exact below.trans (under_child p n)

/-! ### Events -/

def inCloseWrite : UInt32 := 0x8
def inMovedFrom : UInt32 := 0x40
def inMovedTo : UInt32 := 0x80
def inCreate : UInt32 := 0x100
def inDelete : UInt32 := 0x200
def inIsDir : UInt32 := 0x40000000

/-- `struct inotify_event`, without the cookie; the name is empty when `len` is 0. -/
structure Event where
  wd : Int
  mask : UInt32
  name : Name
deriving DecidableEq

/-! ### The kernel -/

structure Kernel where
  dirs : List (Path × Nat) := []
  files : List (Nat × Name) := []
  nextInode : Nat := 0
  watches : Nat → Option Int := fun _ => none
  nextWd : Nat := 1
  queue : List Event := []

namespace Kernel

/-- The directory of a path. -/
def inode? (k : Kernel) (p : Path) : Option Nat := (k.dirs.find? (·.1 = p)).map (·.2)

def IsDir (k : Kernel) (p : Path) : Prop := (k.inode? p).isSome = true

instance (k : Kernel) (p : Path) : Decidable (k.IsDir p) :=
  inferInstanceAs (Decidable (_ = _))

/-- The file `n` is in the directory `p`. -/
def HasFile (k : Kernel) (p : Path) (n : Name) : Prop := ∃ i ∈ k.inode? p, (i, n) ∈ k.files

instance (k : Kernel) (p : Path) (n : Name) : Decidable (k.HasFile p n) :=
  inferInstanceAs (Decidable (∃ i ∈ k.inode? p, _))

/-- The names of the directories in a directory. -/
def subdirs (k : Kernel) (p : Path) : List Name :=
  (k.dirs.map (·.1)).filterMap fun q =>
    if IsChild p q then some (q.drop (p.length + 1)) else none

/-- An event for the watch on a directory, if there is one. -/
def notify (k : Kernel) (i : Nat) (mask : UInt32) (n : Name) : Kernel :=
  match k.watches i with
  | some wd => { k with queue := k.queue ++ [⟨wd, mask, n⟩] }
  | none => k

def mkdir (k : Kernel) (p : Path) (n : Name) : Kernel :=
  match k.inode? p with
  | some i =>
      if Plain n ∧ ¬ k.IsDir (child p n) ∧ (i, n) ∉ k.files then
        { k with dirs := (child p n, k.nextInode) :: k.dirs, nextInode := k.nextInode + 1 }.notify
          i (inCreate ||| inIsDir) n
      else k
  | none => k

/-- A directory without entries. -/
def IsEmpty (k : Kernel) (p : Path) (i : Nat) : Prop :=
  (∀ d ∈ k.dirs, ¬ Under p d.1) ∧ ∀ f ∈ k.files, f.1 ≠ i

instance (k : Kernel) (p : Path) (i : Nat) : Decidable (k.IsEmpty p i) :=
  inferInstanceAs (Decidable (_ ∧ _))

/-- A directory is gone, and the watch on it. -/
def drop (k : Kernel) (p : Path) (i : Nat) : Kernel :=
  { k with
    dirs := k.dirs.filter (·.1 ≠ p)
    watches := Function.update k.watches i none }

def rmdir (k : Kernel) (p : Path) (n : Name) : Kernel :=
  match k.inode? p, k.inode? (child p n) with
  | some i, some c =>
      if Plain n ∧ k.IsEmpty (child p n) c then
        (k.drop (child p n) c).notify i (inDelete ||| inIsDir) n
      else k
  | _, _ => k

/-- The path of a directory once `src` is called `dst`. -/
def moved (src dst q : Path) : Path :=
  if q = src ∨ Under src q then dst ++ q.drop src.length else q

def move (k : Kernel) (src dst : Path) : Kernel :=
  { k with dirs := k.dirs.map fun d => (moved src dst d.1, d.2) }

/-- The kernel without the empty directory that a rename replaces, if that is what is
there. -/
def vacate (k : Kernel) (p : Path) : Option Kernel :=
  match k.inode? p with
  | none => some k
  | some v => if k.IsEmpty p v then some (k.drop p v) else none

/-- `rename` of a directory. -/
def rename (k : Kernel) (p : Path) (n : Name) (p' : Path) (n' : Name) : Kernel :=
  let src := child p n
  let dst := child p' n'
  match k.inode? p, k.inode? src, k.inode? p' with
  | some i, some _, some i' =>
      if Plain n ∧ Plain n' ∧ dst ≠ src ∧ ¬ Under src dst ∧ (i', n') ∉ k.files then
        match k.vacate dst with
        | some k' =>
            ((k'.move src dst).notify i (inMovedFrom ||| inIsDir) n).notify i'
              (inMovedTo ||| inIsDir) n'
        | none => k
      else k
  | _, _, _ => k

/-- What happens to a file in a directory. -/
inductive FileOp where
  | create
  | moveIn
  | write
  | delete
  | moveOut
deriving DecidableEq

namespace FileOp

def mask : FileOp → UInt32
  | create => inCreate
  | moveIn => inMovedTo
  | write => inCloseWrite
  | delete => inDelete
  | moveOut => inMovedFrom

/-- The file is there before. A file that is written may be deleted already. -/
def Possible (op : FileOp) (there : Prop) : Prop :=
  match op with
  | create => ¬ there
  | moveIn => True
  | write => True
  | delete => there
  | moveOut => there

instance (op : FileOp) (there : Prop) [Decidable there] : Decidable (op.Possible there) := by
  cases op <;> unfold Possible <;> infer_instance

end FileOp

/-- The files afterwards. -/
def filesAfter (files : List (Nat × Name)) (f : Nat × Name) : FileOp → List (Nat × Name)
  | .create => f :: files
  | .moveIn => f :: files
  | .write => files
  | .delete => files.filter (· ≠ f)
  | .moveOut => files.filter (· ≠ f)

def fileOp (k : Kernel) (p : Path) (n : Name) (op : FileOp) : Kernel :=
  match k.inode? p with
  | some i =>
      if Plain n ∧ ¬ k.IsDir (child p n) ∧ op.Possible ((i, n) ∈ k.files) then
        { k with files := filesAfter k.files (i, n) op }.notify i op.mask n
      else k
  | none => k

/-- What others do to directories and files. -/
inductive EnvOp where
  | mkdir (p : Path) (n : Name)
  | rmdir (p : Path) (n : Name)
  | rename (p : Path) (n : Name) (p' : Path) (n' : Name)
  | file (p : Path) (n : Name) (op : FileOp)
deriving DecidableEq

def apply (k : Kernel) : EnvOp → Kernel
  | .mkdir p n => k.mkdir p n
  | .rmdir p n => k.rmdir p n
  | .rename p n p' n' => k.rename p n p' n'
  | .file p n op => k.fileOp p n op

/-! ### Watching -/

/-- `inotify_init`: no watch, nothing queued. -/
def init (k : Kernel) : Kernel := { k with watches := fun _ => none, queue := [] }

/-- `inotify_add_watch`: the descriptor, or -1. -/
def addWatch (k : Kernel) (p : Path) : Int × Kernel :=
  match k.inode? p with
  | none => (-1, k)
  | some i =>
      match k.watches i with
      | some wd => (wd, k)
      | none =>
          (k.nextWd, { k with
            watches := Function.update k.watches i (some (k.nextWd : Int))
            nextWd := k.nextWd + 1 })

/-- `inotify_rm_watch`. -/
def rmWatch (k : Kernel) (wd : Int) : Kernel :=
  { k with watches := fun i => if k.watches i = some wd then none else k.watches i }

/-! ### What the operations leave alone -/

section Notify

variable (k : Kernel) (i : Nat) (mask : UInt32) (n : Name)

@[simp] theorem dirs_notify : (k.notify i mask n).dirs = k.dirs := by
  unfold notify
  split <;> rfl

@[simp] theorem files_notify : (k.notify i mask n).files = k.files := by
  unfold notify
  split <;> rfl

@[simp] theorem nextInode_notify : (k.notify i mask n).nextInode = k.nextInode := by
  unfold notify
  split <;> rfl

@[simp] theorem watches_notify : (k.notify i mask n).watches = k.watches := by
  unfold notify
  split <;> rfl

@[simp] theorem nextWd_notify : (k.notify i mask n).nextWd = k.nextWd := by
  unfold notify
  split <;> rfl

@[simp] theorem inode?_notify (p : Path) : (k.notify i mask n).inode? p = k.inode? p := by
  simp [inode?]

theorem queue_notify : (k.notify i mask n).queue =
    k.queue ++ ((k.watches i).map fun wd => ⟨wd, mask, n⟩).toList := by
  unfold notify
  cases k.watches i <;> simp

end Notify

section Lookup

variable {k : Kernel} {p q : Path} {n : Name} {i : Nat}

theorem inode?_cons {k' : Kernel} {d : Path × Nat} (dirs : k'.dirs = d :: k.dirs) :
    k'.inode? p = if d.1 = p then some d.2 else k.inode? p := by
  unfold inode?
  rw [dirs]
  by_cases same : d.1 = p
  · simp [same]
  · simp [same]

theorem mem_dirs_of_inode? (found : k.inode? p = some i) : (p, i) ∈ k.dirs := by
  obtain ⟨d, isFirst, rfl⟩ := Option.map_eq_some_iff.mp found
  have same := List.find?_some isFirst
  have mem := List.mem_of_find?_eq_some isFirst
  simp only [decide_eq_true_eq] at same
  rw [← same]
  exact mem

theorem isDir_iff : k.IsDir p ↔ ∃ i, k.inode? p = some i := Option.isSome_iff_exists

theorem isDir_of_mem (mem : (p, i) ∈ k.dirs) : k.IsDir p := by
  unfold IsDir inode?
  rw [Option.isSome_map, List.find?_isSome]
  exact ⟨_, mem, decide_eq_true rfl⟩

theorem mem_subdirs : n ∈ k.subdirs p ↔ k.IsDir (child p n) ∧ Plain n := by
  unfold subdirs
  simp only [List.mem_filterMap, List.mem_map, Option.ite_none_right_eq_some, Option.some.injEq]
  constructor
  · rintro ⟨q, ⟨d, mem, rfl⟩, ⟨plain, same⟩, rfl⟩
    rw [same]
    exact ⟨isDir_of_mem mem, plain⟩
  · rintro ⟨isDir, plain⟩
    obtain ⟨i, found⟩ := isDir_iff.mp isDir
    refine ⟨child p n, ⟨_, mem_dirs_of_inode? found, rfl⟩, isChild_child plain, ?_⟩
    simp [child]

end Lookup

/-! ### Descriptors -/

/-- Descriptors are given out once: each is below the next one, and no two watches share
one. -/
structure Distinct (k : Kernel) : Prop where
  nonneg : ∀ i wd, k.watches i = some wd → 0 ≤ wd
  lt : ∀ i wd, k.watches i = some wd → wd < k.nextWd
  inj : ∀ i j wd, k.watches i = some wd → k.watches j = some wd → i = j
  queued : ∀ e ∈ k.queue, e.wd < k.nextWd

/-- What an operation of others can do to the watches and to the queue: watches end with
their directory, and events are those of watched directories. -/
structure Disturbs (k k' : Kernel) : Prop where
  watches : ∀ i wd, k'.watches i = some wd → k.watches i = some wd
  nextWd : k'.nextWd = k.nextWd
  queue : ∃ es, k'.queue = k.queue ++ es ∧
    ∀ e ∈ es, (∃ i, k.watches i = some e.wd) ∧ Plain e.name

theorem Disturbs.refl (k : Kernel) : Disturbs k k :=
  ⟨fun _ _ => id, rfl, [], (List.append_nil _).symm, fun _ mem => absurd mem List.not_mem_nil⟩

/-- An event of a directory that was watched before. -/
theorem Disturbs.notify {k k' : Kernel} (disturbs : Disturbs k k') (i : Nat) (mask : UInt32)
    {n : Name} (plain : Plain n) : Disturbs k (k'.notify i mask n) := by
  obtain ⟨es, queue, watched⟩ := disturbs.queue
  refine ⟨?_, ?_, es ++ ((k'.watches i).map fun wd => ⟨wd, mask, n⟩).toList, ?_, ?_⟩
  · rw [watches_notify]
    exact disturbs.watches
  · rw [nextWd_notify]
    exact disturbs.nextWd
  · rw [queue_notify, queue, List.append_assoc]
  · intro e mem
    rcases List.mem_append.mp mem with old | new
    · exact watched e old
    · rw [Option.mem_toList] at new
      obtain ⟨wd, held, rfl⟩ := Option.map_eq_some_iff.mp new
      exact ⟨⟨i, disturbs.watches i wd held⟩, plain⟩

theorem Disturbs.drop {k k' : Kernel} (disturbs : Disturbs k k') (p : Path) (i : Nat) :
    Disturbs k (k'.drop p i) := by
  refine ⟨?_, disturbs.nextWd, disturbs.queue⟩
  intro j wd held
  refine disturbs.watches j wd ?_
  simp only [Kernel.drop] at held
  by_cases same : j = i
  · rw [same, Function.update_self] at held
    cases held
  · rw [Function.update_of_ne same] at held
    exact held

/-- Directories and files may be any. -/
theorem Disturbs.tree {k k' k'' : Kernel} (disturbs : Disturbs k k')
    (watches : k''.watches = k'.watches) (nextWd : k''.nextWd = k'.nextWd)
    (queue : k''.queue = k'.queue) : Disturbs k k'' :=
  ⟨by rw [watches]; exact disturbs.watches, nextWd.trans disturbs.nextWd,
    by rw [queue]; exact disturbs.queue⟩

theorem disturbs_apply (k : Kernel) (op : EnvOp) : Disturbs k (k.apply op) := by
  have start := Disturbs.refl k
  cases op with
  | mkdir p n =>
      rw [apply, mkdir]
      split
      · split
        · rename_i can
          refine Disturbs.notify ?_ _ _ can.1
          exact start.tree rfl rfl rfl
        · exact start
      · exact start
  | rmdir p n =>
      rw [apply, rmdir]
      split
      · split
        · rename_i can
          exact (start.drop _ _).notify _ _ can.1
        · exact start
      · exact start
  | rename p n p' n' =>
      rw [apply, rename]
      split
      · split
        · rename_i can
          split
          · rename_i k' vacated
            have vacant : Disturbs k k' := by
              rw [vacate] at vacated
              split at vacated
              · cases vacated
                exact start
              · split at vacated
                · cases vacated
                  exact start.drop _ _
                · cases vacated
            refine Disturbs.notify (Disturbs.notify ?_ _ _ can.1) _ _ can.2.1
            exact vacant.tree rfl rfl rfl
          · exact start
        · exact start
      · exact start
  | file p n op =>
      rw [apply, fileOp]
      split
      · split
        · rename_i can
          refine Disturbs.notify ?_ _ _ can.1
          exact start.tree rfl rfl rfl
        · exact start
      · exact start

theorem Distinct.disturbs {k k' : Kernel} (distinct : Distinct k) (disturbs : Disturbs k k') :
    Distinct k' := by
  obtain ⟨es, queue, watched⟩ := disturbs.queue
  constructor
  · intro i wd held
    exact distinct.nonneg i wd (disturbs.watches i wd held)
  · intro i wd held
    rw [disturbs.nextWd]
    exact distinct.lt i wd (disturbs.watches i wd held)
  · intro i j wd held held'
    exact distinct.inj i j wd (disturbs.watches i wd held) (disturbs.watches j wd held')
  · intro e mem
    rw [disturbs.nextWd]
    rw [queue] at mem
    rcases List.mem_append.mp mem with old | new
    · exact distinct.queued e old
    · obtain ⟨⟨i, held⟩, -⟩ := watched e new
      exact distinct.lt i e.wd held

theorem Distinct.init {k : Kernel} : Distinct k.init :=
  ⟨nofun, nofun, nofun, nofun⟩

/-- A watch is added: it was there, or its descriptor is the next one. -/
theorem addWatch_cases (k : Kernel) (p : Path) :
    (k.inode? p = none ∧ k.addWatch p = (-1, k)) ∨
      (∃ i wd, k.inode? p = some i ∧ k.watches i = some wd ∧ k.addWatch p = (wd, k)) ∨
      ∃ i, k.inode? p = some i ∧ k.watches i = none ∧
        k.addWatch p = ((k.nextWd : Int), { k with
          watches := Function.update k.watches i (some (k.nextWd : Int))
          nextWd := k.nextWd + 1 }) := by
  unfold addWatch
  cases found : k.inode? p with
  | none => exact Or.inl ⟨rfl, rfl⟩
  | some i =>
      cases held : k.watches i with
      | some wd => exact Or.inr (Or.inl ⟨i, wd, rfl, held, by simp [held]⟩)
      | none => exact Or.inr (Or.inr ⟨i, rfl, held, by simp [held]⟩)

@[simp] theorem queue_addWatch (k : Kernel) (p : Path) : (k.addWatch p).2.queue = k.queue := by
  rcases addWatch_cases k p with ⟨-, eq⟩ | ⟨i, wd, -, -, eq⟩ | ⟨i, -, -, eq⟩ <;> rw [eq]

theorem nextWd_le_addWatch (k : Kernel) (p : Path) : k.nextWd ≤ (k.addWatch p).2.nextWd := by
  rcases addWatch_cases k p with ⟨-, eq⟩ | ⟨i, wd, -, -, eq⟩ | ⟨i, -, -, eq⟩
  · rw [eq]
  · rw [eq]
  · rw [eq]
    exact Nat.le_succ _

theorem Distinct.addWatch {k : Kernel} (distinct : Distinct k) (p : Path) :
    Distinct (k.addWatch p).2 := by
  rcases addWatch_cases k p with ⟨-, eq⟩ | ⟨i, wd, -, -, eq⟩ | ⟨i, -, free, eq⟩
  · rw [eq]
    exact distinct
  · rw [eq]
    exact distinct
  rw [eq]
  have cases : ∀ j wd, Function.update k.watches i (some (k.nextWd : Int)) j = some wd →
      (j = i ∧ wd = k.nextWd) ∨ (j ≠ i ∧ k.watches j = some wd) := by
    intro j wd held
    by_cases same : j = i
    · rw [same, Function.update_self] at held
      exact Or.inl ⟨same, (Option.some.inj held).symm⟩
    · rw [Function.update_of_ne same] at held
      exact Or.inr ⟨same, held⟩
  constructor
  · intro j wd held
    rcases cases j wd held with ⟨-, rfl⟩ | ⟨-, old⟩
    · exact Int.natCast_nonneg _
    · exact distinct.nonneg j wd old
  · intro j wd held
    push_cast
    rcases cases j wd held with ⟨-, rfl⟩ | ⟨-, old⟩
    · exact Int.lt_succ _
    · have := distinct.lt j wd old
      omega
  · intro j j' wd held held'
    rcases cases j wd held with ⟨rfl, rfl⟩ | ⟨-, old⟩
    · rcases cases j' _ held' with ⟨rfl, -⟩ | ⟨-, old'⟩
      · rfl
      · exact absurd (distinct.lt j' _ old') (Int.lt_irrefl _)
    · rcases cases j' _ held' with ⟨rfl, rfl⟩ | ⟨-, old'⟩
      · exact absurd (distinct.lt j _ old) (Int.lt_irrefl _)
      · exact distinct.inj j j' wd old old'
  · intro e mem
    have := distinct.queued e mem
    push_cast
    omega

theorem Distinct.rmWatch {k : Kernel} (distinct : Distinct k) (wd : Int) :
    Distinct (k.rmWatch wd) := by
  refine distinct.disturbs ⟨?_, rfl, [], (List.append_nil _).symm, nofun⟩
  intro i wd' held
  simp only [Kernel.rmWatch] at held
  split at held
  · cases held
  · exact held

/-- Reading the first event. -/
theorem Distinct.read {k : Kernel} {e : Event} {es : List Event} (distinct : Distinct k)
    (queue : k.queue = e :: es) : Distinct { k with queue := es } :=
  ⟨distinct.nonneg, distinct.lt, distinct.inj, fun e' mem =>
    distinct.queued e' (by rw [queue]; exact List.mem_cons_of_mem _ mem)⟩

/-! ### Trees that grow -/

/-- The directories are a tree: each but the root is in one, and has its own path and
inode. -/
structure Tree (k : Kernel) : Prop where
  parent : ∀ d ∈ k.dirs, d.1 = [] ∨ ∃ e ∈ k.dirs, IsChild e.1 d.1
  paths : (k.dirs.map (·.1)).Nodup
  inodes : (k.dirs.map (·.2)).Nodup
  fresh : ∀ d ∈ k.dirs, d.2 < k.nextInode

section Tree

variable {k : Kernel} {p q : Path} {n : Name} {i : Nat}

theorem Tree.inode?_inj (tree : Tree k) (found : k.inode? p = some i)
    (found' : k.inode? q = some i) : p = q := by
  have same := List.inj_on_of_nodup_map tree.inodes (mem_dirs_of_inode? found)
    (mem_dirs_of_inode? found') rfl
  exact (Prod.mk.inj same).1

theorem Tree.isChild (tree : Tree k) (isDir : k.IsDir q) (notRoot : q ≠ []) :
    ∃ p, IsChild p q ∧ k.IsDir p := by
  obtain ⟨i, found⟩ := isDir_iff.mp isDir
  rcases tree.parent _ (mem_dirs_of_inode? found) with root | ⟨e, mem, isChild⟩
  · exact absurd root notRoot
  · exact ⟨e.1, isChild, isDir_of_mem mem⟩

end Tree

/-- What others do as long as directories only come: no directory goes, watched
directories have an event for each new one in them, and no event is of one that goes. -/
structure Grew (k k' : Kernel) : Prop where
  inode? : ∀ p i, k.inode? p = some i → k'.inode? p = some i
  tree : Tree k → Tree k'
  watches : k'.watches = k.watches
  nextWd : k'.nextWd = k.nextWd
  queue : ∃ es, k'.queue = k.queue ++ es ∧ ∀ e ∈ es, (∃ i, k.watches i = some e.wd) ∧
    Plain e.name ∧ (e.mask = inCreate ||| inIsDir ∨ ∃ op : FileOp, e.mask = op.mask)
  created : ∀ p n i wd, Plain n → k.inode? p = some i → k.watches i = some wd →
    k'.IsDir (child p n) → k.IsDir (child p n) ∨
    ∃ e ∈ k'.queue, e.wd = wd ∧ e.name = n ∧ e.mask = inCreate ||| inIsDir

theorem Grew.refl (k : Kernel) : Grew k k :=
  ⟨fun _ _ => id, id, rfl, rfl, ⟨[], (List.append_nil _).symm, nofun⟩, fun _ _ _ _ _ _ _ => Or.inl⟩

theorem grew_mkdir (k : Kernel) (p : Path) (n : Name) : Grew k (k.mkdir p n) := by
  unfold mkdir
  split
  · rename_i i found
    split
    · rename_i can
      obtain ⟨plain, new, -⟩ := can
      have absent : k.inode? (child p n) = none := by
        simpa [IsDir] using new
      have lookup : ∀ q, Kernel.inode? { k with
          dirs := (child p n, k.nextInode) :: k.dirs, nextInode := k.nextInode + 1 } q =
          if child p n = q then some k.nextInode else k.inode? q := fun q =>
            @inode?_cons k q _ (child p n, k.nextInode) rfl
      constructor
      · intro q j found'
        rw [inode?_notify, lookup]
        split
        · rename_i same
          rw [← same, absent] at found'
          cases found'
        · exact found'
      · intro tree
        constructor
        · rw [dirs_notify]
          intro d mem
          rcases List.mem_cons.mp mem with rfl | old
          · refine Or.inr ⟨(p, i), List.mem_cons_of_mem _ (mem_dirs_of_inode? found), ?_⟩
            exact isChild_child plain
          · refine (tree.parent d old).imp_right ?_
            rintro ⟨e, mem', isChild⟩
            exact ⟨e, List.mem_cons_of_mem _ mem', isChild⟩
        · rw [dirs_notify, List.map_cons, List.nodup_cons]
          refine ⟨?_, tree.paths⟩
          intro mem
          obtain ⟨⟨q, j⟩, mem', same⟩ := List.mem_map.mp mem
          simp only at same
          subst same
          exact new (isDir_of_mem mem')
        · rw [dirs_notify, List.map_cons, List.nodup_cons]
          refine ⟨?_, tree.inodes⟩
          intro mem
          obtain ⟨d, mem', same⟩ := List.mem_map.mp mem
          exact absurd (tree.fresh d mem') (by rw [same]; exact Nat.lt_irrefl _)
        · rw [dirs_notify, nextInode_notify]
          intro d mem
          rcases List.mem_cons.mp mem with rfl | old
          · exact Nat.lt_succ_self _
          · exact Nat.lt_succ_of_lt (tree.fresh d old)
      · rw [watches_notify]
      · rw [nextWd_notify]
      · refine ⟨_, queue_notify _ _ _ _, ?_⟩
        intro e mem
        rw [Option.mem_toList] at mem
        obtain ⟨wd, held, rfl⟩ := Option.map_eq_some_iff.mp mem
        exact ⟨⟨i, held⟩, plain, Or.inl rfl⟩
      · intro q m j wd plain' found' held isDir
        by_cases same : child p n = child q m
        · right
          obtain ⟨rfl, rfl⟩ := child_inj plain plain' same
          cases found.symm.trans found'
          refine ⟨⟨wd, inCreate ||| inIsDir, n⟩, ?_, rfl, rfl, rfl⟩
          rw [queue_notify]
          simp [held]
        · left
          unfold IsDir at isDir ⊢
          rw [inode?_notify, lookup, if_neg same] at isDir
          exact isDir
    · exact Grew.refl k
  · exact Grew.refl k

theorem grew_fileOp (k : Kernel) (p : Path) (n : Name) (op : FileOp) :
    Grew k (k.fileOp p n op) := by
  unfold fileOp
  split
  · rename_i i found
    split
    · rename_i can
      constructor
      · intro q j found'
        rw [inode?_notify]
        exact found'
      · intro tree
        constructor
        · rw [dirs_notify]
          exact tree.parent
        · rw [dirs_notify]
          exact tree.paths
        · rw [dirs_notify]
          exact tree.inodes
        · rw [dirs_notify, nextInode_notify]
          exact tree.fresh
      · rw [watches_notify]
      · rw [nextWd_notify]
      · refine ⟨_, queue_notify _ _ _ _, ?_⟩
        intro e mem
        rw [Option.mem_toList] at mem
        obtain ⟨wd, held, rfl⟩ := Option.map_eq_some_iff.mp mem
        exact ⟨⟨i, held⟩, can.1, Or.inr ⟨op, rfl⟩⟩
      · intro q m j wd _ _ _ isDir
        left
        unfold IsDir at isDir ⊢
        rw [inode?_notify] at isDir
        exact isDir
    · exact Grew.refl k
  · exact Grew.refl k

end Kernel

end Wslg.Inotify
