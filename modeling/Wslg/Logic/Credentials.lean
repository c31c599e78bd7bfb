/-
The credentials of a process: its ids and its capability sets, and what the calls that
change them do, as capabilities(7) has it.

Two inclusions hold of every process and are fields here: what is effective is permitted, and
what is ambient is permitted and inheritable. So each call is at once the proof that it keeps
them.

A process that leaves root loses its permitted capabilities unless it has asked to keep them,
and the effective and the ambient ones in any case. A program without capabilities of its own
and without set-ID bits, executed by another user than root, has the ambient ones and no
others (`execve_of_user`).
-/

import Mathlib.Data.Finset.Basic
import Mathlib.Data.Finset.Dedup
import Mathlib.Data.Finset.Lattice.Lemmas

namespace Wslg

/-- The user ids of a process, or its group ids. -/
structure Ids where
  real : Nat
  effective : Nat
  saved : Nat
deriving DecidableEq

namespace Ids

def all (id : Nat) : Ids := ⟨id, id, id⟩

/-- One of the ids is root's. -/
def HasRoot (ids : Ids) : Prop := ids.real = 0 ∨ ids.effective = 0 ∨ ids.saved = 0

instance (ids : Ids) : Decidable ids.HasRoot := inferInstanceAs (Decidable (_ ∨ _))

/-- `setuid` and `setgid`: all three with the capability for it, else the effective one, to
one of the others. -/
def set (ids : Ids) (privileged : Bool) (id : Nat) : Option Ids :=
  if privileged then some (all id)
  else if id = ids.real ∨ id = ids.saved then some { ids with effective := id }
  else none

/-- Executing a program saves the effective id. -/
def exec (ids : Ids) : Ids := { ids with saved := ids.effective }

theorem not_hasRoot_all {id : Nat} (user : id ≠ 0) : ¬ (all id).HasRoot := by
  rintro (root | root | root) <;> exact user root

@[simp] theorem exec_all (id : Nat) : (all id).exec = all id := rfl

end Ids

def CAP_SETGID : Int := 6

def CAP_SETUID : Int := 7

def CAP_SETPCAP : Int := 8

def CAP_SYS_CHROOT : Int := 18

def CAP_SYS_PTRACE : Int := 19

def CAP_SYS_ADMIN : Int := 21

@[ext]
structure Credentials where
  uids : Ids
  gids : Ids
  groups : List Nat
  permitted : Finset Int
  effective : Finset Int
  inheritable : Finset Int
  ambient : Finset Int
  bounding : Finset Int
  keepCaps : Bool
  effective_sub : effective ⊆ permitted
  ambient_sub : ambient ⊆ permitted ∩ inheritable
deriving DecidableEq

namespace Credentials

/-! ### The calls -/

/-- `prctl(PR_SET_KEEPCAPS, 1)`. -/
def setKeepCaps (c : Credentials) : Credentials := { c with keepCaps := true }

def withGids (c : Credentials) (gids : Ids) : Credentials := { c with gids }

def setgid (c : Credentials) (gid : Nat) : Option Credentials :=
  (c.gids.set (CAP_SETGID ∈ c.effective) gid).map c.withGids

def withGroups (c : Credentials) (groups : List Nat) : Credentials := { c with groups }

def setgroups (c : Credentials) (groups : List Nat) : Option Credentials :=
  if CAP_SETGID ∈ c.effective then some (c.withGroups groups) else none

/-- No user id is root's any more. -/
def LeavesRoot (c : Credentials) (uids : Ids) : Prop := c.uids.HasRoot ∧ ¬ uids.HasRoot

instance (c : Credentials) (uids : Ids) : Decidable (c.LeavesRoot uids) :=
  inferInstanceAs (Decidable (_ ∧ _))

/-- The permitted capabilities after a change of the user ids. -/
def permittedAs (c : Credentials) (uids : Ids) : Finset Int :=
  if c.LeavesRoot uids ∧ ¬ c.keepCaps then ∅ else c.permitted

def effectiveAs (c : Credentials) (uids : Ids) : Finset Int :=
  if c.uids.effective = 0 ∧ uids.effective ≠ 0 then ∅
  else if c.uids.effective ≠ 0 ∧ uids.effective = 0 then c.permittedAs uids
  else if c.LeavesRoot uids ∧ ¬ c.keepCaps then ∅ else c.effective

def ambientAs (c : Credentials) (uids : Ids) : Finset Int :=
  if c.LeavesRoot uids then ∅ else c.ambient

theorem effectiveAs_sub (c : Credentials) (uids : Ids) :
    c.effectiveAs uids ⊆ c.permittedAs uids := by
  unfold effectiveAs
  split_ifs with leaves enters drops
  · exact Finset.empty_subset _
  · exact Finset.Subset.refl _
  · exact Finset.empty_subset _
  · rw [permittedAs, if_neg drops]
    exact c.effective_sub

theorem ambientAs_sub (c : Credentials) (uids : Ids) :
    c.ambientAs uids ⊆ c.permittedAs uids ∩ c.inheritable := by
  unfold ambientAs
  split_ifs with leaves
  · exact Finset.empty_subset _
  · rw [permittedAs, if_neg fun drops => leaves drops.1]
    exact c.ambient_sub

/-- What the kernel makes of the capabilities when the user ids change. -/
def withUids (c : Credentials) (uids : Ids) : Credentials :=
  { c with
    uids
    permitted := c.permittedAs uids
    effective := c.effectiveAs uids
    ambient := c.ambientAs uids
    effective_sub := c.effectiveAs_sub uids
    ambient_sub := c.ambientAs_sub uids }

def setuid (c : Credentials) (uid : Nat) : Option Credentials :=
  (c.uids.set (CAP_SETUID ∈ c.effective) uid).map c.withUids

/-- What `capset` lets a process set. -/
structure Settable (c : Credentials) (permitted effective inheritable : Finset Int) : Prop where
  given : permitted ⊆ c.permitted
  within : effective ⊆ permitted
  held : CAP_SETPCAP ∉ c.effective → inheritable ⊆ c.inheritable ∪ c.permitted
  bounded : inheritable ⊆ c.inheritable ∪ c.bounding

instance (c : Credentials) (permitted effective inheritable : Finset Int) :
    Decidable (c.Settable permitted effective inheritable) :=
  decidable_of_iff (permitted ⊆ c.permitted ∧ effective ⊆ permitted ∧
      (CAP_SETPCAP ∉ c.effective → inheritable ⊆ c.inheritable ∪ c.permitted) ∧
      inheritable ⊆ c.inheritable ∪ c.bounding)
    ⟨fun h => ⟨h.1, h.2.1, h.2.2.1, h.2.2.2⟩,
      fun h => ⟨h.given, h.within, h.held, h.bounded⟩⟩

/-- `capset`: what is no longer permitted and inheritable is no longer ambient. -/
def capset (c : Credentials) (permitted effective inheritable : Finset Int) : Option Credentials :=
  if settable : c.Settable permitted effective inheritable then
    some { c with
      permitted
      effective
      inheritable
      ambient := c.ambient ∩ (permitted ∩ inheritable)
      effective_sub := settable.within
      ambient_sub := Finset.inter_subset_right }
  else none

/-- `prctl(PR_CAP_AMBIENT, PR_CAP_AMBIENT_RAISE, cap)`. -/
def raiseAmbient (c : Credentials) (cap : Int) : Option Credentials :=
  if held : cap ∈ c.permitted ∩ c.inheritable then
    some { c with
      ambient := insert cap c.ambient
      ambient_sub := Finset.insert_subset held c.ambient_sub }
  else none

/-- What root is permitted by executing a program. -/
def rootPermitted (c : Credentials) : Finset Int :=
  if c.uids.effective = 0 ∨ c.uids.real = 0 then c.inheritable ∪ c.bounding else ∅

/-- `execve` of a program without capabilities of its own and without set-ID bits. -/
def execve (c : Credentials) : Credentials :=
  { c with
    uids := c.uids.exec
    gids := c.gids.exec
    permitted := c.rootPermitted ∪ c.ambient
    effective := if c.uids.effective = 0 then c.rootPermitted ∪ c.ambient else c.ambient
    keepCaps := false
    effective_sub := by
      split
      · exact Finset.Subset.refl _
      · exact Finset.subset_union_right
    ambient_sub := Finset.subset_inter Finset.subset_union_right
      (c.ambient_sub.trans Finset.inter_subset_right) }

/-! ### What they come to -/

/-- The credentials of a user's process that has these capabilities and no others. -/
def ofUser (uid gid : Nat) (groups : List Nat) (caps inheritable bounding : Finset Int)
    (sub : caps ⊆ inheritable) : Credentials where
  uids := Ids.all uid
  gids := Ids.all gid
  groups
  permitted := caps
  effective := caps
  inheritable
  ambient := caps
  bounding
  keepCaps := false
  effective_sub := Finset.Subset.refl _
  ambient_sub := Finset.subset_inter (Finset.Subset.refl _) sub

theorem setgid_of_privileged {c : Credentials} (may : CAP_SETGID ∈ c.effective) (gid : Nat) :
    c.setgid gid = some (c.withGids (Ids.all gid)) := by
  rw [setgid, Ids.set, if_pos (decide_eq_true may)]
  rfl

theorem setgroups_of_privileged {c : Credentials} (may : CAP_SETGID ∈ c.effective)
    (groups : List Nat) : c.setgroups groups = some (c.withGroups groups) :=
  if_pos may

theorem setuid_of_privileged {c : Credentials} (may : CAP_SETUID ∈ c.effective) (uid : Nat) :
    c.setuid uid = some (c.withUids (Ids.all uid)) := by
  rw [setuid, Ids.set, if_pos (decide_eq_true may)]
  rfl

/-- Outside root the ambient capabilities are what a program has. -/
theorem execve_of_user {c : Credentials} {uid gid : Nat} (user : uid ≠ 0)
    (uids : c.uids = Ids.all uid) (gids : c.gids = Ids.all gid) :
    c.execve = ofUser uid gid c.groups c.ambient c.inheritable c.bounding
      (c.ambient_sub.trans Finset.inter_subset_right) := by
  have noRoot : c.rootPermitted = ∅ := by
    rw [rootPermitted, uids]
    exact if_neg (by rintro (root | root) <;> exact user root)
  have effective : c.uids.effective ≠ 0 := by
    rw [uids]
    exact user
  have permitted : c.rootPermitted ∪ c.ambient = c.ambient := by
    rw [noRoot, Finset.empty_union]
  apply Credentials.ext
  · exact (congrArg Ids.exec uids).trans (Ids.exec_all uid)
  · exact (congrArg Ids.exec gids).trans (Ids.exec_all gid)
  · rfl
  · exact permitted
  · exact if_neg effective
  all_goals rfl

theorem raiseAmbient_eq_some_iff {c c' : Credentials} {cap : Int} :
    c.raiseAmbient cap = some c' ↔ ∃ held : cap ∈ c.permitted ∩ c.inheritable,
      c' = { c with
        ambient := insert cap c.ambient
        ambient_sub := Finset.insert_subset held c.ambient_sub } := by
  rw [raiseAmbient]
  split_ifs with held
  · exact ⟨fun raised => ⟨held, (Option.some.inj raised).symm⟩,
      fun ⟨_, raised⟩ => congrArg some raised.symm⟩
  · constructor
    · intro raised
      cases raised
    · rintro ⟨other, -⟩
      exact absurd other held

/-- Raising one capability after the other succeeds exactly if all are held. -/
theorem foldlM_raiseAmbient {caps : List Int} {c c' : Credentials} :
    caps.foldlM raiseAmbient c = some c' ↔
      ∃ held : caps.toFinset ⊆ c.permitted ∩ c.inheritable,
        c' = { c with
          ambient := c.ambient ∪ caps.toFinset
          ambient_sub := Finset.union_subset c.ambient_sub held } := by
  induction caps generalizing c with
  | nil =>
      rw [List.foldlM_nil, Option.pure_def, Option.some_inj]
      have same : c.ambient ∪ ([] : List Int).toFinset = c.ambient := Finset.union_empty _
      constructor
      · rintro rfl
        exact ⟨Finset.empty_subset _, by simp only [same]⟩
      · rintro ⟨-, rfl⟩
        simp only [same]
  | cons cap caps ih =>
      have both : (cap :: caps).toFinset ⊆ c.permitted ∩ c.inheritable ↔
          cap ∈ c.permitted ∩ c.inheritable ∧ caps.toFinset ⊆ c.permitted ∩ c.inheritable := by
        rw [List.toFinset_cons, Finset.insert_subset_iff]
      have ambient : c.ambient ∪ (cap :: caps).toFinset = insert cap c.ambient ∪ caps.toFinset := by
        rw [List.toFinset_cons, Finset.union_insert, Finset.insert_union]
      rw [List.foldlM_cons, Option.bind_eq_bind, Option.bind_eq_some_iff]
      constructor
      · rintro ⟨raised, first, rest⟩
        obtain ⟨held, rfl⟩ := raiseAmbient_eq_some_iff.mp first
        obtain ⟨others, rfl⟩ := ih.mp rest
        exact ⟨both.mpr ⟨held, others⟩, by simp only [ambient]⟩
      · rintro ⟨held, rfl⟩
        refine ⟨_, raiseAmbient_eq_some_iff.mpr ⟨(both.mp held).1, rfl⟩,
          ih.mpr ⟨(both.mp held).2, ?_⟩⟩
        simp only [ambient]

/-- The process with more capabilities, all of them permitted, ready for a program. -/
def raised (c : Credentials) (caps : Finset Int) (given : caps ⊆ c.permitted) : Credentials :=
  { c with
    effective := c.effective ∪ caps
    inheritable := c.inheritable ∪ caps
    ambient := c.ambient ∪ caps
    effective_sub := Finset.union_subset c.effective_sub given
    ambient_sub := Finset.union_subset
      (c.ambient_sub.trans (Finset.inter_subset_inter_left Finset.subset_union_left))
      (Finset.subset_inter given Finset.subset_union_right) }

theorem settable_union_iff {c : Credentials} {caps : Finset Int} :
    c.Settable (c.permitted ∪ caps) (c.effective ∪ caps) (c.inheritable ∪ caps) ↔
      caps ⊆ c.permitted ∩ (c.inheritable ∪ c.bounding) := by
  rw [Finset.subset_inter_iff]
  constructor
  · intro settable
    exact ⟨Finset.subset_union_right.trans settable.given,
      Finset.subset_union_right.trans settable.bounded⟩
  · rintro ⟨given, bounded⟩
    exact
      { given := Finset.union_subset (Finset.Subset.refl _) given
        within := Finset.union_subset_union_left c.effective_sub
        held := fun _ => Finset.union_subset_union_right given
        bounded := Finset.union_subset Finset.subset_union_left bounded }

/-- Adding capabilities to all three sets and then to the ambient one succeeds exactly if they
are permitted and not kept from the inheritable set. -/
theorem capset_foldlM_raiseAmbient {caps : List Int} {c c' : Credentials} :
    (c.capset (c.permitted ∪ caps.toFinset) (c.effective ∪ caps.toFinset)
        (c.inheritable ∪ caps.toFinset)).bind (caps.foldlM raiseAmbient) = some c' ↔
      ∃ held : caps.toFinset ⊆ c.permitted ∩ (c.inheritable ∪ c.bounding),
        c' = c.raised caps.toFinset (held.trans Finset.inter_subset_left) := by
  rw [capset]
  split_ifs with settable
  · have held := settable_union_iff.mp settable
    have given : caps.toFinset ⊆ c.permitted := held.trans Finset.inter_subset_left
    have permitted : c.permitted ∪ caps.toFinset = c.permitted := Finset.union_eq_left.mpr given
    have ambient : c.ambient ∩ (c.permitted ∩ (c.inheritable ∪ caps.toFinset)) = c.ambient := by
      rw [Finset.inter_eq_left]
      exact c.ambient_sub.trans (Finset.inter_subset_inter_left Finset.subset_union_left)
    rw [Option.bind_some, foldlM_raiseAmbient]
    simp only [permitted, ambient]
    constructor
    · rintro ⟨-, rfl⟩
      exact ⟨held, by simp only [raised]⟩
    · rintro ⟨-, rfl⟩
      exact ⟨Finset.subset_inter given Finset.subset_union_right, by simp only [raised]⟩
  · constructor
    · intro none
      cases none
    · rintro ⟨held, -⟩
      exact absurd (settable_union_iff.mpr held) settable

end Credentials

end Wslg
