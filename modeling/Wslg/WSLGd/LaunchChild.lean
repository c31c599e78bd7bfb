/-
The child side of `ProcessMonitor::LaunchProcess`: from `fork` to `execvpe`.

The child gives up root for the user of the daemons and keeps some capabilities across that:
it asks to keep what it is permitted, becomes the user, and raises the ones it was launched
with, up to the ambient set, which is the one a program starts with. Every call may also fail
for a reason of the host's own; then the child exits with 1 and no program runs.

A child of root executes its program exactly if no call fails and the capabilities are root's
to give, and then as the user, with these capabilities and no others
(`launchChild_executes_iff`). A child is launched again with what it was launched with, so in
a run of the monitor no program has more than one of the launches asked for
(`programs_confined`).
-/

import Wslg.Logic.Credentials
import Wslg.WSLGd.Startup

namespace Wslg.WSLGd

open Wslg.Runs

/-! ### The calls -/

/-- What the child uses of `m_user`. -/
structure Passwd where
  name : CxxString
  uid : Nat
  gid : Nat
  dir : CxxString
deriving DecidableEq

inductive CapFlag where
  | permitted
  | effective
  | inheritable
deriving DecidableEq

inductive Call where
  | prctl
  | setgid
  | initgroups
  | setuid
  | chdir
  | capGetProc
  | capSetFlag (flag : CapFlag)
  | capSetProc
  | capSetAmbient (cap : Int)
  | execvpe
deriving DecidableEq

/-- The groups of a user by the group database, and the calls that fail for another reason
than the rules of the credentials. -/
structure Host where
  groups : CxxString → List Nat
  fails : Call → Bool

def Host.call {α : Type} (host : Host) (call : Call) (result : Option α) : Option α :=
  if host.fails call then none else result

/-- The groups `initgroups` sets. -/
def Host.grouplist (host : Host) (name : CxxString) (gid : Nat) : List Nat :=
  gid :: (host.groups name).filter (· ≠ gid)

/-! ### The child -/

/-- "Apply additional capabilities to the process." -/
def applyCapabilities (host : Host) (capabilities : List Int) (c : Credentials) :
    Option Credentials := do
  let caps ← host.call .capGetProc (some c)
  let permitted ← host.call (.capSetFlag .permitted) (some (caps.permitted ∪ capabilities.toFinset))
  let effective ← host.call (.capSetFlag .effective) (some (caps.effective ∪ capabilities.toFinset))
  let inheritable ←
    host.call (.capSetFlag .inheritable) (some (caps.inheritable ∪ capabilities.toFinset))
  let c ← host.call .capSetProc (c.capset permitted effective inheritable)
  capabilities.foldlM (fun c cap => host.call (.capSetAmbient cap) (c.raiseAmbient cap)) c

/-- "Set user settings." -/
def setUserSettings (host : Host) (user : Passwd) (c : Credentials) : Option Credentials := do
  let c ← host.call .setgid (c.setgid user.gid)
  let c ← host.call .initgroups (c.setgroups (host.grouplist user.name user.gid))
  let c ← host.call .setuid (c.setuid user.uid)
  host.call .chdir (some c)

/-- The child up to `execvpe`; `none` stands for the exception that ends it. -/
def prepare (host : Host) (user : Passwd) (capabilities : List Int) (c : Credentials) :
    Option Credentials := do
  let c ← if capabilities = [] then some c else host.call .prctl (some c.setKeepCaps)
  let c ← setUserSettings host user c
  if capabilities = [] then some c else applyCapabilities host capabilities c

/-- A program that was executed. -/
structure Program where
  argv : List CxxString
  environ : List CxxString
  cwd : CxxString
  credentials : Credentials
deriving DecidableEq

/-- What becomes of a child. Without arguments `execvpe` is called with a null pointer. -/
inductive ChildEnd where
  | executes (program : Program)
  | exits (code : UInt8)
  | crashes
deriving DecidableEq

def launchChild (host : Host) (user : Passwd) (environ : Environ) (info : ProcessInfo)
    (c : Credentials) : ChildEnd :=
  match prepare host user info.capabilities c with
  | none => .exits 1
  | some c =>
      if info.argv = [] then .crashes
      else if host.fails .execvpe then .exits 1
      else .executes
        { argv := info.argv.map cStr
          environ := environments environ info.env
          cwd := user.dir
          credentials := c.execve }

/-! ### When it executes -/

/-- The daemon: "must be run as root." -/
structure IsDaemon (c : Credentials) : Prop where
  root : c.uids.effective = 0
  setgid : CAP_SETGID ∈ c.effective
  setuid : CAP_SETUID ∈ c.effective

def settingCalls : List Call := [.setgid, .initgroups, .setuid, .chdir]

def capabilityCalls (capabilities : List Int) : List Call :=
  .capGetProc :: .capSetFlag .permitted :: .capSetFlag .effective :: .capSetFlag .inheritable ::
    .capSetProc :: capabilities.map .capSetAmbient

/-- The calls of a child up to `execvpe`. -/
def calls (capabilities : List Int) : List Call :=
  settingCalls ++ if capabilities = [] then [] else .prctl :: capabilityCalls capabilities

/-- The credentials a program is meant to run with. -/
def userCredentials (host : Host) (user : Passwd) (capabilities : List Int) (c : Credentials) :
    Credentials :=
  .ofUser user.uid user.gid (host.grouplist user.name user.gid) capabilities.toFinset
    (c.inheritable ∪ capabilities.toFinset) c.bounding Finset.subset_union_right

variable {host : Host} {user : Passwd} {environ : Environ} {info : ProcessInfo}
  {capabilities : List Int} {c c' : Credentials} {program : Program}

theorem call_eq_some_iff {α : Type} {k : Call} {r : Option α} {a : α} :
    host.call k r = some a ↔ host.fails k = false ∧ r = some a := by
  rw [Host.call]
  cases host.fails k <;> simp

/-- A loop of calls that ends well: none of them fails, and the loop without them ends so. -/
theorem foldlM_call {α β : Type} {k : α → Call} {f : β → α → Option β} {xs : List α} {b b' : β} :
    xs.foldlM (fun b x => host.call (k x) (f b x)) b = some b' ↔
      (∀ x ∈ xs, host.fails (k x) = false) ∧ xs.foldlM f b = some b' := by
  induction xs generalizing b with
  | nil => simp
  | cons x xs ih =>
      simp only [List.foldlM_cons, Option.bind_eq_bind, Option.bind_eq_some_iff, call_eq_some_iff,
        ih, List.forall_mem_cons]
      constructor
      · rintro ⟨y, ⟨first, made⟩, rest, loop⟩
        exact ⟨⟨first, rest⟩, y, made, loop⟩
      · rintro ⟨⟨first, rest⟩, y, made, loop⟩
        exact ⟨y, ⟨first, made⟩, rest, loop⟩

theorem applyCapabilities_eq_some_iff :
    applyCapabilities host capabilities c = some c' ↔
      (∀ k ∈ capabilityCalls capabilities, host.fails k = false) ∧
      ∃ held : capabilities.toFinset ⊆ c.permitted ∩ (c.inheritable ∪ c.bounding),
        c' = c.raised capabilities.toFinset (held.trans Finset.inter_subset_left) := by
  rw [← Credentials.capset_foldlM_raiseAmbient]
  simp only [applyCapabilities, capabilityCalls, Option.bind_eq_bind, Option.bind_eq_some_iff,
    call_eq_some_iff, foldlM_call, List.forall_mem_cons, List.forall_mem_map, Option.some_inj]
  constructor
  · rintro ⟨_, ⟨get, rfl⟩, _, ⟨permitted, rfl⟩, _, ⟨effective, rfl⟩, _, ⟨inheritable, rfl⟩, set,
      ⟨proc, settable⟩, ambient, raised⟩
    exact ⟨⟨get, permitted, effective, inheritable, proc, ambient⟩, set, settable, raised⟩
  · rintro ⟨⟨get, permitted, effective, inheritable, proc, ambient⟩, set, settable, raised⟩
    exact ⟨_, ⟨get, rfl⟩, _, ⟨permitted, rfl⟩, _, ⟨effective, rfl⟩, _, ⟨inheritable, rfl⟩, set,
      ⟨proc, settable⟩, ambient, raised⟩

/-- The child in the user's groups. -/
def inGroups (host : Host) (user : Passwd) (c : Credentials) : Credentials :=
  (c.withGids (Ids.all user.gid)).withGroups (host.grouplist user.name user.gid)

/-- The child as the user, before any capability is raised. -/
def asUser (host : Host) (user : Passwd) (c : Credentials) : Credentials :=
  (inGroups host user c).withUids (Ids.all user.uid)

theorem setUserSettings_eq_some_iff (daemon : IsDaemon c) :
    setUserSettings host user c = some c' ↔
      (∀ k ∈ settingCalls, host.fails k = false) ∧
        c' = asUser host user c := by
  have setgid := Credentials.setgid_of_privileged daemon.setgid user.gid
  have setgroups : (c.withGids (Ids.all user.gid)).setgroups (host.grouplist user.name user.gid) =
      some (inGroups host user c) :=
    Credentials.setgroups_of_privileged (c := c.withGids (Ids.all user.gid)) daemon.setgid _
  have setuid : (inGroups host user c).setuid user.uid = some (asUser host user c) :=
    Credentials.setuid_of_privileged (c := inGroups host user c) daemon.setuid _
  simp only [setUserSettings, Option.bind_eq_bind, Option.bind_eq_some_iff, call_eq_some_iff,
    settingCalls, List.forall_mem_cons, setgid, Option.some_inj]
  constructor
  · rintro ⟨_, ⟨gid, rfl⟩, _, ⟨groups, run⟩, _, ⟨uid, run'⟩, dir, rfl⟩
    cases setgroups.symm.trans run
    cases setuid.symm.trans run'
    exact ⟨⟨gid, groups, uid, dir, List.forall_mem_nil _⟩, rfl⟩
  · rintro ⟨⟨gid, groups, uid, dir, -⟩, rfl⟩
    exact ⟨_, ⟨gid, rfl⟩, _, ⟨groups, setgroups⟩, _, ⟨uid, setuid⟩, dir, rfl⟩

/-- Outside root nothing stays ambient. -/
theorem asUser_ambient (daemon : IsDaemon c) (other : user.uid ≠ 0) :
    (asUser host user c).ambient = ∅ :=
  if_pos ⟨.inr (.inl daemon.root), Ids.not_hasRoot_all other⟩

/-- A child that has asked for it keeps what root is permitted. -/
theorem asUser_permitted : (asUser host user c.setKeepCaps).permitted = c.permitted :=
  if_neg fun drops => drops.2 rfl

theorem IsDaemon.setKeepCaps (daemon : IsDaemon c) : IsDaemon c.setKeepCaps :=
  ⟨daemon.root, daemon.setgid, daemon.setuid⟩

/-- A child with capabilities to raise. -/
theorem prepare_of_capabilities (some_ : capabilities ≠ []) (daemon : IsDaemon c) :
    prepare host user capabilities c = some c' ↔
      (∀ k ∈ settingCalls, host.fails k = false) ∧
      (∀ k ∈ Call.prctl :: capabilityCalls capabilities, host.fails k = false) ∧
      ∃ held : capabilities.toFinset ⊆ c.permitted ∩ (c.inheritable ∪ c.bounding),
        c' = (asUser host user c.setKeepCaps).raised capabilities.toFinset
          ((held.trans Finset.inter_subset_left).trans asUser_permitted.superset) := by
  have given : (asUser host user c.setKeepCaps).permitted ∩
      ((asUser host user c.setKeepCaps).inheritable ∪ (asUser host user c.setKeepCaps).bounding) =
      c.permitted ∩ (c.inheritable ∪ c.bounding) :=
    congrArg (· ∩ (c.inheritable ∪ c.bounding)) asUser_permitted
  rw [List.forall_mem_cons]
  simp only [prepare, if_neg some_, Option.bind_eq_bind, Option.bind_eq_some_iff, call_eq_some_iff]
  constructor
  · rintro ⟨_, ⟨keep, kept⟩, ready, settings, raised⟩
    cases kept
    obtain ⟨fine, rfl⟩ := (setUserSettings_eq_some_iff daemon.setKeepCaps).mp settings
    obtain ⟨calls, held, rfl⟩ := applyCapabilities_eq_some_iff.mp raised
    exact ⟨fine, ⟨keep, calls⟩, held.trans given.subset, rfl⟩
  · rintro ⟨fine, ⟨keep, calls⟩, held, rfl⟩
    exact ⟨_, ⟨keep, rfl⟩, _, (setUserSettings_eq_some_iff daemon.setKeepCaps).mpr ⟨fine, rfl⟩,
      applyCapabilities_eq_some_iff.mpr ⟨calls, held.trans given.superset, rfl⟩⟩

theorem prepare_of_none (none_ : capabilities = []) (daemon : IsDaemon c) :
    prepare host user capabilities c = some c' ↔
      (∀ k ∈ settingCalls, host.fails k = false) ∧
        c' = asUser host user c := by
  rw [← setUserSettings_eq_some_iff daemon]
  simp only [prepare, if_pos none_, Option.bind_eq_bind, Option.bind_some, Option.bind_fun_some]

/-- A child that is the user's, with these capabilities raised. -/
structure Ready (host : Host) (user : Passwd) (capabilities : List Int) (c ready : Credentials) :
    Prop where
  uids : ready.uids = Ids.all user.uid
  gids : ready.gids = Ids.all user.gid
  groups : ready.groups = host.grouplist user.name user.gid
  ambient : ready.ambient = capabilities.toFinset
  inheritable : ready.inheritable = c.inheritable ∪ capabilities.toFinset
  bounding : ready.bounding = c.bounding

theorem Ready.execve {ready : Credentials} (isReady : Ready host user capabilities c ready)
    (other : user.uid ≠ 0) : ready.execve = userCredentials host user capabilities c := by
  rw [Credentials.execve_of_user other isReady.uids isReady.gids]
  exact Credentials.ext rfl rfl isReady.groups isReady.ambient isReady.ambient
    isReady.inheritable isReady.ambient isReady.bounding rfl

theorem ready_asUser (daemon : IsDaemon c) (other : user.uid ≠ 0) :
    Ready host user [] c (asUser host user c) where
  uids := rfl
  gids := rfl
  groups := rfl
  ambient := asUser_ambient daemon other
  inheritable := (Finset.union_empty _).symm
  bounding := rfl

theorem ready_raised (daemon : IsDaemon c) (other : user.uid ≠ 0)
    (given : capabilities.toFinset ⊆ (asUser host user c.setKeepCaps).permitted) :
    Ready host user capabilities c
      ((asUser host user c.setKeepCaps).raised capabilities.toFinset given) where
  uids := rfl
  gids := rfl
  groups := rfl
  ambient := by
    have none_ : (asUser host user c.setKeepCaps).ambient = ∅ :=
      asUser_ambient daemon.setKeepCaps other
    exact (congrArg (· ∪ capabilities.toFinset) none_).trans (Finset.empty_union _)
  inheritable := rfl
  bounding := rfl

/-- The child gets ready exactly if no call fails and the capabilities are root's to give. -/
theorem exists_prepare_iff (daemon : IsDaemon c) (other : user.uid ≠ 0) :
    (∃ ready, prepare host user capabilities c = some ready ∧ c' = ready.execve) ↔
      (∀ k ∈ calls capabilities, host.fails k = false) ∧
      capabilities.toFinset ⊆ c.permitted ∩ (c.inheritable ∪ c.bounding) ∧
      c' = userCredentials host user capabilities c := by
  by_cases none_ : capabilities = []
  · subst none_
    have executed : (asUser host user c).execve = userCredentials host user [] c :=
      (ready_asUser daemon other).execve other
    simp only [prepare_of_none rfl daemon, calls, if_pos, List.append_nil]
    constructor
    · rintro ⟨_, ⟨fine, rfl⟩, rfl⟩
      exact ⟨fine, Finset.empty_subset _, executed⟩
    · rintro ⟨fine, -, rfl⟩
      exact ⟨_, ⟨fine, rfl⟩, executed.symm⟩
  · simp only [prepare_of_capabilities none_ daemon, calls, if_neg none_, List.forall_mem_append]
    constructor
    · rintro ⟨_, ⟨settings, raising, held, rfl⟩, rfl⟩
      exact ⟨⟨settings, raising⟩, held, (ready_raised daemon other _).execve other⟩
    · rintro ⟨⟨settings, raising⟩, held, rfl⟩
      exact ⟨_, ⟨settings, raising, held, rfl⟩, ((ready_raised daemon other _).execve other).symm⟩

/-- The program a child is launched for. -/
def launchedProgram (host : Host) (user : Passwd) (environ : Environ) (info : ProcessInfo)
    (c : Credentials) : Program where
  argv := info.argv.map cStr
  environ := environments environ info.env
  cwd := user.dir
  credentials := userCredentials host user info.capabilities c

/-- What can be executed, and what it takes. -/
theorem of_executes (daemon : IsDaemon c) (other : user.uid ≠ 0)
    (executes : launchChild host user environ info c = .executes program) :
    info.argv ≠ [] ∧ (∀ k ∈ .execvpe :: calls info.capabilities, host.fails k = false) ∧
      info.capabilities.toFinset ⊆ c.permitted ∩ (c.inheritable ∪ c.bounding) ∧
      program = launchedProgram host user environ info c := by
  rw [launchChild] at executes
  cases run : prepare host user info.capabilities c with
  | none =>
      rw [run] at executes
      cases executes
  | some ready =>
      simp only [run] at executes
      obtain ⟨fine, held, same⟩ := (exists_prepare_iff daemon other).mp ⟨ready, run, rfl⟩
      by_cases noCommand : info.argv = []
      · rw [if_pos noCommand] at executes
        cases executes
      rw [if_neg noCommand] at executes
      cases found : host.fails .execvpe with
      | true =>
          rw [found, if_pos rfl] at executes
          cases executes
      | false =>
          rw [found, if_neg Bool.false_ne_true] at executes
          refine ⟨noCommand, List.forall_mem_cons.mpr ⟨found, fine⟩, held, ?_⟩
          rw [launchedProgram, ← same]
          exact (ChildEnd.executes.inj executes).symm

theorem executes_launchedProgram (daemon : IsDaemon c) (other : user.uid ≠ 0)
    (command : info.argv ≠ [])
    (fine : ∀ k ∈ .execvpe :: calls info.capabilities, host.fails k = false)
    (held : info.capabilities.toFinset ⊆ c.permitted ∩ (c.inheritable ∪ c.bounding)) :
    launchChild host user environ info c =
      .executes (launchedProgram host user environ info c) := by
  obtain ⟨found, fine⟩ := List.forall_mem_cons.mp fine
  obtain ⟨ready, run, same⟩ := (exists_prepare_iff daemon other).mpr ⟨fine, held, rfl⟩
  rw [launchChild]
  simp only [run, if_neg command, found, Bool.false_eq_true, if_false, launchedProgram, same]

/-- A child of root executes a program exactly if no call fails and the capabilities are
root's to give, and then the one it is launched for, as the user and with these capabilities
only. -/
theorem launchChild_executes_iff (daemon : IsDaemon c) (other : user.uid ≠ 0) :
    launchChild host user environ info c = .executes program ↔
      info.argv ≠ [] ∧ (∀ k ∈ .execvpe :: calls info.capabilities, host.fails k = false) ∧
      info.capabilities.toFinset ⊆ c.permitted ∩ (c.inheritable ∪ c.bounding) ∧
      program = launchedProgram host user environ info c := by
  constructor
  · exact of_executes daemon other
  · rintro ⟨command, fine, held, rfl⟩
    exact executes_launchedProgram daemon other command fine held

/-- WSLGd as root. -/
def rootDaemon : Credentials where
  uids := Ids.all 0
  gids := Ids.all 0
  groups := []
  permitted := {CAP_SETGID, CAP_SETUID, CAP_SETPCAP, CAP_SYS_CHROOT, CAP_SYS_PTRACE, CAP_SYS_ADMIN}
  effective := {CAP_SETGID, CAP_SETUID, CAP_SETPCAP, CAP_SYS_CHROOT, CAP_SYS_PTRACE, CAP_SYS_ADMIN}
  inheritable := ∅
  ambient := ∅
  bounding := {CAP_SETGID, CAP_SETUID, CAP_SETPCAP, CAP_SYS_CHROOT, CAP_SYS_PTRACE, CAP_SYS_ADMIN}
  keepCaps := false
  effective_sub := Finset.Subset.refl _
  ambient_sub := Finset.empty_subset _

theorem isDaemon_rootDaemon : IsDaemon rootDaemon := ⟨rfl, by decide, by decide⟩

def wslg : Passwd := ⟨ascii "wslg", 1000, 1000, ascii "/home/wslg"⟩

/-- A host on which no call fails. -/
def calmHost : Host := ⟨fun _ => [], fun _ => false⟩

/-- The launch of the compositor, without its options. -/
def wsland : ProcessInfo where
  argv := [ascii "/usr/bin/sh", ascii "-c", ascii "/usr/bin/wsland"]
  capabilities := [CAP_SYS_ADMIN, CAP_SYS_CHROOT, CAP_SYS_PTRACE]
  env := []

def noEnviron : Environ := ⟨[], List.nodup_nil⟩

theorem launchChild_executes_iff_wsland :
    launchChild calmHost wslg noEnviron wsland rootDaemon =
        .executes (launchedProgram calmHost wslg noEnviron wsland rootDaemon) ∧
      (launchedProgram calmHost wslg noEnviron wsland rootDaemon).credentials.permitted =
        {CAP_SYS_ADMIN, CAP_SYS_CHROOT, CAP_SYS_PTRACE} := by
  constructor
  · exact (launchChild_executes_iff isDaemon_rootDaemon (by decide)).mpr
      ⟨by decide, fun _ _ => rfl, by decide, rfl⟩
  · decide

/-! ### Every run of the monitor -/

/-- What the table can start again was launched in the run. -/
def Entered (es : List Event) (m : ProcessMonitor) : Prop :=
  ∀ pid info, m.children pid = some info → info.argv ≠ [] → ∃ forked, Event.launch info forked ∈ es

theorem Entered.update {es : List Event} {m m' : ProcessMonitor} (entered : Entered es m)
    (pid : Int) (entry : Option ProcessInfo)
    (children : m'.children = Function.update m.children pid entry)
    (launched : ∀ info, entry = some info → info.argv ≠ [] →
      ∃ forked, Event.launch info forked ∈ es) :
    Entered es m' := by
  intro other info found command
  rw [children] at found
  by_cases same : other = pid
  · rw [same, Function.update_self] at found
    exact launched info found command
  · rw [Function.update_of_ne same] at found
    exact entered other info found command

theorem Entered.erase {es : List Event} {m : ProcessMonitor} (entered : Entered es m) (pid : Int) :
    Entered es (eraseChild m pid) := by
  refine entered.update pid none rfl ?_
  rintro info none_
  cases none_

/-- An iteration starts what the table has and adds nothing to it. -/
theorem entered_runIteration {es : List Event} {m : ProcessMonitor} (entered : Entered es m)
    (pid now forked : Int) :
    Entered es (runIteration m pid now forked).2 ∧
      ∀ l, (runIteration m pid now forked).1 = some l →
        ∃ forked, Event.launch l.info forked ∈ es := by
  rcases runIteration_cases m pid now forked with
    ⟨-, eq⟩ | ⟨info, entry, ⟨-, eq⟩ | ⟨-, -, eq⟩ | ⟨command, -, eq⟩⟩
  · rw [eq]
    exact ⟨entered, fun l none_ => by cases none_⟩
  · rw [eq]
    exact ⟨entered.erase pid, fun l none_ => by cases none_⟩
  · rw [eq]
    exact ⟨Entered.erase (m := recordCrash m info now) entered pid, fun l none_ => by cases none_⟩
  · have launched := entered pid info entry command
    rw [eq]
    refine ⟨Entered.erase ?_ pid, fun l started => ?_⟩
    · have moved : Entered es { recordCrash m info now with
          children := Function.update m.children pid (some .moved) } := by
        refine entered.update pid (some .moved) rfl ?_
        rintro _ moved command
        cases moved
        exact absurd rfl command
      refine moved.update forked (some info) rfl ?_
      rintro _ same -
      cases same
      exact launched
    · cases started
      exact launched

theorem entered_step {es : List Event} {t : Transition System Event (Option Launched)}
    (taken : Taken step t) (mem : t.input ∈ es) (entered : Entered es t.before.monitor) :
    Entered es t.after.monitor ∧
      ∀ l, t.output = some l → ∃ forked, Event.launch l.info forked ∈ es := by
  rw [taken.eq_take]
  cases input : t.input with
  | launch info forked =>
      have launched : ∃ forked, Event.launch info forked ∈ es := ⟨forked, input ▸ mem⟩
      constructor
      · refine entered.update forked (some info) rfl ?_
        rintro _ same -
        cases same
        exact launched
      · rintro l started
        cases started
        exact launched
  | appear pid => exact ⟨entered, fun l none_ => by cases none_⟩
  | reap pid now forked => exact entered_runIteration entered pid now forked

/-- What a run of the monitor starts was launched in it. -/
theorem launch_of_started {es : List Event} {t : Transition System Event (Option Launched)}
    (mem : t ∈ transitions step {} es) {l : Launched} (started : t.output = some l) :
    ∃ forked, Event.launch l.info forked ∈ es := by
  have entered : Entered es t.before.monitor :=
    (invariant_transitions (C := fun t => t.input ∈ es) (I := fun s => Entered es s.monitor)
      (fun t taken input entered => (entered_step taken input entered).1)
      (fun _ _ none_ => by cases none_) (fun t mem => input_of_mem mem) t mem).1
  exact (entered_step (taken_of_mem mem) (input_of_mem mem) entered).2 l started

/-- In every run of the monitor, whatever pids the kernel gives out, a child that executes
executes what one of the launches asked for: with its arguments and its environment, as the
user, and with its capabilities only. -/
theorem programs_confined {es : List Event} {t : Transition System Event (Option Launched)}
    (mem : t ∈ transitions step {} es) {l : Launched} (started : t.output = some l)
    (daemon : IsDaemon c) (other : user.uid ≠ 0)
    (executes : launchChild host user environ l.info c = .executes program) :
    ∃ info forked, Event.launch info forked ∈ es ∧
      program = launchedProgram host user environ info c := by
  obtain ⟨forked, launch⟩ := launch_of_started mem started
  exact ⟨l.info, forked, launch, (of_executes daemon other executes).2.2.2⟩

/-- The compositor is launched, ends and is started again. -/
def wslandRun : List Event := [.launch wsland 5, .reap 5 0 6]

theorem programs_confined_wslandRun :
    ∃ t ∈ transitions step {} wslandRun, t.output = some ⟨6, wsland⟩ ∧
      ∃ program, launchChild calmHost wslg noEnviron wsland rootDaemon = .executes program ∧
        ∃ info forked, Event.launch info forked ∈ wslandRun ∧
          program = launchedProgram calmHost wslg noEnviron info rootDaemon := by
  have mem : take step (finish step {} [Event.launch wsland 5]) (Event.reap 5 0 6) ∈
      transitions step {} wslandRun :=
    mem_transitions ({} : System) [Event.launch wsland 5] (Event.reap 5 0 6) []
  have executes : launchChild calmHost wslg noEnviron wsland rootDaemon =
      .executes (launchedProgram calmHost wslg noEnviron wsland rootDaemon) :=
    executes_launchedProgram isDaemon_rootDaemon (by decide) (by decide) (fun _ _ => rfl)
      (by decide)
  have started : (take step (finish step {} [Event.launch wsland 5]) (Event.reap 5 0 6)).output =
      some ⟨6, wsland⟩ := by decide
  exact ⟨_, mem, started, _, executes,
    programs_confined mem started isDaemon_rootDaemon (by decide) executes⟩

end Wslg.WSLGd
