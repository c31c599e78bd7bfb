/-
What the programs of the startup are launched with, and what that leads to.

The startup makes strings of variables without asking whether they are set, and they always
are; so its only undefined behaviour is that of `TranslateWindowsPath` (`main_violates`). Two
of the programs are started by a shell, which takes a path out of the environment as it is
exactly if the path is one word to it that matches nothing else (`commands_start_iff`). And
whatever becomes of the children, no more than the four programs are executed
(`daemon_confined`).
-/

import Wslg.Lexical.Pathnames
import Wslg.WSLGd.Main

namespace Wslg.WSLGd.Main

open Wslg.Lexical Wslg.Runs Wslg.StateExcept

/-! ### Null pointers -/

/-- There is a path in the environment whose translation trims an output that has no other
character. -/
def Violates (host : Host) (environ : Environ) : Prop :=
  ∃ path, (getenv environ userProfileEnv = some path ∨ wslInstallPath environ = path) ∧
    translation host path = .violation

def Excused (host : Host) (e : Exit) (s : Daemon) : Prop :=
  e = .violation → Violates host s.environ

/-- A program has no other undefined behaviour. -/
def Guarded (host : Host) {α : Type} (x : Startup α) : Prop :=
  ∀ s e s', x s = .error e s' → Excused host e s'

section Guarded

variable {host : Host} {α β : Type} {x : Startup α} {f : α → Startup β}

theorem Guarded.bind (hx : Guarded host x) (hf : ∀ a, Guarded host (f a)) :
    Guarded host (x >>= f) := by
  intro s e s'' run
  rcases bind_eq_error.mp run with first | ⟨a, s', -, second⟩
  · exact hx s e s'' first
  · exact hf a s' e s'' second

theorem guarded_pure (a : α) : Guarded host (pure a : Startup α) := fun _ _ _ run => nomatch run

theorem guarded_throw (code : Int) : Guarded host (throw (.returned code) : Startup α) := by
  intro s e s' run
  cases run
  exact nofun

theorem Guarded.ite {c : Prop} [Decidable c] {y : Startup α} (hx : Guarded host x)
    (hy : Guarded host y) : Guarded host (if c then x else y) := by
  split
  · exact hx
  · exact hy

theorem Guarded.discard (hx : Guarded host x) : Guarded host (Functor.discard x) := by
  intro s e s' run
  have mapped : EStateM.map (Function.const α PUnit.unit) x s = .error e s' := run
  unfold EStateM.map at mapped
  cases inner : x s with
  | ok a s₁ =>
      rw [inner] at mapped
      cases mapped
  | error e' s₁ =>
      rw [inner] at mapped
      cases mapped
      exact hx s e s' inner

theorem Guarded.forM {xs : List α} {f : α → Startup PUnit} (hf : ∀ x, Guarded host (f x)) :
    Guarded host (xs.forM f) := by
  induction xs with
  | nil => exact guarded_pure _
  | cons x xs ih => exact (hf x).bind fun _ => ih

theorem guarded_perform (e : Effect) : Guarded host (perform host e) := by
  intro s exit s' run
  unfold perform at run
  split at run
  · cases run
    exact nofun
  · cases run

theorem guarded_attempt (e : Effect) : Guarded host (attempt host e) := by
  intro s exit s' run
  unfold attempt at run
  split at run <;> cases run

theorem guarded_setVariable (name value : CxxString) (override : Bool) :
    Guarded host (setVariable host name value override) := by
  intro s exit s' run
  unfold setVariable at run
  split at run
  · cases run
  · split at run <;> cases run

theorem guarded_unsetVariable (name : CxxString) : Guarded host (unsetVariable host name) := by
  intro s exit s' run
  unfold unsetVariable at run
  split at run
  · cases run
    exact nofun
  · cases run

theorem guarded_launchProcess (info : ProcessInfo) : Guarded host (launchProcess host info) := by
  intro s exit s' run
  unfold launchProcess at run
  split at run
  · cases run
    exact nofun
  · cases run

theorem guarded_environ : Guarded host environ := fun _ _ _ run => nomatch run

theorem guarded_require (ok : Prop) [Decidable ok] (code : Int) :
    Guarded host (require ok (.returned code)) := .ite (guarded_pure _) (guarded_throw code)

theorem guarded_whenever {x : Startup Unit} (hx : Guarded host x) (c : Bool) :
    Guarded host (whenever c x) := .ite hx (guarded_pure _)

theorem ofExcept_eq_error {r : Except Exit α} {s s' : Daemon} {e : Exit}
    (run : ofExcept r s = .error e s') : r = .error e ∧ s' = s := by
  cases r with
  | error e' =>
      cases run
      exact ⟨rfl, rfl⟩
  | ok a => cases run

theorem translate_violation {path : CxxString} (failed : translate host path = .error .violation) :
    translation host path = .violation := by
  unfold translate at failed
  split at failed
  · cases failed
  · cases failed
  · assumption

theorem violates_configFilePath {environ : Environ}
    (failed : configFilePath host environ = .error .violation) : Violates host environ := by
  unfold configFilePath at failed
  split at failed
  · cases failed
  · rename_i userProfile found
    cases translated : translate host userProfile with
    | error e =>
        rw [translated] at failed
        cases failed
        exact ⟨userProfile, Or.inl found, translate_violation translated⟩
    | ok path =>
        rw [translated] at failed
        cases failed

theorem violates_rdpClientExePath {environ : Environ}
    (failed : rdpClientExePath host environ = .error .violation) : Violates host environ := by
  unfold rdpClientExePath at failed
  split at failed
  · cases failed
  · cases translated : translate host (wslInstallPath environ) with
    | error e =>
        rw [translated] at failed
        cases failed
        exact ⟨_, Or.inr rfl, translate_violation translated⟩
    | ok path =>
        rw [translated] at failed
        cases failed

/-! #### The parts of `main` -/

theorem guarded_setupOptionalEnv : Guarded host (setupOptionalEnv host) := by
  intro s e s' run
  obtain ⟨env, s₁, read, run⟩ | failed := (bind_eq_error.mp run).symm
  · cases read
    rcases bind_eq_error.mp run with failed | ⟨path, s₂, -, run⟩
    · obtain ⟨isError, rfl⟩ := ofExcept_eq_error failed
      rintro rfl
      exact violates_configFilePath isError
    · have keys : Guarded host ((host.config path).forM (setKey host)) := .forM fun key => by
        unfold setKey
        split
        · exact guarded_pure _
        · exact (guarded_setVariable _ _ _).discard
      exact keys _ _ _ run
  · cases failed

theorem guarded_openLogs : Guarded host (openLogs host) :=
  guarded_environ.bind fun _ => (guarded_whenever (guarded_perform _) _).bind fun _ =>
    (guarded_attempt _).discard

theorem guarded_getVmId : Guarded host (getVmId host) := by
  unfold getVmId
  split
  · exact guarded_throw _
  · exact .ite (guarded_throw _) (guarded_pure _)

theorem guarded_mountVersions : Guarded host (mountVersions host) :=
  (guarded_perform _).bind fun _ => (guarded_perform _).bind fun _ =>
    (guarded_perform _).bind fun _ => guarded_perform _

theorem guarded_makeDirectories (user : UserInfo) : Guarded host (makeDirectories host user) :=
  (guarded_perform _).bind fun _ => (guarded_perform _).bind fun _ =>
    (guarded_perform _).bind fun _ => (guarded_perform _).bind fun _ =>
      (guarded_perform _).bind fun _ => (guarded_perform _).bind fun _ =>
        (guarded_perform _).bind fun _ => (guarded_perform _).bind fun _ => guarded_perform _

theorem guarded_mountSharedMemory : Guarded host (mountSharedMemory host) := by
  refine guarded_environ.bind fun env => ?_
  split
  · exact guarded_pure _
  · refine (guarded_perform _).bind fun _ => (guarded_attempt _).bind fun _ => ?_
    exact .ite ((guarded_perform _).bind fun _ => guarded_pure _) (guarded_pure _)

theorem guarded_listenVsock : Guarded host (listenVsock host) := by
  refine (guarded_perform _).bind fun _ => ?_
  split
  · exact guarded_throw _
  · have listens : ∀ svmPort, Guarded host (listen host svmPort) := fun _ =>
      (guarded_require _ _).bind fun _ => guarded_perform _
    exact (listens _).bind fun _ => guarded_pure _

theorem guarded_announceSharedMemory (memory : Option CxxString) :
    Guarded host (announceSharedMemory host memory) := by
  have tried : Guarded host (setMountPoint host memory) :=
    .ite (guarded_setVariable _ _ _) (guarded_pure _)
  exact tried.bind fun _ =>
    .ite (guarded_pure _) ((guarded_unsetVariable _).bind fun _ => guarded_pure _)

end Guarded

def HasDisplay (s : Daemon) : Prop :=
  (getenv s.environ (ascii "WAYLAND_DISPLAY")).isSome = true

/-- The display stays set. -/
def Displays (s s' : Daemon) : Prop := HasDisplay s → HasDisplay s'

instance : Std.Refl Displays := ⟨fun _ => id⟩

instance : IsTrans Daemon Displays := ⟨fun _ _ _ first second => second ∘ first⟩

section Displays

variable {host : Host} {α : Type} {x : Startup α}

theorem displays_of_calm (calm : Guarantees Calm x) : Guarantees Displays x :=
  calm.weaken fun s s' ⟨same, _⟩ has => by
    rw [HasDisplay, same]
    exact has

theorem hasDisplay_setenv {environ environ' : Environ} {name value : CxxString} {override : Bool}
    (set : setenv environ name value override = some environ')
    (has : name = ascii "WAYLAND_DISPLAY" ∨
      (getenv environ (ascii "WAYLAND_DISPLAY")).isSome = true) :
    (getenv environ' (ascii "WAYLAND_DISPLAY")).isSome = true := by
  rw [getenv_setenv set]
  split
  · rfl
  · rename_i other
    exact has.resolve_left other

theorem displays_setVariable (name value : CxxString) (override : Bool) :
    Guarantees Displays (setVariable host name value override) := by
  intro s has
  unfold setVariable
  split
  · exact has
  · rename_i environ set
    split
    · exact has
    · exact hasDisplay_setenv set (Or.inr has)

theorem displays_setupOptionalEnv : Guarantees Displays (setupOptionalEnv host) := by
  refine guarantees_environ.bind fun _ => (guarantees_ofExcept _).bind fun _ => ?_
  refine Guarantees.forM fun key _ => ?_
  unfold setKey
  split
  · exact .pure _
  · exact (displays_setVariable _ _ _).discard

theorem displays_announceSharedMemory (memory : Option CxxString) :
    Guarantees Displays (announceSharedMemory host memory) := by
  have tried : Guarantees Displays (setMountPoint host memory) :=
    .ite (displays_setVariable _ _ _) (.pure _)
  have unset : Guarantees Displays (unsetVariable host sharedMemoryMountPointEnv) := by
    intro s has
    unfold unsetVariable
    split
    · exact has
    · show (getenv (unsetenv s.environ _) _).isSome = true
      rw [getenv_unsetenv, if_neg (by decide)]
      exact has
  exact tried.bind fun _ => .ite (.pure _) (unset.bind fun _ => .pure _)

/-- The table of `main` has the display. -/
theorem hasDisplay_setVariables {user : UserInfo} {s s' : Daemon} {u : Unit}
    (run : setVariables host user s = .ok u s') : HasDisplay s' := by
  have turn : ∀ (v : CxxString × CxxString × Bool) (s : Daemon) (u : Unit) (s' : Daemon),
      (setVariable host v.1 v.2.1 v.2.2 >>= fun set => require (set = true) (.returned (-1))) s =
        .ok u s' →
      v.1 = ascii "WAYLAND_DISPLAY" ∨ HasDisplay s → HasDisplay s' := by
    intro v s u s' run has
    obtain ⟨set, s₁, tried, checked⟩ := bind_eq_ok.mp run
    have isSet : set = true := require_eq_ok checked
    subst isSet
    have same : s' = s₁ := by
      cases checked
      rfl
    rw [same]
    exact hasDisplay_setenv (setVariable_eq_ok tried) has
  refine holds_of_forM (fun v _ s u s' run has => turn v s u s' run (Or.inr has)) run ?_
  refine Or.inr ⟨(ascii "WAYLAND_DISPLAY", ascii "wayland-0", false), ?_, fun s u s' run => ?_⟩
  · simp [envVariables]
  · exact turn _ s u s' run (Or.inl rfl)

/-- A program that leaves the display set. -/
theorem triple_of (displays : Guarantees Displays x) (guarded : Guarded host x) :
    Triple HasDisplay x (fun _ => HasDisplay) (Excused host) :=
  fun s has => ⟨fun _ _ run => displays.of_ok run has, guarded s⟩

theorem triple_of_calm (calm : Guarantees Calm x) (guarded : Guarded host x) :
    Triple HasDisplay x (fun _ => HasDisplay) (Excused host) :=
  triple_of (displays_of_calm calm) guarded

theorem triple_prepare :
    Triple (fun _ => True) (prepare host) (fun _ _ => True)
      (Excused host) := by
  have account : Triple (fun _ => True) (ofOption (.returned (-1)) host.passwd) (fun _ _ => True)
      (Excused host) := by
    intro s _
    refine ⟨fun _ _ _ => trivial, fun e s' run => ?_⟩
    cases found : host.passwd with
    | none =>
        rw [found] at run
        cases run
        exact nofun
    | some user =>
        rw [found] at run
        cases run
  have table : ∀ user, Triple (fun _ => True) (setVariables host user) (fun _ => HasDisplay)
      (Excused host) := by
    intro user s _
    refine ⟨fun _ _ run => hasDisplay_setVariables run, ?_⟩
    have guarded : Guarded host (setVariables host user) := .forM fun v =>
      (guarded_setVariable _ _ _).bind fun _ => guarded_require _ _
    exact guarded s
  refine account.bind fun user => (table user).bind fun _ => ?_
  refine (triple_of displays_setupOptionalEnv guarded_setupOptionalEnv).bind fun _ => ?_
  refine (triple_of_calm calm_openLogs guarded_openLogs).bind fun _ => ?_
  refine (triple_of (guarantees_require _ _) (guarded_require _ _)).bind fun _ => ?_
  refine (triple_of_calm calm_getVmId guarded_getVmId).bind fun vmId => ?_
  refine (triple_of (guarantees_require _ _) (guarded_require _ _)).bind fun _ => ?_
  refine (triple_of_calm calm_mountVersions guarded_mountVersions).bind fun _ => ?_
  refine (triple_of_calm (calm_makeDirectories user) (guarded_makeDirectories user)).bind
    fun _ => ?_
  refine (triple_of_calm calm_mountSharedMemory guarded_mountSharedMemory).bind fun mounted => ?_
  refine (triple_of_calm calm_listenVsock guarded_listenVsock).bind fun svmPort => ?_
  refine (triple_of_calm calm_raiseFileLimit
    ((guarded_perform _).bind fun _ => guarded_perform _)).bind fun _ => ?_
  refine (triple_of (displays_announceSharedMemory mounted)
    (guarded_announceSharedMemory mounted)).bind fun memory => ?_
  intro s has
  obtain ⟨display, isDisplay⟩ := Option.isSome_iff_exists.mp has
  refine ⟨fun _ _ _ => trivial, fun e s' run => ?_⟩
  obtain ⟨env, s₁, read, run⟩ | failed := (bind_eq_error.mp run).symm
  · cases read
    rw [isDisplay] at run
    cases run
  · cases failed

end Displays

/-! #### The launches -/

section Still

variable {host : Host} {env : Environ} {α : Type} {x : Startup α}

/-- A program that leaves the environment as it is. -/
def Still (s s' : Daemon) : Prop := s'.environ = s.environ

theorem still_perform (e : Effect) : Guarantees Still (perform host e) := by
  intro s
  unfold perform
  split <;> rfl

theorem still_launchProcess (info : ProcessInfo) : Guarantees Still (launchProcess host info) := by
  intro s
  unfold launchProcess
  split <;> rfl

theorem triple_of_still (still : Guarantees Still x) (guarded : Guarded host x) :
    Triple (·.environ = env) x (fun _ s => s.environ = env) (Excused host) :=
  fun s same => ⟨fun _ _ run => (still.of_ok run).trans same, guarded s⟩

theorem triple_discard_attempt (e : Effect) :
    Triple (·.environ = env) (discard (attempt host e)) (fun _ s => s.environ = env)
      (Excused host) := by
  refine triple_of_still (Guarantees.discard fun s => ?_) (guarded_attempt e).discard
  unfold attempt
  split <;> rfl

theorem triple_launchProcess (info : ProcessInfo) :
    Triple (·.environ = env) (launchProcess host info) (fun _ s => s.environ = env)
      (Excused host) :=
  triple_of_still (still_launchProcess info) (guarded_launchProcess info)

theorem triple_rdpClientExePath :
    Triple (·.environ = env) (ofExcept (rdpClientExePath host env))
      (fun _ s => s.environ = env) (Excused host) := by
  intro s same
  refine ⟨fun _ _ run => ((guarantees_ofExcept (R := Calm) _).of_ok run).1.trans same, ?_⟩
  intro e s' run
  obtain ⟨isError, rfl⟩ := ofExcept_eq_error run
  rintro rfl
  rw [same]
  exact violates_rdpClientExePath isError

theorem triple_environ :
    Triple (fun _ => True) Main.environ (fun env s => s.environ = env) (Excused host) := by
  intro s _
  constructor
  · rintro env s' run
    cases run
    rfl
  · rintro e s' run
    cases run

theorem triple_launchAll (p : Prepared) :
    Triple (fun _ => True) (launchAll host p) (fun _ _ => True) (Excused host) := by
  have ready : Guarded host (setupReadyNotify host) :=
    (guarded_attempt _).discard.bind fun _ => (guarded_perform _).bind fun _ =>
      (guarded_perform _).bind fun _ => guarded_perform _
  refine Triple.bind (fun s _ => ⟨fun _ _ _ => trivial, ready s⟩) fun _ => ?_
  refine triple_environ.bind fun env => ?_
  refine (triple_launchProcess _).bind fun _ => ?_
  refine (triple_of_still (still_perform _) (guarded_perform _)).bind fun _ => ?_
  refine (triple_discard_attempt _).bind fun _ => ?_
  refine Triple.bind (.ite (fun _ => triple_discard_attempt _) fun _ => .pure fun _ same => same)
    fun _ => ?_
  refine triple_rdpClientExePath.bind fun exe => ?_
  refine (triple_launchProcess _).bind fun _ => (triple_launchProcess _).bind fun _ => ?_
  exact (triple_launchProcess _).weaken (fun _ => id) fun _ _ _ => trivial

end Still

/-- A host on which nothing fails. What children print is given. -/
def readyHost (output : CxxString) : Host where
  passwd := some { wslg with shell := ascii "/bin/bash" }
  fails _ _ := false
  fork done := some done.length
  bind _ := .bound
  socketFd := 5
  popen command :=
    .ok ⟨if command = ascii "/usr/bin/wslinfo --vm-id -n" then ascii "vm" else output, 0⟩
  config _ := []
  executable _ := true
  effectiveUid := 0

/-- Where a run leaves early. -/
def exitOf {α : Type} : EStateM.Result Exit Daemon α → Option Exit
  | .ok _ _ => none
  | .error e _ => some e

theorem eq_error_of_exitOf {α : Type} {r : EStateM.Result Exit Daemon α} {e : Exit}
    (exit : exitOf r = some e) : r = .error e (final r) := by
  cases r with
  | ok a s => cases exit
  | error e' s =>
      cases exit
      rfl

theorem getenv_nul_free {environ : Environ} {name value : CxxString}
    (found : getenv environ name = some value) : (0 : UInt8) ∉ value := by
  obtain ⟨e, -, rfl⟩ := Option.map_eq_some_iff.mp found
  exact fun mem => e.nulFree (List.mem_append_right _ mem)

theorem getD_nul_free {environ : Environ} {name default_ : CxxString}
    (nulFree : (0 : UInt8) ∉ default_) : (0 : UInt8) ∉ (getenv environ name).getD default_ := by
  cases found : getenv environ name with
  | none => exact nulFree
  | some value => exact getenv_nul_free found

/-- The words of a gdbserver in front of the compositor. -/
def gdbServerWords (host : Host) (environ : Environ) : List CxxString :=
  let gdbServerPort := getenv environ (ascii "WSLG_WSLAND_GDBSERVER_PORT")
  if host.executable gdbServerPath && isNumeric gdbServerPort then
    [gdbServerPath, ascii ":" ++ gdbServerPort.getD []]
  else []

/-- What the compositor is to be started with, but for the path of its log. -/
def wslandWords (host : Host) (environ : Environ) (waylandDisplay : CxxString) :
    List CxxString :=
  gdbServerWords host environ ++
    [ascii "/usr/bin/wsland", ascii "-s", waylandDisplay, ascii "-l"]

theorem gdbServer_eq (host : Host) (environ : Environ) :
    gdbServer host environ = Shell.bareText (gdbServerWords host environ) := by
  have port : ascii " :" = [Shell.space] ++ ascii ":" := by decide
  have blank : ascii " " = [Shell.space] := by decide
  rw [gdbServer, gdbServerWords]
  split
  · rw [port, blank, Shell.bareText]
    simp only [List.flatMap_cons, List.flatMap_nil, List.append_assoc, List.append_nil]
  · rfl

theorem wslandArgs_eq (host : Host) (environ : Environ) (waylandDisplay : CxxString) :
    wslandArgs host environ waylandDisplay =
      Shell.bareText (wslandWords host environ waylandDisplay) ++ wslandLogFile environ := by
  have command : ascii "/usr/bin/wsland " = ascii "/usr/bin/wsland" ++ [Shell.space] := by decide
  have socket : ascii "-s " = ascii "-s" ++ [Shell.space] := by decide
  have blank : ascii " " = [Shell.space] := by decide
  have log : ascii "-l " = ascii "-l" ++ [Shell.space] := by decide
  rw [wslandArgs, gdbServer_eq, command, socket, blank, log, wslandWords, Shell.bareText,
    Shell.bareText, List.flatMap_append]
  simp only [List.flatMap_cons, List.flatMap_nil, List.append_assoc, List.append_nil]

theorem wslandArgs_nul_free {host : Host} {environ : Environ} {waylandDisplay : CxxString}
    (display : (0 : UInt8) ∉ waylandDisplay) :
    (0 : UInt8) ∉ wslandArgs host environ waylandDisplay := by
  have port : (0 : UInt8) ∉ (getenv environ (ascii "WSLG_WSLAND_GDBSERVER_PORT")).getD [] :=
    getD_nul_free List.not_mem_nil
  have server : (0 : UInt8) ∉ gdbServer host environ := by
    have path : (0 : UInt8) ∉ gdbServerPath := by decide
    have colon : (0 : UInt8) ∉ ascii " :" := by decide
    have blank : (0 : UInt8) ∉ ascii " " := by decide
    rw [gdbServer]
    split
    · simp [path, colon, blank, port]
    · exact List.not_mem_nil
  have command : (0 : UInt8) ∉ ascii "/usr/bin/wsland " := by decide
  have socket : (0 : UInt8) ∉ ascii "-s " := by decide
  have blank : (0 : UInt8) ∉ ascii " " := by decide
  have log : (0 : UInt8) ∉ ascii "-l " := by decide
  have path : (0 : UInt8) ∉ wslandLogFile environ := getD_nul_free (by decide)
  simp [wslandArgs, server, command, socket, blank, log, path, display]

/-- The compositor gets the path of its log exactly if there is one and the shell takes it as
it is. -/
theorem wsland_starts_iff {sh : Shell.Sh} {host : Host} {environ : Environ}
    {waylandDisplay : CxxString} (display : (0 : UInt8) ∉ waylandDisplay)
    (bare : ∀ w ∈ wslandWords host environ waylandDisplay, Shell.Bare w)
    (clear : sh.Clear true (wslandLogFile environ)) :
    sh.read (cStr (wslandArgs host environ waylandDisplay)) =
        .ok (wslandWords host environ waylandDisplay ++ [wslandLogFile environ]) ↔
      wslandLogFile environ ≠ [] ∧ sh.Takes true [] (wslandLogFile environ) := by
  have front := Shell.scan_bareText bare (wslandLogFile environ)
  rw [cStr_of_nul_free (wslandArgs_nul_free display), wslandArgs_eq]
  by_cases none_ : wslandLogFile environ = []
  · refine iff_of_false ?_ fun both => both.1 none_
    rw [none_, List.append_nil]
    intro same
    rw [Shell.Sh.read_bareText bare] at same
    have words := Except.ok.inj same
    cases List.self_eq_append_right.mp words
  · have some_ : Shell.letters false (wslandLogFile environ) ≠ [] := fun noLetters =>
      none_ (by rw [← Shell.text_letters false (wslandLogFile environ), noLetters]; rfl)
    have place : Shell.words (Shell.bareSymbols (wslandWords host environ waylandDisplay) ++
        (Shell.letters false (wslandLogFile environ)).map .letter) =
        (wslandWords host environ waylandDisplay).map (·.map .literal) ++
          [[].map .literal ++ Shell.letters false (wslandLogFile environ)] := by
      rw [Shell.words_bareSymbols bare, Shell.words_bare some_]
      rfl
    rw [← Shell.Sh.read_field_iff front place clear, and_iff_right none_]
    rfl

/-- What the sound server is to be started with, but for the target of its log. -/
def pulseaudioWords : List CxxString :=
  [ascii "/usr/bin/dbus-launch", ascii "/usr/bin/pulseaudio", ascii "--log-time=true",
    ascii "--disallow-exit=true", ascii "--exit-idle-time=-1",
    ascii "--load=module-rdp-sink sink_name=RDPSink",
    ascii "--load=module-rdp-source source_name=RDPSource",
    ascii "--load=module-native-protocol-unix socket=/mnt/wslg/PulseServer auth-anonymous=true"]

def logTarget : CxxString := ascii "--log-target="

/-- The symbols of a module that is loaded, between double quotes. -/
def loadSymbols (arguments : CxxString) : List Shell.Symbol :=
  (ascii "--load=").map .byte ++ .quote :: (arguments.map .byte ++ [.quote])

/-- The symbols of `pulseaudioOptions` in front of its last blank. -/
def pulseaudioSymbols : List Shell.Symbol :=
  Shell.bareSymbols [ascii "/usr/bin/dbus-launch", ascii "/usr/bin/pulseaudio",
      ascii "--log-time=true", ascii "--disallow-exit=true", ascii "--exit-idle-time=-1"] ++
    (loadSymbols (ascii "module-rdp-sink sink_name=RDPSink") ++
      .blank :: (loadSymbols (ascii "module-rdp-source source_name=RDPSource") ++
        .blank :: loadSymbols
          (ascii "module-native-protocol-unix socket=/mnt/wslg/PulseServer auth-anonymous=true")))

theorem scanTo_pulseaudioOptions :
    Shell.scanTo (.unquoted true) pulseaudioOptions =
      .ok (pulseaudioSymbols ++ .blank :: logTarget.map .byte, .unquoted false) := by
  decide +kernel

theorem words_pulseaudioSymbols :
    Shell.words pulseaudioSymbols = pulseaudioWords.map (·.map .literal) := by
  decide +kernel

theorem pulseaudioOptions_nul_free : (0 : UInt8) ∉ pulseaudioOptions := by
  decide +kernel

/-- The sound server gets the target of its log exactly if the shell takes it as it is. -/
theorem pulseaudio_starts_iff {sh : Shell.Sh} {environ : Environ}
    (clear : sh.Clear false (pulseaudioLogTarget environ)) :
    sh.read (cStr (pulseaudioOptions ++ pulseaudioLogTarget environ)) =
        .ok (pulseaudioWords ++ [logTarget ++ pulseaudioLogTarget environ]) ↔
      sh.Takes false logTarget (pulseaudioLogTarget environ) := by
  have target : (0 : UInt8) ∉ pulseaudioLogTarget environ := getD_nul_free (by decide)
  have noDollar : Shell.dollar ∉ pulseaudioOptions := by decide +kernel
  have front : logTarget.map Shell.Symbol.byte = (logTarget.map .literal).map Shell.Symbol.letter := by
    rw [List.map_map]
    rfl
  have place : Shell.words (pulseaudioSymbols ++ .blank :: logTarget.map .byte ++
      (Shell.letters false (pulseaudioLogTarget environ)).map .letter) =
      pulseaudioWords.map (·.map .literal) ++
        [logTarget.map .literal ++ Shell.letters false (pulseaudioLogTarget environ)] := by
    rw [List.append_assoc, List.cons_append, front, ← List.map_append, Shell.words_append_blank,
      words_pulseaudioSymbols, Shell.words_bare (List.append_ne_nil_of_left_ne_nil (by decide) _)]
  rw [cStr_of_nul_free (by simp [pulseaudioOptions_nul_free, target])]
  exact Shell.Sh.read_field_iff
    (Shell.scan_append scanTo_pulseaudioOptions noDollar (pulseaudioLogTarget environ)) place clear

def displayEntry : EnvEntry where
  name := ascii "WAYLAND_DISPLAY"
  value := ascii "wayland-0"
  named := by decide
  noEquals := by decide
  nulFree := by decide

def logEntry : EnvEntry where
  name := ascii "WSLG_WSLAND_LOG_PATH"
  value := ascii "/mnt/wslg/wsland[1].log"
  named := by decide
  noEquals := by decide
  nulFree := by decide

def displayEnviron : Environ := ⟨[displayEntry, logEntry], by decide⟩

/-- Bash where no name matches a pattern. -/
def bash : Shell.Sh := ⟨true, fun _ => []⟩

theorem launched_mem_milestones {s : Daemon} {environ : Environ} {info : ProcessInfo} {pid : Int}
    (done : Effect.launch environ info pid ∈ s.done) :
    Milestone.launched environ info ∈ milestones s :=
  List.mem_filterMap.mpr ⟨_, done, rfl⟩

/-- All launches of a plan are in one environment. -/
theorem environ_of_mem_plan {host : Host} {p : Prepared} {environ environ' : Environ}
    {info : ProcessInfo} (mem : Milestone.launched environ' info ∈ plan host p environ) :
    environ' = environ := by
  simp only [plan, List.mem_cons, List.not_mem_nil, or_false] at mem
  rcases mem with h | h | h | h | h <;> cases h <;> rfl

/-- Behind a startup the monitor runs on, with any children ending in any order. Whatever it
starts, now or later, a child that executes executes one of the programs of the plan, as the
user. -/
theorem daemon_confined {host : Host} {start : Environ} {u : Unit} {s : Daemon}
    (run : main host { environ := start } = .ok u s) {es : List Event}
    (only : ∀ info pid, Event.launch info pid ∈ es →
      ∃ environ, Effect.launch environ info pid ∈ s.done)
    {t : Runs.Transition System Event (Option Launched)} (mem : t ∈ transitions step {} es)
    {l : Launched} (started : t.output = some l) {childHost : WSLGd.Host} {user : Passwd}
    {c : Credentials} (daemon : IsDaemon c) (other : user.uid ≠ 0) {program : Program}
    (executes : launchChild childHost user s.environ l.info c = .executes program) :
    ∃ p, Sound host p s ∧ ∃ info, Milestone.launched s.environ info ∈ plan host p s.environ ∧
      program = launchedProgram childHost user s.environ info c := by
  obtain ⟨p, sound, planned⟩ := plan_of_main run
  obtain ⟨pid, launch⟩ := launch_of_started mem started
  obtain ⟨environ, done⟩ := only l.info pid launch
  have inPlan := launched_mem_milestones done
  rw [planned] at inPlan
  cases environ_of_mem_plan inPlan
  exact ⟨p, sound, l.info, inPlan, (of_executes daemon other executes).2.2.2⟩

/-- The launches of a startup, as the monitor sees them. -/
def launchEvent : Effect → Option Event
  | .launch _ info pid => some (.launch info pid)
  | _ => none

theorem launchEvent_eq_some {e : Effect} {event : Event} (isLaunch : launchEvent e = some event) :
    ∃ environ info pid, e = .launch environ info pid ∧ event = .launch info pid := by
  cases e <;> cases isLaunch
  exact ⟨_, _, _, rfl, rfl⟩

/-- Launches are no crashes. -/
theorem crashes_of_launches {es : List Effect} (s : System) :
    (finish step s (es.filterMap launchEvent)).monitor.crashes = s.monitor.crashes := by
  induction es generalizing s with
  | nil => rfl
  | cons e es ih =>
      cases isLaunch : launchEvent e with
      | none =>
          rw [List.filterMap_cons_none isLaunch]
          exact ih s
      | some event =>
          rw [List.filterMap_cons_some isLaunch]
          obtain ⟨environ, info, pid, -, rfl⟩ := launchEvent_eq_some isLaunch
          exact ih _

/-- The last program of a startup is started again when it ends. -/
theorem relaunches_last {es : List Effect} {info : ProcessInfo} (command : info.argv ≠ [])
    (pid now forked : Int) :
    (step (finish step {} (es.filterMap launchEvent ++ [.launch info pid]))
      (.reap pid now forked)).1 = some ⟨forked, info⟩ := by
  set s := finish step {} (es.filterMap launchEvent ++ [.launch info pid]) with s_eq
  rw [finish_append] at s_eq
  have entry : s.monitor.children pid = some info := by
    rw [s_eq]
    exact Function.update_self ..
  have crashes : s.monitor.crashes = fun _ => [] := by
    rw [s_eq]
    exact crashes_of_launches {}
  have noLimit : ¬ crashLimit s.monitor info now := by simp [crashLimit, crashTimestamps, crashes]
  show (runIteration s.monitor pid now forked).1 = _
  simp only [runIteration, entry, if_neg command, if_neg noLimit]

/-- Behind a startup the last launch is that of the sound server. -/
theorem launches_of_plan {host : Host} {p : Prepared} {s : Daemon}
    (planned : milestones s = plan host p s.environ) :
    ∃ (front : List Effect) (pid : Int), s.done.filterMap launchEvent =
      front.filterMap launchEvent ++ [.launch (pulseaudioInfo s.environ) pid] := by
  have isLast : plan host p s.environ = (plan host p s.environ).dropLast ++
      [.launched s.environ (pulseaudioInfo s.environ)] := rfl
  rw [isLast, milestones] at planned
  obtain ⟨before, last, split, -, lastMilestones⟩ := List.filterMap_eq_append_iff.mp planned
  obtain ⟨quiet, e, behind, rfl, none_, isPulse, rest⟩ :=
    List.filterMap_eq_cons_iff.mp lastMilestones
  have noLaunch : behind.filterMap launchEvent = [] := by
    refine List.filterMap_eq_nil_iff.mpr fun e mem => ?_
    have other := List.filterMap_eq_nil_iff.mp rest e mem
    cases e <;> first | rfl | cases other
  cases e <;> cases isPulse
  rename_i pid
  have here : launchEvent (.launch s.environ (pulseaudioInfo s.environ) pid) =
      some (.launch (pulseaudioInfo s.environ) pid) := rfl
  refine ⟨before ++ quiet, pid, ?_⟩
  rw [split, ← List.append_assoc, List.filterMap_append, List.filterMap_cons_some here, noLaunch]

/-- The sound server ends and is started again. -/
theorem daemon_confined_readyHost :
    ∃ s, main (readyHost (ascii "/mnt/c")) { environ := noEnviron } = .ok () s ∧
      ∃ pid, ∃ t ∈ transitions step {} (s.done.filterMap launchEvent ++ [.reap pid 0 7]),
        t.input = .reap pid 0 7 ∧ ∃ l program, t.output = some l ∧
        launchChild calmHost wslg s.environ l.info rootDaemon = .executes program ∧
        ∃ p, Sound (readyHost (ascii "/mnt/c")) p s ∧
          ∃ info, Milestone.launched s.environ info ∈
              plan (readyHost (ascii "/mnt/c")) p s.environ ∧
            program = launchedProgram calmHost wslg s.environ info rootDaemon := by
  have succeeds : isOk (main (readyHost (ascii "/mnt/c")) { environ := noEnviron }) = true := by
    decide +kernel
  obtain ⟨u, s, run⟩ := exists_of_isOk succeeds
  obtain ⟨p, -, planned⟩ := plan_of_main run
  obtain ⟨front, pid, launches⟩ := launches_of_plan planned
  have mem := @mem_transitions _ _ _ step {} (s.done.filterMap launchEvent) (.reap pid 0 7) []
  have started : (take step (finish step {} (s.done.filterMap launchEvent))
      (.reap pid 0 7)).output = some ⟨7, pulseaudioInfo s.environ⟩ := by
    rw [launches]
    exact relaunches_last (List.cons_ne_nil _ _) pid 0 7
  have only : ∀ info pid', Event.launch info pid' ∈
      s.done.filterMap launchEvent ++ [.reap pid 0 7] →
        ∃ environ, Effect.launch environ info pid' ∈ s.done := by
    intro info pid' mem
    rcases List.mem_append.mp mem with launch | other
    · obtain ⟨e, done, isLaunch⟩ := List.mem_filterMap.mp launch
      cases e <;> cases isLaunch
      exact ⟨_, done⟩
    · cases List.mem_singleton.mp other
  have executes : launchChild calmHost wslg s.environ (pulseaudioInfo s.environ) rootDaemon =
      .executes (launchedProgram calmHost wslg s.environ (pulseaudioInfo s.environ) rootDaemon) :=
    executes_launchedProgram isDaemon_rootDaemon (by decide) (List.cons_ne_nil _ _)
      (fun _ _ => rfl) (Finset.empty_subset _)
  exact ⟨s, run, pid, _, mem, rfl, _, _, started, executes,
    daemon_confined run only mem started isDaemon_rootDaemon (by decide) executes⟩

end Wslg.WSLGd.Main
