/-
`main` of WSLGd, up to `monitor.Run`.

What `main` asks the system for is a list of effects, each of which may fail at any moment and
for any reason; what it reads is given by the host. A failure that `main` looks at is thrown
and ends the daemon with -1. A string made of a null pointer, and the trim loop of
`TranslateWindowsPath` on an empty output, are an end of their own.

The programs are launched one after the other: the compositor, then, when it has said that it
is ready, the RDP client, the system bus and the sound server. Whatever fails, the launches
are the first ones of that plan, all in one environment (`main_follows_plan`). The client is
told of the shared memory exactly if the compositor finds it in its environment.
-/

import Wslg.Logic.StateExcept
import Wslg.WSLGd.Environment
import Wslg.WSLGd.LaunchChild

namespace Wslg.WSLGd.Main

open Wslg.Lexical Wslg.StateExcept

/-! ### Effects -/

/-- The user, with the shell `main` puts into the environment. -/
structure UserInfo extends Passwd where
  shell : CxxString

inductive Effect where
  | setenv (name value : CxxString)
  | unsetenv (name : CxxString)
  | chmod (path : CxxString) (mode : Nat)
  | chown (path : CxxString) (uid gid : Nat)
  | createDirectories (path : CxxString)
  /-- `open` with `O_RDWR | O_CREAT`. -/
  | create (path : CxxString)
  | redirectStdErr (path : CxxString)
  /-- `mount` with `MS_BIND | MS_RDONLY`. -/
  | bindMount (source target : CxxString)
  | mount (source target filesystem data : CxxString)
  | vsocket
  | listen
  | getrlimit
  | setrlimit
  | unlink (path : CxxString)
  /-- The socket of `SetupReadyNotify`. -/
  | notifySocket
  | notifyBind (path : CxxString)
  | notifyListen
  /-- `fork` for a program; the child has a copy of the environment. -/
  | launch (environ : Environ) (info : ProcessInfo) (pid : Int)
  /-- `accept` of the compositor's notification. -/
  | accept
  | startFontMonitor

/-- How `main` ends before `Run`. -/
inductive Exit where
  | returned (code : Int)
  | violation
deriving DecidableEq

/-- What is not up to `main`: the account, which effects fail, the pids of children, the ports
that are free, what `popen` runs, the keys of the section `system-distro-env` in a
`.wslgconfig`, and what can be executed. -/
structure Host where
  passwd : Option UserInfo
  fails : List Effect → Effect → Bool
  fork : List Effect → Option Int
  bind : Nat → BindResult
  socketFd : Int
  popen : CxxString → Except Int Child
  config : CxxString → List (CxxString × Option CxxString)
  executable : CxxString → Bool
  effectiveUid : Nat

structure Daemon where
  environ : Environ
  done : List Effect := []

abbrev Startup := EStateM Exit Daemon

def throwErrno {α : Type} : Startup α := throw (.returned (-1))

def attempt (host : Host) (e : Effect) : Startup Bool := fun s =>
  if host.fails s.done e then .ok false s else .ok true { s with done := s.done ++ [e] }

def perform (host : Host) (e : Effect) : Startup Unit := fun s =>
  if host.fails s.done e then .error (.returned (-1)) s
  else .ok () { s with done := s.done ++ [e] }

def setVariable (host : Host) (name value : CxxString) (override : Bool) : Startup Bool := fun s =>
  match setenv s.environ name value override with
  | none => .ok false s
  | some environ =>
      if host.fails s.done (.setenv name value) then .ok false s
      else .ok true ⟨environ, s.done ++ [.setenv name value]⟩

def unsetVariable (host : Host) (name : CxxString) : Startup Unit := fun s =>
  if host.fails s.done (.unsetenv name) then .error (.returned (-1)) s
  else .ok () ⟨WSLGd.unsetenv s.environ name, s.done ++ [.unsetenv name]⟩

def environ : Startup Environ := fun s => .ok s.environ s

def require (ok : Prop) [Decidable ok] (exit : Exit) : Startup Unit :=
  if ok then pure () else throw exit

def whenever (c : Bool) (x : Startup Unit) : Startup Unit := if c then x else pure ()

/-- The parent's side of `LaunchProcess`. -/
def launchProcess (host : Host) (info : ProcessInfo) : Startup Unit := fun s =>
  match host.fork s.done with
  | none => .error (.returned (-1)) s
  | some pid => .ok () { s with done := s.done ++ [.launch s.environ info pid] }

/-! ### Output of children -/

/-- Each turn of the loop takes a byte at least. -/
theorem readOutput_isSome {fuel : Nat} {stream : List UInt8} (enough : stream.length ≤ fuel)
    (result : CxxString) : (readOutput fuel stream result).isSome = true := by
  induction fuel generalizing stream result with
  | zero =>
      rw [List.eq_nil_of_length_eq_zero (Nat.le_zero.mp enough)]
      rfl
  | succ fuel ih =>
      by_cases ended : stream = []
      · subst ended
        rfl
      · have taken := takeLine_append 127 stream
        have any : (takeLine 127 stream).1 ≠ [] := takeLine_ne_nil 126 ended
        have shorter := congrArg List.length taken
        have positive := List.length_pos_iff.mpr any
        rw [List.length_append] at shorter
        rw [readOutput, fgets, if_neg ended]
        refine ih ?_ _
        show (takeLine 127 stream).2.length ≤ fuel
        omega

/-- What the loop around `fgets` reads from a child. -/
def Child.text (child : Child) : CxxString :=
  (readOutput child.output.length child.output []).get (readOutput_isSome (Nat.le_refl _) _)

theorem translateWindowsPath_isSome (popen : CxxString → Except Int Child) (path : CxxString) :
    (translateWindowsPath popen path).isSome = true := by
  unfold translateWindowsPath
  split
  · rfl
  · rw [translateOutput, Option.isSome_map]
    exact readOutput_isSome (Nat.le_refl _) _

def translation (host : Host) (path : CxxString) : Translation :=
  (translateWindowsPath host.popen path).get (translateWindowsPath_isSome _ _)

def translate (host : Host) (path : CxxString) : Except Exit CxxString :=
  match translation host path with
  | .returned path => .ok path
  | .threw _ => .error (.returned (-1))
  | .violation => .error .violation

def ofExcept {α : Type} : Except Exit α → Startup α
  | .ok a => pure a
  | .error e => throw e

def getVmId (host : Host) : Startup CxxString :=
  match host.popen (ascii "/usr/bin/wslinfo --vm-id -n") with
  | .error _ => throwErrno
  | .ok child => if child.status ≠ 0 then throwErrno else pure (Child.text child)

/-! ### The environment -/

/-- `variables`. -/
def envVariables (user : UserInfo) : List (CxxString × CxxString × Bool) :=
  [(ascii "HOME", user.dir, true),
    (ascii "USER", user.name, true),
    (ascii "LOGNAME", user.name, true),
    (ascii "SHELL", user.shell, true),
    (ascii "PATH", ascii "/usr/sbin:/usr/bin:/sbin:/bin:/usr/games", true),
    (ascii "XDG_RUNTIME_DIR", ascii "/mnt/wslg/runtime-dir", false),
    (ascii "WAYLAND_DISPLAY", ascii "wayland-0", false),
    (ascii "DISPLAY", ascii ":0", false),
    (ascii "XCURSOR_PATH", ascii "/mnt/wslg/distro/usr/share/icons:/usr/share/icons", false),
    (ascii "XCURSOR_THEME", ascii "capitaine-cursors", false),
    (ascii "XCURSOR_SIZE", ascii "32", false),
    (ascii "PULSE_SERVER", ascii "/mnt/wslg/PulseServer", false),
    (ascii "PULSE_AUDIO_RDP_SINK", ascii "/mnt/wslg/PulseAudioRDPSink", false),
    (ascii "PULSE_AUDIO_RDP_SOURCE", ascii "/mnt/wslg/PulseAudioRDPSource", false),
    (ascii "WSL2_DEFAULT_APP_ICON", ascii "/usr/share/icons/wsl/linux.png", false),
    (ascii "WSL2_DEFAULT_APP_OVERLAY_ICON", ascii "/usr/share/icons/wsl/linux.png", false)]

def setVariables (host : Host) (user : UserInfo) : Startup Unit :=
  (envVariables user).forM fun v => do
    let set ← setVariable host v.1 v.2.1 v.2.2
    require (set = true) (.returned (-1))

def userProfileEnv : CxxString := ascii "WSL2_USER_PROFILE"

/-- `configFilePath`. -/
def configFilePath (host : Host) (environ : Environ) : Except Exit CxxString :=
  match getenv environ userProfileEnv with
  | none => pure (ascii "/mnt/c/ProgramData/Microsoft/WSL/.wslgconfig")
  | some userProfile => (translate host userProfile).map (· ++ ascii "/.wslgconfig")

/-- A key of the section, whatever comes of it. -/
def setKey (host : Host) (key : CxxString × Option CxxString) : Startup Unit :=
  match key.2 with
  | none => pure ()
  | some value => discard (setVariable host key.1 value true)

/-- `SetupOptionalEnv`. -/
def setupOptionalEnv (host : Host) : Startup Unit := do
  let env ← environ
  let path ← ofExcept (configFilePath host env)
  (host.config path).forM (setKey host)

/-! ### Logs, mounts and directories -/

def openLogs (host : Host) : Startup Unit := do
  let env ← environ
  whenever (getEnvBool env (ascii "WSLG_LOG_KMSG") false)
    (perform host (.chmod (ascii "/dev/kmsg") 0o666))
  let errLog := (getenv env (ascii "WSLG_ERR_LOG_PATH")).getD (ascii "/mnt/wslg/stderr.log")
  discard (attempt host (.redirectStdErr errLog))

def mountVersions (host : Host) : Startup Unit := do
  perform host (.create (ascii "/mnt/wslg/versions.txt"))
  perform host (.bindMount (ascii "/etc/versions.txt") (ascii "/mnt/wslg/versions.txt"))
  perform host (.createDirectories (ascii "/mnt/wslg/doc"))
  perform host (.bindMount (ascii "/usr/share/doc") (ascii "/mnt/wslg/doc"))

/-- "Make directories and ensure the correct permissions." The mode of the last `chmod` but one
is decimal in the source. -/
def makeDirectories (host : Host) (user : UserInfo) : Startup Unit := do
  perform host (.createDirectories (ascii "/var/run/dbus"))
  perform host (.chown (ascii "/var/run/dbus") user.uid user.gid)
  perform host (.createDirectories (ascii "/mnt/wslg/.X11-unix"))
  perform host (.chmod (ascii "/mnt/wslg/.X11-unix") 0o777)
  perform host (.chown (ascii "/tmp/.X11-unix") user.uid user.gid)
  perform host (.chmod (ascii "/tmp/.X11-unix") 1777)
  perform host (.createDirectories (ascii "/mnt/wslg/runtime-dir"))
  perform host (.chown (ascii "/mnt/wslg/runtime-dir") user.uid user.gid)
  perform host (.chmod (ascii "/mnt/wslg/runtime-dir") 0o777)

/-! ### The shared memory -/

def sharedMemoryMountPoint : CxxString := ascii "/mnt/shared_memory"

def sharedMemoryMountPointEnv : CxxString := ascii "WSL2_SHARED_MEMORY_MOUNT_POINT"

def sharedMemoryObDirectoryPathEnv : CxxString := ascii "WSL2_SHARED_MEMORY_OB_DIRECTORY"

def virtiofs : Effect :=
  .mount (ascii "wslg") sharedMemoryMountPoint (ascii "virtiofs") (ascii "dax")

/-- "Attempt to mount the virtiofs share for shared memory." What is given back is
`sharedMemoryObDirectoryPath` if `isSharedMemoryMounted`. -/
def mountSharedMemory (host : Host) : Startup (Option CxxString) := do
  let env ← environ
  match getenv env sharedMemoryObDirectoryPathEnv with
  | none => pure none
  | some path =>
      perform host (.createDirectories sharedMemoryMountPoint)
      let mounted ← attempt host virtiofs
      if mounted then
        perform host (.chmod sharedMemoryMountPoint 0o777)
        pure (some path)
      else pure none

def setMountPoint (host : Host) (memory : Option CxxString) : Startup Bool :=
  if memory.isSome then setVariable host sharedMemoryMountPointEnv sharedMemoryMountPoint true
  else pure false

/-- "Set shared memory mount point to env when available." -/
def announceSharedMemory (host : Host) (memory : Option CxxString) :
    Startup (Option CxxString) := do
  let announced ← setMountPoint host memory
  if announced then pure memory
  else
    unsetVariable host sharedMemoryMountPointEnv
    pure none

/-! ### The sockets -/

/-- `listen` of the vsock, which the kernel refuses to a socket without an address. The loop
ends at the first `bind` that succeeds, so the vsock has one exactly if the last `bind` did. -/
def listen (host : Host) (svmPort : Nat) : Startup Unit := do
  require (host.bind svmPort = .bound) (.returned (-1))
  perform host .listen

/-- The vsock of the RDP connection. -/
def listenVsock (host : Host) : Startup Nat := do
  perform host .vsocket
  match reservePort host.bind with
  | .error _ => throwErrno
  | .ok svmPort =>
      listen host svmPort
      pure svmPort

def raiseFileLimit (host : Host) : Startup Unit := do
  perform host .getrlimit
  perform host .setrlimit

def wslandNotifySocket : CxxString := ascii "/mnt/wslg/wsland-notify.sock"

/-- `SetupReadyNotify`. -/
def setupReadyNotify (host : Host) : Startup Unit := do
  discard (attempt host (.unlink wslandNotifySocket))
  perform host .notifySocket
  perform host (.notifyBind wslandNotifySocket)
  perform host .notifyListen

def waitForReadyNotify (host : Host) : Startup Unit := perform host .accept

/-! ### The programs -/

/-- `wslInstallPath`. -/
def wslInstallPath (environ : Environ) : CxxString :=
  (getenv environ (ascii "WSL2_INSTALL_PATH")).getD (ascii "C:\\ProgramData\\Microsoft\\WSL")

def gdbServerPath : CxxString := ascii "/usr/bin/gdbserver"

/-- The gdbserver in front of the compositor, if one is asked for. -/
def gdbServer (host : Host) (environ : Environ) : CxxString :=
  let gdbServerPort := getenv environ (ascii "WSLG_WSLAND_GDBSERVER_PORT")
  if host.executable gdbServerPath && isNumeric gdbServerPort then
    gdbServerPath ++ ascii " :" ++ gdbServerPort.getD [] ++ ascii " "
  else []

def wslandLogFile (environ : Environ) : CxxString :=
  (getenv environ (ascii "WSLG_WSLAND_LOG_PATH")).getD (ascii "/mnt/wslg/wsland.log")

/-- `wslandArgs`. -/
def wslandArgs (host : Host) (environ : Environ) (waylandDisplay : CxxString) : CxxString :=
  gdbServer host environ ++ ascii "/usr/bin/wsland " ++ (ascii "-s " ++ waylandDisplay) ++
    ascii " " ++ (ascii "-l " ++ wslandLogFile environ)

def wslandInfo (host : Host) (environ : Environ) (waylandDisplay : CxxString) (svmPort : Nat) :
    ProcessInfo where
  argv := [ascii "/usr/bin/sh", ascii "-c", wslandArgs host environ waylandDisplay]
  capabilities := [CAP_SYS_ADMIN, CAP_SYS_CHROOT, CAP_SYS_PTRACE]
  env := wslandEnv environ host.socketFd (UInt32.ofNat svmPort)

def slash : UInt8 := 0x2F

/-- `/=` of a `std::filesystem::path`, with a relative path. -/
def appendPath (path name : CxxString) : CxxString :=
  if path = [] ∨ path.getLast? = some slash then path ++ name else path ++ slash :: name

/-- `basename` of GNU. -/
def basename (path : CxxString) : CxxString := (path.reverse.takeWhile (· ≠ slash)).reverse

/-- `rdpClientExePath`. -/
def rdpClientExePath (host : Host) (environ : Environ) : Except Exit CxxString := do
  let mstsc := appendPath (ascii "/mnt/c/Windows/System32") (ascii "mstsc.exe")
  if getEnvBool environ (ascii "WSLG_USE_MSTSC") false || wslInstallPath environ = [] then
    pure mstsc
  else
    let msrdcExePath := appendPath (← translate host (wslInstallPath environ)) (ascii "msrdc.exe")
    pure (if host.executable msrdcExePath then msrdcExePath else mstsc)

def wslDvcPlugin (environ : Environ) : CxxString :=
  if getEnvBool environ (ascii "WSLG_USE_WSLDVC_PRIVATE") false then
    ascii "/plugin:WSLDVC_PRIVATE"
  else if (getenv environ (ascii "WSL2_INSTALL_PATH")).isSome then ascii "/plugin:WSLDVC_PACKAGE"
  else ascii "/plugin:WSLDVC"

/-- `sharedMemoryObPath`. -/
def sharedMemoryObPath : Option CxxString → CxxString
  | none => []
  | some path => ascii "/wslgsharedmemorypath:" ++ path

def clientInfo (environ : Environ) (exe vmId : CxxString) (svmPort : Nat)
    (memory : Option CxxString) : ProcessInfo where
  argv := [ascii "/init", exe, basename exe, ascii "/wslg", ascii "/silent",
    ascii "/v:" ++ vmId,
    ascii "/hvsocketserviceid:" ++ toServiceId (UInt32.ofNat svmPort),
    wslDvcPlugin environ,
    sharedMemoryObPath memory,
    wslInstallPath environ ++ ascii "\\" ++ ascii "wslg.rdp"]
  capabilities := []
  env := []

def dbusInfo : ProcessInfo where
  argv := [ascii "/usr/bin/dbus-daemon", ascii "--syslog", ascii "--nofork", ascii "--nopidfile",
    ascii "--system"]
  capabilities := [CAP_SETGID, CAP_SETUID]
  env := []

def pulseaudioLogTarget (environ : Environ) : CxxString :=
  (getenv environ (ascii "WSLG_PULSEAUDIO_LOG_PATH")).getD
    (ascii "newfile:/mnt/wslg/pulseaudio.log")

/-- `pulseaudioLaunchArgs`, up to the target of the log. -/
def pulseaudioOptions : CxxString :=
  ascii "/usr/bin/dbus-launch " ++ ascii "/usr/bin/pulseaudio " ++ ascii "--log-time=true " ++
    ascii "--disallow-exit=true " ++ ascii "--exit-idle-time=-1 " ++
    ascii "--load=\"module-rdp-sink sink_name=RDPSink\" " ++
    ascii "--load=\"module-rdp-source source_name=RDPSource\" " ++
    ascii "--load=\"module-native-protocol-unix socket=/mnt/wslg/PulseServer " ++
    ascii "auth-anonymous=true\" " ++ ascii "--log-target="

def pulseaudioInfo (environ : Environ) : ProcessInfo where
  argv := [ascii "/usr/bin/sh", ascii "-c", pulseaudioOptions ++ pulseaudioLogTarget environ]
  capabilities := []
  env := []

/-! ### `main` -/

/-- What `main` has come to when it makes the socket of the notification. -/
structure Prepared where
  vmId : CxxString
  svmPort : Nat
  memory : Option CxxString
  waylandDisplay : CxxString

def ofOption {α : Type} (exit : Exit) : Option α → Startup α
  | some a => pure a
  | none => throw exit

def prepare (host : Host) : Startup Prepared := do
  let user ← ofOption (.returned (-1)) host.passwd
  setVariables host user
  setupOptionalEnv host
  openLogs host
  require (host.effectiveUid = 0) (.returned 1)
  let vmId ← getVmId host
  require (vmId ≠ []) (.returned 1)
  mountVersions host
  makeDirectories host user
  let mounted ← mountSharedMemory host
  let svmPort ← listenVsock host
  raiseFileLimit host
  let memory ← announceSharedMemory host mounted
  let env ← environ
  let waylandDisplay ← ofOption .violation (getenv env (ascii "WAYLAND_DISPLAY"))
  pure ⟨vmId, svmPort, memory, waylandDisplay⟩

def launchAll (host : Host) (p : Prepared) : Startup Unit := do
  setupReadyNotify host
  let env ← environ
  launchProcess host (wslandInfo host env p.waylandDisplay p.svmPort)
  waitForReadyNotify host
  discard (attempt host (.unlink wslandNotifySocket))
  whenever (getEnvBool env (ascii "WSLG_USE_USER_DISTRO_XFONTS") true)
    (discard (attempt host .startFontMonitor))
  let exe ← ofExcept (rdpClientExePath host env)
  launchProcess host (clientInfo env exe p.vmId p.svmPort p.memory)
  launchProcess host dbusInfo
  launchProcess host (pulseaudioInfo env)

/-- `main` up to `monitor.Run`. -/
def main (host : Host) : Startup Unit := do launchAll host (← prepare host)

/-! ### What is launched -/

/-- What the order of the startup is about. -/
inductive Milestone where
  | launched (environ : Environ) (info : ProcessInfo)
  | ready

def milestone : Effect → Option Milestone
  | .launch environ info _ => some (.launched environ info)
  | .accept => some .ready
  | _ => none

def milestones (s : Daemon) : List Milestone := s.done.filterMap milestone

/-- What the client is launched with. -/
def plannedClient (host : Host) (p : Prepared) (environ : Environ) : ProcessInfo :=
  clientInfo environ ((rdpClientExePath host environ).toOption.getD []) p.vmId p.svmPort p.memory

/-- A startup that comes to its end. -/
def plan (host : Host) (p : Prepared) (environ : Environ) : List Milestone :=
  [.launched environ (wslandInfo host environ p.waylandDisplay p.svmPort),
    .ready,
    .launched environ (plannedClient host p environ),
    .launched environ dbusInfo,
    .launched environ (pulseaudioInfo environ)]

/-- More was done, and none of it is a milestone. -/
def Silent (s s' : Daemon) : Prop := ∃ es, s'.done = s.done ++ es ∧ es.filterMap milestone = []

/-- And the environment is as it was. -/
def Calm (s s' : Daemon) : Prop := s'.environ = s.environ ∧ Silent s s'

instance : Std.Refl Silent := ⟨fun _ => ⟨[], (List.append_nil _).symm, rfl⟩⟩

instance : IsTrans Daemon Silent where
  trans := by
    rintro s s' s'' ⟨es, done, none_⟩ ⟨es', done', none'⟩
    refine ⟨es ++ es', ?_, ?_⟩
    · rw [done', done, List.append_assoc]
    · rw [List.filterMap_append, none_, none', List.append_nil]

instance : Std.Refl Calm := ⟨fun s => ⟨rfl, Std.Refl.refl s⟩⟩

instance : IsTrans Daemon Calm where
  trans := by
    rintro s s' s'' ⟨same, silent⟩ ⟨same', silent'⟩
    exact ⟨same'.trans same, IsTrans.trans _ _ _ silent silent'⟩

theorem Silent.milestones {s s' : Daemon} (silent : Silent s s') :
    milestones s' = milestones s := by
  obtain ⟨es, done, none_⟩ := silent
  rw [Main.milestones, Main.milestones, done, List.filterMap_append, none_, List.append_nil]

section Quiet

variable {host : Host} {e : Effect} {α : Type}

theorem silent_snoc {s : Daemon} {environ : Environ} (quiet : milestone e = none) :
    Silent s ⟨environ, s.done ++ [e]⟩ :=
  ⟨[e], rfl, List.filterMap_cons_none quiet⟩

theorem calm_perform (quiet : milestone e = none) : Guarantees Calm (perform host e) := by
  intro s
  unfold perform
  split
  · exact Std.Refl.refl s
  · exact ⟨rfl, silent_snoc quiet⟩

theorem calm_attempt (quiet : milestone e = none) : Guarantees Calm (attempt host e) := by
  intro s
  unfold attempt
  split
  · exact Std.Refl.refl s
  · exact ⟨rfl, silent_snoc quiet⟩

theorem silent_setVariable (name value : CxxString) (override : Bool) :
    Guarantees Silent (setVariable host name value override) := by
  intro s
  unfold setVariable
  split
  · exact Std.Refl.refl s
  · split
    · exact Std.Refl.refl s
    · exact silent_snoc rfl

theorem silent_unsetVariable (name : CxxString) :
    Guarantees Silent (unsetVariable host name) := by
  intro s
  unfold unsetVariable
  split
  · exact Std.Refl.refl s
  · exact silent_snoc rfl

variable {R : Daemon → Daemon → Prop} [Std.Refl R]

theorem guarantees_environ : Guarantees R environ := fun s => Std.Refl.refl s

theorem guarantees_require (ok : Prop) [Decidable ok] (exit : Exit) :
    Guarantees R (require ok exit) := Guarantees.ite (.pure _) (.throw _)

theorem guarantees_whenever {x : Startup Unit} (hx : Guarantees R x) (c : Bool) :
    Guarantees R (whenever c x) := Guarantees.ite hx (.pure _)

theorem guarantees_ofOption (exit : Exit) (a : Option α) : Guarantees R (ofOption exit a) := by
  cases a with
  | none => exact .throw _
  | some a => exact .pure _

theorem guarantees_ofExcept (a : Except Exit α) : Guarantees R (ofExcept a) := by
  cases a with
  | error e => exact .throw _
  | ok a => exact .pure _

/-! #### The parts of `main` -/

theorem silent_setVariables (user : UserInfo) : Guarantees Silent (setVariables host user) :=
  Guarantees.forM fun v _ =>
    (silent_setVariable v.1 v.2.1 v.2.2).bind fun _ => guarantees_require _ _

theorem silent_setupOptionalEnv : Guarantees Silent (setupOptionalEnv host) := by
  refine guarantees_environ.bind fun _ => (guarantees_ofExcept _).bind fun _ => ?_
  refine Guarantees.forM fun key _ => ?_
  unfold setKey
  split
  · exact .pure _
  · exact (silent_setVariable _ _ _).discard

theorem calm_openLogs : Guarantees Calm (openLogs host) :=
  guarantees_environ.bind fun _ =>
    (guarantees_whenever (calm_perform rfl) _).bind fun _ => (calm_attempt rfl).discard

theorem calm_getVmId : Guarantees Calm (getVmId host) := by
  unfold getVmId
  split
  · exact .throw _
  · exact .ite (.throw _) (.pure _)

theorem calm_mountVersions : Guarantees Calm (mountVersions host) :=
  (calm_perform rfl).bind fun _ => (calm_perform rfl).bind fun _ =>
    (calm_perform rfl).bind fun _ => calm_perform rfl

theorem calm_makeDirectories (user : UserInfo) : Guarantees Calm (makeDirectories host user) :=
  (calm_perform rfl).bind fun _ => (calm_perform rfl).bind fun _ =>
    (calm_perform rfl).bind fun _ => (calm_perform rfl).bind fun _ =>
      (calm_perform rfl).bind fun _ => (calm_perform rfl).bind fun _ =>
        (calm_perform rfl).bind fun _ => (calm_perform rfl).bind fun _ => calm_perform rfl

theorem calm_mountSharedMemory : Guarantees Calm (mountSharedMemory host) := by
  refine guarantees_environ.bind fun env => ?_
  split
  · exact .pure _
  · refine (calm_perform rfl).bind fun _ => (calm_attempt rfl).bind fun _ => ?_
    exact .ite ((calm_perform rfl).bind fun _ => .pure _) (.pure _)

theorem calm_listenVsock : Guarantees Calm (listenVsock host) := by
  refine (calm_perform rfl).bind fun _ => ?_
  split
  · exact .throw _
  · have listens : ∀ svmPort, Guarantees Calm (listen host svmPort) := fun _ =>
      (guarantees_require _ _).bind fun _ => calm_perform rfl
    exact (listens _).bind fun _ => .pure _

theorem calm_raiseFileLimit : Guarantees Calm (raiseFileLimit host) :=
  (calm_perform rfl).bind fun _ => calm_perform rfl

theorem silent_announceSharedMemory (memory : Option CxxString) :
    Guarantees Silent (announceSharedMemory host memory) := by
  have tried : Guarantees Silent (setMountPoint host memory) :=
    .ite (silent_setVariable _ _ _) (.pure _)
  exact tried.bind fun _ => .ite (.pure _) ((silent_unsetVariable _).bind fun _ => .pure _)

theorem calm_setupReadyNotify : Guarantees Calm (setupReadyNotify host) :=
  (calm_attempt rfl).discard.bind fun _ => (calm_perform rfl).bind fun _ =>
    (calm_perform rfl).bind fun _ => calm_perform rfl

theorem silent_of_calm {x : Startup α} (calm : Guarantees Calm x) : Guarantees Silent x :=
  calm.weaken fun _ _ => And.right

theorem silent_prepare : Guarantees Silent (prepare host) := by
  refine (guarantees_ofOption _ _).bind fun user => ?_
  refine (silent_setVariables user).bind fun _ => ?_
  refine silent_setupOptionalEnv.bind fun _ => ?_
  refine (silent_of_calm calm_openLogs).bind fun _ => ?_
  refine (guarantees_require _ _).bind fun _ => ?_
  refine (silent_of_calm calm_getVmId).bind fun vmId => ?_
  refine (guarantees_require _ _).bind fun _ => ?_
  refine (silent_of_calm calm_mountVersions).bind fun _ => ?_
  refine (silent_of_calm (calm_makeDirectories user)).bind fun _ => ?_
  refine (silent_of_calm calm_mountSharedMemory).bind fun mounted => ?_
  refine (silent_of_calm calm_listenVsock).bind fun svmPort => ?_
  refine (silent_of_calm calm_raiseFileLimit).bind fun _ => ?_
  refine (silent_announceSharedMemory mounted).bind fun memory => ?_
  exact guarantees_environ.bind fun _ => (guarantees_ofOption _ _).bind fun _ => .pure _

end Quiet

/-! ### One milestone after the other -/

/-- More was done, these milestones among it, in the same environment. -/
def Did (ms : List Milestone) (s s' : Daemon) : Prop :=
  s'.environ = s.environ ∧ ∃ es, s'.done = s.done ++ es ∧ es.filterMap milestone = ms

theorem Did.trans {ms ms' : List Milestone} {s s' s'' : Daemon} (first : Did ms s s')
    (second : Did ms' s' s'') : Did (ms ++ ms') s s'' := by
  obtain ⟨same, es, done, isMs⟩ := first
  obtain ⟨same', es', done', isMs'⟩ := second
  refine ⟨same'.trans same, es ++ es', ?_, ?_⟩
  · rw [done', done, List.append_assoc]
  · rw [List.filterMap_append, isMs, isMs']

theorem Did.milestones {ms : List Milestone} {s s' : Daemon} (did : Did ms s s') :
    milestones s' = milestones s ++ ms := by
  obtain ⟨-, es, done, isMs⟩ := did
  rw [Main.milestones, Main.milestones, done, List.filterMap_append, isMs]

/-- From this environment a program comes to all of these milestones, or it throws before the
last. -/
structure Emits {α : Type} (environ : Environ) (x : Startup α) (ms : List Milestone) : Prop where
  any : ms ≠ []
  ok : ∀ s a s', s.environ = environ → x s = .ok a s' → Did ms s s'
  error : ∀ s e s', s.environ = environ → x s = .error e s' →
    ∃ front, front <+: ms.dropLast ∧ Did front s s'

section Emits

variable {host : Host} {environ : Environ} {α β : Type} {x : Startup α} {f : α → Startup β}
  {m : Milestone} {ms : List Milestone}

/-- What is no milestone comes first. -/
theorem Emits.calm_bind (calm : Guarantees Calm x) (rest : ∀ a, Emits environ (f a) ms)
    (any : ms ≠ []) : Emits environ (x >>= f) ms := by
  refine ⟨any, ?_, ?_⟩
  · intro s b s'' same run
    obtain ⟨a, s', first, second⟩ := bind_eq_ok.mp run
    have quiet : Did [] s s' := calm.of_ok first
    exact quiet.trans ((rest a).ok s' b s'' (quiet.1.trans same) second)
  · intro s e s'' same run
    rcases bind_eq_error.mp run with first | ⟨a, s', first, second⟩
    · exact ⟨[], List.nil_prefix, calm.of_error first⟩
    · have quiet : Did [] s s' := calm.of_ok first
      obtain ⟨front, isFront, did⟩ := (rest a).error s' e s'' (quiet.1.trans same) second
      exact ⟨front, isFront, quiet.trans did⟩

/-- A call that is a milestone if it succeeds, and else nothing. -/
structure Passes (environ : Environ) (x : Startup α) (m : Milestone) : Prop where
  ok : ∀ s a s', s.environ = environ → x s = .ok a s' → Did [m] s s'
  error : ∀ s e s', s.environ = environ → x s = .error e s' → Did [] s s'

theorem Passes.last (passes : Passes environ x m) : Emits environ x [m] :=
  ⟨List.cons_ne_nil m [], passes.ok, fun s e s' same run =>
    ⟨[], List.nil_prefix, passes.error s e s' same run⟩⟩

theorem Passes.bind (passes : Passes environ x m) (rest : ∀ a, Emits environ (f a) ms)
    (any : ms ≠ []) : Emits environ (x >>= f) (m :: ms) := by
  refine ⟨List.cons_ne_nil m ms, ?_, ?_⟩
  · intro s b s'' same run
    obtain ⟨a, s', first, second⟩ := bind_eq_ok.mp run
    have did := passes.ok s a s' same first
    exact did.trans ((rest a).ok s' b s'' (did.1.trans same) second)
  · intro s e s'' same run
    rcases bind_eq_error.mp run with first | ⟨a, s', first, second⟩
    · exact ⟨[], List.nil_prefix, passes.error s e s'' same first⟩
    · have did := passes.ok s a s' same first
      obtain ⟨front, isFront, did'⟩ := (rest a).error s' e s'' (did.1.trans same) second
      refine ⟨m :: front, ?_, did.trans did'⟩
      rw [List.dropLast_cons_of_ne_nil any]
      exact List.cons_prefix_cons.mpr ⟨rfl, isFront⟩

theorem passes_launchProcess (info : ProcessInfo) :
    Passes environ (launchProcess host info) (.launched environ info) := by
  constructor
  · rintro s a s' rfl run
    unfold launchProcess at run
    split at run
    · cases run
    · cases run
      exact ⟨rfl, [_], rfl, rfl⟩
  · rintro s e s' rfl run
    unfold launchProcess at run
    split at run
    · cases run
      exact Std.Refl.refl (r := Calm) s
    · cases run

theorem passes_waitForReadyNotify : Passes environ (waitForReadyNotify host) .ready := by
  constructor
  · rintro s a s' rfl run
    unfold waitForReadyNotify perform at run
    split at run
    · cases run
    · cases run
      exact ⟨rfl, [_], rfl, rfl⟩
  · rintro s e s' rfl run
    unfold waitForReadyNotify perform at run
    split at run
    · cases run
      exact Std.Refl.refl (r := Calm) s
    · cases run

theorem Emits.environ_bind {f : Environ → Startup β} (rest : Emits environ (f environ) ms) :
    Emits environ (Main.environ >>= f) ms := by
  refine ⟨rest.any, ?_, ?_⟩
  · rintro s b s' rfl run
    exact rest.ok s b s' rfl run
  · rintro s e s' rfl run
    exact rest.error s e s' rfl run

/-- What is computed may throw. -/
theorem Emits.ofExcept_bind {r : Except Exit α} (any : ms ≠ [])
    (rest : ∀ a, r = .ok a → Emits environ (f a) ms) : Emits environ (ofExcept r >>= f) ms := by
  cases r with
  | error exit =>
      refine ⟨any, ?_, ?_⟩
      · rintro s b s' - run
        cases run
      · rintro s e s' - run
        cases run
        exact ⟨[], List.nil_prefix, Std.Refl.refl (r := Calm) s⟩
  | ok a => exact rest a rfl

theorem emits_launchAll (p : Prepared) :
    Emits environ (launchAll host p) (plan host p environ) := by
  refine .calm_bind calm_setupReadyNotify (fun _ => .environ_bind ?_) (List.cons_ne_nil _ _)
  refine (passes_launchProcess _).bind (fun _ => ?_) (List.cons_ne_nil _ _)
  refine passes_waitForReadyNotify.bind (fun _ => ?_) (List.cons_ne_nil _ _)
  refine .calm_bind (calm_attempt rfl).discard (fun _ => ?_) (List.cons_ne_nil _ _)
  refine .calm_bind (guarantees_whenever (calm_attempt rfl).discard _) (fun _ => ?_)
    (List.cons_ne_nil _ _)
  refine .ofExcept_bind (List.cons_ne_nil _ _) fun exe isExe => ?_
  rw [plannedClient, isExe]
  refine (passes_launchProcess _).bind (fun _ => ?_) (List.cons_ne_nil _ _)
  exact (passes_launchProcess _).bind (fun _ => (passes_launchProcess _).last)
    (List.cons_ne_nil _ _)

end Emits

/-! ### What the startup has come to -/

/-- The daemon is root, on the first reserved port that `bind` gave it, and the shared memory is
in the environment, where it is mounted, or not at all. -/
structure Sound (host : Host) (p : Prepared) (s : Daemon) : Prop where
  root : host.effectiveUid = 0
  vmId : p.vmId ≠ []
  port : FirstFree host.bind p.svmPort
  display : getenv s.environ (ascii "WAYLAND_DISPLAY") = some p.waylandDisplay
  memory : ∀ path, p.memory = some path →
    getenv s.environ sharedMemoryMountPointEnv = some sharedMemoryMountPoint ∧
      getenv s.environ sharedMemoryObDirectoryPathEnv = some path ∧ virtiofs ∈ s.done
  noMemory : p.memory = none → getenv s.environ sharedMemoryMountPointEnv = none

theorem Sound.later {host : Host} {p : Prepared} {s s' : Daemon} {ms : List Milestone}
    (sound : Sound host p s) (did : Did ms s s') : Sound host p s' := by
  obtain ⟨same, es, done, -⟩ := did
  refine ⟨sound.root, sound.vmId, sound.port, ?_, ?_, ?_⟩
  · rw [same]
    exact sound.display
  · intro path isPath
    obtain ⟨announced, told, mounted⟩ := sound.memory path isPath
    rw [same, done]
    exact ⟨announced, told, List.mem_append_left _ mounted⟩
  · rw [same]
    exact sound.noMemory

section Sound

variable {host : Host} {s s' : Daemon}

theorem require_eq_ok {ok : Prop} [Decidable ok] {exit : Exit} {u : Unit}
    (run : require ok exit s = .ok u s') : ok := by
  by_contra failed
  rw [require, if_neg failed] at run
  cases run

theorem perform_eq_ok {e : Effect} {u : Unit} (run : perform host e s = .ok u s') :
    s' = { s with done := s.done ++ [e] } := by
  unfold perform at run
  split at run
  · cases run
  · cases run
    rfl

theorem attempt_eq_ok {e : Effect} (run : attempt host e s = .ok true s') :
    s' = { s with done := s.done ++ [e] } := by
  unfold attempt at run
  split at run
  · cases run
  · cases run
    rfl

theorem setVariable_eq_ok {name value : CxxString} {override : Bool}
    (run : setVariable host name value override s = .ok true s') :
    setenv s.environ name value override = some s'.environ := by
  unfold setVariable at run
  split at run
  · cases run
  · rename_i environ set
    split at run
    · cases run
    · cases run
      exact set

theorem unsetVariable_eq_ok {name : CxxString} {u : Unit}
    (run : unsetVariable host name s = .ok u s') : s'.environ = unsetenv s.environ name := by
  unfold unsetVariable at run
  split at run
  · cases run
  · cases run
    rfl

theorem ofOption_eq_ok {α : Type} {exit : Exit} {r : Option α} {a : α}
    (run : ofOption exit r s = .ok a s') : r = some a ∧ s' = s := by
  cases r with
  | none => cases run
  | some b =>
      cases run
      exact ⟨rfl, rfl⟩

/-- A share that is given back is mounted, and asked for by the environment. -/
theorem mountSharedMemory_eq_ok {mounted : Option CxxString}
    (run : mountSharedMemory host s = .ok mounted s') {path : CxxString}
    (isPath : mounted = some path) :
    getenv s'.environ sharedMemoryObDirectoryPathEnv = some path ∧ virtiofs ∈ s'.done := by
  have same : s'.environ = s.environ := (calm_mountSharedMemory.of_ok run).1
  obtain ⟨env, s₁, read, run⟩ := bind_eq_ok.mp run
  cases read
  cases found : getenv s.environ sharedMemoryObDirectoryPathEnv with
  | none =>
      simp only [found] at run
      cases run
      cases isPath
  | some path' =>
      simp only [found] at run
      obtain ⟨_, s₂, created, run⟩ := bind_eq_ok.mp run
      obtain ⟨succeeded, s₃, attempted, run⟩ := bind_eq_ok.mp run
      cases succeeded with
      | false =>
          cases run
          cases isPath
      | true =>
          obtain ⟨_, s₄, opened, run⟩ := bind_eq_ok.mp run
          cases run
          cases isPath
          refine ⟨same ▸ found, ?_⟩
          rw [perform_eq_ok opened, attempt_eq_ok attempted]
          exact List.mem_append_left _ (List.mem_append_right _ List.mem_cons_self)

/-- A vsock that listens is bound. -/
theorem listenVsock_eq_ok {svmPort : Nat} (run : listenVsock host s = .ok svmPort s') :
    FirstFree host.bind svmPort := by
  obtain ⟨_, s₁, -, run⟩ := bind_eq_ok.mp run
  cases reserved : reservePort host.bind with
  | error errno =>
      simp only [reserved] at run
      cases run
  | ok port =>
      simp only [reserved] at run
      obtain ⟨_, s₂, listens, run⟩ := bind_eq_ok.mp run
      obtain ⟨_, s₃, bound, -⟩ := bind_eq_ok.mp listens
      cases run
      exact firstFree_of_bound reserved (require_eq_ok bound)

/-- The share is announced if it is mounted and there is room for the variable; else the
variable is gone. -/
theorem announceSharedMemory_eq_ok {mounted memory : Option CxxString}
    (run : announceSharedMemory host mounted s = .ok memory s') :
    (∀ path, memory = some path → mounted = some path ∧
      getenv s'.environ sharedMemoryMountPointEnv = some sharedMemoryMountPoint ∧
      getenv s'.environ sharedMemoryObDirectoryPathEnv =
        getenv s.environ sharedMemoryObDirectoryPathEnv) ∧
    (memory = none → getenv s'.environ sharedMemoryMountPointEnv = none) := by
  obtain ⟨announced, s₁, tried, run⟩ := bind_eq_ok.mp run
  cases announced with
  | false =>
      obtain ⟨_, s₂, unset, run⟩ := bind_eq_ok.mp run
      cases run
      refine ⟨nofun, fun _ => ?_⟩
      rw [unsetVariable_eq_ok unset, getenv_unsetenv, if_pos rfl]
  | true =>
      cases run
      cases mounted with
      | none => cases tried
      | some path =>
          refine ⟨?_, nofun⟩
          rintro _ ⟨⟩
          have set := setVariable_eq_ok tried
          refine ⟨rfl, ?_, ?_⟩
          · rw [getenv_setenv set, if_pos rfl]
            rfl
          · rw [getenv_setenv set, if_neg (by decide)]

theorem sound_prepare {p : Prepared} (run : prepare host s = .ok p s') : Sound host p s' := by
  obtain ⟨user, s₁, -, run⟩ := bind_eq_ok.mp run
  obtain ⟨_, s₂, -, run⟩ := bind_eq_ok.mp run
  obtain ⟨_, s₃, -, run⟩ := bind_eq_ok.mp run
  obtain ⟨_, s₄, -, run⟩ := bind_eq_ok.mp run
  obtain ⟨_, s₅, root, run⟩ := bind_eq_ok.mp run
  obtain ⟨vmId, s₆, -, run⟩ := bind_eq_ok.mp run
  obtain ⟨_, s₇, someId, run⟩ := bind_eq_ok.mp run
  obtain ⟨_, s₈, -, run⟩ := bind_eq_ok.mp run
  obtain ⟨_, s₉, -, run⟩ := bind_eq_ok.mp run
  obtain ⟨mounted, s₁₀, shared, run⟩ := bind_eq_ok.mp run
  obtain ⟨svmPort, s₁₁, listens, run⟩ := bind_eq_ok.mp run
  obtain ⟨_, s₁₂, raised, run⟩ := bind_eq_ok.mp run
  obtain ⟨memory, s₁₃, announced, run⟩ := bind_eq_ok.mp run
  obtain ⟨env, s₁₄, read, run⟩ := bind_eq_ok.mp run
  obtain ⟨display, s₁₅, found, made⟩ := bind_eq_ok.mp run
  cases read
  cases made
  obtain ⟨isDisplay, rfl⟩ := ofOption_eq_ok found
  obtain ⟨told, untold⟩ := announceSharedMemory_eq_ok announced
  -- between the mount and the announcement there is only the socket and the limit
  have meantime : Calm s₁₀ s₁₂ :=
    IsTrans.trans _ _ _ (calm_listenVsock.of_ok listens) (calm_raiseFileLimit.of_ok raised)
  refine ⟨require_eq_ok root, require_eq_ok someId, listenVsock_eq_ok listens, isDisplay, ?_,
    untold⟩
  intro path isPath
  obtain ⟨isMounted, inEnviron, same⟩ := told path isPath
  obtain ⟨asked, done⟩ := mountSharedMemory_eq_ok shared isMounted
  refine ⟨inEnviron, ?_, ?_⟩
  · rw [same, meantime.1]
    exact asked
  · obtain ⟨es, later, -⟩ := meantime.2
    obtain ⟨es', last, -⟩ := (silent_announceSharedMemory mounted).of_ok announced
    rw [last, later]
    exact List.mem_append_left _ (List.mem_append_left _ done)

end Sound

/-- A startup that comes to `Run` has carried out the plan. -/
theorem plan_of_main {host : Host} {environ : Environ} {u : Unit} {s : Daemon}
    (run : main host { environ } = .ok u s) :
    ∃ p, Sound host p s ∧ milestones s = plan host p s.environ := by
  obtain ⟨p, s', prepared, launched⟩ := bind_eq_ok.mp run
  have quiet : milestones s' = [] := (silent_prepare.of_ok prepared).milestones
  have did := (emits_launchAll p).ok s' u s rfl launched
  refine ⟨p, (sound_prepare prepared).later did, ?_⟩
  rw [did.milestones, quiet, did.1]
  rfl

/-- However the host behaves, the launches are the first ones of the plan, in one environment,
the client's behind the notification of the compositor, and all of them where `main` comes to
`Run`. Whatever is launched, the daemon is root, the client looks for the port the compositor
is given, which is the first reserved one that was free, and for the shared memory if the
compositor's environment has it. -/
theorem main_follows_plan (host : Host) (environ : Environ) :
    (∀ u s, main host { environ } = .ok u s →
      ∃ p, Sound host p s ∧ milestones s = plan host p s.environ) ∧
    ∀ e s, main host { environ } = .error e s → milestones s ≠ [] →
      ∃ p, Sound host p s ∧ milestones s <+: (plan host p s.environ).dropLast := by
  refine ⟨fun u s run => plan_of_main run, ?_⟩
  intro e s run any
  rcases bind_eq_error.mp run with failed | ⟨p, s', prepared, failed⟩
  · exact absurd (silent_prepare.of_error failed).milestones any
  · have quiet : milestones s' = [] := (silent_prepare.of_ok prepared).milestones
    obtain ⟨front, isFront, did⟩ := (emits_launchAll p).error s' e s rfl failed
    refine ⟨p, (sound_prepare prepared).later did, ?_⟩
    rw [did.milestones, quiet, did.1]
    exact isFront

end Wslg.WSLGd.Main
