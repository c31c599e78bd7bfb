/-
The font monitor with the kernel it asks, and others who change the tree.

The kernel answers what the monitor asks of directories and watches, as they are at that
moment; between any two of these calls others may make, rename and remove directories and
files. What the kernel does not settle is open: whether `xset` succeeds, whether there is
room for one more watch, and which entry a directory stream gives next. A stream gives
every directory that is there from its start to its end, and may give one that came
later or is gone.

Three notes are kept beside the monitor: which roots `Start` found when it last got as far
as `inotify_init`, and whether the constructor at work found a `fonts.dir`. What is called as
a font path, and an `X11` in the mounted one, is taken to be a directory if it exists.
-/

import Wslg.WSLGd.FontTasks

namespace Wslg.Fonts

open Wslg.Inotify Wslg.Runs

theorem plain_x11 : Plain x11 := by decide

/-! ### The system -/

/-- What the kernel does not settle: the checks of `Start` that are not of the tree,
`xset`, room for a watch, and the directory entry to give. -/
structure Choice where
  start : Bool := true
  xset : Bool := true
  watch : Bool := true
  entry : Option Name := none
deriving DecidableEq

/-- `due` are the names that the stream of a directory is still to give. -/
structure System where
  monitor : FontMonitor := {}
  kernel : Kernel
  due : Path → List Name := fun _ => []
  userRoot : Bool := false
  altRoot : Bool := false
  tested : Bool := false

namespace System

/-- `access` of the `fonts.dir` in a directory. -/
def HasFontsDir (k : Kernel) (p : Path) : Prop := k.HasFile p fontsDir ∨ k.IsDir (child p fontsDir)

instance (k : Kernel) (p : Path) : Decidable (HasFontsDir k p) :=
  inferInstanceAs (Decidable (_ ∨ _))

/-- What the stream of a directory gives next: the name asked for, if it can, or else one
that is due. -/
def nextName (s : System) (path : Path) (asked : Option Name) : Option Name :=
  match asked with
  | some n =>
      if n ∈ s.due path ∨ (Plain n ∧ s.kernel.IsDir (child path n)) then some n
      else (s.due path).find? fun n => s.kernel.IsDir (child path n)
  | none => (s.due path).find? fun n => s.kernel.IsDir (child path n)

/-- The kernel's answer of a call, and the system behind it. -/
def serve (s : System) (c : Choice) : Task → Answer × System
  | .access path =>
      ({ ok := HasFontsDir s.kernel path }, { s with tested := HasFontsDir s.kernel path })
  | .addPath _ => ({ ok := c.xset }, s)
  | .addWatch folder =>
      if c.watch then
        ({ wd := (s.kernel.addWatch folder.path).1 },
          { s with kernel := (s.kernel.addWatch folder.path).2 })
      else ({}, s)
  | .existsX11 => ({ ok := s.kernel.IsDir (child userDistroFontPath x11) }, s)
  | .openDirectory path =>
      ({ ok := s.kernel.IsDir path },
        { s with due := Function.update s.due path (s.kernel.subdirs path) })
  | .nextEntry path =>
      match s.nextName path c.entry with
      | none => ({}, s)
      | some n =>
          ({ entry := some (n, true) },
            { s with due := Function.update s.due path ((s.due path).filter (· ≠ n)) })
  | .destroy _ => ({ ok := c.xset }, s)
  | .rmWatch wd => ({}, { s with kernel := s.kernel.rmWatch wd })
  | .testFontsDir path => ({ ok := HasFontsDir s.kernel path }, s)
  | .modify _ _ => ({ ok := c.xset }, s)
  | .startXset => ({ ok := c.start }, s)
  | .startMount => ({ ok := c.start }, s)
  | .startUser => ({ ok := s.kernel.IsDir userDistroFontPath }, s)
  | .startAlt _ => ({ ok := s.kernel.IsDir altDistroFontPath }, s)
  | .startInit user alt =>
      if c.start then
        ({ ok := true }, { s with kernel := s.kernel.init, userRoot := user, altRoot := alt })
      else ({}, s)
  | .add _ => ({}, s)
  | .createThread => ({}, s)

/-- The monitor takes a step, in a system. -/
def feed (s : System) (input : Input) : List Xset × System :=
  ((Fonts.step s.monitor input).1, { s with monitor := (Fonts.step s.monitor input).2 })

/-- The thread can read an event. -/
def Reads (s : System) : Prop := s.monitor.fontMonitorThread = true ∧ s.monitor.tasks = []

instance (s : System) : Decidable s.Reads := inferInstanceAs (Decidable (_ ∧ _))

end System

inductive Move where
  /-- Others change the tree. -/
  | env (op : Kernel.EnvOp)
  | start
  | stop
  /-- The thread reads one event and handles it up to its first call. -/
  | read
  /-- The call that comes first is made. -/
  | call (c : Choice)
deriving DecidableEq

namespace System

def step (s : System) : Move → List Xset × System
  | .env op => ([], { s with kernel := s.kernel.apply op })
  | .start => s.feed .start
  | .stop => s.feed .stop
  | .read =>
      match s.kernel.queue with
      | [] => ([], s)
      | event :: events =>
          if s.Reads then { s with kernel := { s.kernel with queue := events } }.feed (.event event)
          else ([], s)
  | .call c =>
      match s.monitor.tasks with
      | [] => ([], s)
      | t :: _ => (s.serve c t).2.feed (.answer (s.serve c t).1)

/-- The folder that a move adds the watch of. -/
def watched (s : System) : Move → Option FontFolder
  | .call c =>
      match s.monitor.tasks with
      | .addWatch folder :: _ => if c.watch then some folder else none
      | _ => none
  | _ => none

/-- Before `Start`. -/
def boot (k : Kernel) : System := { kernel := k.init }

/-- Where a run ends that starts on a tree. -/
abbrev after (k : Kernel) (moves : List Move) : System := finish step (boot k) moves

/-- A tree with the alternative font path and nothing in it. -/
def altTree : Kernel where
  dirs := [([], 0), (cxx "/mnt", 1), (cxx "/mnt/wslg", 2), (userDistroMountPath, 3),
    (cxx "/mnt/wslg/distro/usr", 4), (cxx "/mnt/wslg/distro/usr/share", 5),
    (cxx "/mnt/wslg/distro/usr/share/X11", 6), (altDistroFontPath, 7)]
  nextInode := 8

/-- No event is queued and no handler is running. -/
def Quiet (s : System) : Prop := s.kernel.queue = [] ∧ s.monitor.tasks = []

instance (s : System) : Decidable s.Quiet := inferInstanceAs (Decidable (_ ∧ _))

/-- A key of `m_fontMonitorFolders`. -/
def Tracked (s : System) (p : Path) : Prop := s.monitor.fontMonitorFolders.Has p

instance (s : System) (p : Path) : Decidable (s.Tracked p) :=
  inferInstanceAs (Decidable (FolderMap.Has _ _))

/-- A step of the system. -/
abbrev Step := Transition System Move (List Xset)

/-! ### What a step can do -/

@[simp] theorem serve_monitor (s : System) (c : Choice) (t : Task) :
    (s.serve c t).2.monitor = s.monitor := by
  cases t <;> simp only [serve] <;> split <;> rfl

/-- There is no watch when it is refused or the directory is gone. -/
theorem serve_addWatch_refused {s : System} {c : Choice} {folder : FontFolder}
    (refused : c.watch = true → s.kernel.inode? folder.path = none) :
    s.serve c (.addWatch folder) = ({}, s) := by
  by_cases room : c.watch = true
  · have noDir : s.kernel.addWatch folder.path = (-1, s.kernel) := by
      simp only [Kernel.addWatch, refused room]
    simp only [serve, if_pos room, noDir]
  · simp only [serve, if_neg room]

theorem noWatch : ({} : Answer).wd < 0 := by decide

theorem mem_watched {s : System} {c : Choice} {folder : FontFolder} {rest : List Task}
    (tasks : s.monitor.tasks = .addWatch folder :: rest) (room : c.watch = true) :
    folder ∈ s.watched (.call c) := by
  simp only [watched, tasks, if_pos room, Option.mem_some]

/-- Streams are to give names of entries. -/
def PlainDue (s : System) : Prop := ∀ p, ∀ n ∈ s.due p, Plain n

theorem plain_nextName {s : System} (due : s.PlainDue) {path : Path} {asked : Option Name}
    {n : Name} (next : s.nextName path asked = some n) : Plain n := by
  have isDue : ∀ n, ((s.due path).find? fun n => s.kernel.IsDir (child path n)) = some n →
      Plain n := fun n first => due path n (List.mem_of_find?_eq_some first)
  unfold nextName at next
  split at next
  · split at next
    · rename_i can
      cases next
      exact can.elim (due path n) And.left
    · exact isDue n next
  · exact isDue n next

/-- A stream ends when no directory is due. -/
theorem nextName_none {s : System} {path : Path} {asked : Option Name}
    (none_ : s.nextName path asked = none) {n : Name} (isDue : n ∈ s.due path) :
    ¬ s.kernel.IsDir (child path n) := by
  have ended : ((s.due path).find? fun n => s.kernel.IsDir (child path n)) = none := by
    unfold nextName at none_
    split at none_
    · split at none_
      · cases none_
      · exact none_
    · exact none_
  simpa using List.find?_eq_none.mp ended n isDue

theorem plainDue_serve {s : System} (due : s.PlainDue) (c : Choice) (t : Task) :
    (s.serve c t).2.PlainDue := by
  cases t with
  | openDirectory path =>
      intro p n mem
      by_cases same : p = path
      · rw [same] at mem
        simp only [serve, Function.update_self] at mem
        exact (Kernel.mem_subdirs.mp mem).2
      · simp only [serve, Function.update_of_ne same] at mem
        exact due p n mem
  | nextEntry path =>
      simp only [serve]
      split
      · exact due
      · intro p n mem
        by_cases same : p = path
        · rw [same] at mem
          simp only [Function.update_self] at mem
          exact due path n (List.mem_of_mem_filter mem)
        · simp only [Function.update_of_ne same] at mem
          exact due p n mem
  | addWatch folder =>
      simp only [serve]
      split
      · exact due
      · exact due
  | startInit user alt =>
      simp only [serve]
      split
      · exact due
      · exact due
  | _ => exact due

/-- The monitor of a system takes steps of the monitor. -/
theorem monitor_step (s : System) (move : Move) :
    ((s.step move).1 = [] ∧ (s.step move).2.monitor = s.monitor) ∨
      ∃ input, (input = .stop → move = .stop) ∧
        ((s.step move).1, (s.step move).2.monitor) = Fonts.step s.monitor input := by
  cases move with
  | env op => exact Or.inl ⟨rfl, rfl⟩
  | start => exact Or.inr ⟨.start, nofun, rfl⟩
  | stop => exact Or.inr ⟨.stop, fun _ => rfl, rfl⟩
  | read =>
      simp only [step]
      split
      · exact Or.inl ⟨rfl, rfl⟩
      · rename_i event events _
        split
        · exact Or.inr ⟨.event event, nofun, rfl⟩
        · exact Or.inl ⟨rfl, rfl⟩
  | call c =>
      simp only [step]
      split
      · exact Or.inl ⟨rfl, rfl⟩
      · rename_i t rest _
        refine Or.inr ⟨.answer (s.serve c t).1, nofun, ?_⟩
        simp only [feed, serve_monitor]

theorem orderly_step {s : System} (orderly : Busy s.monitor ∨ Emptied s.monitor) (move : Move) :
    Busy (s.step move).2.monitor ∨ Emptied (s.step move).2.monitor := by
  rcases s.monitor_step move with ⟨-, same⟩ | ⟨input, -, stepped⟩
  · rw [same]
    exact orderly
  · rw [(Prod.mk.inj stepped).2]
    exact Fonts.orderly_step orderly input

/-- Every move but `Stop`. -/
theorem busy_step {s : System} (busy : Busy s.monitor) {move : Move} (goesOn : move ≠ .stop) :
    Busy (s.step move).2.monitor := by
  rcases s.monitor_step move with ⟨-, same⟩ | ⟨input, stops, stepped⟩
  · rw [same]
    exact busy
  · rw [(Prod.mk.inj stepped).2]
    exact Fonts.busy_step busy fun isStop => goesOn (stops isStop)

/-- The system once the call of `t` was answered. -/
def answered (s : System) (c : Choice) (t : Task) (rest : List Task) : System :=
  { (s.serve c t).2 with
    monitor := (FontMonitor.resume { s.monitor with tasks := rest } (s.serve c t).1 t).2 }

theorem step_call {s : System} {c : Choice} {t : Task} {rest : List Task}
    (tasks : s.monitor.tasks = t :: rest) :
    s.step (.call c) =
      ((FontMonitor.resume { s.monitor with tasks := rest } (s.serve c t).1 t).1,
        s.answered c t rest) := by
  simp only [step, feed, Fonts.step, FontMonitor.answer, serve_monitor, tasks, answered]

/-- `Start` comes to the roots. -/
theorem answered_startInit {s : System} {c : Choice} (can : c.start = true) (user alt : Bool)
    (rest : List Task) :
    s.answered c (.startInit user alt) rest =
      { s with
        kernel := s.kernel.init
        userRoot := user
        altRoot := alt
        monitor := FontMonitor.startRoots { s.monitor with tasks := rest } user alt } := by
  simp only [answered, serve, if_pos can, FontMonitor.resume, if_true]

/-- `Start` gives up or goes on to its next check, and the kernel is as before; or it comes
to the roots. -/
theorem answered_starts {t : Task} (starts : t.Starts) (s : System) (c : Choice)
    (rest : List Task) :
    ((s.serve c t).2 = s ∧
      ((s.answered c t rest).monitor = FontMonitor.stop { s.monitor with tasks := rest } ∨
        ∃ t', t'.Starts ∧
          (s.answered c t rest).monitor = FontMonitor.call { s.monitor with tasks := rest } t')) ∨
      ∃ user alt, t = .startInit user alt ∧ c.start = true := by
  by_cases inits : ∃ user alt, t = .startInit user alt ∧ c.start = true
  · exact Or.inr inits
  · have served : (s.serve c t).2 = s := by
      cases t with
      | startInit user alt =>
          have refused : ¬ c.start = true := fun can => inits ⟨user, alt, rfl, can⟩
          simp only [serve, if_neg refused]
      | _ => first | rfl | exact starts.elim
    rcases resume_starts starts { s.monitor with tasks := rest } (s.serve c t).1 with
      gaveUp | goesOn | ⟨user, alt, rfl, can, -⟩
    · exact Or.inl ⟨served, Or.inl gaveUp⟩
    · exact Or.inl ⟨served, Or.inr goesOn⟩
    · have refused : ¬ c.start = true := fun can => inits ⟨user, alt, rfl, can⟩
      simp only [serve, if_neg refused] at can
      cases can

/-- An invariant is kept if each of these is. -/
theorem keeps {I : System → Prop} {s : System} (holds : I s) (move : Move)
    (env : ∀ op, move = .env op → I { s with kernel := s.kernel.apply op })
    (start : move = .start → s.monitor.fontMonitorThread = false → s.monitor.tasks = [] →
      I { s with monitor := s.monitor.start })
    (stop : move = .stop → s.monitor.tasks = [] → I { s with monitor := s.monitor.stop })
    (read : ∀ event events, move = .read → s.kernel.queue = event :: events → s.Reads →
      I { s with
        kernel := { s.kernel with queue := events }
        monitor := s.monitor.handleEvent event })
    (call : ∀ c t rest, move = .call c → s.monitor.tasks = t :: rest → I (s.answered c t rest)) :
    I (s.step move).2 := by
  cases move with
  | env op => exact env op rfl
  | start =>
      simp only [step, feed, Fonts.step]
      split
      · rename_i can
        exact start rfl can.1 can.2
      · exact holds
  | stop =>
      simp only [step, feed, Fonts.step]
      split
      · rename_i idle
        exact stop rfl idle
      · exact holds
  | read =>
      simp only [step]
      split
      · exact holds
      · rename_i event events queue
        split
        · rename_i reads
          have can : s.monitor.fontMonitorThread = true ∧ s.monitor.tasks = [] := reads
          simp only [feed, Fonts.step, if_pos can]
          exact read event events rfl queue reads
        · exact holds
  | call c =>
      cases tasks : s.monitor.tasks with
      | nil =>
          simp only [step, tasks]
          exact holds
      | cons t rest =>
          rw [step_call tasks]
          exact call c t rest rfl tasks

end System

end Wslg.Fonts
