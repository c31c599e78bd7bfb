/-
The tasks of the font monitor.

While the monitor starts, or handles an event, only its first task makes or destroys a
folder, and that folder is not tracked; what waits behind are calls of `AddMonitorFolder`
that go on with subfolders. `Start` has one task until it comes to the roots, and until
its thread is made there is no event to handle. This is kept whatever is answered, and it
is why a folder that is made is always inserted.
-/

import Wslg.WSLGd.FontMonitor

namespace Wslg.Fonts

open Wslg.Inotify

/-! ### Kinds of tasks -/

namespace Task

/-- The folder a task makes or destroys. -/
def folder? : Task → Option FontFolder
  | access path => some { path := path }
  | addPath path => some { path := path }
  | addWatch folder => some folder
  | destroy folder => some folder
  | _ => none

/-- A task that waits while others are done: a call of `AddMonitorFolder` that goes on. -/
def Waits : Task → Prop
  | existsX11 => True
  | openDirectory _ => True
  | nextEntry _ => True
  | add _ => True
  | createThread => True
  | _ => False

/-- A task of `Start` before there is anything to track. -/
def Starts : Task → Prop
  | startXset => True
  | startMount => True
  | startUser => True
  | startAlt _ => True
  | startInit _ _ => True
  | _ => False

/-- A task of a destructor. -/
def Destroys : Task → Prop
  | destroy _ => True
  | rmWatch _ => True
  | _ => False

/-- A task that leaves the map alone, whatever comes of it: no folder with a watch, no
`xset` for a tracked one, no `Start` that gives up. -/
def KeepsFolders (a : Answer) : Task → Prop
  | addWatch _ => a.wd < 0
  | modify _ _ => False
  | startXset => False
  | startMount => False
  | startUser => False
  | startAlt _ => False
  | startInit _ _ => False
  | _ => True

theorem Waits.folder?_eq {t : Task} (waits : t.Waits) : t.folder? = none := by
  cases t <;> first | rfl | exact waits.elim

theorem Waits.not_starts {t : Task} (waits : t.Waits) : ¬ t.Starts := by
  cases t <;> first | exact id | exact waits.elim

theorem Starts.folder?_eq {t : Task} (starts : t.Starts) : t.folder? = none := by
  cases t <;> first | rfl | exact starts.elim

/-- What `AddMonitorFolder` does first behind the insertion. -/
def subfolders (path : Path) : Task :=
  if path = userDistroFontPath then .existsX11 else .openDirectory path

theorem subfolders_waits (path : Path) : (subfolders path).Waits := by
  unfold subfolders
  split <;> trivial

end Task

/-- No folder is tracked. -/
def NoneTracked (m : FontMonitor) : Prop := ∀ p, m.fontMonitorFolders.find? p = none

/-- The folder in hand. -/
def FontMonitor.inHand (m : FontMonitor) : Option FontFolder := m.tasks.head?.bind Task.folder?

/-- The monitor while it starts or handles an event, or rests. -/
structure Busy (m : FontMonitor) : Prop where
  waiting : ∀ t ∈ m.tasks.tail, t.Waits
  starting : ∀ t tasks, m.tasks = t :: tasks → t.Starts → tasks = [] ∧ NoneTracked m
  apart : ∀ f, m.inHand = some f → m.fontMonitorFolders.find? f.path = none
  modify : ∀ p isAdd, m.tasks.head? = some (.modify p isAdd) →
    ∃ f, m.fontMonitorFolders.find? p = some f ∧ f.isPathAdded = !isAdd
  tracking : m.fontMonitorThread = false →
    Task.createThread ∈ m.tasks ∨ NoneTracked m ∧ ∀ t ∈ m.tasks, t.Starts

/-- The monitor while `Stop` destroys the folders. -/
structure Emptied (m : FontMonitor) : Prop where
  destroys : ∀ t ∈ m.tasks, t.Destroys
  noneTracked : NoneTracked m
  noThread : m.fontMonitorThread = false

/-! ### Tasks that come and go -/

section Tasks

variable {folders folders' : FolderMap} {thread : Bool} {t t' : Task} {rest : List Task}

theorem inHand_of_waits (waits : ∀ t ∈ rest, t.Waits) :
    FontMonitor.inHand ⟨folders, thread, rest⟩ = none := by
  cases rest with
  | nil => rfl
  | cons t rest => exact (waits t List.mem_cons_self).folder?_eq

/-- Only tasks that wait are left. -/
theorem busy_of_waits (waits : ∀ t ∈ rest, t.Waits)
    (running : thread = false → Task.createThread ∈ rest) : Busy ⟨folders, thread, rest⟩ := by
  constructor
  · intro t mem
    exact waits t (List.mem_of_mem_tail mem)
  · intro t tasks first starts
    have isWaiting := waits t (by simp only at first; rw [first]; exact List.mem_cons_self)
    exact absurd starts isWaiting.not_starts
  · intro f held
    rw [inHand_of_waits waits] at held
    cases held
  · intro p isAdd first
    exact (waits _ (List.mem_of_mem_head? first)).elim
  · intro noThread
    exact Or.inl (running noThread)

/-- Behind `inotify_init` the thread is still to be made, or there. -/
theorem Busy.running (busy : Busy ⟨folders, thread, t :: rest⟩) (notStart : ¬ t.Starts)
    (notThread : t ≠ .createThread) : thread = false → Task.createThread ∈ rest := by
  intro noThread
  rcases busy.tracking noThread with later | ⟨-, starts⟩
  · rcases List.mem_cons.mp later with now | later
    · exact absurd now.symm notThread
    · exact later
  · exact absurd (starts t List.mem_cons_self) notStart

/-- The first task is done; the folders may have changed. -/
theorem Busy.pop (busy : Busy ⟨folders, thread, t :: rest⟩) (notStart : ¬ t.Starts)
    (notThread : t ≠ .createThread) : Busy ⟨folders', thread, rest⟩ :=
  busy_of_waits busy.waiting (busy.running notStart notThread)

/-- A task of a constructor or destructor, or a `xset`, comes before those that wait. -/
theorem busy_cons (waits : ∀ t ∈ rest, t.Waits)
    (running : thread = false → Task.createThread ∈ rest) (notStart : ¬ t.Starts)
    (apart : ∀ f, t.folder? = some f → folders.find? f.path = none)
    (modify : ∀ p isAdd, t = .modify p isAdd →
      ∃ f, folders.find? p = some f ∧ f.isPathAdded = !isAdd) :
    Busy ⟨folders, thread, t :: rest⟩ := by
  constructor
  · exact waits
  · intro t' tasks first starts
    obtain ⟨rfl, rfl⟩ := List.cons.inj first
    exact absurd starts notStart
  · exact apart
  · intro p isAdd first
    exact modify p isAdd (Option.some.inj first)
  · intro noThread
    exact Or.inl (List.mem_cons_of_mem _ (running noThread))

/-- A task for the folder in hand gives way to the next one. -/
theorem Busy.goOn (busy : Busy ⟨folders, thread, t :: rest⟩)
    (same : t'.folder?.map (·.path) = t.folder?.map (·.path))
    (inHand : t'.folder?.isSome = true) : Busy ⟨folders, thread, t' :: rest⟩ := by
  obtain ⟨f', isFolder'⟩ := Option.isSome_iff_exists.mp inHand
  obtain ⟨f, isFolder, samePath⟩ : ∃ f, t.folder? = some f ∧ f.path = f'.path := by
    rw [isFolder', Option.map_some] at same
    exact Option.map_eq_some_iff.mp same.symm
  refine busy_cons busy.waiting (busy.running ?_ ?_) ?_ ?_ ?_
  · intro starts
    cases starts.folder?_eq.symm.trans isFolder
  · rintro rfl
    cases isFolder
  · intro starts
    cases starts.folder?_eq.symm.trans isFolder'
  · intro g held
    cases isFolder'.symm.trans held
    rw [← samePath]
    exact busy.apart f isFolder
  · rintro p isAdd rfl
    cases isFolder'

/-- `Start` alone. -/
theorem busy_starts (noneTracked : ∀ p, folders.find? p = none) (starts : t.Starts) :
    Busy ⟨folders, thread, [t]⟩ := by
  constructor
  · nofun
  · intro t' tasks first _
    obtain ⟨rfl, rfl⟩ := List.cons.inj first
    exact ⟨rfl, noneTracked⟩
  · intro f held
    cases starts.folder?_eq.symm.trans held
  · intro p isAdd first
    cases Option.some.inj first
    exact starts.elim
  · intro _
    refine Or.inr ⟨noneTracked, ?_⟩
    intro t' mem
    rw [List.mem_singleton.mp mem]
    exact starts

theorem busy_idle (noneTracked : ∀ p, folders.find? p = none) : Busy ⟨folders, thread, []⟩ :=
  ⟨nofun, nofun, nofun, nofun, fun _ => Or.inr ⟨noneTracked, nofun⟩⟩

end Tasks

/-! ### The functions of the monitor -/

open Wslg.Protocol in
/-- What an event does, up to the first call. -/
inductive Handled (m : FontMonitor) (event : Event) : FontMonitor → Prop where
  | ignored : Handled m event m
  | folderAdded (f : FontFolder) (found : m.fontMonitorFolders.findByWd event.wd = some f)
      (isFolder : has event.mask inIsDir = true)
      (mask : has event.mask (inCreate ||| inMovedTo) = true)
      (monitored : ¬ (f.path = userDistroFontPath ∧ event.name ≠ x11)) :
      Handled m event (m.addMonitorFolder (child f.path event.name))
  | folderRemoved (f : FontFolder) (found : m.fontMonitorFolders.findByWd event.wd = some f)
      (named : event.name ≠ []) (isFolder : has event.mask inIsDir = true)
      (mask : ¬ has event.mask (inCreate ||| inMovedTo) = true)
      (mask' : has event.mask (inDelete ||| inMovedFrom) = true) :
      Handled m event (m.removeMonitorFolder (child f.path event.name))
  | fontsDirAdded (f : FontFolder) (found : m.fontMonitorFolders.findByWd event.wd = some f)
      (isFile : ¬ has event.mask inIsDir = true) (name : event.name = fontsDir)
      (mask : has event.mask (inCreate ||| inCloseWrite ||| inMovedTo) = true) :
      Handled m event (m.call (.testFontsDir f.path))
  | fontsDirRemoved (f : FontFolder) (found : m.fontMonitorFolders.findByWd event.wd = some f)
      (isFile : ¬ has event.mask inIsDir = true) (name : event.name = fontsDir)
      (mask : ¬ has event.mask (inCreate ||| inCloseWrite ||| inMovedTo) = true)
      (mask' : has event.mask (inDelete ||| inMovedFrom) = true) :
      Handled m event (m.modifyX11FontPath f.path false)

theorem handled_handleEvent (m : FontMonitor) (event : Event) :
    Handled m event (m.handleEvent event) := by
  unfold FontMonitor.handleEvent FontMonitor.handleFolderEvent FontMonitor.handleFontsDirEvent
  split
  · rename_i named
    split
    · rename_i isFolder
      split
      · exact .ignored
      · rename_i f found
        split
        · rename_i mask
          split
          · exact .ignored
          · rename_i monitored
            exact .folderAdded f found isFolder mask monitored
        · rename_i mask
          split
          · rename_i mask'
            exact .folderRemoved f found named isFolder mask mask'
          · exact .ignored
    · rename_i isFile
      split
      · rename_i name
        split
        · exact .ignored
        · rename_i f found
          split
          · rename_i mask
            exact .fontsDirAdded f found isFile name mask
          · rename_i mask
            split
            · rename_i mask'
              exact .fontsDirRemoved f found isFile name mask mask'
            · exact .ignored
      · exact .ignored
  · exact .ignored

section Functions

variable {m : FontMonitor} (waits : ∀ t ∈ m.tasks, t.Waits)
  (running : m.fontMonitorThread = false → Task.createThread ∈ m.tasks)

include waits running

theorem busy_addMonitorFolder (path : Path) : Busy (m.addMonitorFolder path) := by
  rw [FontMonitor.addMonitorFolder]
  split
  · rename_i absent
    refine busy_cons waits running id ?_ nofun
    rintro f ⟨⟩
    exact absent
  · exact busy_of_waits waits running

theorem busy_modifyX11FontPath (path : Path) (isAdd : Bool) :
    Busy (m.modifyX11FontPath path isAdd) := by
  rw [FontMonitor.modifyX11FontPath]
  split
  · exact busy_of_waits waits running
  · rename_i f tracked
    split
    · rename_i differs
      refine busy_cons waits running id nofun ?_
      rintro p isAdd' ⟨⟩
      refine ⟨f, tracked, ?_⟩
      cases isAdded : f.isPathAdded <;> cases isAdd <;> simp_all
    · exact busy_of_waits waits running

theorem busy_removeMonitorFolder (path : Path) : Busy (m.removeMonitorFolder path) := by
  rw [FontMonitor.removeMonitorFolder]
  split
  · exact busy_of_waits waits running
  · rename_i f tracked
    refine busy_cons waits running id ?_ nofun
    rintro g ⟨⟩
    rw [FolderMap.find?_erase, FolderMap.path_of_find? tracked, if_pos rfl]

theorem busy_handleEvent (event : Event) : Busy (m.handleEvent event) := by
  have handled := handled_handleEvent m event
  generalize m.handleEvent event = m' at handled ⊢
  cases handled with
  | ignored => exact busy_of_waits waits running
  | folderAdded => exact busy_addMonitorFolder waits running _
  | folderRemoved => exact busy_removeMonitorFolder waits running _
  | fontsDirAdded => exact busy_cons waits running id nofun nofun
  | fontsDirRemoved => exact busy_modifyX11FontPath waits running _ _

end Functions

/-! ### Answers -/

section Answers

variable {folders : FolderMap} {thread : Bool} {t : Task} {rest : List Task}

theorem mem_stopOrder {folders : FolderMap} {f : FontFolder} :
    f ∈ FontMonitor.stopOrder folders ↔ folders.find? f.path = some f := by
  unfold FontMonitor.stopOrder
  rw [List.mem_append, List.mem_filterMap, List.mem_filter, FolderMap.mem_folders]
  constructor
  · rintro (⟨p, -, found⟩ | ⟨found, -⟩)
    · rw [FolderMap.path_of_find? found]
      exact found
    · exact found
  · intro found
    by_cases root : f.path ∈ [userDistroFontPath, altDistroFontPath]
    · exact Or.inl ⟨f.path, root, found⟩
    · refine Or.inr ⟨found, ?_⟩
      simpa using root

/-- A new folder that is watched is inserted. -/
theorem resume_addWatch {f : FontFolder} {a : Answer}
    (busy : Busy ⟨folders, thread, .addWatch f :: rest⟩) (watched : 0 ≤ a.wd) :
    FontMonitor.resume ⟨folders, thread, rest⟩ a (.addWatch f) =
      ([], ⟨folders.set { f with wd := a.wd }, thread, Task.subfolders f.path :: rest⟩) := by
  have absent : folders.find? f.path = none := busy.apart f rfl
  simp only [FontMonitor.resume, if_pos watched, FontMonitor.addSubfolders, Task.subfolders]
  split <;> simp only [FontMonitor.insertFolder, FontMonitor.call, absent]

theorem folders_addMonitorFolder (m : FontMonitor) (path : Path) :
    (m.addMonitorFolder path).fontMonitorFolders = m.fontMonitorFolders := by
  unfold FontMonitor.addMonitorFolder
  split <;> rfl

theorem folders_modifyX11FontPath (m : FontMonitor) (path : Path) (isAdd : Bool) :
    (m.modifyX11FontPath path isAdd).fontMonitorFolders = m.fontMonitorFolders := by
  unfold FontMonitor.modifyX11FontPath
  split
  · rfl
  · split <;> rfl

theorem folders_resume {a : Answer} (keeps : t.KeepsFolders a) (m : FontMonitor) :
    (m.resume a t).2.fontMonitorFolders = m.fontMonitorFolders := by
  cases t with
  | addWatch folder =>
      have refused : a.wd < 0 := keeps
      simp only [FontMonitor.resume, if_neg (Int.not_le.mpr refused)]
      rfl
  | existsX11 =>
      simp only [FontMonitor.resume]
      split
      · exact folders_addMonitorFolder m _
      · rfl
  | openDirectory path =>
      simp only [FontMonitor.resume]
      split <;> rfl
  | nextEntry path =>
      simp only [FontMonitor.resume]
      split
      · rfl
      · split
        · exact folders_addMonitorFolder _ _
        · rfl
  | destroy folder =>
      simp only [FontMonitor.resume]
      split <;> rfl
  | testFontsDir path =>
      simp only [FontMonitor.resume]
      split
      · exact folders_modifyX11FontPath m _ _
      · rfl
  | add path => exact folders_addMonitorFolder m _
  | access path => rfl
  | addPath path => rfl
  | rmWatch wd => rfl
  | createThread => rfl
  | _ => exact keeps.elim

/-- `Start` gives up, goes on to its next check, or comes to the roots. -/
theorem resume_starts (starts : t.Starts) (m : FontMonitor) (a : Answer) :
    (m.resume a t).2 = m.stop ∨ (∃ t', t'.Starts ∧ (m.resume a t).2 = m.call t') ∨
      ∃ user alt, t = .startInit user alt ∧ a.ok = true ∧
        (m.resume a t).2 = m.startRoots user alt := by
  cases t with
  | startXset =>
      simp only [FontMonitor.resume]
      split
      · exact Or.inr (Or.inl ⟨.startMount, trivial, rfl⟩)
      · exact Or.inl rfl
  | startMount =>
      simp only [FontMonitor.resume]
      split
      · exact Or.inr (Or.inl ⟨.startUser, trivial, rfl⟩)
      · exact Or.inl rfl
  | startUser => exact Or.inr (Or.inl ⟨.startAlt a.ok, trivial, rfl⟩)
  | startAlt user =>
      simp only [FontMonitor.resume]
      split
      · exact Or.inr (Or.inl ⟨.startInit user a.ok, trivial, rfl⟩)
      · exact Or.inl rfl
  | startInit user alt =>
      by_cases can : a.ok = true
      · refine Or.inr (Or.inr ⟨user, alt, rfl, can, ?_⟩)
        simp only [FontMonitor.resume, if_pos can]
      · refine Or.inl ?_
        simp only [FontMonitor.resume, if_neg can]
  | _ => exact starts.elim

/-- `Start` gives up: there is nothing to destroy. -/
theorem stop_of_starts (busy : Busy ⟨folders, thread, t :: rest⟩) (starts : t.Starts) :
    FontMonitor.stop ⟨folders, thread, rest⟩ = {} := by
  obtain ⟨rfl, none_⟩ := busy.starting t rest rfl starts
  have nothing : FontMonitor.stopOrder folders = [] := by
    refine List.eq_nil_iff_forall_not_mem.mpr fun f mem => ?_
    cases (none_ f.path).symm.trans (mem_stopOrder.mp mem)
  rw [FontMonitor.stop, nothing]
  rfl

/-- A `Start` that gives up leaves the monitor as it was made. -/
theorem Busy.stop_of_starts {m : FontMonitor} (busy : Busy m) (tasks : m.tasks = t :: rest)
    (starts : t.Starts) : FontMonitor.stop { m with tasks := rest } = {} := by
  obtain ⟨folders, thread, tasks'⟩ := m
  simp only at tasks
  subst tasks
  exact Fonts.stop_of_starts busy starts

/-- What `Start` has to do at the roots. -/
theorem mem_startRoots {m : FontMonitor} {user alt : Bool} {u : Task}
    (mem : u ∈ (m.startRoots user alt).tasks) :
    (user = true ∧ u = .add userDistroFontPath) ∨ (alt = true ∧ u = .add altDistroFontPath) ∨
      u = .createThread ∨ u ∈ m.tasks := by
  rcases List.mem_append.mp mem with roots | later
  · rcases List.mem_append.mp roots with isUser | isAlt
    · split at isUser
      · rename_i found
        exact Or.inl ⟨found, List.mem_singleton.mp isUser⟩
      · cases isUser
    · split at isAlt
      · rename_i found
        exact Or.inr (Or.inl ⟨found, List.mem_singleton.mp isAlt⟩)
      · cases isAlt
  · exact Or.inr (Or.inr (List.mem_cons.mp later))

theorem busy_startRoots (user alt : Bool) (noTasks : rest = []) :
    Busy (FontMonitor.startRoots ⟨folders, thread, rest⟩ user alt) := by
  subst noTasks
  refine busy_of_waits ?_ ?_
  · intro u mem
    rcases mem_startRoots mem with ⟨-, rfl⟩ | ⟨-, rfl⟩ | rfl | old
    · trivial
    · trivial
    · trivial
    · cases old
  · intro _
    exact List.mem_append_right _ List.mem_cons_self

theorem busy_resume (busy : Busy ⟨folders, thread, t :: rest⟩) (a : Answer) :
    Busy (FontMonitor.resume ⟨folders, thread, rest⟩ a t).2 := by
  have waits : ∀ t ∈ rest, t.Waits := busy.waiting
  by_cases starts : t.Starts
  · obtain ⟨alone, none_⟩ := busy.starting t rest rfl starts
    rcases resume_starts starts ⟨folders, thread, rest⟩ a with
      gaveUp | ⟨t', starts', goesOn⟩ | ⟨user, alt, -, -, roots⟩
    · rw [gaveUp, stop_of_starts busy starts]
      exact busy_idle fun _ => FolderMap.find?_empty
    · rw [goesOn, alone]
      exact busy_starts none_ starts'
    · rw [roots]
      exact busy_startRoots user alt alone
  cases t with
  | access path =>
      simp only [FontMonitor.resume]
      split
      · exact busy.goOn rfl rfl
      · exact busy.goOn rfl rfl
  | addPath path => exact busy.goOn rfl rfl
  | addWatch folder =>
      by_cases watched : 0 ≤ a.wd
      · rw [resume_addWatch busy watched]
        have running := busy.running id nofun
        refine busy_of_waits ?_ fun noThread => List.mem_cons_of_mem _ (running noThread)
        intro t mem
        rcases List.mem_cons.mp mem with rfl | old
        · exact Task.subfolders_waits _
        · exact waits t old
      · simp only [FontMonitor.resume, if_neg watched]
        exact busy.goOn rfl rfl
  | existsX11 =>
      simp only [FontMonitor.resume]
      split
      · exact busy_addMonitorFolder waits (busy.running id nofun) _
      · exact busy.pop id nofun
  | openDirectory path =>
      simp only [FontMonitor.resume]
      split
      · exact busy_cons waits (busy.running id nofun) id nofun nofun
      · exact busy.pop id nofun
  | nextEntry path =>
      have running := busy.running id nofun
      simp only [FontMonitor.resume]
      split
      · exact busy.pop id nofun
      · split
        · refine busy_addMonitorFolder ?_ ?_ _
          · intro t mem
            rcases List.mem_cons.mp mem with rfl | old
            · trivial
            · exact waits t old
          · intro noThread
            exact List.mem_cons_of_mem _ (running noThread)
        · exact busy_cons waits running id nofun nofun
  | destroy folder =>
      simp only [FontMonitor.resume]
      split
      · exact busy_cons waits (busy.running id nofun) id nofun nofun
      · exact busy.pop id nofun
  | rmWatch wd => exact busy.pop id nofun
  | testFontsDir path =>
      simp only [FontMonitor.resume]
      split
      · exact busy_modifyX11FontPath waits (busy.running id nofun) _ _
      · exact busy.pop id nofun
  | modify path isAdd =>
      simp only [FontMonitor.resume]
      split
      · unfold FontMonitor.setPathAdded
        split
        · exact busy.pop id nofun
        · exact busy.pop id nofun
      · exact busy.pop id nofun
  | add path => exact busy_addMonitorFolder waits (busy.running id nofun) _
  | createThread => exact busy_of_waits waits nofun
  | _ => exact absurd trivial starts

end Answers

/-! ### Steps -/

theorem busy_start : Busy {} := busy_idle fun _ => FolderMap.find?_empty

/-- Every step but `Stop`. -/
theorem busy_step {m : FontMonitor} (busy : Busy m) {input : Input} (goesOn : input ≠ .stop) :
    Busy (step m input).2 := by
  cases input with
  | start =>
      simp only [step]
      split
      · rename_i can
        have none_ : NoneTracked m := by
          rcases busy.tracking can.1 with later | ⟨none_, -⟩
          · rw [can.2] at later
            cases later
          · exact none_
        obtain ⟨folders, thread, tasks⟩ := m
        obtain ⟨-, rfl⟩ := can
        exact busy_starts none_ trivial
      · exact busy
  | stop => exact absurd rfl goesOn
  | event event =>
      simp only [step]
      split
      · rename_i can
        refine busy_handleEvent ?_ ?_ event
        · rw [can.2]
          nofun
        · intro noThread
          cases can.1.symm.trans noThread
      · exact busy
  | answer a =>
      obtain ⟨folders, thread, tasks⟩ := m
      cases tasks with
      | nil => exact busy
      | cons t rest => exact busy_resume busy a

theorem emptied_stop {m : FontMonitor} (idle : m.tasks = []) : Emptied m.stop := by
  refine ⟨?_, fun _ => FolderMap.find?_empty, rfl⟩
  intro t mem
  simp only [FontMonitor.stop, idle, List.append_nil] at mem
  obtain ⟨f, -, rfl⟩ := List.mem_map.mp mem
  trivial

theorem emptied_resume {folders : FolderMap} {thread : Bool} {t : Task} {rest : List Task}
    (emptied : Emptied ⟨folders, thread, t :: rest⟩) (a : Answer) :
    Emptied (FontMonitor.resume ⟨folders, thread, rest⟩ a t).2 := by
  have destroys : ∀ t ∈ rest, t.Destroys := fun t' mem =>
    emptied.destroys t' (List.mem_cons_of_mem _ mem)
  have isDestroy := emptied.destroys t List.mem_cons_self
  cases t with
  | destroy f =>
      simp only [FontMonitor.resume]
      split
      · refine ⟨?_, emptied.noneTracked, emptied.noThread⟩
        intro t mem
        rcases List.mem_cons.mp mem with rfl | old
        · trivial
        · exact destroys t old
      · exact ⟨destroys, emptied.noneTracked, emptied.noThread⟩
  | rmWatch wd => exact ⟨destroys, emptied.noneTracked, emptied.noThread⟩
  | _ => exact isDestroy.elim

/-- When all are destroyed it rests. -/
theorem Emptied.busy {m : FontMonitor} (emptied : Emptied m) (idle : m.tasks = []) : Busy m := by
  obtain ⟨folders, thread, tasks⟩ := m
  simp only at idle
  subst idle
  exact busy_idle emptied.noneTracked

/-- Busy, or stopping. -/
theorem orderly_step {m : FontMonitor} (orderly : Busy m ∨ Emptied m) (input : Input) :
    Busy (step m input).2 ∨ Emptied (step m input).2 := by
  rcases orderly with busy | emptied
  · by_cases stops : input = .stop
    · subst stops
      simp only [step]
      split
      · rename_i idle
        exact Or.inr (emptied_stop idle)
      · exact Or.inl busy
    · exact Or.inl (busy_step busy stops)
  · by_cases idle : m.tasks = []
    · have busy := emptied.busy idle
      by_cases stops : input = .stop
      · subst stops
        simp only [step, if_pos idle]
        exact Or.inr (emptied_stop idle)
      · exact Or.inl (busy_step busy stops)
    · -- only an answer goes on
      have stays : ∀ P : Prop, ¬ (P ∧ m.tasks = []) := fun _ both => idle both.2
      cases input with
      | start =>
          simp only [step, if_neg (stays _)]
          exact Or.inr emptied
      | stop =>
          simp only [step, if_neg idle]
          exact Or.inr emptied
      | event event =>
          simp only [step, if_neg (stays _)]
          exact Or.inr emptied
      | answer a =>
          obtain ⟨folders, thread, tasks⟩ := m
          cases tasks with
          | nil => exact absurd rfl idle
          | cons t rest => exact Or.inr (emptied_resume emptied a)

end Wslg.Fonts
