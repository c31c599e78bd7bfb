/-
The font monitor of WSLGd: `FontMonitor.cpp`.

The monitor does one system call after the other, and others change the folders in
between. So it is a machine: `tasks` is what the thread has left to do, innermost call
first, each task one system call (or one call of `AddMonitorFolder` that is still to
come), and `answer` gives the thread the answer of the first one and runs it on to the
next. Between handlers there are no tasks; then an event can be read, or `Stop` called.

The step says what `xset` was asked for. Its answers are arbitrary here, those of the
file system and of inotify too; `FontSystem.lean` puts a kernel next to the machine.
-/

import Mathlib.Data.List.Basic
import Wslg.Logic.Inotify
import Wslg.Logic.Runs
import Wslg.Protocol.Constants

namespace Wslg.Fonts

open Wslg.Inotify Wslg.Protocol

/-! ### Names -/

/-- A string of the source. -/
def cxx (s : String) : List UInt8 := s.toList.map fun c => UInt8.ofNat c.toNat

def userDistroMountPath : Path := cxx "/mnt/wslg/distro"

def defaultFontPath : Path := cxx "/usr/share/fonts"

def userDistroFontPath : Path := userDistroMountPath ++ defaultFontPath

def altFontPath : Path := cxx "/usr/share/X11/fonts"

def altDistroFontPath : Path := userDistroMountPath ++ altFontPath

def fontsDir : Name := cxx "fonts.dir"

def x11 : Name := cxx "X11"

/-! ### The tracked folders -/

/-- `FontFolder`, without its copy of the inotify descriptor. -/
structure FontFolder where
  path : Path
  wd : Int := -1
  isPathAdded : Bool := false
deriving DecidableEq

/-- `m_fontMonitorFolders`: each folder under its own path. -/
structure FolderMap where
  entries : Std.TreeMap Path FontFolder
  keyed : ∀ (p : Path) (f : FontFolder), entries[p]? = some f → f.path = p

namespace FolderMap

def empty : FolderMap := ⟨∅, by simp⟩

/-- `find`. -/
def find? (m : FolderMap) (p : Path) : Option FontFolder := m.entries[p]?

/-- A key. -/
def Has (m : FolderMap) (p : Path) : Prop := (m.find? p).isSome = true

instance (m : FolderMap) (p : Path) : Decidable (m.Has p) := inferInstanceAs (Decidable (_ = _))

/-- A folder under its path, in the place of one that may be there. -/
def set (m : FolderMap) (f : FontFolder) : FolderMap where
  entries := m.entries.insert f.path f
  keyed := by
    intro p g found
    rw [Std.TreeMap.getElem?_insert] at found
    split at found
    · rename_i same
      cases found
      exact Std.LawfulEqCmp.compare_eq_iff_eq.mp same
    · exact m.keyed p g found

def erase (m : FolderMap) (p : Path) : FolderMap where
  entries := m.entries.erase p
  keyed := by
    intro q g found
    rw [Std.TreeMap.getElem?_erase] at found
    split at found
    · cases found
    · exact m.keyed q g found

/-- The folders in the order of iteration. -/
def folders (m : FolderMap) : List FontFolder := m.entries.toList.map (·.2)

/-- The first folder in that order with this watch descriptor. -/
def findByWd (m : FolderMap) (wd : Int) : Option FontFolder := m.folders.find? (·.wd = wd)

section Lemmas

variable {m : FolderMap} {p q : Path} {f : FontFolder}

@[simp] theorem find?_empty : empty.find? p = none := by simp [empty, find?]

theorem path_of_find? (found : m.find? p = some f) : f.path = p := m.keyed p f found

theorem find?_set : (m.set f).find? p = if p = f.path then some f else m.find? p := by
  unfold set find?
  rw [Std.TreeMap.getElem?_insert]
  by_cases same : p = f.path
  · rw [if_pos same, if_pos (Std.LawfulEqCmp.compare_eq_iff_eq.mpr same.symm)]
  · rw [if_neg same, if_neg fun h => same (Std.LawfulEqCmp.compare_eq_iff_eq.mp h).symm]

theorem find?_erase : (m.erase q).find? p = if p = q then none else m.find? p := by
  unfold erase find?
  rw [Std.TreeMap.getElem?_erase]
  by_cases same : p = q
  · rw [if_pos same, if_pos (Std.LawfulEqCmp.compare_eq_iff_eq.mpr same.symm)]
  · rw [if_neg same, if_neg fun h => same (Std.LawfulEqCmp.compare_eq_iff_eq.mp h).symm]

theorem has_iff : m.Has p ↔ ∃ f, m.find? p = some f := Option.isSome_iff_exists

theorem has_of_find? (found : m.find? p = some f) : m.Has p := has_iff.mpr ⟨f, found⟩

theorem has_set : (m.set f).Has p ↔ p = f.path ∨ m.Has p := by
  unfold Has
  rw [find?_set]
  by_cases same : p = f.path <;> simp [same]

theorem has_erase : (m.erase q).Has p ↔ p ≠ q ∧ m.Has p := by
  unfold Has
  rw [find?_erase]
  by_cases same : p = q <;> simp [same]

theorem mem_folders : f ∈ m.folders ↔ m.find? f.path = some f := by
  unfold folders find?
  rw [List.mem_map]
  constructor
  · rintro ⟨⟨q, g⟩, mem, rfl⟩
    have found := Std.TreeMap.mem_toList_iff_getElem?_eq_some.mp mem
    rw [m.keyed q g found]
    exact found
  · intro found
    exact ⟨(f.path, f), Std.TreeMap.mem_toList_iff_getElem?_eq_some.mpr found, rfl⟩

theorem find?_of_findByWd {wd : Int} (found : m.findByWd wd = some f) :
    m.find? f.path = some f ∧ f.wd = wd := by
  have mem := List.mem_of_find?_eq_some found
  have same := List.find?_some found
  exact ⟨mem_folders.mp mem, of_decide_eq_true same⟩

theorem wd_of_findByWd_none {wd : Int} (none_ : m.findByWd wd = none)
    (found : m.find? p = some f) : f.wd ≠ wd := by
  have path := path_of_find? found
  rw [← path] at found
  have other := List.find?_eq_none.mp none_ f (mem_folders.mpr found)
  simpa using other

/-- A folder that shares its descriptor with no other is the one that is found by it. -/
theorem findByWd_of_alone (found : m.find? p = some f)
    (alone : ∀ q g, m.find? q = some g → g.wd = f.wd → q = p) : m.findByWd f.wd = some f := by
  cases byWd : m.findByWd f.wd with
  | none => exact absurd rfl (wd_of_findByWd_none byWd found)
  | some g =>
      obtain ⟨found', same⟩ := find?_of_findByWd byWd
      rw [alone g.path g found' same] at found'
      exact found'.symm.trans found

end Lemmas

end FolderMap

/-! ### The thread -/

/-- What the thread has left to do. Where a folder stands, it is the `FontFolder` being
made or destroyed. -/
inductive Task where
  /-- `FontFolder`: is there a `fonts.dir`? -/
  | access (path : Path)
  /-- `FontFolder`: `xset +fp`. -/
  | addPath (path : Path)
  /-- `FontFolder`: `dup` and `inotify_add_watch`. -/
  | addWatch (folder : FontFolder)
  /-- `AddMonitorFolder` of the mount path: is there an `X11`? -/
  | existsX11
  /-- `AddMonitorFolder`: the `directory_iterator` of a folder is made. -/
  | openDirectory (path : Path)
  /-- `AddMonitorFolder`: the next entry of a folder. -/
  | nextEntry (path : Path)
  /-- `~FontFolder`: `xset -fp`, if the path was added. -/
  | destroy (folder : FontFolder)
  /-- `~FontFolder`: `inotify_rm_watch`. -/
  | rmWatch (wd : Int)
  /-- `HandleFontsDirEvent`: is there a `fonts.dir`? -/
  | testFontsDir (path : Path)
  /-- `ModifyX11FontPath` of a tracked folder: `xset`. -/
  | modify (path : Path) (isAdd : Bool)
  /-- `Start`: is `xset` installed? -/
  | startXset
  /-- `Start`: is there a mount folder? -/
  | startMount
  /-- `Start`: is there a font path? -/
  | startUser
  /-- `Start`: is there an alternative font path? -/
  | startAlt (userDistroFontPathExists : Bool)
  /-- `Start`: `inotify_init`. -/
  | startInit (userDistroFontPathExists altDistroFontPathExists : Bool)
  /-- `Start`: a call of `AddMonitorFolder` to come. -/
  | add (path : Path)
  /-- `Start`: `pthread_create`. -/
  | createThread
deriving DecidableEq

/-- The answer of a system call: whether it succeeded or said yes, the watch descriptor, or
the directory entry, if there is one more, and whether it is a directory. -/
structure Answer where
  ok : Bool := false
  wd : Int := -1
  entry : Option (Name × Bool) := none
deriving DecidableEq

/-- A call of `xset +fp` or `-fp`. -/
structure Xset where
  isAdd : Bool
  path : Path
  success : Bool
deriving DecidableEq

structure FontMonitor where
  fontMonitorFolders : FolderMap := .empty
  fontMonitorThread : Bool := false
  tasks : List Task := []

namespace FontMonitor

/-- A call to be made first. -/
def call (m : FontMonitor) (t : Task) : FontMonitor := { m with tasks := t :: m.tasks }

/-- `AddMonitorFolder`, up to its first system call. -/
def addMonitorFolder (m : FontMonitor) (path : Path) : FontMonitor :=
  match m.fontMonitorFolders.find? path with
  | none => m.call (.access path)
  | some _ => m

/-- How `AddMonitorFolder` goes on behind the insertion. -/
def addSubfolders (m : FontMonitor) (path : Path) : FontMonitor :=
  if path = userDistroFontPath then m.call .existsX11 else m.call (.openDirectory path)

/-- `m_fontMonitorFolders.insert`; a folder that is not inserted is destroyed. -/
def insertFolder (m : FontMonitor) (f : FontFolder) : FontMonitor :=
  match m.fontMonitorFolders.find? f.path with
  | none => { m with fontMonitorFolders := m.fontMonitorFolders.set f }
  | some _ => m.call (.destroy f)

def removeMonitorFolder (m : FontMonitor) (path : Path) : FontMonitor :=
  match m.fontMonitorFolders.find? path with
  | none => m
  | some f =>
      { m with fontMonitorFolders := m.fontMonitorFolders.erase path }.call (.destroy f)

/-- `ModifyX11FontPath` of a tracked folder. -/
def modifyX11FontPath (m : FontMonitor) (path : Path) (isAdd : Bool) : FontMonitor :=
  match m.fontMonitorFolders.find? path with
  | none => m
  | some f => if f.isPathAdded ≠ isAdd then m.call (.modify path isAdd) else m

/-- `m_isPathAdded = isAdd`. -/
def setPathAdded (m : FontMonitor) (path : Path) (isAdd : Bool) : FontMonitor :=
  match m.fontMonitorFolders.find? path with
  | none => m
  | some f =>
      { m with fontMonitorFolders := m.fontMonitorFolders.set { f with isPathAdded := isAdd } }

def handleFolderEvent (m : FontMonitor) (event : Event) : FontMonitor :=
  match m.fontMonitorFolders.findByWd event.wd with
  | none => m
  | some f =>
      if has event.mask (inCreate ||| inMovedTo) then
        if f.path = userDistroFontPath ∧ event.name ≠ x11 then m
        else m.addMonitorFolder (child f.path event.name)
      else if has event.mask (inDelete ||| inMovedFrom) then
        m.removeMonitorFolder (child f.path event.name)
      else m

def handleFontsDirEvent (m : FontMonitor) (event : Event) : FontMonitor :=
  match m.fontMonitorFolders.findByWd event.wd with
  | none => m
  | some f =>
      if has event.mask (inCreate ||| inCloseWrite ||| inMovedTo) then
        m.call (.testFontsDir f.path)
      else if has event.mask (inDelete ||| inMovedFrom) then m.modifyX11FontPath f.path false
      else m

/-- One event in the loop of `FontMonitorThread`. -/
def handleEvent (m : FontMonitor) (event : Event) : FontMonitor :=
  if event.name ≠ [] then
    if has event.mask inIsDir then m.handleFolderEvent event
    else if event.name = fontsDir then m.handleFontsDirEvent event
    else m
  else m

/-- The folders in the order `Stop` destroys them in: the two roots, then those left in
the map. -/
def stopOrder (folders : FolderMap) : List FontFolder :=
  [userDistroFontPath, altDistroFontPath].filterMap folders.find? ++
    folders.folders.filter fun f => f.path ≠ userDistroFontPath ∧ f.path ≠ altDistroFontPath

def stop (m : FontMonitor) : FontMonitor :=
  { fontMonitorFolders := .empty
    fontMonitorThread := false
    tasks := (stopOrder m.fontMonitorFolders).map .destroy ++ m.tasks }

/-- `Start`, up to its first system call. -/
def start (m : FontMonitor) : FontMonitor := m.call .startXset

/-- `Start` behind `inotify_init`. -/
def startRoots (m : FontMonitor) (userDistroFontPathExists altDistroFontPathExists : Bool) :
    FontMonitor :=
  { m with
    tasks := (if userDistroFontPathExists then [.add userDistroFontPath] else []) ++
      (if altDistroFontPathExists then [.add altDistroFontPath] else []) ++
      .createThread :: m.tasks }

/-- The thread with the answer of the call `t`, which is not among the tasks any more. -/
def resume (m : FontMonitor) (a : Answer) : Task → List Xset × FontMonitor
  | .access path => ([], m.call (if a.ok then .addPath path else .addWatch { path := path }))
  | .addPath path =>
      ([⟨true, path, a.ok⟩], m.call (.addWatch { path := path, isPathAdded := a.ok }))
  | .addWatch folder =>
      let folder := { folder with wd := a.wd }
      ([], if 0 ≤ folder.wd then (m.addSubfolders folder.path).insertFolder folder
        else m.call (.destroy folder))
  | .existsX11 => ([], if a.ok then m.addMonitorFolder (child userDistroFontPath x11) else m)
  | .openDirectory path => ([], if a.ok then m.call (.nextEntry path) else m)
  | .nextEntry path =>
      match a.entry with
      | none => ([], m)
      | some (name, isDirectory) =>
          let m := m.call (.nextEntry path)
          ([], if isDirectory then m.addMonitorFolder (child path name) else m)
  | .destroy folder =>
      (if folder.isPathAdded then [⟨false, folder.path, a.ok⟩] else [],
        if 0 ≤ folder.wd then m.call (.rmWatch folder.wd) else m)
  | .rmWatch _ => ([], m)
  | .testFontsDir path => ([], if a.ok then m.modifyX11FontPath path true else m)
  | .modify path isAdd =>
      ([⟨isAdd, path, a.ok⟩], if a.ok then m.setPathAdded path isAdd else m)
  | .startXset => ([], if a.ok then m.call .startMount else m.stop)
  | .startMount => ([], if a.ok then m.call .startUser else m.stop)
  | .startUser => ([], m.call (.startAlt a.ok))
  | .startAlt user => ([], if user || a.ok then m.call (.startInit user a.ok) else m.stop)
  | .startInit user alt => ([], if a.ok then m.startRoots user alt else m.stop)
  | .add path => ([], m.addMonitorFolder path)
  | .createThread => ([], { m with fontMonitorThread := true })

/-- The answer of the first task. -/
def answer (m : FontMonitor) (a : Answer) : List Xset × FontMonitor :=
  match m.tasks with
  | [] => ([], m)
  | t :: tasks => { m with tasks := tasks }.resume a t

end FontMonitor

/-- What happens to the monitor. -/
inductive Input where
  | start
  | stop
  | event (event : Event)
  | answer (a : Answer)
deriving DecidableEq

/-- One step. `Start` is called before there is a thread; events are read by the thread;
neither of them, nor `Stop`, comes while a handler is running. -/
def step (m : FontMonitor) : Input → List Xset × FontMonitor
  | .start => ([], if m.fontMonitorThread = false ∧ m.tasks = [] then m.start else m)
  | .stop => ([], if m.tasks = [] then m.stop else m)
  | .event event =>
      ([], if m.fontMonitorThread = true ∧ m.tasks = [] then m.handleEvent event else m)
  | .answer a => m.answer a

end Wslg.Fonts
