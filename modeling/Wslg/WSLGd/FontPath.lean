/-
The X11 font path is balanced.

`xset +fp` is asked for by the constructor of a folder, before it is known whether the
folder stays, and `xset -fp` by its destructor, wherever a folder ends: not watched, not
inserted, erased, stopped. What carries the balance is that at any time the paths of the
tracked folders and of the one in hand, being made or destroyed, are different, so that
`m_isPathAdded` of that one folder is what the X server was last told of its path. While
`Stop` runs, all folders are in hand.

The answers are arbitrary, but for one: `-fp` succeeds.
-/

import Mathlib.Data.List.Chain
import Mathlib.Data.List.Nodup
import Wslg.WSLGd.FontTasks

namespace Wslg.Fonts

open Wslg.Inotify Wslg.Runs

/-! ### Alternating commands -/

/-- On and off in turns, on first. -/
def Alternates (l : List Bool) : Prop := l.IsChain (· ≠ ·) ∧ l.head? ≠ some false

theorem alternates_nil : Alternates [] := ⟨List.IsChain.nil, by simp⟩

/-- A command that switches goes behind. -/
theorem Alternates.concat {l : List Bool} (alternates : Alternates l) {b : Bool}
    (switches : b = true ↔ ¬ l.getLast? = some true) : Alternates (l ++ [b]) := by
  constructor
  · refine List.isChain_append.mpr ⟨alternates.1, List.IsChain.singleton b, ?_⟩
    intro c last b' first
    simp only [List.head?_cons, Option.mem_def, Option.some.injEq] at first last
    subst first
    rintro rfl
    rw [last] at switches
    cases c <;> simp at switches
  · cases l with
    | nil =>
        have on : b = true := switches.mpr (by simp)
        simp [on]
    | cons c l => exact alternates.2

/-! ### What the X server was told -/

/-- The commands for a path that succeeded among these calls: `true` for `+fp`. -/
def succeededFor (calls : List Xset) (p : Path) : List Bool :=
  calls.filterMap fun c => if c.success = true ∧ c.path = p then some c.isAdd else none

/-- A step of the monitor. -/
abbrev Step := Transition FontMonitor Input (List Xset)

/-- The commands for a path that succeeded in a run, in order. -/
def commands (ts : List Step) (p : Path) : List Bool := succeededFor (ts.flatMap (·.output)) p

/-- The last one is a `+fp`. -/
def OnFontPath (cmds : List Bool) : Prop := cmds.getLast? = some true

theorem commands_concat (ts : List Step) (t : Step) (p : Path) :
    commands (ts ++ [t]) p = commands ts p ++ succeededFor t.output p := by
  simp [commands, succeededFor]

@[simp] theorem succeededFor_nil (p : Path) : succeededFor [] p = [] := rfl

@[simp] theorem succeededFor_failed (isAdd : Bool) (path p : Path) :
    succeededFor [⟨isAdd, path, false⟩] p = [] := by
  simp [succeededFor]

@[simp] theorem succeededFor_self (isAdd : Bool) (path : Path) :
    succeededFor [⟨isAdd, path, true⟩] path = [isAdd] := by
  simp [succeededFor]

theorem succeededFor_other {isAdd success : Bool} {path p : Path} (other : path ≠ p) :
    succeededFor [⟨isAdd, path, success⟩] p = [] := by
  simp [succeededFor, other]
/-! ### Who is added -/

/-- A tracked folder or the one in hand. -/
def FontMonitor.Holds (m : FontMonitor) (f : FontFolder) : Prop :=
  m.fontMonitorFolders.find? f.path = some f ∨ m.inHand = some f

/-- A folder with this path is held, and `m_isPathAdded`. -/
def FontMonitor.AddedPath (m : FontMonitor) (p : Path) : Prop :=
  ∃ f, m.Holds f ∧ f.path = p ∧ f.isPathAdded = true

/-- The folder in hand is not on the X server's font path. -/
def NotAdded (m : FontMonitor) : Prop := ∀ f, m.inHand = some f → f.isPathAdded = false

/-- The monitor while it starts or handles an event, or rests: `cmds` is what the X server
was told. -/
structure Working (cmds : Path → List Bool) (m : FontMonitor) : Prop where
  busy : Busy m
  told : ∀ p, OnFontPath (cmds p) ↔ m.AddedPath p

/-- The monitor while `Stop` destroys the folders. -/
structure Stopping (cmds : Path → List Bool) (m : FontMonitor) : Prop where
  emptied : Emptied m
  once : ((m.tasks.filterMap Task.folder?).map (·.path)).Nodup
  told : ∀ p, OnFontPath (cmds p) ↔
    ∃ f ∈ m.tasks.filterMap Task.folder?, f.path = p ∧ f.isPathAdded = true

/-- What holds of the monitor at any time. -/
structure Balanced (cmds : Path → List Bool) (m : FontMonitor) : Prop where
  alternates : ∀ p, Alternates (cmds p)
  phase : Working cmds m ∨ Stopping cmds m

section Added

variable {cmds : Path → List Bool} {m m' : FontMonitor}

theorem notAdded_of_waits (waits : ∀ t ∈ m.tasks, t.Waits) : NotAdded m := by
  obtain ⟨folders, thread, tasks⟩ := m
  intro f held
  rw [inHand_of_waits waits] at held
  cases held

/-- Then it is the tracked folders that count. -/
theorem addedPath_iff (notAdded : NotAdded m) (p : Path) :
    m.AddedPath p ↔ ∃ f, m.fontMonitorFolders.find? p = some f ∧ f.isPathAdded = true := by
  constructor
  · rintro ⟨f, tracked | held, rfl, added⟩
    · exact ⟨f, tracked, added⟩
    · rw [notAdded f held] at added
      cases added
  · rintro ⟨f, tracked, added⟩
    have isPath := FolderMap.path_of_find? tracked
    refine ⟨f, Or.inl ?_, isPath, added⟩
    rw [isPath]
    exact tracked

/-- Tasks come and go, and no folder that is added is in hand. -/
theorem Working.sameFolders (working : Working cmds m) (busy : Busy m') (notAdded : NotAdded m)
    (notAdded' : NotAdded m') (same : m'.fontMonitorFolders = m.fontMonitorFolders) :
    Working cmds m' := by
  refine ⟨busy, fun p => ?_⟩
  rw [working.told p, addedPath_iff notAdded, addedPath_iff notAdded', same]

end Added

/-! ### A command that succeeds -/

section Command

variable {cmds : Path → List Bool} {isAdd : Bool} {path : Path} {P P' : Path → Prop}

/-- What the X server was told after some more calls. -/
def andThen (cmds : Path → List Bool) (calls : List Xset) (p : Path) : List Bool :=
  cmds p ++ succeededFor calls p

@[simp] theorem andThen_nil : andThen cmds [] = cmds := by
  funext p
  simp [andThen]

@[simp] theorem andThen_failed : andThen cmds [⟨isAdd, path, false⟩] = cmds := by
  funext p
  simp [andThen]

theorem andThen_self : andThen cmds [⟨isAdd, path, true⟩] path = cmds path ++ [isAdd] := by
  simp [andThen]

theorem andThen_other {p : Path} (other : path ≠ p) :
    andThen cmds [⟨isAdd, path, true⟩] p = cmds p := by
  simp [andThen, succeededFor_other other]

theorem onFontPath_andThen (told : ∀ p, OnFontPath (cmds p) ↔ P p) (here : P' path ↔ isAdd = true)
    (elsewhere : ∀ p, p ≠ path → (P' p ↔ P p)) (p : Path) :
    OnFontPath (andThen cmds [⟨isAdd, path, true⟩] p) ↔ P' p := by
  by_cases same : p = path
  · rw [same, andThen_self, here]
    simp [OnFontPath]
  · rw [andThen_other (Ne.symm same), told p, elsewhere p same]

theorem alternates_andThen (alternates : ∀ p, Alternates (cmds p))
    (told : ∀ p, OnFontPath (cmds p) ↔ P p) (switches : isAdd = true ↔ ¬ P path) (p : Path) :
    Alternates (andThen cmds [⟨isAdd, path, true⟩] p) := by
  by_cases same : path = p
  · rw [← same, andThen_self]
    refine (alternates path).concat ?_
    rw [switches, ← told path]
    rfl
  · rw [andThen_other same]
    exact alternates p

end Command
/-! ### Answers -/

section Answers

variable {cmds : Path → List Bool} {folders : FolderMap} {thread : Bool} {rest : List Task}

/-- The constructor's `+fp`. -/
theorem balanced_addPath {path : Path} {a : Answer} (alternates : ∀ p, Alternates (cmds p))
    (working : Working cmds ⟨folders, thread, .addPath path :: rest⟩) (success : a.ok = true) :
    Balanced (andThen cmds [⟨true, path, true⟩])
      (FontMonitor.resume ⟨folders, thread, rest⟩ a (.addPath path)).2 := by
  have busy := busy_resume working.busy a
  simp only [FontMonitor.resume, success] at busy ⊢
  have absent : folders.find? path = none := working.busy.apart { path := path } rfl
  have off : ¬ FontMonitor.AddedPath ⟨folders, thread, .addPath path :: rest⟩ path := by
    rintro ⟨f, tracked | held, isPath, added⟩
    · rw [isPath] at tracked
      cases absent.symm.trans tracked
    · cases held
      cases added
  refine ⟨alternates_andThen alternates working.told (by simp only [off]; simp), Or.inl ⟨busy, ?_⟩⟩
  refine onFontPath_andThen working.told ?_ ?_
  · refine ⟨fun _ => rfl, fun _ => ?_⟩
    exact ⟨{ path := path, isPathAdded := true }, Or.inr rfl, rfl, rfl⟩
  · intro p other
    constructor
    · rintro ⟨f, tracked | held, isPath, added⟩
      · exact ⟨f, Or.inl tracked, isPath, added⟩
      · cases held
        exact absurd isPath.symm other
    · rintro ⟨f, tracked | held, isPath, added⟩
      · exact ⟨f, Or.inl tracked, isPath, added⟩
      · cases held
        exact absurd isPath.symm other

/-- The folder in hand becomes a tracked one, or is to be destroyed. -/
theorem working_addWatch {f : FontFolder} {a : Answer}
    (working : Working cmds ⟨folders, thread, .addWatch f :: rest⟩) :
    Working cmds (FontMonitor.resume ⟨folders, thread, rest⟩ a (.addWatch f)).2 := by
  have absent : folders.find? f.path = none := working.busy.apart f rfl
  have busy := busy_resume working.busy a
  by_cases watched : 0 ≤ a.wd
  · rw [resume_addWatch working.busy watched] at busy ⊢
    have notAdded : NotAdded ⟨folders.set { f with wd := a.wd }, thread,
        Task.subfolders f.path :: rest⟩ := by
      apply notAdded_of_waits
      intro t mem
      rcases List.mem_cons.mp mem with rfl | old
      · exact Task.subfolders_waits _
      · exact working.busy.waiting t old
    refine ⟨busy, fun p => ?_⟩
    rw [working.told p, addedPath_iff notAdded]
    simp only [FolderMap.find?_set]
    constructor
    · rintro ⟨g, tracked | held, rfl, added⟩
      · have other : g.path ≠ f.path := by
          intro same
          rw [same] at tracked
          cases absent.symm.trans tracked
        exact ⟨g, by rw [if_neg other]; exact tracked, added⟩
      · cases held
        exact ⟨{ f with wd := a.wd }, if_pos rfl, added⟩
    · rintro ⟨g, tracked, added⟩
      split at tracked
      · rename_i isPath
        cases tracked
        exact ⟨f, Or.inr rfl, isPath.symm, added⟩
      · have isPath := FolderMap.path_of_find? tracked
        refine ⟨g, Or.inl ?_, isPath, added⟩
        rw [isPath]
        exact tracked
  · simp only [FontMonitor.resume, if_neg watched] at busy ⊢
    refine ⟨busy, fun p => ?_⟩
    rw [working.told p]
    constructor
    · rintro ⟨g, tracked | held, isPath, added⟩
      · exact ⟨g, Or.inl tracked, isPath, added⟩
      · cases held
        exact ⟨{ f with wd := a.wd }, Or.inr rfl, isPath, added⟩
    · rintro ⟨g, tracked | held, isPath, added⟩
      · exact ⟨g, Or.inl tracked, isPath, added⟩
      · cases held
        exact ⟨f, Or.inr rfl, isPath, added⟩

/-- The destructor's `-fp`. -/
theorem balanced_destroy {f : FontFolder} {m : FontMonitor}
    (alternates : ∀ p, Alternates (cmds p))
    (working : Working cmds ⟨folders, thread, .destroy f :: rest⟩) (added : f.isPathAdded = true)
    (busy : Busy m) (notAdded : NotAdded m) (same : m.fontMonitorFolders = folders) :
    Balanced (andThen cmds [⟨false, f.path, true⟩]) m := by
  have absent : folders.find? f.path = none := working.busy.apart f rfl
  refine ⟨alternates_andThen alternates working.told ?_, Or.inl ⟨busy, ?_⟩⟩
  · simp only [Bool.false_eq_true, false_iff, not_not]
    exact ⟨f, Or.inr rfl, rfl, added⟩
  refine onFontPath_andThen working.told ?_ ?_
  · rw [addedPath_iff notAdded, same, absent]
    simp
  · intro p other
    rw [addedPath_iff notAdded, same]
    constructor
    · rintro ⟨g, tracked, isAdded⟩
      have isPath := FolderMap.path_of_find? tracked
      refine ⟨g, Or.inl ?_, isPath, isAdded⟩
      rw [isPath]
      exact tracked
    · rintro ⟨g, tracked | held, rfl, isAdded⟩
      · exact ⟨g, tracked, isAdded⟩
      · cases held
        exact absurd rfl other

/-- `xset` for a tracked folder. -/
theorem balanced_modify {path : Path} {isAdd : Bool} {a : Answer}
    (alternates : ∀ p, Alternates (cmds p))
    (working : Working cmds ⟨folders, thread, .modify path isAdd :: rest⟩)
    (success : a.ok = true) :
    Balanced (andThen cmds [⟨isAdd, path, true⟩])
      (FontMonitor.resume ⟨folders, thread, rest⟩ a (.modify path isAdd)).2 := by
  obtain ⟨f, tracked, differs⟩ := working.busy.modify path isAdd rfl
  have tracked : folders.find? path = some f := tracked
  have isPath := FolderMap.path_of_find? tracked
  have busy := busy_resume working.busy a
  have after : (FontMonitor.resume ⟨folders, thread, rest⟩ a (.modify path isAdd)).2 =
      ⟨folders.set { f with isPathAdded := isAdd }, thread, rest⟩ := by
    simp only [FontMonitor.resume, FontMonitor.setPathAdded, if_pos success, tracked]
  rw [after] at busy ⊢
  have notBefore : NotAdded ⟨folders, thread, .modify path isAdd :: rest⟩ := (by rintro _ ⟨⟩)
  have notAfter : NotAdded ⟨folders.set { f with isPathAdded := isAdd }, thread, rest⟩ :=
    notAdded_of_waits working.busy.waiting
  have before : FontMonitor.AddedPath ⟨folders, thread, .modify path isAdd :: rest⟩ path ↔
      isAdd = false := by
    rw [addedPath_iff notBefore]
    simp only [tracked, Option.some.injEq, exists_eq_left', differs, Bool.not_eq_true']
  refine ⟨alternates_andThen alternates working.told (by simp only [before]; simp),
    Or.inl ⟨busy, onFontPath_andThen working.told ?_ ?_⟩⟩
  · rw [addedPath_iff notAfter]
    simp only [FolderMap.find?_set, isPath, if_true, Option.some.injEq, exists_eq_left']
  · intro p other
    rw [addedPath_iff notAfter, addedPath_iff notBefore]
    simp only [FolderMap.find?_set, isPath, if_neg other]

end Answers

/-! ### Stopping -/

/-- Folders looked up have the paths they were looked up under. -/
theorem sublist_find? (folders : FolderMap) (paths : List Path) :
    ((paths.filterMap folders.find?).map (·.path)).Sublist paths := by
  induction paths with
  | nil => exact List.Sublist.refl _
  | cons p paths ih =>
      cases found : folders.find? p with
      | none =>
          rw [List.filterMap_cons_none found]
          exact ih.cons p
      | some f =>
          rw [List.filterMap_cons_some found, List.map_cons, FolderMap.path_of_find? found]
          exact ih.cons_cons p

theorem FolderMap.nodup_folders (folders : FolderMap) :
    (folders.folders.map (·.path)).Nodup := by
  have isKey : folders.folders.map (·.path) = folders.entries.toList.map (·.1) := by
    rw [FolderMap.folders, List.map_map]
    refine List.map_congr_left fun entry mem => ?_
    exact folders.keyed _ _ (Std.TreeMap.mem_toList_iff_getElem?_eq_some.mp mem)
  rw [isKey, List.Nodup, List.pairwise_map]
  refine Std.TreeMap.distinct_keys_toList.imp fun apart same => apart ?_
  exact Std.LawfulEqCmp.compare_eq_iff_eq.mpr same

theorem nodup_stopOrder (folders : FolderMap) :
    ((FontMonitor.stopOrder folders).map (·.path)).Nodup := by
  unfold FontMonitor.stopOrder
  rw [List.map_append]
  refine List.Nodup.append ?_ ?_ ?_
  · exact (sublist_find? folders _).nodup (by decide)
  · exact (List.filter_sublist.map _).nodup folders.nodup_folders
  · intro p inRoots others
    obtain ⟨f, mem, rfl⟩ := List.mem_map.mp inRoots
    obtain ⟨g, mem', same⟩ := List.mem_map.mp others
    obtain ⟨q, root, found⟩ := List.mem_filterMap.mp mem
    have isPath := FolderMap.path_of_find? found
    have apart := (List.mem_filter.mp mem').2
    rw [same, isPath] at apart
    simp only [List.mem_cons, List.not_mem_nil, or_false] at root
    rcases root with rfl | rfl <;> simp at apart

/-- `Stop` takes all folders into its hands. -/
theorem stopping_stop {cmds : Path → List Bool} {m : FontMonitor} (working : Working cmds m)
    (idle : m.tasks = []) : Stopping cmds m.stop := by
  have inHand : m.stop.tasks.filterMap Task.folder? =
      FontMonitor.stopOrder m.fontMonitorFolders := by
    simp only [FontMonitor.stop, idle, List.append_nil, List.filterMap_map]
    exact List.filterMap_some
  constructor
  · exact emptied_stop idle
  · rw [inHand]
    exact nodup_stopOrder _
  · intro p
    rw [working.told p, inHand]
    constructor
    · rintro ⟨f, tracked | held, isPath, added⟩
      · exact ⟨f, mem_stopOrder.mpr tracked, isPath, added⟩
      · rw [FontMonitor.inHand, idle] at held
        cases held
    · rintro ⟨f, mem, isPath, added⟩
      exact ⟨f, Or.inl (mem_stopOrder.mp mem), isPath, added⟩

/-- When all are destroyed it rests. -/
theorem working_of_stopped {cmds : Path → List Bool} {m : FontMonitor}
    (stopping : Stopping cmds m) (idle : m.tasks = []) : Working cmds m := by
  refine ⟨stopping.emptied.busy idle, fun p => ?_⟩
  refine iff_of_false ?_ ?_
  · rw [stopping.told p, idle]
    rintro ⟨f, mem, -⟩
    cases mem
  · rintro ⟨f, tracked | held, -, -⟩
    · cases (stopping.emptied.noneTracked f.path).symm.trans tracked
    · rw [FontMonitor.inHand, idle] at held
      cases held

/-- One more folder destroyed. -/
theorem stopping_resume {cmds : Path → List Bool} {folders : FolderMap} {thread : Bool} {t : Task}
    {rest : List Task} {a : Answer} (alternates : ∀ p, Alternates (cmds p))
    (stopping : Stopping cmds ⟨folders, thread, t :: rest⟩)
    (removes : ∀ c ∈ (FontMonitor.resume ⟨folders, thread, rest⟩ a t).1,
      c.isAdd = false → c.success = true) :
    Balanced (andThen cmds (FontMonitor.resume ⟨folders, thread, rest⟩ a t).1)
      (FontMonitor.resume ⟨folders, thread, rest⟩ a t).2 := by
  have emptied := emptied_resume stopping.emptied a
  have isDestroy := stopping.emptied.destroys t List.mem_cons_self
  cases t with
  | destroy f =>
      have once : ((f :: rest.filterMap Task.folder?).map (·.path)).Nodup := stopping.once
      have told : ∀ p, OnFontPath (cmds p) ↔
          ∃ g ∈ f :: rest.filterMap Task.folder?, g.path = p ∧ g.isPathAdded = true :=
        stopping.told
      rw [List.map_cons, List.nodup_cons] at once
      -- the task that may follow has no folder
      have later : ∀ cmds', (∀ p, OnFontPath (cmds' p) ↔
          ∃ g ∈ rest.filterMap Task.folder?, g.path = p ∧ g.isPathAdded = true) →
          Stopping cmds' (FontMonitor.resume ⟨folders, thread, rest⟩ a (.destroy f)).2 := by
        intro cmds' told'
        simp only [FontMonitor.resume] at emptied ⊢
        split at emptied
        · rename_i watched
          rw [if_pos watched]
          exact ⟨emptied, once.2, told'⟩
        · rename_i watched
          rw [if_neg watched]
          exact ⟨emptied, once.2, told'⟩
      by_cases added : f.isPathAdded = true
      · have calls : (FontMonitor.resume ⟨folders, thread, rest⟩ a (.destroy f)).1 =
            [⟨false, f.path, a.ok⟩] := if_pos added
        rw [calls] at removes ⊢
        have success : a.ok = true := removes _ List.mem_cons_self rfl
        rw [success]
        refine ⟨alternates_andThen alternates told ?_, Or.inr (later _ ?_)⟩
        · simp only [Bool.false_eq_true, false_iff, not_not]
          exact ⟨f, List.mem_cons_self, rfl, added⟩
        · refine onFontPath_andThen told ?_ ?_
          · simp only [Bool.false_eq_true, iff_false]
            rintro ⟨g, mem, same, -⟩
            exact once.1 (List.mem_map.mpr ⟨g, mem, same⟩)
          · intro p other
            constructor
            · rintro ⟨g, mem, same, isAdded⟩
              exact ⟨g, List.mem_cons_of_mem _ mem, same, isAdded⟩
            · rintro ⟨g, mem, same, isAdded⟩
              rcases List.mem_cons.mp mem with rfl | old
              · exact absurd same.symm other
              · exact ⟨g, old, same, isAdded⟩
      · have calls : (FontMonitor.resume ⟨folders, thread, rest⟩ a (.destroy f)).1 = [] :=
          if_neg added
        rw [calls, andThen_nil]
        refine ⟨alternates, Or.inr (later _ ?_)⟩
        intro p
        rw [told p]
        constructor
        · rintro ⟨g, mem, same, isAdded⟩
          rcases List.mem_cons.mp mem with rfl | old
          · exact absurd isAdded added
          · exact ⟨g, old, same, isAdded⟩
        · rintro ⟨g, mem, same, isAdded⟩
          exact ⟨g, List.mem_cons_of_mem _ mem, same, isAdded⟩
  | rmWatch wd =>
      simp only [FontMonitor.resume, andThen_nil]
      exact ⟨alternates, Or.inr ⟨emptied, stopping.once, stopping.told⟩⟩
  | _ => exact isDestroy.elim

/-! ### Every step -/

section Resume

variable {cmds : Path → List Bool} {folders : FolderMap} {thread : Bool} {t : Task}
  {rest : List Task}

/-- `AddMonitorFolder`, up to its first system call, adds nothing to the font path. -/
theorem notAdded_addMonitorFolder {m : FontMonitor} (notAdded : NotAdded m) (path : Path) :
    NotAdded (m.addMonitorFolder path) := by
  unfold FontMonitor.addMonitorFolder
  split
  · rintro f ⟨⟩
    rfl
  · exact notAdded

/-- `ModifyX11FontPath` has no folder in hand. -/
theorem notAdded_modifyX11FontPath {m : FontMonitor} (notAdded : NotAdded m) (path : Path)
    (isAdd : Bool) : NotAdded (m.modifyX11FontPath path isAdd) := by
  unfold FontMonitor.modifyX11FontPath
  split
  · exact notAdded
  · split
    · nofun
    · exact notAdded

/-- A task of `Start` finds nothing tracked, and leaves nothing tracked. -/
theorem working_starts {a : Answer} (working : Working cmds ⟨folders, thread, t :: rest⟩)
    (starts : t.Starts) :
    Working cmds (FontMonitor.resume ⟨folders, thread, rest⟩ a t).2 := by
  obtain ⟨rfl, none_⟩ := working.busy.starting t rest rfl starts
  have notAdded : NotAdded ⟨folders, thread, [t]⟩ := by
    intro f held
    cases starts.folder?_eq.symm.trans held
  refine ⟨busy_resume working.busy a, fun p => ?_⟩
  have after : (∀ q, (FontMonitor.resume ⟨folders, thread, []⟩ a t).2.fontMonitorFolders.find? q =
      none) ∧ NotAdded (FontMonitor.resume ⟨folders, thread, []⟩ a t).2 := by
    rcases resume_starts starts ⟨folders, thread, []⟩ a with
      gaveUp | ⟨t', starts', goesOn⟩ | ⟨user, alt, -, -, roots⟩
    · rw [gaveUp, stop_of_starts working.busy starts]
      exact ⟨fun _ => FolderMap.find?_empty, by rintro _ ⟨⟩⟩
    · rw [goesOn]
      refine ⟨none_, fun f held => ?_⟩
      cases starts'.folder?_eq.symm.trans held
    · rw [roots]
      refine ⟨none_, notAdded_of_waits fun u mem => ?_⟩
      rcases mem_startRoots mem with ⟨-, rfl⟩ | ⟨-, rfl⟩ | rfl | old
      · trivial
      · trivial
      · trivial
      · cases old
  have none_ : folders.find? p = none := none_ p
  rw [working.told p, addedPath_iff notAdded, addedPath_iff after.2, after.1 p, none_]

/-- Whatever the answer, as long as `-fp` succeeds. -/
theorem working_resume {a : Answer} (alternates : ∀ p, Alternates (cmds p))
    (working : Working cmds ⟨folders, thread, t :: rest⟩)
    (removes : ∀ c ∈ (FontMonitor.resume ⟨folders, thread, rest⟩ a t).1,
      c.isAdd = false → c.success = true) :
    Balanced (andThen cmds (FontMonitor.resume ⟨folders, thread, rest⟩ a t).1)
      (FontMonitor.resume ⟨folders, thread, rest⟩ a t).2 := by
  have waits : NotAdded ⟨folders, thread, rest⟩ := notAdded_of_waits working.busy.waiting
  have busy := busy_resume working.busy a
  by_cases starts : t.Starts
  · have noXset : (FontMonitor.resume ⟨folders, thread, rest⟩ a t).1 = [] := by
      cases t <;> first | rfl | exact starts.elim
    rw [noXset, andThen_nil]
    exact ⟨alternates, Or.inl (working_starts working starts)⟩
  -- most tasks track and untrack nothing
  have same : t.KeepsFolders a → NotAdded ⟨folders, thread, t :: rest⟩ →
      NotAdded (FontMonitor.resume ⟨folders, thread, rest⟩ a t).2 →
      Balanced cmds (FontMonitor.resume ⟨folders, thread, rest⟩ a t).2 :=
    fun keeps notAdded notAdded' => ⟨alternates, Or.inl
      (working.sameFolders busy notAdded notAdded' (folders_resume keeps _))⟩
  cases t with
  | access path =>
      rw [FontMonitor.resume, andThen_nil]
      refine same trivial ?_ ?_
      · rintro f ⟨⟩
        rfl
      · intro f held
        simp only [FontMonitor.resume] at held
        split at held <;> cases held <;> rfl
  | addPath path =>
      cases success : a.ok with
      | true =>
          have balanced := balanced_addPath alternates working success
          simp only [FontMonitor.resume, success] at balanced ⊢
          exact balanced
      | false =>
          have calls : (FontMonitor.resume ⟨folders, thread, rest⟩ a (.addPath path)).1 =
              [⟨true, path, false⟩] := by rw [FontMonitor.resume, success]
          rw [calls, andThen_failed]
          refine same trivial ?_ ?_
          · rintro f ⟨⟩
            rfl
          · rintro f ⟨⟩
            exact success
  | addWatch folder =>
      have after := @working_addWatch _ _ _ _ _ a working
      simp only [FontMonitor.resume, andThen_nil] at after ⊢
      exact ⟨alternates, Or.inl after⟩
  | existsX11 =>
      rw [FontMonitor.resume, andThen_nil]
      refine same trivial (by rintro _ ⟨⟩) ?_
      simp only [FontMonitor.resume]
      split
      · exact notAdded_addMonitorFolder waits _
      · exact waits
  | openDirectory path =>
      rw [FontMonitor.resume, andThen_nil]
      refine same trivial (by rintro _ ⟨⟩) ?_
      simp only [FontMonitor.resume]
      split
      · rintro _ ⟨⟩
      · exact waits
  | nextEntry path =>
      have noXset : (FontMonitor.resume ⟨folders, thread, rest⟩ a (.nextEntry path)).1 = [] := by
        simp only [FontMonitor.resume]
        split <;> rfl
      rw [noXset, andThen_nil]
      refine same trivial (by rintro _ ⟨⟩) ?_
      simp only [FontMonitor.resume]
      split
      · exact waits
      · split
        · exact notAdded_addMonitorFolder (by rintro _ ⟨⟩) _
        · rintro _ ⟨⟩
  | destroy folder =>
      have after : NotAdded (FontMonitor.resume ⟨folders, thread, rest⟩ a (.destroy folder)).2 := by
        simp only [FontMonitor.resume]
        split
        · rintro _ ⟨⟩
        · exact waits
      by_cases added : folder.isPathAdded = true
      · have calls : (FontMonitor.resume ⟨folders, thread, rest⟩ a (.destroy folder)).1 =
            [⟨false, folder.path, a.ok⟩] := if_pos added
        rw [calls] at removes ⊢
        have success : a.ok = true := removes _ List.mem_cons_self rfl
        have keeps : (Task.destroy folder).KeepsFolders a := trivial
        rw [success]
        exact balanced_destroy alternates working added busy after (folders_resume keeps _)
      · have calls : (FontMonitor.resume ⟨folders, thread, rest⟩ a (.destroy folder)).1 = [] :=
          if_neg added
        rw [calls, andThen_nil]
        refine same trivial ?_ after
        rintro f ⟨⟩
        exact Bool.eq_false_iff.mpr added
  | rmWatch wd =>
      rw [FontMonitor.resume, andThen_nil]
      exact same trivial (by rintro _ ⟨⟩) waits
  | testFontsDir path =>
      rw [FontMonitor.resume, andThen_nil]
      refine same trivial (by rintro _ ⟨⟩) ?_
      simp only [FontMonitor.resume]
      split
      · exact notAdded_modifyX11FontPath waits _ _
      · exact waits
  | modify path isAdd =>
      cases success : a.ok with
      | true =>
          have balanced := balanced_modify alternates working success
          simp only [FontMonitor.resume, success] at balanced ⊢
          exact balanced
      | false =>
          simp only [FontMonitor.resume, success, andThen_failed, Bool.false_eq_true,
            if_false] at busy ⊢
          exact ⟨alternates, Or.inl (working.sameFolders busy (by rintro _ ⟨⟩) waits rfl)⟩
  | add path =>
      rw [FontMonitor.resume, andThen_nil]
      exact same trivial (by rintro _ ⟨⟩) (notAdded_addMonitorFolder waits _)
  | createThread =>
      rw [FontMonitor.resume, andThen_nil]
      exact same trivial (by rintro _ ⟨⟩) waits
  | _ => exact (starts trivial).elim

end Resume

/-- A folder that is erased is in hand instead. -/
theorem working_removeMonitorFolder {cmds : Path → List Bool} {m : FontMonitor}
    (working : Working cmds m) (idle : m.tasks = []) (path : Path)
    (busy : Busy (m.removeMonitorFolder path)) : Working cmds (m.removeMonitorFolder path) := by
  have noHand : NotAdded m := notAdded_of_waits (by rw [idle]; nofun)
  revert busy
  rw [FontMonitor.removeMonitorFolder]
  split
  · exact fun _ => working
  rename_i f tracked
  intro busy
  have isPath := FolderMap.path_of_find? tracked
  refine ⟨busy, fun p => ?_⟩
  rw [working.told p, addedPath_iff noHand]
  constructor
  · rintro ⟨g, held, added⟩
    have isPath' := FolderMap.path_of_find? held
    by_cases same : p = path
    · rw [same] at held
      cases held.symm.trans tracked
      exact ⟨f, Or.inr rfl, isPath', added⟩
    · refine ⟨g, Or.inl ?_, isPath', added⟩
      simp only [FontMonitor.call, FolderMap.find?_erase, isPath', if_neg same]
      exact held
  · rintro ⟨g, held | inHand, rfl, added⟩
    · simp only [FontMonitor.call, FolderMap.find?_erase] at held
      split at held
      · cases held
      · exact ⟨g, held, added⟩
    · cases inHand
      exact ⟨f, by rw [isPath]; exact tracked, added⟩

/-- An event is handled between handlers. -/
theorem working_handleEvent {cmds : Path → List Bool} {m : FontMonitor}
    (working : Working cmds m) (idle : m.tasks = []) (event : Event)
    (busy : Busy (m.handleEvent event)) : Working cmds (m.handleEvent event) := by
  have noHand : NotAdded m := notAdded_of_waits (by rw [idle]; nofun)
  have handled := handled_handleEvent m event
  revert busy
  generalize m.handleEvent event = m' at handled ⊢
  cases handled with
  | ignored => exact fun _ => working
  | folderAdded f =>
      intro busy
      exact working.sameFolders busy noHand (notAdded_addMonitorFolder noHand _)
        (folders_addMonitorFolder m _)
  | folderRemoved => exact fun busy => working_removeMonitorFolder working idle _ busy
  | fontsDirAdded => exact fun busy => working.sameFolders busy noHand nofun rfl
  | fontsDirRemoved f =>
      intro busy
      exact working.sameFolders busy noHand (notAdded_modifyX11FontPath noHand f.path false)
        (folders_modifyX11FontPath m f.path false)

theorem balanced_step {cmds : Path → List Bool} {m : FontMonitor} (balanced : Balanced cmds m)
    (input : Input) (removes : ∀ c ∈ (step m input).1, c.isAdd = false → c.success = true) :
    Balanced (andThen cmds (step m input).1) (step m input).2 := by
  obtain ⟨alternates, phase⟩ := balanced
  -- a monitor without tasks is at work
  have working : m.tasks = [] → Working cmds m := fun idle =>
    phase.elim id fun stopping => working_of_stopped stopping idle
  cases input with
  | start =>
      rw [step, andThen_nil]
      split
      · rename_i can
        have busy := @busy_step m (working can.2).busy .start (by rintro ⟨⟩)
        simp only [step, if_pos can] at busy
        have noHand : NotAdded m := notAdded_of_waits (by rw [can.2]; rintro _ ⟨⟩)
        exact ⟨alternates, Or.inl ((working can.2).sameFolders busy noHand (by rintro _ ⟨⟩) rfl)⟩
      · exact ⟨alternates, phase⟩
  | stop =>
      rw [step, andThen_nil]
      split
      · rename_i idle
        exact ⟨alternates, Or.inr (stopping_stop (working idle) idle)⟩
      · exact ⟨alternates, phase⟩
  | event event =>
      rw [step, andThen_nil]
      split
      · rename_i can
        have busy := @busy_step m (working can.2).busy (.event event) (by rintro ⟨⟩)
        simp only [step, if_pos can] at busy
        exact ⟨alternates, Or.inl (working_handleEvent (working can.2) can.2 event busy)⟩
      · exact ⟨alternates, phase⟩
  | answer a =>
      obtain ⟨folders, thread, tasks⟩ := m
      cases tasks with
      | nil =>
          simp only [step, FontMonitor.answer, andThen_nil]
          exact ⟨alternates, phase⟩
      | cons t rest =>
          rcases phase with working | stopping
          · exact working_resume alternates working removes
          · exact stopping_resume alternates stopping removes

theorem balanced_start : Balanced (fun _ => []) {} := by
  refine ⟨fun _ => alternates_nil, Or.inl ⟨busy_start, fun p => ?_⟩⟩
  have noHand : NotAdded {} := fun f held => nomatch held
  rw [addedPath_iff noHand]
  refine iff_of_false nofun ?_
  rintro ⟨f, tracked, -⟩
  cases FolderMap.find?_empty.symm.trans tracked

/-! ### Runs -/

/-- Every `-fp` of a step succeeds. -/
def RemovesSucceed (t : Step) : Prop := ∀ c ∈ t.output, c.isAdd = false → c.success = true

instance (t : Step) : Decidable (RemovesSucceed t) :=
  inferInstanceAs (Decidable (∀ c ∈ t.output, c.isAdd = false → c.success = true))

theorem balanced_finish (es : List Input)
    (removes : ∀ t ∈ transitions step {} es, RemovesSucceed t) :
    Balanced (commands (transitions step {} es)) (finish step {} es) := by
  have kept := @invariant_history _ _ _ step
    (fun ts m => (∀ t ∈ ts, RemovesSucceed t) → Balanced (commands ts) m) ?_ {}
    (fun _ => balanced_start) es
  · exact kept removes
  · intro ts t taken ih removes
    have before := ih fun t' mem => removes t' (List.mem_append_left _ mem)
    have here := removes t (List.mem_append_right _ List.mem_cons_self)
    have stepped : step t.before t.input = (t.output, t.after) := taken
    have next := balanced_step before t.input (by rw [stepped]; exact here)
    rw [stepped] at next
    have same : commands (ts ++ [t]) = andThen (commands ts) t.output := by
      funext p
      exact commands_concat ts t p
    rw [same]
    exact next

/-- `Stop` goes on with answers. -/
theorem emptied_of_answers {m : FontMonitor} (emptied : Emptied m) (as : List Answer) :
    Emptied (finish step m (as.map .answer)) := by
  induction as generalizing m with
  | nil => exact emptied
  | cons a as ih =>
      obtain ⟨folders, thread, tasks⟩ := m
      cases tasks with
      | nil => exact ih emptied
      | cons t rest => exact ih (emptied_resume emptied a)

/-- In every run in which no `-fp` fails: between handlers the paths that `xset` last added
are those of the tracked folders with `m_isPathAdded`; for each path the commands that
succeed alternate, `+fp` first; and when `Stop` has run, no path is left on the font path
and nothing is tracked. -/
theorem font_path_balanced (es : List Input)
    (removes : ∀ t ∈ transitions step {} es, RemovesSucceed t) :
    ((finish step {} es).tasks = [] → ∀ p,
      OnFontPath (commands (transitions step {} es) p) ↔
        ∃ f, (finish step {} es).fontMonitorFolders.find? p = some f ∧ f.isPathAdded = true) ∧
    (∀ p, Alternates (commands (transitions step {} es) p)) ∧
    (∀ (before : List Input) (as : List Answer), es = before ++ .stop :: as.map .answer →
      (finish step {} before).tasks = [] → (finish step {} es).tasks = [] →
        (∀ p, ¬ OnFontPath (commands (transitions step {} es) p)) ∧
          NoneTracked (finish step {} es)) := by
  obtain ⟨alternates, phase⟩ := balanced_finish es removes
  have rests : (finish step {} es).tasks = [] →
      Working (commands (transitions step {} es)) (finish step {} es) := fun idle =>
    phase.elim id fun stopping => working_of_stopped stopping idle
  have told : (finish step {} es).tasks = [] → ∀ p,
      OnFontPath (commands (transitions step {} es) p) ↔
        ∃ f, (finish step {} es).fontMonitorFolders.find? p = some f ∧ f.isPathAdded = true := by
    intro idle p
    rw [(rests idle).told p, addedPath_iff (notAdded_of_waits (by rw [idle]; nofun))]
  refine ⟨told, alternates, fun before as split idleBefore idle => ?_⟩
  have none_ : NoneTracked (finish step {} es) := by
    rw [split, finish_append]
    have stopped : (step (finish step {} before) .stop).2 = (finish step {} before).stop :=
      if_pos idleBefore
    rw [finish, stopped]
    exact (emptied_of_answers (emptied_stop idleBefore) as).noneTracked
  refine ⟨fun p on => ?_, none_⟩
  obtain ⟨f, tracked, -⟩ := (told idle p).mp on
  cases (none_ p).symm.trans tracked

/-- A run that tracks the font path and its `X11`, which has a `fonts.dir`. -/
def tracksX11 : List Input :=
  [.start, .answer { ok := true }, .answer { ok := true }, .answer { ok := true }, .answer {},
    .answer { ok := true }, .answer {}, .answer {}, .answer { wd := 1 }, .answer { ok := true },
    .answer { ok := true }, .answer { ok := true }, .answer { wd := 2 }, .answer { ok := true },
    .answer {}, .answer {}]

/-- The answers to `Stop` after that. -/
def stopAnswers : List Answer := [{}, {}, { ok := true }, {}]

theorem font_path_balanced_tracksX11 :
    OnFontPath (commands (transitions step {} tracksX11) (child userDistroFontPath x11)) ∧
      ¬ OnFontPath (commands (transitions step {} (tracksX11 ++ .stop :: stopAnswers.map .answer))
        (child userDistroFontPath x11)) := by
  have tracks := font_path_balanced tracksX11 (by decide +kernel)
  have stops := font_path_balanced (tracksX11 ++ .stop :: stopAnswers.map .answer)
    (by decide +kernel)
  constructor
  · refine (tracks.1 (by decide +kernel) _).mpr ?_
    exact ⟨{ path := child userDistroFontPath x11, wd := 2, isPathAdded := true },
      by decide +kernel, rfl⟩
  · exact (stops.2.2 tracksX11 stopAnswers rfl (by decide +kernel) (by decide +kernel)).1 _

end Wslg.Fonts
