/-
No change of a `fonts.dir` is lost once its folder is watched.

For a tracked folder let all events of its `fonts.dir` that are queued be handled, with the
files as they are now: an event that adds adds if the file is there, one that removes
removes. The outcome is always that the folder is added exactly if the file is there. Each
change of the file brings its event, behind all others, and settles the outcome anew;
handling an event, or the call that it came to, does not change it.

It starts when the folder is watched, and there it can fail: the constructor has looked for
the file before. What comes or goes between the two has no event.
-/

import Wslg.WSLGd.FontGrowth

namespace Wslg.Fonts

open Wslg.Inotify Wslg.Protocol Wslg.Runs

/-! ### Settling -/

/-- An event of the `fonts.dir` in the folder with this watch. -/
def ofFontsDir (wd : Int) (e : Event) : Bool :=
  e.wd = wd && e.name = fontsDir && !has e.mask inIsDir

/-- An event after which `fonts.dir` is looked for. -/
def adds (e : Event) : Bool := has e.mask (inCreate ||| inCloseWrite ||| inMovedTo)

/-- `m_isPathAdded` once these events are handled, if `fonts.dir` stays as it is. -/
def settle (present : Bool) (added : Bool) (es : List Event) : Bool :=
  es.foldl (fun added e => if adds e then added || present else false) added

theorem settle_concat (present added : Bool) (es : List Event) (e : Event) :
    settle present added (es ++ [e]) =
      if adds e then settle present added es || present else false := by
  simp [settle]

namespace System

/-- `fonts.dir` is there now. -/
def present (s : System) (p : Path) : Bool := HasFontsDir s.kernel p

/-- The queued events of the `fonts.dir` in the folder with this watch. -/
def pending (s : System) (wd : Int) : List Event := s.kernel.queue.filter (ofFontsDir wd)

end System

/-- `m_isPathAdded` once the first call is made. -/
def outlook (first : Option Task) (present : Bool) (f : FontFolder) : Bool :=
  match first with
  | some (.testFontsDir path) => if path = f.path then f.isPathAdded || present else f.isPathAdded
  | some (.modify path isAdd) => if path = f.path then isAdd else f.isPathAdded
  | _ => f.isPathAdded

@[simp] theorem outlook_testFontsDir (path : Path) (present : Bool) (f : FontFolder) :
    outlook (some (.testFontsDir path)) present f =
      if path = f.path then f.isPathAdded || present else f.isPathAdded := rfl

@[simp] theorem outlook_modify (path : Path) (isAdd present : Bool) (f : FontFolder) :
    outlook (some (.modify path isAdd)) present f =
      if path = f.path then isAdd else f.isPathAdded := rfl

/-- A constructor at work goes by what its test found. -/
def Task.Tested (tested : Bool) : Task → Prop
  | addPath _ => tested = true
  | addWatch folder => folder.isPathAdded = tested
  | _ => True

/-- A task that is not about the font path of a tracked folder. -/
def Task.Aside : Task → Prop
  | testFontsDir _ => False
  | modify _ _ => False
  | _ => True

theorem Task.Waits.aside {t : Task} (waits : t.Waits) : t.Aside := by
  cases t <;> trivial

theorem Task.Waits.tested {t : Task} (waits : t.Waits) (tested : Bool) : t.Tested tested := by
  cases t <;> trivial

theorem outlook_aside {first : Option Task} (aside : ∀ t ∈ first, t.Aside) (present : Bool)
    (f : FontFolder) : outlook first present f = f.isPathAdded := by
  cases first with
  | none => rfl
  | some t =>
      have isAside := aside t rfl
      cases t <;> first | rfl | exact isAside.elim

structure Current (s : System) : Prop where
  noFolder : ∀ p, ¬ s.kernel.IsDir (child p fontsDir)
  tested : ∀ t ∈ s.monitor.tasks.head?, t.Tested s.tested
  settled : ∀ p f, s.monitor.fontMonitorFolders.find? p = some f →
    settle (s.present p) (outlook s.monitor.tasks.head? (s.present p) f) (s.pending f.wd) =
      s.present p

/-! ### Others change files -/

section Changes

variable {k : Kernel} {p : Path} {i : Nat} {wd : Int}

theorem present_eq (noFolder : ¬ k.IsDir (child p fontsDir)) (found : k.inode? p = some i) :
    System.HasFontsDir k p ↔ (i, fontsDir) ∈ k.files := by
  unfold System.HasFontsDir Kernel.HasFile
  simp [noFolder, found]

/-- What a change by others is for the `fonts.dir` of a watched folder: none, or one that
has its event. -/
inductive Change (k k' : Kernel) (p : Path) (wd : Int) : Prop where
  | none (queue : k'.queue.filter (ofFontsDir wd) = k.queue.filter (ofFontsDir wd))
      (present : System.HasFontsDir k' p ↔ System.HasFontsDir k p)
  | one (e : Event)
      (queue : k'.queue.filter (ofFontsDir wd) = k.queue.filter (ofFontsDir wd) ++ [e])
      (present : if adds e then System.HasFontsDir k p → System.HasFontsDir k' p
        else ¬ System.HasFontsDir k' p)

theorem queue_filter_notify (k : Kernel) (j : Nat) (mask : UInt32) (n : Name) :
    (k.notify j mask n).queue.filter (ofFontsDir wd) = k.queue.filter (ofFontsDir wd) ++
      ((k.watches j).map fun wd => (⟨wd, mask, n⟩ : Event)).toList.filter (ofFontsDir wd) := by
  rw [Kernel.queue_notify, List.filter_append]

theorem mem_filesAfter {files : List (Nat × Name)} {f g : Nat × Name} (other : g ≠ f)
    (op : Kernel.FileOp) : g ∈ Kernel.filesAfter files f op ↔ g ∈ files := by
  cases op <;> simp [Kernel.filesAfter, other]

/-- The events that add are those of the operations that leave the file there. -/
theorem adds_mask (op : Kernel.FileOp) :
    has op.mask (inCreate ||| inCloseWrite ||| inMovedTo) =
      decide (op ≠ .delete ∧ op ≠ .moveOut) := by
  cases op <;> decide

theorem change_fileOp {s : System} (grown : Grown s)
    (noFolder : ∀ p, ¬ s.kernel.IsDir (child p fontsDir))
    (isWd : s.monitor.wd? p = some wd) (q : Path) (n : Name) (op : Kernel.FileOp) :
    Change s.kernel (s.kernel.fileOp q n op) p wd := by
  obtain ⟨i, found, held⟩ := grown.tracked p wd isWd
  unfold Kernel.fileOp
  split
  case h_2 => exact .none rfl Iff.rfl
  rename_i j found'
  split
  case isFalse => exact .none rfl Iff.rfl
  rename_i can
  have lookup : ∀ r, (Kernel.notify { s.kernel with
      files := Kernel.filesAfter s.kernel.files (j, n) op } j op.mask n).inode? r =
      s.kernel.inode? r := fun r => Kernel.inode?_notify _ _ _ _ r
  have before := present_eq (noFolder p) found
  have after : System.HasFontsDir (Kernel.notify { s.kernel with
      files := Kernel.filesAfter s.kernel.files (j, n) op } j op.mask n) p ↔
      (i, fontsDir) ∈ Kernel.filesAfter s.kernel.files (j, n) op := by
    rw [present_eq ?_ (by rw [lookup]; exact found), Kernel.files_notify]
    unfold Kernel.IsDir
    rw [lookup]
    exact noFolder p
  by_cases same : (i, fontsDir) = (j, n)
  · -- the event of this file
    cases same
    refine .one ⟨wd, op.mask, fontsDir⟩ ?_ ?_
    · have isOf : ofFontsDir wd ⟨wd, op.mask, fontsDir⟩ = true := by
        cases op <;> simp [ofFontsDir] <;> decide
      rw [queue_filter_notify, held]
      simp [isOf]
    · rw [before, after]
      cases op <;> simp [adds, adds_mask, Kernel.filesAfter]
  · refine .none ?_ ?_
    · rw [queue_filter_notify]
      refine List.append_right_eq_self.mpr (List.filter_eq_nil_iff.mpr fun e mem isOf => same ?_)
      rw [Option.mem_toList] at mem
      obtain ⟨wd', held', rfl⟩ := Option.map_eq_some_iff.mp mem
      simp only [ofFontsDir, Bool.and_eq_true, decide_eq_true_eq] at isOf
      obtain ⟨⟨rfl, rfl⟩, -⟩ := isOf
      rw [grown.distinct.inj i j wd' held held']
    · rw [before, after, mem_filesAfter same]

theorem change_mkdir {s : System} (grown : Grown s)
    (noFolder : ∀ p, ¬ s.kernel.IsDir (child p fontsDir))
    (isWd : s.monitor.wd? p = some wd) (q : Path) {n : Name}
    (noFolder' : ∀ p, ¬ (s.kernel.mkdir q n).IsDir (child p fontsDir)) :
    Change s.kernel (s.kernel.mkdir q n) p wd := by
  obtain ⟨i, found, held⟩ := grown.tracked p wd isWd
  have found' := (Kernel.grew_mkdir s.kernel q n).inode? p i found
  have before := present_eq (noFolder p) found
  have after := present_eq (noFolder' p) found'
  refine .none ?_ ?_
  · unfold Kernel.mkdir
    split
    case h_2 => rfl
    split
    case isFalse => rfl
    rw [queue_filter_notify]
    refine List.append_right_eq_self.mpr (List.filter_eq_nil_iff.mpr fun e mem isOf => ?_)
    rw [Option.mem_toList] at mem
    obtain ⟨wd', -, rfl⟩ := Option.map_eq_some_iff.mp mem
    have isFolder : has (inCreate ||| inIsDir) inIsDir = true := by decide
    simp [ofFontsDir, isFolder] at isOf
  · rw [before, after]
    unfold Kernel.mkdir
    split
    case h_2 => exact Iff.rfl
    split
    case isFalse => exact Iff.rfl
    rw [Kernel.files_notify]

end Changes

/-! ### Steps -/

section Steps

variable {s s' : System} {c : Choice} {t : Task} {rest : List Task}

/-- A change with its event settles the outcome anew. -/
theorem current_changed {k : Kernel} (current : Current s)
    (noFolder : ∀ p, ¬ k.IsDir (child p fontsDir))
    (change : ∀ p wd, s.monitor.wd? p = some wd → Change s.kernel k p wd) :
    Current { s with kernel := k } := by
  refine ⟨noFolder, current.tested, ?_⟩
  intro p f found
  have before := current.settled p f found
  have isWd : s.monitor.wd? p = some f.wd := by
    rw [FontMonitor.wd?, found]
    rfl
  simp only [System.present, System.pending] at before ⊢
  cases change p f.wd isWd with
  | none queue present =>
      rw [queue]
      simp only [present]
      exact before
  | one e queue present =>
      rw [queue, settle_concat]
      split at present
      · rename_i isAdding
        rw [if_pos isAdding]
        by_cases isThere : System.HasFontsDir k p
        · simp [isThere]
        · -- nothing was there before
          have wasNot : ¬ System.HasFontsDir s.kernel p := fun was => isThere (present was)
          simp only [wasNot, isThere, decide_false] at before ⊢
          rw [before]
          rfl
      · rename_i isRemoving
        rw [if_neg isRemoving, decide_eq_false present]

/-- The outlook is the same. -/
theorem current_same (current : Current s) (kernel : s'.kernel = s.kernel)
    (folders : ∀ p f, s'.monitor.fontMonitorFolders.find? p = some f →
      s.monitor.fontMonitorFolders.find? p = some f)
    (same : ∀ p f, s'.monitor.fontMonitorFolders.find? p = some f →
      outlook s'.monitor.tasks.head? (s.present p) f =
        outlook s.monitor.tasks.head? (s.present p) f)
    (tested : ∀ t ∈ s'.monitor.tasks.head?, t.Tested s'.tested) : Current s' := by
  refine ⟨by rw [kernel]; exact current.noFolder, tested, ?_⟩
  intro p f found
  have present : s'.present p = s.present p := by simp only [System.present, kernel]
  have pending : s'.pending f.wd = s.pending f.wd := by simp only [System.pending, kernel]
  rw [present, pending, same p f found]
  exact current.settled p f (folders p f found)

/-- Neither the first task nor the next is about the font path of a tracked folder. -/
theorem current_aside (current : Current s) (kernel : s'.kernel = s.kernel)
    (folders : ∀ p f, s'.monitor.fontMonitorFolders.find? p = some f →
      s.monitor.fontMonitorFolders.find? p = some f)
    (aside : ∀ t ∈ s.monitor.tasks.head?, t.Aside)
    (aside' : ∀ t ∈ s'.monitor.tasks.head?, t.Aside ∧ t.Tested s'.tested) : Current s' := by
  refine current_same current kernel folders ?_ fun t mem => (aside' t mem).2
  intro p f _
  rw [outlook_aside aside, outlook_aside fun t mem => (aside' t mem).1]

/-- The folder that is watched and inserted: nothing is pending for it. -/
theorem current_watchedFolder {folder : FontFolder} {i : Nat} (current : Current s)
    (grown : Grown s) (tasks : s.monitor.tasks = .addWatch folder :: rest)
    (holds : s.tested = true ↔ System.HasFontsDir s.kernel folder.path) :
    Current (watchedFolder s folder rest i) := by
  have isTested : folder.isPathAdded = s.tested :=
    current.tested (.addWatch folder) (by rw [tasks]; rfl)
  have waits := Task.subfolders_waits folder.path
  have aside : ∀ t ∈ (Task.subfolders folder.path :: rest).head?, t.Aside := by
    rintro t ⟨⟩
    exact waits.aside
  refine ⟨current.noFolder, ?_, ?_⟩
  · rintro t ⟨⟩
    exact waits.tested _
  · intro p f found
    have present : (watchedFolder s folder rest i).present p = s.present p := rfl
    have pending : (watchedFolder s folder rest i).pending f.wd = s.pending f.wd := rfl
    have isOutlook : outlook (watchedFolder s folder rest i).monitor.tasks.head? (s.present p) f =
        f.isPathAdded := outlook_aside aside _ _
    rw [present, pending, isOutlook]
    simp only [watchedFolder, FolderMap.find?_set] at found
    split at found
    · rename_i isPath
      cases found
      have nothing : s.pending s.kernel.nextWd = [] := by
        refine List.filter_eq_nil_iff.mpr fun e mem isOf => ?_
        have lt := grown.distinct.queued e mem
        simp only [ofFontsDir, Bool.and_eq_true, decide_eq_true_eq] at isOf
        omega
      have isPresent : s.present p = folder.isPathAdded := by
        rw [isTested, System.present, isPath]
        exact Bool.eq_iff_iff.mpr (by simp [holds])
      simp only [nothing, isPresent]
      rfl
    · have before := current.settled p f found
      rw [tasks, outlook_aside (by rintro t ⟨⟩; trivial)] at before
      exact before

/-- After `ModifyX11FontPath` the outlook for its folder is what it was called with. -/
theorem outlook_modifyX11FontPath {m : FontMonitor} (aside : ∀ t ∈ m.tasks.head?, t.Aside)
    (path : Path) (isAdd present : Bool) {p : Path} {f : FontFolder}
    (found : m.fontMonitorFolders.find? p = some f) :
    outlook (m.modifyX11FontPath path isAdd).tasks.head? present f =
      if path = f.path then isAdd else f.isPathAdded := by
  have isPath := FolderMap.path_of_find? found
  unfold FontMonitor.modifyX11FontPath
  split
  · rename_i absent
    rw [outlook_aside aside, if_neg]
    intro same
    rw [same, isPath, found] at absent
    cases absent
  · rename_i g tracked
    split
    · rfl
    · rename_i isAdded
      rw [outlook_aside aside]
      by_cases same : path = f.path
      · rw [same, isPath, found] at tracked
        cases tracked
        rw [if_pos same]
        exact not_not.mp isAdded
      · rw [if_neg same]

theorem tested_modifyX11FontPath {m : FontMonitor} {tested : Bool}
    (before : ∀ t ∈ m.tasks.head?, t.Tested tested) (path : Path) (isAdd : Bool) :
    ∀ t ∈ (m.modifyX11FontPath path isAdd).tasks.head?, t.Tested tested := by
  unfold FontMonitor.modifyX11FontPath
  split
  · exact before
  · split
    · rintro t ⟨⟩
      trivial
    · exact before

/-- `fonts.dir` is looked for. -/
theorem current_testFontsDir {path : Path} (current : Current s) (grown : Grown s)
    (tasks : s.monitor.tasks = .testFontsDir path :: rest) :
    Current (s.answered c (.testFontsDir path) rest) := by
  have waits : ∀ t ∈ rest, t.Waits := by
    have waiting := grown.busy.waiting
    rw [tasks] at waiting
    exact waiting
  have restAside : ∀ t ∈ rest.head?, t.Aside := fun t mem =>
    (waits t (List.mem_of_mem_head? mem)).aside
  have restTested : ∀ t ∈ rest.head?, t.Tested s.tested := fun t mem =>
    (waits t (List.mem_of_mem_head? mem)).tested _
  -- the outlook was what the test finds, for the folder that is tested
  have before : ∀ p f, s.monitor.fontMonitorFolders.find? p = some f →
      outlook s.monitor.tasks.head? (s.present p) f =
        if path = f.path then f.isPathAdded || s.present path else f.isPathAdded := by
    intro p f found
    rw [tasks, List.head?_cons, outlook_testFontsDir]
    by_cases same : path = f.path
    · rw [if_pos same, if_pos same, same, FolderMap.path_of_find? found]
    · rw [if_neg same, if_neg same]
  by_cases isThere : System.HasFontsDir s.kernel path
  · have after : (s.answered c (.testFontsDir path) rest).monitor =
        FontMonitor.modifyX11FontPath { s.monitor with tasks := rest } path true := by
      simp only [System.answered, System.serve, FontMonitor.resume, decide_eq_true isThere, if_true]
    have isPresent : s.present path = true := decide_eq_true isThere
    refine current_same current rfl ?_ ?_ ?_
    · rw [after, folders_modifyX11FontPath]
      exact fun _ _ => id
    · intro p f found
      rw [after, folders_modifyX11FontPath] at found
      rw [before p f found, after, outlook_modifyX11FontPath restAside path true _ found,
        isPresent, Bool.or_true]
    · rw [after]
      exact tested_modifyX11FontPath restTested path true
  · have after : s.answered c (.testFontsDir path) rest =
        { s with monitor := { s.monitor with tasks := rest } } := by
      simp [System.answered, System.serve, FontMonitor.resume, isThere]
    have isAbsent : s.present path = false := decide_eq_false isThere
    rw [after]
    refine current_same current rfl (fun _ _ => id) ?_ restTested
    intro p f found
    rw [before p f found, isAbsent, Bool.or_false, ite_self]
    exact outlook_aside restAside _ _

/-- `xset` for a tracked folder. -/
theorem current_modify {path : Path} {isAdd : Bool} (current : Current s) (grown : Grown s)
    (tasks : s.monitor.tasks = .modify path isAdd :: rest) (xset : c.xset = true) :
    Current (s.answered c (.modify path isAdd) rest) := by
  have waits : ∀ t ∈ rest, t.Waits := by
    have waiting := grown.busy.waiting
    rw [tasks] at waiting
    exact waiting
  obtain ⟨g, tracked, -⟩ := grown.busy.modify path isAdd (by rw [tasks]; rfl)
  have isPath := FolderMap.path_of_find? tracked
  have after : s.answered c (.modify path isAdd) rest = { s with monitor :=
      { s.monitor with
        fontMonitorFolders := s.monitor.fontMonitorFolders.set { g with isPathAdded := isAdd }
        tasks := rest } } := by
    simp only [System.answered, System.serve, FontMonitor.resume, if_pos xset,
      FontMonitor.setPathAdded, tracked]
  rw [after]
  refine ⟨current.noFolder, fun t mem => (waits t (List.mem_of_mem_head? mem)).tested _, ?_⟩
  intro p f found
  have isOutlook := outlook_aside (fun t mem => (waits t (List.mem_of_mem_head? mem)).aside)
    (s.present p) f
  rw [FolderMap.find?_set] at found
  split at found
  · rename_i same
    cases found
    rw [isPath] at same
    subst same
    have before := current.settled p g tracked
    rw [tasks, List.head?_cons, outlook_modify, if_pos isPath.symm] at before
    simp only [System.present, System.pending] at before isOutlook ⊢
    rw [isOutlook]
    exact before
  · rename_i other
    have before := current.settled p f found
    have isPath' := FolderMap.path_of_find? found
    have apart : path ≠ f.path := by
      rw [isPath', ← isPath]
      exact fun same => other same.symm
    rw [tasks, List.head?_cons, outlook_modify, if_neg apart] at before
    simp only [System.present, System.pending] at before isOutlook ⊢
    rw [isOutlook]
    exact before

/-- The event of a `fonts.dir` finds its folder. -/
theorem handleEvent_fontsDir {m : FontMonitor} {f : FontFolder} {event : Event}
    (byWd : m.fontMonitorFolders.findByWd f.wd = some f) (isOf : ofFontsDir f.wd event = true) :
    m.handleEvent event =
      if adds event then m.call (.testFontsDir f.path)
      else if has event.mask (inDelete ||| inMovedFrom) then m.modifyX11FontPath f.path false
      else m := by
  simp only [ofFontsDir, Bool.and_eq_true, decide_eq_true_eq, Bool.not_eq_true'] at isOf
  obtain ⟨⟨sameWd, name⟩, isFile⟩ := isOf
  have named : event.name ≠ [] := by
    rw [name]
    decide
  rw [FontMonitor.handleEvent, if_pos named, isFile, if_neg Bool.false_ne_true, if_pos name,
    FontMonitor.handleFontsDirEvent, sameWd, byWd]
  rfl

theorem removes_mask (op : Kernel.FileOp) :
    has op.mask (inCreate ||| inCloseWrite ||| inMovedTo) = true ∨
      has op.mask (inDelete ||| inMovedFrom) = true := by
  cases op <;> decide

/-- An event of the `fonts.dir` of a folder is handled: what it settles is the outlook
now. -/
theorem outlook_handleEvent (grown : Grown s) (idle : s.monitor.tasks = []) {event : Event}
    {events : List Event} (queue : s.kernel.queue = event :: events) {p : Path} {f : FontFolder}
    (found : s.monitor.fontMonitorFolders.find? p = some f) (isOf : ofFontsDir f.wd event = true) :
    outlook (s.monitor.handleEvent event).tasks.head? (s.present p) f =
      if adds event then f.isPathAdded || s.present p else false := by
  obtain ⟨-, -, mask⟩ := grown.queued event (by rw [queue]; exact List.mem_cons_self)
  rw [handleEvent_fontsDir (grown.findByWd found) isOf]
  by_cases isAdding : adds event = true
  · rw [if_pos isAdding, if_pos isAdding]
    simp [FontMonitor.call]
  · have isRemoving : has event.mask (inDelete ||| inMovedFrom) = true := by
      rcases mask with isNew | ⟨op, isOp⟩
      · rw [adds, isNew] at isAdding
        exact absurd (by decide) isAdding
      · rw [adds, isOp] at isAdding
        rw [isOp]
        exact (removes_mask op).resolve_left isAdding
    have aside : ∀ t ∈ s.monitor.tasks.head?, t.Aside := by
      rw [idle]
      rintro t ⟨⟩
    rw [if_neg isAdding, if_neg isAdding, if_pos isRemoving,
      outlook_modifyX11FontPath aside f.path false _ found, if_pos rfl]

/-- Another event says nothing about the folder. -/
theorem outlook_otherEvent (idle : s.monitor.tasks = [])
    {event : Event} {p : Path} {f : FontFolder}
    (found : s.monitor.fontMonitorFolders.find? p = some f)
    (notOf : ¬ ofFontsDir f.wd event = true) :
    outlook (s.monitor.handleEvent event).tasks.head? (s.present p) f = f.isPathAdded := by
  have aside : ∀ t ∈ s.monitor.tasks, t.Aside := by
    rw [idle]
    nofun
  -- the event is of the folder `g`, which is another one
  have apart : ∀ g, s.monitor.fontMonitorFolders.findByWd event.wd = some g →
      ¬ has event.mask inIsDir = true → event.name = fontsDir → g.path ≠ f.path := by
    intro g byWd isFile name same
    obtain ⟨found', sameWd⟩ := FolderMap.find?_of_findByWd byWd
    rw [same, FolderMap.path_of_find? found] at found'
    cases found'.symm.trans found
    apply notOf
    simp [ofFontsDir, sameWd, name, isFile]
  have handled := handled_handleEvent s.monitor event
  generalize s.monitor.handleEvent event = m' at handled ⊢
  cases handled with
  | ignored => exact outlook_aside (fun t mem => aside t (List.mem_of_mem_head? mem)) _ _
  | folderAdded =>
      refine outlook_aside (fun t mem => ?_) _ _
      rcases (addMonitorFolder_cases _).2.2 t (List.mem_of_mem_head? mem) with rfl | old
      · trivial
      · exact aside t old
  | folderRemoved g =>
      refine outlook_aside (fun t mem => ?_) _ _
      unfold FontMonitor.removeMonitorFolder at mem
      split at mem
      · exact aside t (List.mem_of_mem_head? mem)
      · cases mem
        trivial
  | fontsDirAdded g byWd isFile name =>
      simp [FontMonitor.call, apart g byWd isFile name]
  | fontsDirRemoved g byWd isFile name =>
      unfold FontMonitor.modifyX11FontPath
      split
      · simp [idle, outlook]
      · split
        · simp [FontMonitor.call, apart g byWd isFile name]
        · simp [idle, outlook]

theorem current_read (current : Current s) (grown : Grown s) {event : Event} {events : List Event}
    (queue : s.kernel.queue = event :: events) (reads : s.Reads) :
    Current { s with
      kernel := { s.kernel with queue := events }
      monitor := s.monitor.handleEvent event } := by
  have stays : (∀ p f, (s.monitor.handleEvent event).fontMonitorFolders.find? p = some f →
      s.monitor.fontMonitorFolders.find? p = some f) ∧
      ∀ t ∈ (s.monitor.handleEvent event).tasks, t.Tested s.tested := by
    have idle : ∀ t ∈ s.monitor.tasks, t.Tested s.tested := by
      rw [reads.2]
      nofun
    have handled := handled_handleEvent s.monitor event
    generalize s.monitor.handleEvent event = m' at handled ⊢
    cases handled with
    | ignored => exact ⟨fun _ _ => id, idle⟩
    | folderAdded =>
        refine ⟨?_, ?_⟩
        · unfold FontMonitor.addMonitorFolder
          split <;> exact fun _ _ => id
        · intro t mem
          rcases (addMonitorFolder_cases _).2.2 t mem with rfl | old
          · trivial
          · exact idle t old
    | folderRemoved f found named isFolder mask =>
        exact absurd (grown.not_removed queue isFolder) mask
    | fontsDirAdded =>
        refine ⟨fun _ _ => id, ?_⟩
        intro t mem
        rcases List.mem_cons.mp mem with rfl | old
        · trivial
        · exact idle t old
    | fontsDirRemoved =>
        refine ⟨?_, ?_⟩
        · unfold FontMonitor.modifyX11FontPath
          split
          · exact fun _ _ => id
          · split <;> exact fun _ _ => id
        · intro t mem
          rcases (modifyX11FontPath_cases _ _).2 t mem with rfl | old
          · trivial
          · exact idle t old
  refine ⟨current.noFolder, fun t mem => stays.2 t (List.mem_of_mem_head? mem), ?_⟩
  intro p f found
  have found := stays.1 p f found
  have before := current.settled p f found
  have pending : s.pending f.wd = (event :: events).filter (ofFontsDir f.wd) := by
    rw [System.pending, queue]
  rw [reads.2, pending] at before
  suffices settled : settle (s.present p)
      (outlook (s.monitor.handleEvent event).tasks.head? (s.present p) f)
      (events.filter (ofFontsDir f.wd)) = s.present p from settled
  by_cases isOf : ofFontsDir f.wd event = true
  · rw [outlook_handleEvent grown reads.2 queue found isOf]
    rw [List.filter_cons_of_pos isOf] at before
    exact before
  · rw [outlook_otherEvent reads.2 found isOf]
    rw [List.filter_cons_of_neg isOf] at before
    exact before

/-- A folder that is to be added, or not. -/
theorem head_addMonitorFolder {m : FontMonitor} {tested : Bool}
    (waits : ∀ t ∈ m.tasks, t.Waits) (path : Path) :
    ∀ t ∈ (m.addMonitorFolder path).tasks.head?, t.Aside ∧ t.Tested tested := by
  intro t mem
  rcases (addMonitorFolder_cases path).2.2 t (List.mem_of_mem_head? mem) with rfl | old
  · exact ⟨trivial, trivial⟩
  · exact ⟨(waits t old).aside, (waits t old).tested tested⟩

/-- `Start` tracks no folder, and goes on, gives up or comes to the roots. -/
theorem current_starts (current : Current s) (grown : Grown s)
    (tasks : s.monitor.tasks = t :: rest) (starts : t.Starts) :
    Current (s.answered c t rest) := by
  rcases System.answered_starts starts s c rest with ⟨served, next⟩ | ⟨user, alt, rfl, can⟩
  · refine current_aside current (by rw [System.answered, served]) ?_ ?_ ?_
    · intro p f found
      rcases next with gaveUp | ⟨t', starts', goesOn⟩
      · rw [gaveUp, grown.busy.stop_of_starts tasks starts] at found
        cases FolderMap.find?_empty.symm.trans found
      · rw [goesOn] at found
        exact found
    · rw [tasks]
      rintro u ⟨⟩
      cases t <;> trivial
    · intro u mem
      rcases next with gaveUp | ⟨t', starts', goesOn⟩
      · rw [gaveUp, grown.busy.stop_of_starts tasks starts] at mem
        cases mem
      · rw [goesOn] at mem
        cases mem
        cases u <;> first | exact ⟨trivial, trivial⟩ | exact starts'.elim
  · obtain ⟨alone, none_⟩ := grown.busy.starting _ _ tasks starts
    rw [System.answered_startInit can, alone]
    refine ⟨current.noFolder, ?_, ?_⟩
    · intro u mem
      rcases mem_startRoots (List.mem_of_mem_head? mem) with ⟨-, rfl⟩ | ⟨-, rfl⟩ | rfl | old
      · trivial
      · trivial
      · trivial
      · cases old
    · intro p f found
      cases (none_ p).symm.trans found

theorem current_answered (current : Current s) (grown : Grown s)
    (tasks : s.monitor.tasks = t :: rest) (xset : c.xset = true)
    (holds : ∀ folder, t = .addWatch folder → c.watch = true →
      (s.tested = true ↔ System.HasFontsDir s.kernel folder.path)) :
    Current (s.answered c t rest) := by
  have waits : ∀ t ∈ rest, t.Waits := by
    have waiting := grown.busy.waiting
    rw [tasks] at waiting
    exact waiting
  have later : ∀ tested, ∀ t ∈ rest.head?, t.Aside ∧ t.Tested tested := fun tested t mem =>
    ⟨(waits t (List.mem_of_mem_head? mem)).aside,
      (waits t (List.mem_of_mem_head? mem)).tested tested⟩
  have isTested : t.Tested s.tested := current.tested t (by rw [tasks]; rfl)
  -- most tasks are not about the font path of a tracked folder
  by_cases starts : t.Starts
  · exact current_starts current grown tasks starts
  have calm : t.Aside → t.KeepsFolders (s.serve c t).1 → (s.serve c t).2.kernel = s.kernel →
      (∀ u ∈ (s.answered c t rest).monitor.tasks.head?,
        u.Aside ∧ u.Tested (s.serve c t).2.tested) → Current (s.answered c t rest) := by
    intro aside keeps kernel aside'
    refine current_aside current kernel ?_ ?_ aside'
    · intro p f found
      rw [System.answered, folders_resume keeps] at found
      exact found
    · rw [tasks]
      rintro u ⟨⟩
      exact aside
  cases t with
  | access path =>
      refine calm trivial trivial rfl ?_
      intro u mem
      by_cases isThere : System.HasFontsDir s.kernel path
      · simp only [System.answered, System.serve, FontMonitor.resume, FontMonitor.call,
          decide_eq_true isThere, if_true, List.head?_cons, Option.mem_some_iff] at mem
        subst mem
        exact ⟨trivial, decide_eq_true isThere⟩
      · simp only [System.answered, System.serve, FontMonitor.resume, FontMonitor.call,
          decide_eq_false isThere, Bool.false_eq_true, if_false, List.head?_cons,
          Option.mem_some_iff] at mem
        subst mem
        exact ⟨trivial, (decide_eq_false isThere).symm⟩
  | addPath path =>
      refine calm trivial trivial rfl ?_
      rintro u ⟨⟩
      exact ⟨trivial, xset.trans isTested.symm⟩
  | addWatch folder =>
      by_cases refused : c.watch = true → s.kernel.inode? folder.path = none
      · -- it is destroyed
        have served := System.serve_addWatch_refused refused
        refine calm trivial ?_ (by rw [served]) ?_
        · rw [served]
          exact System.noWatch
        simp only [System.answered, served, FontMonitor.resume,
          if_neg (Int.not_le.mpr System.noWatch)]
        rintro u ⟨⟩
        exact ⟨trivial, trivial⟩
      · obtain ⟨room, found⟩ := Classical.not_imp.mp refused
        obtain ⟨i, found⟩ := Option.ne_none_iff_exists'.mp found
        rw [grown.answered_addWatch tasks room found]
        exact current_watchedFolder current grown tasks (holds folder rfl room)
  | existsX11 =>
      refine calm trivial trivial rfl ?_
      simp only [System.answered, FontMonitor.resume]
      split
      · exact head_addMonitorFolder waits _
      · exact later _
  | openDirectory path =>
      refine calm trivial trivial rfl ?_
      simp only [System.answered, FontMonitor.resume]
      split
      · rintro u ⟨⟩
        exact ⟨trivial, trivial⟩
      · exact later _
  | nextEntry path =>
      refine calm trivial trivial ?_ ?_
      · simp only [System.serve]
        split <;> rfl
      · have again : ∀ u ∈ Task.nextEntry path :: rest, u.Waits := by
          intro u mem
          rcases List.mem_cons.mp mem with rfl | old
          · trivial
          · exact waits u old
        simp only [System.answered, FontMonitor.resume]
        split
        · exact later _
        · split
          · exact @head_addMonitorFolder
              (FontMonitor.call { s.monitor with tasks := rest } (.nextEntry path)) _ again _
          · rintro u ⟨⟩
            exact ⟨trivial, trivial⟩
  | destroy folder =>
      obtain ⟨f, ⟨⟩, free⟩ := grown.unwatched (.destroy folder)
        (by rw [tasks]; exact List.mem_cons_self) trivial
      refine calm trivial trivial rfl ?_
      simp only [System.answered, FontMonitor.resume, if_neg (Int.not_le.mpr free)]
      exact later _
  | rmWatch wd =>
      obtain ⟨f, isDestroy, -⟩ := grown.unwatched (.rmWatch wd)
        (by rw [tasks]; exact List.mem_cons_self) trivial
      cases isDestroy
  | testFontsDir path => exact current_testFontsDir current grown tasks
  | modify path isAdd => exact current_modify current grown tasks xset
  | add path =>
      exact calm trivial trivial rfl (head_addMonitorFolder waits _)
  | createThread => exact calm trivial trivial rfl (later _)
  | _ => exact absurd trivial starts

end Steps

/-! ### Runs -/

/-- Others make no folder called `fonts.dir`, and `xset` succeeds. -/
def Move.Ordinary : Move → Prop
  | env (.mkdir _ n) => n ≠ fontsDir
  | call c => c.xset = true
  | _ => True

instance : DecidablePred Move.Ordinary
  | .env (.mkdir _ n) => inferInstanceAs (Decidable (n ≠ fontsDir))
  | .call c => inferInstanceAs (Decidable (c.xset = true))
  | .env (.file _ _ _) | .env (.rmdir _ _) | .env (.rename _ _ _ _) => isTrue trivial
  | .start | .stop | .read => isTrue trivial

/-- When the watch of a new folder is added, there is a `fonts.dir` exactly if the
constructor found one. -/
def TestHolds (t : System.Step) : Prop :=
  ∀ folder ∈ t.before.watched t.input,
    (t.before.tested = true ↔ System.HasFontsDir t.before.kernel folder.path)

instance (t : System.Step) : Decidable (TestHolds t) :=
  inferInstanceAs (Decidable (∀ folder ∈ t.before.watched t.input, (_ ↔ _)))

theorem noFolder_apply {s : System} (noFolder : ∀ p, ¬ s.kernel.IsDir (child p fontsDir))
    {op : Kernel.EnvOp} (grows : (Move.env op).Grows) (ordinary : (Move.env op).Ordinary) :
    ∀ p, ¬ (s.kernel.apply op).IsDir (child p fontsDir) := by
  have plain : Plain fontsDir := by decide
  intro p isDir
  cases op with
  | mkdir q n =>
      simp only [Kernel.apply, Kernel.mkdir] at isDir
      split at isDir
      · split at isDir
        · rename_i can
          rw [Kernel.IsDir, Kernel.inode?_notify,
            @Kernel.inode?_cons s.kernel _ _ (child q n, s.kernel.nextInode) rfl] at isDir
          split at isDir
          · rename_i same
            exact ordinary (child_inj can.1 plain same).2
          · exact noFolder p isDir
        · exact noFolder p isDir
      · exact noFolder p isDir
  | file q n op =>
      simp only [Kernel.apply, Kernel.fileOp] at isDir
      split at isDir
      · split at isDir
        · rw [Kernel.IsDir, Kernel.inode?_notify] at isDir
          exact noFolder p isDir
        · exact noFolder p isDir
      · exact noFolder p isDir
  | rmdir q n => exact grows.elim
  | rename q n q' n' => exact grows.elim

theorem current_step {t : System.Step} (current : Current t.before) (grown : Grown t.before)
    (grows : t.input.Grows) (ordinary : t.input.Ordinary) (holds : TestHolds t) :
    Current (t.before.step t.input).2 := by
  refine System.keeps current t.input ?env ?start ?stop ?read ?call
  case env =>
    intro op isOp
    rw [isOp] at grows ordinary
    have noFolder := noFolder_apply current.noFolder grows ordinary
    refine current_changed current noFolder fun p wd isWd => ?_
    cases op with
    | mkdir q n => exact change_mkdir grown current.noFolder isWd q noFolder
    | file q n op => exact change_fileOp grown current.noFolder isWd q n op
    | rmdir q n => exact grows.elim
    | rename q n q' n' => exact grows.elim
  case start =>
    intro _ _ idle
    refine current_aside current rfl (fun _ _ => id) ?_ ?_
    · rw [idle]
      nofun
    · rintro u ⟨⟩
      exact ⟨trivial, trivial⟩
  case stop =>
    intro isStop
    rw [isStop] at grows
    exact grows.elim
  case read =>
    intro event events _ queue reads
    exact current_read current grown queue reads
  case call =>
    intro c u rest isCall tasks
    rw [isCall] at ordinary
    refine current_answered current grown tasks ordinary ?_
    rintro folder rfl room
    rw [TestHolds, isCall] at holds
    exact holds folder (System.mem_watched tasks room)

theorem current_boot {k : Kernel} (noFolder : ∀ p, ¬ k.IsDir (child p fontsDir)) :
    Current (System.boot k) := by
  refine ⟨noFolder, nofun, ?_⟩
  intro p f found
  cases FolderMap.find?_empty.symm.trans found

/-- While others only make folders, and files that come and go, and `xset` succeeds, in
every run in which no `fonts.dir` comes or goes between the test of a constructor and its
watch: whenever no event is queued and no handler runs, each tracked folder is on the font
path exactly if it has a `fonts.dir`. -/
theorem added_iff_fontsDir (k : Kernel) (tree : k.Tree)
    (noFolder : ∀ p, ¬ k.IsDir (child p fontsDir)) (moves : List Move)
    (grows : ∀ move ∈ moves, move.Grows) (ordinary : ∀ move ∈ moves, move.Ordinary)
    (holds : ∀ t ∈ transitions System.step (System.boot k) moves, TestHolds t) :
    (System.after k moves).Quiet → ∀ p f,
      (System.after k moves).monitor.fontMonitorFolders.find? p = some f →
        (f.isPathAdded = true ↔
          System.HasFontsDir (System.after k moves).kernel p) := by
  have current : Grown (System.after k moves) ∧
      Current (System.after k moves) := by
    refine @invariant_finish _ _ _ System.step (fun s => Grown s ∧ Current s)
      (fun t => t.input.Grows ∧ t.input.Ordinary ∧ TestHolds t) ?_ (System.boot k) moves
      ⟨grown_boot tree, current_boot noFolder⟩ ?_
    · rintro t taken ⟨isGrowth, isOrdinary, testHolds⟩ ⟨grown, current⟩
      have after : (t.before.step t.input).2 = t.after := (Prod.mk.inj taken).2
      rw [← after]
      exact ⟨grown_step grown isGrowth,
        current_step current grown isGrowth isOrdinary testHolds⟩
    · intro t mem
      have isMove := input_of_mem mem
      exact ⟨grows _ isMove, ordinary _ isMove, holds t mem⟩
  intro quiet p f found
  have settled := current.2.settled p f found
  rw [quiet.2, System.pending, quiet.1] at settled
  have same : f.isPathAdded = System.present _ p := settled
  rw [same, System.present]
  exact decide_eq_true_iff

/-- A `fonts.dir` comes once its folder is watched. -/
def fontsDirComes : List Move :=
  .start :: List.replicate 11 (.call {}) ++
    .env (.file altDistroFontPath fontsDir .create) :: .read :: List.replicate 2 (.call {})

theorem noFolder_altTree (p : Path) : ¬ System.altTree.IsDir (child p fontsDir) := by
  intro isDir
  obtain ⟨i, found⟩ := Kernel.isDir_iff.mp isDir
  have none_ : ∀ d ∈ System.altTree.dirs, ¬ (slash :: fontsDir) <:+ d.1 := by decide
  exact none_ _ (Kernel.mem_dirs_of_inode? found) (List.suffix_append _ _)

theorem added_iff_fontsDir_fontsDirComes :
    ∃ f, (System.after System.altTree fontsDirComes).monitor.fontMonitorFolders.find?
      altDistroFontPath = some f ∧ f.isPathAdded = true := by
  have tree : System.altTree.Tree := ⟨by decide, by decide, by decide, by decide⟩
  have iff := added_iff_fontsDir System.altTree tree noFolder_altTree fontsDirComes
    (by decide) (by decide) (by decide +kernel) (by decide +kernel)
  have isTracked : (System.after System.altTree fontsDirComes).Tracked altDistroFontPath := by
    decide +kernel
  obtain ⟨f, found⟩ := FolderMap.has_iff.mp isTracked
  exact ⟨f, found, (iff _ f found).mpr (by decide +kernel)⟩

/-- A `fonts.dir` comes when the constructor has looked for it, and before the folder is
watched. -/
def fontsDirMissed : List Move :=
  .start :: List.replicate 7 (.call {}) ++
    .env (.file altDistroFontPath fontsDir .create) :: List.replicate 4 (.call {})

/-- Nobody is told of it: the folder stays off the font path. -/
theorem fontsDirMissed_not_added :
    (∀ move ∈ fontsDirMissed, move.Grows ∧ move.Ordinary) ∧
      (System.after System.altTree fontsDirMissed).Quiet ∧
      ¬ ∀ p f,
        (System.after System.altTree fontsDirMissed).monitor.fontMonitorFolders.find? p = some f →
          (f.isPathAdded = true ↔
            System.HasFontsDir (System.after System.altTree fontsDirMissed).kernel p) := by
  refine ⟨by decide, by decide +kernel, fun always => ?_⟩
  have iff := always altDistroFontPath { path := altDistroFontPath, wd := 1 } (by decide +kernel)
  exact absurd (iff.mpr (by decide +kernel)) Bool.false_ne_true

end Wslg.Fonts
