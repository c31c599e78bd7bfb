/-
The tracked folders as an image of the tree.

A folder is tracked because it is a root or because a tracked folder told of it, by an
event or by its stream; so its parent is tracked. A watch descriptor is of one directory;
so two entries hold the same one only if they are of the same directory. Both are lost
when a folder with tracked subfolders is renamed or moved out: `AddMonitorFolder` takes
the subfolders in, `RemoveMonitorFolder` leaves them. Their parent is not tracked then, and
if the directory comes back under another path, its subfolders are tracked twice, with the
one watch there is.

They are kept, over any run, by the steps that remove no parent of a tracked folder and
watch no directory that a tracked folder watches already.
-/

import Wslg.WSLGd.FontSystem

namespace Wslg.Fonts

open Wslg.Inotify Wslg.Protocol Wslg.Runs

/-! ### The image -/

def IsRoot (p : Path) : Prop := p = userDistroFontPath ∨ p = altDistroFontPath

instance (p : Path) : Decidable (IsRoot p) := inferInstanceAs (Decidable (_ ∨ _))

/-- A root, or the parent is tracked. -/
def Placed (folders : FolderMap) (p : Path) : Prop :=
  IsRoot p ∨ ∃ q, IsChild q p ∧ folders.Has q

/-- The folder of a task has its place among the tracked ones. -/
def Task.Backed (folders : FolderMap) : Task → Prop
  | access path => Placed folders path
  | addPath path => Placed folders path
  | addWatch folder => Placed folders folder.path
  | existsX11 => folders.Has userDistroFontPath
  | openDirectory path => folders.Has path
  | nextEntry path => folders.Has path
  | add path => IsRoot path
  | _ => True

/-- Watch descriptors below `nextWd` are given out. -/
structure Image (m : FontMonitor) (nextWd : Nat) : Prop where
  below : ∀ p f, m.fontMonitorFolders.find? p = some f → f.wd < nextWd
  apart : ∀ p q f g, m.fontMonitorFolders.find? p = some f → m.fontMonitorFolders.find? q = some g →
    f.wd = g.wd → p = q
  placed : ∀ p, m.fontMonitorFolders.Has p → Placed m.fontMonitorFolders p
  backed : ∀ t ∈ m.tasks, t.Backed m.fontMonitorFolders

section Image

variable {m : FontMonitor} {folders folders' : FolderMap} {thread : Bool} {t : Task}
  {rest : List Task} {w w' : Nat}

theorem Placed.mono (keys : ∀ p, folders.Has p → folders'.Has p) {p : Path}
    (placed : Placed folders p) : Placed folders' p :=
  placed.imp_right fun ⟨q, isChild, has⟩ => ⟨q, isChild, keys q has⟩

theorem Task.Backed.mono (keys : ∀ p, folders.Has p → folders'.Has p)
    (backed : t.Backed folders) : t.Backed folders' := by
  cases t with
  | access path => exact Placed.mono keys backed
  | addPath path => exact Placed.mono keys backed
  | addWatch folder => exact Placed.mono keys backed
  | existsX11 => exact keys _ backed
  | openDirectory path => exact keys _ backed
  | nextEntry path => exact keys _ backed
  | add path => exact backed
  | _ => trivial

theorem image_empty (tasks : ∀ t ∈ rest, t.Backed .empty) : Image ⟨.empty, thread, rest⟩ w := by
  constructor
  · intro p f found
    cases FolderMap.find?_empty.symm.trans found
  · intro p q f g found
    cases FolderMap.find?_empty.symm.trans found
  · intro p has
    obtain ⟨f, found⟩ := FolderMap.has_iff.mp has
    cases FolderMap.find?_empty.symm.trans found
  · exact tasks

theorem Image.later (image : Image m w) (le : w ≤ w') : Image m w' := by
  refine ⟨?_, image.apart, image.placed, image.backed⟩
  intro p f found
  have := image.below p f found
  omega

/-- Tasks come and go. -/
theorem Image.tasks (image : Image ⟨folders, thread, t :: rest⟩ w) {thread' : Bool}
    {tasks : List Task} (backed : ∀ u ∈ tasks, u ∈ rest ∨ u.Backed folders) :
    Image ⟨folders, thread', tasks⟩ w := by
  refine ⟨image.below, image.apart, image.placed, ?_⟩
  intro u mem
  rcases backed u mem with old | new
  · exact image.backed u (List.mem_cons_of_mem _ old)
  · exact new

theorem Image.pop (image : Image ⟨folders, thread, t :: rest⟩ w) :
    Image ⟨folders, thread, rest⟩ w := image.tasks fun _ => Or.inl

theorem Image.call (image : Image m w) (backed : t.Backed m.fontMonitorFolders) :
    Image (m.call t) w := by
  refine ⟨image.below, image.apart, image.placed, ?_⟩
  intro u mem
  rcases List.mem_cons.mp mem with rfl | old
  · exact backed
  · exact image.backed u old

theorem image_addMonitorFolder (image : Image m w) {path : Path}
    (placed : Placed m.fontMonitorFolders path) : Image (m.addMonitorFolder path) w := by
  unfold FontMonitor.addMonitorFolder
  split
  · exact image.call placed
  · exact image

theorem image_modifyX11FontPath (image : Image m w) (path : Path) (isAdd : Bool) :
    Image (m.modifyX11FontPath path isAdd) w := by
  unfold FontMonitor.modifyX11FontPath
  split
  · exact image
  · split
    · exact image.call trivial
    · exact image

/-- A folder goes that is the parent of none. -/
theorem image_removeMonitorFolder (image : Image m w) (idle : m.tasks = []) {path : Path}
    (spares : ∀ p, IsChild path p → ¬ m.fontMonitorFolders.Has p) :
    Image (m.removeMonitorFolder path) w := by
  unfold FontMonitor.removeMonitorFolder
  split
  · exact image
  rename_i f tracked
  have before : ∀ {p g}, (m.fontMonitorFolders.erase path).find? p = some g →
      m.fontMonitorFolders.find? p = some g := by
    intro p g found
    rw [FolderMap.find?_erase] at found
    split at found
    · cases found
    · exact found
  constructor
  · intro p g found
    exact image.below p g (before found)
  · intro p q g g' found found'
    exact image.apart p q g g' (before found) (before found')
  · intro p has
    have old := (FolderMap.has_erase.mp has).2
    refine (image.placed p old).imp_right ?_
    rintro ⟨q, isChild, parent⟩
    refine ⟨q, isChild, FolderMap.has_erase.mpr ⟨?_, parent⟩⟩
    rintro rfl
    exact spares p isChild old
  · intro t mem
    rcases List.mem_cons.mp mem with rfl | old
    · trivial
    · rw [idle] at old
      cases old

/-- A folder comes, with a descriptor that no other has. -/
theorem image_set {f : FontFolder} (image : Image ⟨folders, thread, .addWatch f :: rest⟩ w)
    {wd : Int} (lt : wd < w)
    (unshared : ∀ p g, folders.find? p = some g → g.wd ≠ wd) :
    Image ⟨folders.set { f with wd := wd }, thread, Task.subfolders f.path :: rest⟩ w := by
  have keys : ∀ p, folders.Has p → (folders.set { f with wd := wd }).Has p := fun p has =>
    FolderMap.has_set.mpr (Or.inr has)
  have cases : ∀ {p g}, (folders.set { f with wd := wd }).find? p = some g →
      p = f.path ∧ g.wd = wd ∨ folders.find? p = some g := by
    intro p g found
    rw [FolderMap.find?_set] at found
    split at found
    · rename_i isPath
      cases found
      exact Or.inl ⟨isPath, rfl⟩
    · exact Or.inr found
  constructor
  · intro p g found
    rcases cases found with ⟨-, rfl⟩ | old
    · exact lt
    · exact image.below p g old
  · intro p q g g' found found' same
    rcases cases found with ⟨rfl, isWd⟩ | old
    · rcases cases found' with ⟨rfl, -⟩ | old'
      · rfl
      · exact absurd (same.symm.trans isWd) (unshared q g' old')
    · rcases cases found' with ⟨rfl, isWd⟩ | old'
      · exact absurd (same.trans isWd) (unshared p g old)
      · exact image.apart p q g g' old old' same
  · intro p has
    refine Placed.mono keys ?_
    rcases FolderMap.has_set.mp has with rfl | old
    · exact image.backed _ List.mem_cons_self
    · exact image.placed p old
  · intro t mem
    rcases List.mem_cons.mp mem with rfl | old
    · have has : (folders.set { f with wd := wd }).Has f.path :=
        FolderMap.has_set.mpr (Or.inl rfl)
      unfold Task.subfolders
      split
      · rename_i isUser
        unfold Task.Backed
        rw [← isUser]
        exact has
      · exact has
    · exact (image.backed t (List.mem_cons_of_mem _ old)).mono keys

theorem image_setPathAdded (image : Image m w) (path : Path) (isAdd : Bool) :
    Image (m.setPathAdded path isAdd) w := by
  unfold FontMonitor.setPathAdded
  split
  · exact image
  rename_i f tracked
  have isPath := FolderMap.path_of_find? tracked
  have keys : ∀ p, (m.fontMonitorFolders.set { f with isPathAdded := isAdd }).Has p ↔
      m.fontMonitorFolders.Has p := by
    intro p
    rw [FolderMap.has_set]
    refine ⟨fun has => has.elim ?_ id, Or.inr⟩
    rintro rfl
    rw [isPath]
    exact FolderMap.has_of_find? tracked
  -- the descriptors are those of before
  have before : ∀ {p g}, (m.fontMonitorFolders.set { f with isPathAdded := isAdd }).find? p =
      some g → ∃ g', m.fontMonitorFolders.find? p = some g' ∧ g'.wd = g.wd := by
    intro p g found
    rw [FolderMap.find?_set] at found
    split at found
    · rename_i same
      cases found
      refine ⟨f, ?_, rfl⟩
      rw [same, isPath]
      exact tracked
    · exact ⟨g, found, rfl⟩
  constructor
  · intro p g found
    obtain ⟨g', old, same⟩ := before found
    rw [← same]
    exact image.below p g' old
  · intro p q g h found found' same
    obtain ⟨g', old, sameWd⟩ := before found
    obtain ⟨h', old', sameWd'⟩ := before found'
    exact image.apart p q g' h' old old' (sameWd.trans (same.trans sameWd'.symm))
  · intro p has
    exact Placed.mono (fun q => (keys q).mpr) (image.placed p ((keys p).mp has))
  · intro t mem
    exact (image.backed t mem).mono fun q => (keys q).mpr

/-- Whatever the answers, as long as a watch that is added is not one that a tracked folder
has, and entries have names of entries. -/
theorem image_resume {a : Answer} (orderly : Busy ⟨folders, thread, t :: rest⟩ ∨
      Emptied ⟨folders, thread, t :: rest⟩)
    (image : Image ⟨folders, thread, t :: rest⟩ w) (le : w ≤ w')
    (watch : ∀ f, t = .addWatch f → 0 ≤ a.wd →
      a.wd < w' ∧ ∀ p g, folders.find? p = some g → g.wd ≠ a.wd)
    (entry : ∀ n d, a.entry = some (n, d) → Plain n) :
    Image (FontMonitor.resume ⟨folders, thread, rest⟩ a t).2 w' := by
  have image := image.later le
  have popped := image.pop
  have here : t.Backed folders := image.backed t List.mem_cons_self
  by_cases starts : t.Starts
  · have busy : Busy ⟨folders, thread, t :: rest⟩ := by
      refine orderly.resolve_right fun emptied => ?_
      have destroys := emptied.destroys t List.mem_cons_self
      cases t <;> first | exact starts.elim | exact destroys.elim
    rcases resume_starts starts ⟨folders, thread, rest⟩ a with
      gaveUp | ⟨t', starts', goesOn⟩ | ⟨user, alt, -, -, roots⟩
    · rw [gaveUp, stop_of_starts busy starts]
      exact image_empty nofun
    · rw [goesOn]
      refine popped.call ?_
      cases t' <;> first | exact starts'.elim | trivial
    · rw [roots]
      refine image.tasks fun u mem => ?_
      rcases mem_startRoots mem with ⟨-, rfl⟩ | ⟨-, rfl⟩ | rfl | old
      · exact Or.inr (Or.inl rfl)
      · exact Or.inr (Or.inr rfl)
      · exact Or.inr trivial
      · exact Or.inl old
  cases t with
  | access path =>
      simp only [FontMonitor.resume]
      split
      · exact popped.call here
      · exact popped.call here
  | addPath path => exact popped.call here
  | addWatch folder =>
      by_cases watched : 0 ≤ a.wd
      · obtain ⟨lt, unshared⟩ := watch folder rfl watched
        rcases orderly with busy | emptied
        · rw [resume_addWatch busy watched]
          exact image_set image lt unshared
        · exact (emptied.destroys _ List.mem_cons_self).elim
      · simp only [FontMonitor.resume, if_neg watched]
        exact popped.call trivial
  | existsX11 =>
      simp only [FontMonitor.resume]
      split
      · refine image_addMonitorFolder popped (Or.inr ⟨userDistroFontPath, ?_, here⟩)
        exact isChild_child plain_x11
      · exact popped
  | openDirectory path =>
      simp only [FontMonitor.resume]
      split
      · exact popped.call here
      · exact popped
  | nextEntry path =>
      simp only [FontMonitor.resume]
      split
      · exact popped
      · rename_i name isDirectory isEntry
        have again := popped.call (t := .nextEntry path) here
        split
        · refine image_addMonitorFolder again (Or.inr ⟨path, ?_, here⟩)
          exact isChild_child (entry name isDirectory isEntry)
        · exact again
  | destroy folder =>
      simp only [FontMonitor.resume]
      split
      · exact popped.call trivial
      · exact popped
  | rmWatch wd => exact popped
  | testFontsDir path =>
      simp only [FontMonitor.resume]
      split
      · exact image_modifyX11FontPath popped _ _
      · exact popped
  | modify path isAdd =>
      simp only [FontMonitor.resume]
      split
      · exact image_setPathAdded popped _ _
      · exact popped
  | add path => exact image_addMonitorFolder popped (Or.inl here)
  | createThread => exact image.tasks fun _ => Or.inl
  | _ => exact absurd trivial starts

end Image

/-! ### Steps of the system -/

/-- The folder that an event removes. -/
def removedBy (m : FontMonitor) (event : Event) : Option Path :=
  if event.name ≠ [] ∧ has event.mask inIsDir = true ∧
      ¬ has event.mask (inCreate ||| inMovedTo) = true ∧
      has event.mask (inDelete ||| inMovedFrom) = true then
    (m.fontMonitorFolders.findByWd event.wd).map fun f => child f.path event.name
  else none

/-- A folder that a handled event removes has no tracked folder directly below it. -/
def SparesParents (t : System.Step) : Prop :=
  t.input = .read → t.before.Reads → ∀ event ∈ t.before.kernel.queue.head?,
    ∀ q ∈ removedBy t.before.monitor event,
      ∀ f ∈ t.before.monitor.fontMonitorFolders.folders, ¬ IsChild q f.path

instance (t : System.Step) : Decidable (SparesParents t) :=
  inferInstanceAs (Decidable (t.input = .read → t.before.Reads → _))

/-- A directory that `inotify_add_watch` is called for is not one that a tracked folder
watches. -/
def WatchesNew (t : System.Step) : Prop :=
  ∀ folder ∈ t.before.watched t.input, ∀ i ∈ t.before.kernel.inode? folder.path,
    ∀ f ∈ t.before.monitor.fontMonitorFolders.folders, t.before.kernel.watches i ≠ some f.wd

instance (t : System.Step) : Decidable (WatchesNew t) :=
  inferInstanceAs (Decidable (∀ folder ∈ t.before.watched t.input, _))

/-- The monitor's folders are an image of the tree, and the kernel's descriptors and names
are as they are given out. -/
structure Faithful (s : System) : Prop where
  orderly : Busy s.monitor ∨ Emptied s.monitor
  image : Image s.monitor s.kernel.nextWd
  distinct : s.kernel.Distinct
  queued : ∀ e ∈ s.kernel.queue, Plain e.name
  due : s.PlainDue

section Faithful

variable {s : System}

/-- What a call does to the kernel. -/
theorem faithful_serve (distinct : s.kernel.Distinct) (queued : ∀ e ∈ s.kernel.queue, Plain e.name)
    (c : Choice) (t : Task) :
    (s.serve c t).2.kernel.Distinct ∧ (∀ e ∈ (s.serve c t).2.kernel.queue, Plain e.name) ∧
      s.kernel.nextWd ≤ (s.serve c t).2.kernel.nextWd := by
  cases t with
  | addWatch folder =>
      simp only [System.serve]
      split
      · refine ⟨distinct.addWatch _, ?_, Kernel.nextWd_le_addWatch _ _⟩
        rw [Kernel.queue_addWatch]
        exact queued
      · exact ⟨distinct, queued, Nat.le_refl _⟩
  | nextEntry path =>
      simp only [System.serve]
      split
      · exact ⟨distinct, queued, Nat.le_refl _⟩
      · exact ⟨distinct, queued, Nat.le_refl _⟩
  | rmWatch wd => exact ⟨distinct.rmWatch wd, queued, Nat.le_refl _⟩
  | startInit user alt =>
      simp only [System.serve]
      split
      · exact ⟨Kernel.Distinct.init, (by rintro _ ⟨⟩), Nat.le_refl _⟩
      · exact ⟨distinct, queued, Nat.le_refl _⟩
  | _ => exact ⟨distinct, queued, Nat.le_refl _⟩

/-- The answer of a call is one that keeps the image. -/
theorem image_answered {c : Choice} {t : Task} {rest : List Task} (faithful : Faithful s)
    (tasks : s.monitor.tasks = t :: rest)
    (watchesNew : ∀ f, t = .addWatch f → c.watch = true → ∀ i ∈ s.kernel.inode? f.path,
      ∀ g ∈ s.monitor.fontMonitorFolders.folders, s.kernel.watches i ≠ some g.wd) :
    Image (s.answered c t rest).monitor (s.serve c t).2.kernel.nextWd := by
  obtain ⟨distinct, queued, le⟩ := faithful_serve faithful.distinct faithful.queued c t
  have orderly := faithful.orderly
  have image := faithful.image
  obtain ⟨⟨folders, thread, tasks'⟩, kernel, streams, user, alt⟩ := s
  simp only at tasks
  subst tasks
  refine image_resume orderly image le ?_ ?_
  · rintro folder rfl watched
    simp only [System.serve] at watched ⊢
    split at watched
    · rename_i room
      rw [if_pos room]
      simp only
      rcases Kernel.addWatch_cases kernel folder.path with
        ⟨-, eq⟩ | ⟨i, wd, found, held, eq⟩ | ⟨i, found, free, eq⟩
      · rw [eq] at watched
        cases watched
      · rw [eq]
        refine ⟨faithful.distinct.lt i wd held, ?_⟩
        rintro p g tracked rfl
        refine watchesNew folder rfl room i found g ?_ held
        rw [FolderMap.mem_folders, FolderMap.path_of_find? tracked]
        exact tracked
      · rw [eq]
        refine ⟨by push_cast; omega, ?_⟩
        intro p g tracked same
        have below := image.below p g tracked
        simp only at below
        omega
    · cases watched
  · intro n d isEntry
    cases t with
    | nextEntry path =>
        simp only [System.serve] at isEntry
        split at isEntry
        · cases isEntry
        · rename_i m next
          cases isEntry
          exact System.plain_nextName faithful.due next
    | addWatch folder =>
        simp only [System.serve] at isEntry
        split at isEntry <;> cases isEntry
    | startInit user alt =>
        simp only [System.serve] at isEntry
        split at isEntry <;> cases isEntry
    | _ => cases isEntry

theorem faithful_step {t : System.Step} (taken : Taken System.step t)
    (meets : SparesParents t ∧ WatchesNew t) (faithful : Faithful t.before) :
    Faithful t.after := by
  obtain ⟨s, move, calls, s'⟩ := t
  obtain ⟨spares, watchesNew⟩ := meets
  have after : (s.step move).2 = s' := (Prod.mk.inj taken).2
  subst after
  have orderly := System.orderly_step faithful.orderly move
  refine @System.keeps (fun s' => Busy s'.monitor ∨ Emptied s'.monitor → Faithful s') s
    (fun _ => faithful) move ?env ?start ?stop ?read ?call orderly
  case env =>
    intro op _ orderly
    have disturbs := Kernel.disturbs_apply s.kernel op
    refine ⟨orderly, ?_, faithful.distinct.disturbs disturbs, ?_, faithful.due⟩
    · rw [disturbs.nextWd]
      exact faithful.image
    · obtain ⟨es, queue, named⟩ := disturbs.queue
      intro e mem
      rw [queue] at mem
      rcases List.mem_append.mp mem with old | new
      · exact faithful.queued e old
      · exact (named e new).2
  case start =>
    intro _ _ _ orderly
    exact ⟨orderly, faithful.image.call trivial, faithful.distinct, faithful.queued, faithful.due⟩
  case stop =>
    intro _ idle orderly
    refine ⟨orderly, image_empty ?_, faithful.distinct, faithful.queued, faithful.due⟩
    intro t mem
    rw [idle, List.append_nil] at mem
    obtain ⟨f, -, rfl⟩ := List.mem_map.mp mem
    trivial
  case read =>
    intro event events isRead queue reads orderly
    have named : Plain event.name := faithful.queued event (by rw [queue]; exact List.mem_cons_self)
    refine ⟨orderly, ?_, faithful.distinct.read queue, ?_, faithful.due⟩
    · have spared := spares isRead reads event (by rw [queue]; rfl)
      have handled := handled_handleEvent s.monitor event
      generalize s.monitor.handleEvent event = m' at handled ⊢
      cases handled with
      | ignored => exact faithful.image
      | folderAdded f found =>
          have has := FolderMap.has_of_find? (FolderMap.find?_of_findByWd found).1
          exact image_addMonitorFolder faithful.image
            (Or.inr ⟨f.path, isChild_child named, has⟩)
      | folderRemoved f found notEmpty isFolder mask mask' =>
          refine image_removeMonitorFolder faithful.image reads.2 ?_
          intro p isChild has
          obtain ⟨g, tracked⟩ := FolderMap.has_iff.mp has
          have isPath := FolderMap.path_of_find? tracked
          refine spared (child f.path event.name) ?_ g ?_ ?_
          · rw [removedBy, if_pos ⟨notEmpty, isFolder, mask, mask'⟩, found]
            rfl
          · rw [FolderMap.mem_folders, isPath]
            exact tracked
          · rw [isPath]
            exact isChild
      | fontsDirAdded => exact faithful.image.call trivial
      | fontsDirRemoved => exact image_modifyX11FontPath faithful.image _ _
    · intro e mem
      exact faithful.queued e (by rw [queue]; exact List.mem_cons_of_mem _ mem)
  case call =>
    intro c t rest isCall tasks orderly
    obtain ⟨distinct, queued, -⟩ := faithful_serve faithful.distinct faithful.queued c t
    refine ⟨orderly, image_answered faithful tasks ?_, distinct, queued,
      System.plainDue_serve faithful.due c t⟩
    rintro f rfl room
    subst isCall
    exact watchesNew f (System.mem_watched tasks room)

end Faithful

/-! ### Runs -/

/-- Every tracked folder but the roots has its parent tracked; no two hold the same watch
descriptor; and the folder that an event is attributed to is the one with its descriptor. -/
structure FaithfulImage (s : System) : Prop where
  parents : ∀ p, s.Tracked p → IsRoot p ∨ ∃ q, IsChild q p ∧ s.Tracked q
  descriptors : ∀ p q f g, s.monitor.fontMonitorFolders.find? p = some f →
    s.monitor.fontMonitorFolders.find? q = some g → f.wd = g.wd → p = q
  attributed : ∀ p f, s.monitor.fontMonitorFolders.find? p = some f →
    s.monitor.fontMonitorFolders.findByWd f.wd = some f

theorem faithful_boot (k : Kernel) : Faithful (System.boot k) :=
  ⟨Or.inl busy_start, image_empty nofun, Kernel.Distinct.init, nofun, nofun⟩

/-- In every run in which no removed folder leaves a tracked one without its parent, and no
directory is watched that a tracked folder watches, the tracked folders are a faithful
image wherever the run ends. -/
theorem tracked_image (k : Kernel) (moves : List Move)
    (meets : ∀ t ∈ transitions System.step (System.boot k) moves,
      SparesParents t ∧ WatchesNew t) :
    FaithfulImage (System.after k moves) := by
  have faithful : Faithful (System.after k moves) :=
    invariant_finish (fun t taken meets => faithful_step taken meets) (faithful_boot k) meets
  have image := faithful.image
  refine ⟨image.placed, image.apart, ?_⟩
  intro p f tracked
  cases found : FolderMap.findByWd _ f.wd with
  | none => exact absurd rfl (FolderMap.wd_of_findByWd_none found tracked)
  | some g =>
      obtain ⟨tracked', same⟩ := FolderMap.find?_of_findByWd found
      have samePath := image.apart _ p g f tracked' tracked same
      rw [samePath] at tracked'
      exact tracked'.symm.trans tracked

/-- A folder comes and goes. -/
def comesAndGoes : List Move :=
  .start :: List.replicate 11 (.call {}) ++
    .env (.mkdir altDistroFontPath (cxx "a")) :: .read :: List.replicate 4 (.call {}) ++
    .env (.rmdir altDistroFontPath (cxx "a")) :: .read :: List.replicate 2 (.call {})

theorem tracked_image_comesAndGoes :
    FaithfulImage (System.after System.altTree comesAndGoes) :=
  tracked_image System.altTree comesAndGoes (by decide +kernel)

/-- A folder with a subfolder is there at `Start`, and is renamed. -/
def renamesFolder : List Move :=
  .env (.mkdir altDistroFontPath (cxx "a")) ::
    .env (.mkdir (child altDistroFontPath (cxx "a")) (cxx "b")) ::
    .start :: List.replicate 21 (.call {}) ++
    .env (.rename altDistroFontPath (cxx "a") altDistroFontPath (cxx "c")) ::
    .read :: List.replicate 2 (.call {}) ++ .read :: List.replicate 9 (.call {})

def folderRenamed : System := System.after System.altTree renamesFolder

/-- The subfolder stays under its old path, without its parent, and is tracked under its
new one too, with the same watch. -/
theorem folderRenamed_not_faithful :
    folderRenamed.Quiet ∧
      (¬ ∀ p, folderRenamed.Tracked p → IsRoot p ∨ ∃ q, IsChild q p ∧ folderRenamed.Tracked q) ∧
      ¬ ∀ p q f g, folderRenamed.monitor.fontMonitorFolders.find? p = some f →
        folderRenamed.monitor.fontMonitorFolders.find? q = some g → f.wd = g.wd → p = q := by
  have old : folderRenamed.Tracked (child (child altDistroFontPath (cxx "a")) (cxx "b")) := by
    decide +kernel
  refine ⟨by decide +kernel, fun parents => ?_, fun apart => ?_⟩
  · rcases parents _ old with root | ⟨q, isChild, tracked⟩
    · exact absurd root (by decide)
    · obtain ⟨n, plain, same⟩ := isChild_iff.mp isChild
      obtain ⟨rfl, -⟩ := child_inj plain (by decide) same
      exact absurd tracked (by decide +kernel)
  · have same := apart (child (child altDistroFontPath (cxx "a")) (cxx "b"))
      (child (child altDistroFontPath (cxx "c")) (cxx "b"))
      { path := child (child altDistroFontPath (cxx "a")) (cxx "b"), wd := 3 }
      { path := child (child altDistroFontPath (cxx "c")) (cxx "b"), wd := 3 }
      (by decide +kernel) (by decide +kernel) rfl
    exact absurd same (by decide)

end Wslg.Fonts
