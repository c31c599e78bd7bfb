/-
The font monitor while folders only come.

As long as others make folders and change files, and `Stop` is not called, the tracked
folders and the watches belong together: each tracked folder is there, with a watch on its
inode that has its descriptor, and each watch is that of a tracked folder. No path changes
its inode, so a folder that is not tracked is not watched, and its watch is a new one. No
watch ever goes.
-/

import Wslg.WSLGd.FontSystem

namespace Wslg.Fonts

open Wslg.Inotify Wslg.Protocol Wslg.Runs

/-- Others make folders and change files, and there is no `Stop`. -/
def Move.Grows : Move → Prop
  | env (.mkdir _ _) => True
  | env (.file _ _ _) => True
  | env _ => False
  | stop => False
  | _ => True

instance : DecidablePred Move.Grows
  | .env (.mkdir _ _) | .env (.file _ _ _) | .start | .read | .call _ => isTrue trivial
  | .env (.rmdir _ _) | .env (.rename _ _ _ _) | .stop => isFalse id

theorem grew_apply {op : Kernel.EnvOp} (grows : (Move.env op).Grows) (k : Kernel) :
    Kernel.Grew k (k.apply op) := by
  cases op with
  | mkdir p n => exact Kernel.grew_mkdir k p n
  | file p n op => exact Kernel.grew_fileOp k p n op
  | rmdir p n => exact grows.elim
  | rename p n p' n' => exact grows.elim

/-- The watch descriptor of a tracked folder. -/
def FontMonitor.wd? (m : FontMonitor) (p : Path) : Option Int :=
  (m.fontMonitorFolders.find? p).map (·.wd)

/-- A destructor has no watch to remove. -/
def Task.Unwatched (t : Task) : Prop := t.Destroys → ∃ f, t = .destroy f ∧ f.wd < 0

theorem Task.unwatched_of {t : Task} (makes : ¬ t.Destroys) : t.Unwatched :=
  fun destroys => absurd destroys makes

structure Grown (s : System) : Prop where
  busy : Busy s.monitor
  tree : s.kernel.Tree
  distinct : s.kernel.Distinct
  tracked : ∀ p wd, s.monitor.wd? p = some wd →
    ∃ i, s.kernel.inode? p = some i ∧ s.kernel.watches i = some wd
  watched : ∀ i wd, s.kernel.watches i = some wd →
    ∃ p, s.monitor.wd? p = some wd ∧ s.kernel.inode? p = some i
  queued : ∀ e ∈ s.kernel.queue, (∃ i, s.kernel.watches i = some e.wd) ∧ Plain e.name ∧
    (e.mask = inCreate ||| inIsDir ∨ ∃ op : Kernel.FileOp, e.mask = op.mask)
  unwatched : ∀ t ∈ s.monitor.tasks, t.Unwatched

/-! ### The monitor's part -/

section Monitor

variable {m : FontMonitor} {folders : FolderMap} {thread : Bool} {t : Task} {rest : List Task}

theorem wd?_eq_none (noneTracked : ∀ p, m.fontMonitorFolders.find? p = none) (p : Path) :
    m.wd? p = none := by
  rw [FontMonitor.wd?, noneTracked p]
  rfl

theorem has_iff_wd? {p : Path} : m.fontMonitorFolders.Has p ↔ ∃ wd, m.wd? p = some wd := by
  rw [FolderMap.has_iff]
  unfold FontMonitor.wd?
  constructor
  · rintro ⟨f, found⟩
    exact ⟨f.wd, by rw [found]; rfl⟩
  · rintro ⟨wd, found⟩
    obtain ⟨f, found, -⟩ := Option.map_eq_some_iff.mp found
    exact ⟨f, found⟩

theorem wd?_setPathAdded (path : Path) (isAdd : Bool) (p : Path) :
    (m.setPathAdded path isAdd).wd? p = m.wd? p := by
  unfold FontMonitor.setPathAdded
  split
  · rfl
  · rename_i f tracked
    have isPath := FolderMap.path_of_find? tracked
    simp only [FontMonitor.wd?, FolderMap.find?_set, isPath]
    by_cases same : p = path
    · simp [same, tracked]
    · simp [same]

theorem wd?_addMonitorFolder (path p : Path) : (m.addMonitorFolder path).wd? p = m.wd? p := by
  rw [FontMonitor.wd?, folders_addMonitorFolder, FontMonitor.wd?]

theorem wd?_modifyX11FontPath (path : Path) (isAdd : Bool) (p : Path) :
    (m.modifyX11FontPath path isAdd).wd? p = m.wd? p := by
  rw [FontMonitor.wd?, folders_modifyX11FontPath, FontMonitor.wd?]

/-- A folder that is to be added is tracked, or comes. -/
theorem addMonitorFolder_cases (path : Path) :
    ((m.addMonitorFolder path).fontMonitorFolders.Has path ∨
        Task.access path ∈ (m.addMonitorFolder path).tasks) ∧
      (∀ t ∈ m.tasks, t ∈ (m.addMonitorFolder path).tasks) ∧
      ∀ t ∈ (m.addMonitorFolder path).tasks, t = .access path ∨ t ∈ m.tasks := by
  unfold FontMonitor.addMonitorFolder
  split
  · exact ⟨Or.inr List.mem_cons_self, fun _ => List.mem_cons_of_mem _, fun _ => List.mem_cons.mp⟩
  · rename_i f tracked
    exact ⟨Or.inl (FolderMap.has_of_find? tracked), fun _ => id, fun _ => Or.inr⟩

theorem modifyX11FontPath_cases (path : Path) (isAdd : Bool) :
    (∀ t ∈ m.tasks, t ∈ (m.modifyX11FontPath path isAdd).tasks) ∧
      ∀ t ∈ (m.modifyX11FontPath path isAdd).tasks, t = .modify path isAdd ∨ t ∈ m.tasks := by
  unfold FontMonitor.modifyX11FontPath
  split
  · exact ⟨fun _ => id, fun _ => Or.inr⟩
  · split
    · exact ⟨fun _ => List.mem_cons_of_mem _, fun _ => List.mem_cons.mp⟩
    · exact ⟨fun _ => id, fun _ => Or.inr⟩

theorem tasks_setPathAdded (path : Path) (isAdd : Bool) :
    (m.setPathAdded path isAdd).tasks = m.tasks := by
  unfold FontMonitor.setPathAdded
  split <;> rfl

theorem unwatched_cons (unwatched : ∀ t ∈ rest, t.Unwatched) (makes : ¬ t.Destroys) :
    ∀ u ∈ t :: rest, u.Unwatched := by
  intro u mem
  rcases List.mem_cons.mp mem with rfl | old
  · exact Task.unwatched_of makes
  · exact unwatched u old

theorem unwatched_addMonitorFolder (unwatched : ∀ t ∈ m.tasks, t.Unwatched) (path : Path) :
    ∀ t ∈ (m.addMonitorFolder path).tasks, t.Unwatched := by
  intro t mem
  rcases (addMonitorFolder_cases path).2.2 t mem with rfl | old
  · exact Task.unwatched_of id
  · exact unwatched t old

theorem unwatched_modifyX11FontPath (unwatched : ∀ t ∈ m.tasks, t.Unwatched) (path : Path)
    (isAdd : Bool) : ∀ t ∈ (m.modifyX11FontPath path isAdd).tasks, t.Unwatched := by
  intro t mem
  rcases (modifyX11FontPath_cases path isAdd).2 t mem with rfl | old
  · exact Task.unwatched_of id
  · exact unwatched t old

/-- A call that adds no watch changes no descriptor. -/
theorem wd?_resume {a : Answer} (busy : Busy ⟨folders, thread, t :: rest⟩)
    (noWatch : ∀ f, t = .addWatch f → a.wd < 0) (p : Path) :
    (FontMonitor.resume ⟨folders, thread, rest⟩ a t).2.wd? p =
      FontMonitor.wd? ⟨folders, thread, rest⟩ p := by
  by_cases starts : t.Starts
  · rcases resume_starts starts ⟨folders, thread, rest⟩ a with
      gaveUp | ⟨t', starts', goesOn⟩ | ⟨user, alt, -, -, roots⟩
    · -- nothing was tracked
      have none_ := (busy.starting t rest rfl starts).2
      rw [gaveUp, stop_of_starts busy starts, wd?_eq_none fun _ => FolderMap.find?_empty]
      exact (wd?_eq_none none_ p).symm
    · rw [goesOn]
      rfl
    · rw [roots]
      rfl
  by_cases keeps : t.KeepsFolders a
  · rw [FontMonitor.wd?, folders_resume keeps, FontMonitor.wd?]
  cases t with
  | modify path isAdd =>
      simp only [FontMonitor.resume]
      split
      · exact wd?_setPathAdded _ _ p
      · rfl
  | addWatch folder => exact absurd (noWatch folder rfl) keeps
  | _ => first | exact absurd trivial keeps | exact absurd trivial starts

/-- It leaves no watch to remove, either. -/
theorem unwatched_resume {a : Answer} (unwatched : ∀ u ∈ t :: rest, u.Unwatched)
    (busy : Busy ⟨folders, thread, t :: rest⟩) (noWatch : ∀ f, t = .addWatch f → a.wd < 0) :
    ∀ u ∈ (FontMonitor.resume ⟨folders, thread, rest⟩ a t).2.tasks, u.Unwatched := by
  have later : ∀ u ∈ rest, u.Unwatched := fun u mem => unwatched u (List.mem_cons_of_mem _ mem)
  by_cases starts : t.Starts
  · rcases resume_starts starts ⟨folders, thread, rest⟩ a with
      gaveUp | ⟨t', starts', goesOn⟩ | ⟨user, alt, -, -, roots⟩
    · rw [gaveUp, stop_of_starts busy starts]
      nofun
    · rw [goesOn]
      refine unwatched_cons later ?_
      cases t' <;> first | exact starts'.elim | exact id
    · rw [roots]
      intro u mem
      rcases mem_startRoots mem with ⟨-, rfl⟩ | ⟨-, rfl⟩ | rfl | old
      · exact Task.unwatched_of id
      · exact Task.unwatched_of id
      · exact Task.unwatched_of id
      · exact later u old
  cases t with
  | access path =>
      simp only [FontMonitor.resume]
      split
      · exact unwatched_cons later id
      · exact unwatched_cons later id
  | addPath path => exact unwatched_cons later id
  | addWatch folder =>
      have refused := noWatch folder rfl
      simp only [FontMonitor.resume, if_neg (Int.not_le.mpr refused)]
      intro u mem
      rcases List.mem_cons.mp mem with rfl | old
      · exact fun _ => ⟨_, rfl, refused⟩
      · exact later u old
  | existsX11 =>
      simp only [FontMonitor.resume]
      split
      · exact unwatched_addMonitorFolder later _
      · exact later
  | openDirectory path =>
      simp only [FontMonitor.resume]
      split
      · exact unwatched_cons later id
      · exact later
  | nextEntry path =>
      simp only [FontMonitor.resume]
      split
      · exact later
      · split
        · exact unwatched_addMonitorFolder (unwatched_cons later id) _
        · exact unwatched_cons later id
  | destroy folder =>
      obtain ⟨f, ⟨⟩, free⟩ := unwatched _ List.mem_cons_self trivial
      simp only [FontMonitor.resume, if_neg (Int.not_le.mpr free)]
      exact later
  | rmWatch wd => exact later
  | testFontsDir path =>
      simp only [FontMonitor.resume]
      split
      · exact unwatched_modifyX11FontPath later _ _
      · exact later
  | modify path isAdd =>
      simp only [FontMonitor.resume]
      split
      · rw [tasks_setPathAdded]
        exact later
      · exact later
  | add path => exact unwatched_addMonitorFolder later _
  | createThread => exact later
  | _ => exact absurd trivial starts

end Monitor

/-! ### Steps -/

section Steps

variable {s s' : System}

/-- The monitor went on, with the same descriptors. -/
theorem Grown.sameKernel (grown : Grown s) (busy : Busy s'.monitor) (kernel : s'.kernel = s.kernel)
    (wds : ∀ p, s'.monitor.wd? p = s.monitor.wd? p)
    (unwatched : ∀ t ∈ s'.monitor.tasks, t.Unwatched) : Grown s' := by
  refine ⟨busy, ?_, ?_, ?_, ?_, ?_, unwatched⟩
  · rw [kernel]
    exact grown.tree
  · rw [kernel]
    exact grown.distinct
  · intro p wd isTracked
    rw [wds] at isTracked
    rw [kernel]
    exact grown.tracked p wd isTracked
  · intro i wd held
    rw [kernel] at held
    obtain ⟨p, isTracked, found⟩ := grown.watched i wd held
    exact ⟨p, by rw [wds]; exact isTracked, by rw [kernel]; exact found⟩
  · rw [kernel]
    exact grown.queued

/-- Others changed the tree. -/
theorem Grown.grew (grown : Grown s) {k : Kernel} (grew : Kernel.Grew s.kernel k) :
    Grown { s with kernel := k } := by
  obtain ⟨es, queue, added⟩ := grew.queue
  refine ⟨grown.busy, grew.tree grown.tree, ?_, ?_, ?_, ?_, grown.unwatched⟩
  · refine grown.distinct.disturbs ⟨?_, grew.nextWd, es, queue, ?_⟩
    · rw [grew.watches]
      exact fun _ _ => id
    · exact fun e mem => ⟨(added e mem).1, (added e mem).2.1⟩
  · intro p wd isTracked
    obtain ⟨i, found, held⟩ := grown.tracked p wd isTracked
    exact ⟨i, grew.inode? p i found, by simp only [grew.watches]; exact held⟩
  · intro i wd held
    simp only [grew.watches] at held
    obtain ⟨p, isTracked, found⟩ := grown.watched i wd held
    exact ⟨p, isTracked, grew.inode? p i found⟩
  · intro e mem
    simp only [queue] at mem
    simp only [grew.watches]
    rcases List.mem_append.mp mem with old | new
    · exact grown.queued e old
    · exact added e new

/-- The event that is read is of a tracked folder. -/
theorem Grown.handles (grown : Grown s) {event : Event} {events : List Event}
    (queue : s.kernel.queue = event :: events) :
    ∃ f, s.monitor.fontMonitorFolders.findByWd event.wd = some f := by
  obtain ⟨⟨i, held⟩, -⟩ := grown.queued event (by rw [queue]; exact List.mem_cons_self)
  obtain ⟨p, isTracked, -⟩ := grown.watched i event.wd held
  obtain ⟨f, found, same⟩ := Option.map_eq_some_iff.mp isTracked
  cases byWd : s.monitor.fontMonitorFolders.findByWd event.wd with
  | none => exact absurd same (FolderMap.wd_of_findByWd_none byWd found)
  | some g => exact ⟨g, rfl⟩

/-- No two tracked folders share a descriptor. -/
theorem Grown.alone (grown : Grown s) {p q : Path} {f g : FontFolder}
    (found : s.monitor.fontMonitorFolders.find? p = some f)
    (found' : s.monitor.fontMonitorFolders.find? q = some g) (same : g.wd = f.wd) : q = p := by
  have isWd : s.monitor.wd? p = some f.wd := by
    rw [FontMonitor.wd?, found]
    rfl
  have isWd' : s.monitor.wd? q = some f.wd := by
    rw [FontMonitor.wd?, found', Option.map_some, same]
  obtain ⟨i, isInode, held⟩ := grown.tracked p f.wd isWd
  obtain ⟨j, isInode', held'⟩ := grown.tracked q f.wd isWd'
  rw [grown.distinct.inj j i f.wd held' held] at isInode'
  exact grown.tree.inode?_inj isInode' isInode

/-- A tracked folder is found by its descriptor. -/
theorem Grown.findByWd (grown : Grown s) {p : Path} {f : FontFolder}
    (found : s.monitor.fontMonitorFolders.find? p = some f) :
    s.monitor.fontMonitorFolders.findByWd f.wd = some f :=
  FolderMap.findByWd_of_alone found fun _ _ => grown.alone found

/-- No event removes a folder. -/
theorem Grown.not_removed (grown : Grown s) {event : Event} {events : List Event}
    (queue : s.kernel.queue = event :: events) (isFolder : has event.mask inIsDir = true) :
    has event.mask (inCreate ||| inMovedTo) = true := by
  obtain ⟨-, -, mask⟩ := grown.queued event (by rw [queue]; exact List.mem_cons_self)
  rcases mask with isNew | ⟨op, isOp⟩
  · rw [isNew]
    decide
  · rw [isOp] at isFolder
    cases op <;> exact absurd isFolder (by decide)

theorem Grown.read (grown : Grown s) {event : Event} {events : List Event}
    (queue : s.kernel.queue = event :: events) (reads : s.Reads)
    (busy : Busy (s.monitor.handleEvent event)) :
    Grown { s with
      kernel := { s.kernel with queue := events }
      monitor := s.monitor.handleEvent event } := by
  have idle : ∀ t ∈ s.monitor.tasks, t.Unwatched := by
    rw [reads.2]
    nofun
  -- the folders stay as they are
  have stays : (∀ p, (s.monitor.handleEvent event).wd? p = s.monitor.wd? p) ∧
      ∀ t ∈ (s.monitor.handleEvent event).tasks, t.Unwatched := by
    have handled := handled_handleEvent s.monitor event
    generalize s.monitor.handleEvent event = m' at handled ⊢
    cases handled with
    | ignored => exact ⟨fun _ => rfl, idle⟩
    | folderAdded => exact ⟨wd?_addMonitorFolder _, unwatched_addMonitorFolder idle _⟩
    | folderRemoved f found named isFolder mask =>
        exact absurd (grown.not_removed queue isFolder) mask
    | fontsDirAdded => exact ⟨fun _ => rfl, unwatched_cons idle id⟩
    | fontsDirRemoved => exact ⟨wd?_modifyX11FontPath _ _, unwatched_modifyX11FontPath idle _ _⟩
  refine ⟨busy, ⟨grown.tree.parent, grown.tree.paths, grown.tree.inodes, grown.tree.fresh⟩,
    grown.distinct.read queue, ?_, ?_, ?_, stays.2⟩
  · intro p wd isTracked
    simp only [stays.1] at isTracked
    exact grown.tracked p wd isTracked
  · intro i wd held
    simp only [stays.1]
    exact grown.watched i wd held
  · intro e mem
    exact grown.queued e (by rw [queue]; exact List.mem_cons_of_mem _ mem)

/-- A folder that is not tracked is not watched: its watch is a new one. -/
theorem Grown.addWatch (grown : Grown s) {folder : FontFolder} {rest : List Task}
    (tasks : s.monitor.tasks = .addWatch folder :: rest) {i : Nat}
    (found : s.kernel.inode? folder.path = some i) :
    s.kernel.watches i = none ∧
      s.kernel.addWatch folder.path = ((s.kernel.nextWd : Int), { s.kernel with
        watches := Function.update s.kernel.watches i (some (s.kernel.nextWd : Int))
        nextWd := s.kernel.nextWd + 1 }) := by
  have absent : s.monitor.fontMonitorFolders.find? folder.path = none :=
    grown.busy.apart folder (by rw [FontMonitor.inHand, tasks]; rfl)
  have free : s.kernel.watches i = none := by
    cases held : s.kernel.watches i with
    | none => rfl
    | some wd =>
        obtain ⟨p, isTracked, found'⟩ := grown.watched i wd held
        rw [grown.tree.inode?_inj found' found, FontMonitor.wd?, absent] at isTracked
        cases isTracked
  refine ⟨free, ?_⟩
  rcases Kernel.addWatch_cases s.kernel folder.path with
    ⟨isNone, -⟩ | ⟨j, wd, found', held, -⟩ | ⟨j, found', -, eq⟩
  · cases isNone.symm.trans found
  · cases found'.symm.trans found
    cases free.symm.trans held
  · cases found'.symm.trans found
    exact eq

/-- The system once a folder is watched and inserted. -/
def watchedFolder (s : System) (folder : FontFolder) (rest : List Task) (i : Nat) : System :=
  { s with
    kernel := { s.kernel with
      watches := Function.update s.kernel.watches i (some (s.kernel.nextWd : Int))
      nextWd := s.kernel.nextWd + 1 }
    monitor := ⟨s.monitor.fontMonitorFolders.set { folder with wd := s.kernel.nextWd },
      s.monitor.fontMonitorThread, Task.subfolders folder.path :: rest⟩ }

theorem Grown.answered_addWatch (grown : Grown s) {c : Choice} {folder : FontFolder}
    {rest : List Task} (tasks : s.monitor.tasks = .addWatch folder :: rest) (room : c.watch = true)
    {i : Nat} (found : s.kernel.inode? folder.path = some i) :
    s.answered c (.addWatch folder) rest = watchedFolder s folder rest i := by
  have eq := (grown.addWatch tasks found).2
  have busy := grown.busy
  obtain ⟨⟨folders, thread, tasks'⟩, kernel, due, user, alt⟩ := s
  simp only at tasks eq
  subst tasks
  have isNew : (0 : Int) ≤ kernel.nextWd := Int.natCast_nonneg _
  simp only [System.answered, System.serve, if_pos room, eq, watchedFolder]
  rw [resume_addWatch busy isNew]

theorem Grown.watchedFolder (grown : Grown s) {folder : FontFolder} {rest : List Task}
    (tasks : s.monitor.tasks = .addWatch folder :: rest) {i : Nat}
    (found : s.kernel.inode? folder.path = some i)
    (busy : Busy (watchedFolder s folder rest i).monitor) :
    Grown (watchedFolder s folder rest i) := by
  obtain ⟨free, eq⟩ := grown.addWatch tasks found
  have wds : ∀ p, (Fonts.watchedFolder s folder rest i).monitor.wd? p =
      if p = folder.path then some (s.kernel.nextWd : Int) else s.monitor.wd? p := by
    intro p
    simp only [FontMonitor.wd?, Fonts.watchedFolder, FolderMap.find?_set]
    split
    · rfl
    · rfl
  have held : ∀ j, (Fonts.watchedFolder s folder rest i).kernel.watches j =
      if j = i then some (s.kernel.nextWd : Int) else s.kernel.watches j := by
    intro j
    simp only [Fonts.watchedFolder, Function.update_apply]
  refine ⟨busy, ⟨grown.tree.parent, grown.tree.paths, grown.tree.inodes, grown.tree.fresh⟩,
    ?_, ?_, ?_, ?_, ?_⟩
  · have distinct := grown.distinct.addWatch folder.path
    rw [eq] at distinct
    exact distinct
  · intro p wd isTracked
    rw [wds] at isTracked
    split at isTracked
    · rename_i isPath
      exact ⟨i, by rw [isPath]; exact found, by rw [held, if_pos rfl]; exact isTracked⟩
    · rename_i other
      obtain ⟨j, found', held'⟩ := grown.tracked p wd isTracked
      refine ⟨j, found', ?_⟩
      rw [held, if_neg ?_]
      · exact held'
      · rintro rfl
        exact other (grown.tree.inode?_inj found' found)
  · intro j wd isHeld
    rw [held] at isHeld
    split at isHeld
    · rename_i isInode
      refine ⟨folder.path, by rw [wds, if_pos rfl]; exact isHeld, ?_⟩
      rw [isInode]
      exact found
    · rename_i other
      obtain ⟨p, isTracked, found'⟩ := grown.watched j wd isHeld
      refine ⟨p, ?_, found'⟩
      rw [wds, if_neg ?_]
      · exact isTracked
      · rintro rfl
        exact other (Option.some.inj (found'.symm.trans found))
  · intro e mem
    obtain ⟨⟨j, isHeld⟩, kind⟩ := grown.queued e mem
    refine ⟨⟨j, ?_⟩, kind⟩
    rw [held, if_neg ?_]
    · exact isHeld
    · rintro rfl
      cases free.symm.trans isHeld
  · refine unwatched_cons ?_ ?_
    · intro t mem
      exact grown.unwatched t (by rw [tasks]; exact List.mem_cons_of_mem _ mem)
    · have waits := Task.subfolders_waits folder.path
      generalize Task.subfolders folder.path = t at waits ⊢
      cases t <;> first | exact id | exact waits.elim

/-- Unless there is a new watch, the monitor goes on with the same descriptors. -/
theorem Grown.goesOn (grown : Grown s) {c : Choice} {t : Task} {rest : List Task}
    (tasks : s.monitor.tasks = t :: rest)
    (noWatch : ∀ f, t = .addWatch f → (s.serve c t).1.wd < 0) :
    (∀ p, (s.answered c t rest).monitor.wd? p = s.monitor.wd? p) ∧
      ∀ u ∈ (s.answered c t rest).monitor.tasks, u.Unwatched := by
  have busy := grown.busy
  have unwatched := grown.unwatched
  obtain ⟨⟨folders, thread, tasks'⟩, k, due, user, alt⟩ := s
  simp only at tasks
  subst tasks
  exact ⟨wd?_resume busy noWatch, unwatched_resume unwatched busy noWatch⟩

theorem grown_answered (grown : Grown s) {c : Choice} {t : Task} {rest : List Task}
    (tasks : s.monitor.tasks = t :: rest) (busy : Busy (s.answered c t rest).monitor) :
    Grown (s.answered c t rest) := by
  have goesOn : (s.serve c t).2.kernel = s.kernel →
      (∀ f, t = .addWatch f → (s.serve c t).1.wd < 0) → Grown (s.answered c t rest) := by
    intro kernel noWatch
    obtain ⟨wds, unwatched⟩ := grown.goesOn tasks noWatch
    exact grown.sameKernel busy kernel wds unwatched
  cases t with
  | addWatch folder =>
      by_cases refused : c.watch = true → s.kernel.inode? folder.path = none
      · have served := System.serve_addWatch_refused refused
        refine goesOn (by rw [served]) fun _ _ => ?_
        rw [served]
        exact System.noWatch
      · obtain ⟨room, found⟩ := Classical.not_imp.mp refused
        obtain ⟨i, found⟩ := Option.ne_none_iff_exists'.mp found
        rw [grown.answered_addWatch tasks room found] at busy ⊢
        exact grown.watchedFolder tasks found busy
  | rmWatch wd =>
      obtain ⟨f, isDestroy, -⟩ := grown.unwatched (.rmWatch wd)
        (by rw [tasks]; exact List.mem_cons_self) trivial
      cases isDestroy
  | nextEntry path =>
      refine goesOn ?_ (by rintro _ ⟨⟩)
      simp only [System.serve]
      split <;> rfl
  | startInit user alt =>
      by_cases can : c.start = true
      · obtain ⟨wds, unwatched⟩ := @Grown.goesOn _ grown c _ _ tasks (by rintro _ ⟨⟩)
        have none_ := (grown.busy.starting _ _ tasks trivial).2
        have kernel : (s.answered c (.startInit user alt) rest).kernel = s.kernel.init := by
          simp only [System.answered, System.serve, if_pos can]
        refine ⟨busy, ?_, ?_, ?_, ?_, ?_, unwatched⟩
        · rw [kernel]
          exact ⟨grown.tree.parent, grown.tree.paths, grown.tree.inodes, grown.tree.fresh⟩
        · rw [kernel]
          exact Kernel.Distinct.init
        · intro p wd isTracked
          rw [wds, wd?_eq_none none_] at isTracked
          cases isTracked
        · rw [kernel]
          rintro _ _ ⟨⟩
        · rw [kernel]
          rintro _ ⟨⟩
      · refine goesOn ?_ (by rintro _ ⟨⟩)
        simp only [System.serve, if_neg can]
  | _ => exact goesOn rfl (by rintro _ ⟨⟩)

theorem grown_step (grown : Grown s) {move : Move} (grows : move.Grows) :
    Grown (s.step move).2 := by
  have busy : Busy (s.step move).2.monitor := by
    refine System.busy_step grown.busy ?_
    rintro rfl
    exact grows
  refine @System.keeps (fun s' => Busy s'.monitor → Grown s') s (fun _ => grown) move ?env ?start
    ?stop ?read ?call busy
  case env =>
    rintro op rfl _
    exact grown.grew (grew_apply grows s.kernel)
  case start =>
    intro _ _ _ busy
    exact grown.sameKernel busy rfl (fun _ => rfl) (unwatched_cons grown.unwatched id)
  case stop =>
    rintro rfl
    exact grows.elim
  case read =>
    intro event events _ queue reads busy
    exact grown.read queue reads busy
  case call =>
    intro c t rest _ tasks busy
    exact grown_answered grown tasks busy

theorem grown_boot {k : Kernel} (tree : k.Tree) : Grown (System.boot k) := by
  refine ⟨busy_start, ⟨tree.parent, tree.paths, tree.inodes, tree.fresh⟩, Kernel.Distinct.init,
    ?_, nofun, nofun, nofun⟩
  intro p wd isTracked
  rw [wd?_eq_none fun _ => FolderMap.find?_empty] at isTracked
  cases isTracked

/-- In every run of such moves. -/
theorem grown_after {k : Kernel} (tree : k.Tree) {moves : List Move}
    (grows : ∀ move ∈ moves, move.Grows) : Grown (System.after k moves) := by
  refine @invariant_finish _ _ _ System.step Grown (fun t => t.input.Grows) ?_ _ _
    (grown_boot tree) fun t mem => grows _ (input_of_mem mem)
  intro t taken isGrowth grown
  rw [taken.eq_take]
  exact grown_step grown isGrowth

end Steps

end Wslg.Fonts
