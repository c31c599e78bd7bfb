/-
Whether the X server has read the latest `fonts.dir` of a folder.

It reads the fonts of its path again at `xset fp rehash`, which `ModifyX11FontPath` calls
behind an `xset +fp` or `-fp` that succeeds, and nowhere else. It calls neither when the
folder already is what is asked for. So a `fonts.dir` that is rewritten while its folder is
on the font path has its event, and the event its handler, and the handler does nothing.

The rehash is a call of its own, others may change files before it: `Rehashing` is the
system with that call. `Folder` is all of it that matters here: what the monitor takes the
folder for, the file, the queued events and the call under way. The run of the system is
followed there step by step (`shows_step`), and whether a rehash is still to come can be
told from any of its states (`rehashed_iff`).
-/

import Wslg.WSLGd.FontsDir

namespace Wslg.Fonts

open Wslg.Inotify Wslg.Protocol Wslg.Runs

/-! ### Rehashes and renewals -/

/-- The system, and whether the thread has `xset fp rehash` to call next. -/
structure Rehashing where
  system : System
  rehash : Bool := false

/-- A move of the system, or the call of `xset fp rehash`. -/
inductive Action where
  | of (move : Move)
  | rehash
deriving DecidableEq

namespace Rehashing

/-- An action, and whether `xset fp rehash` is called in it. It comes next behind an
`xset +fp` or `-fp` that succeeded; till then the thread does nothing else. -/
def step (s : Rehashing) : Action → Bool × Rehashing
  | .of (.env op) => (false, { s with system := (s.system.step (.env op)).2 })
  | .of move =>
      if s.rehash then (false, s)
      else (false, ⟨(s.system.step move).2, (s.system.step move).1.any (·.success)⟩)
  | .rehash => (s.rehash, { s with rehash := false })

theorem step_thread {move : Move} (thread : ∀ op, move ≠ .env op) (s : Rehashing) :
    s.step (.of move) =
      if s.rehash then (false, s)
      else (false, ⟨(s.system.step move).2, (s.system.step move).1.any (·.success)⟩) := by
  cases move with
  | env op => exact absurd rfl (thread op)
  | _ => rfl

/-- A step of the system with its rehashes. -/
abbrev Step := Transition Rehashing Action Bool

/-- `fonts.dir` is there now. -/
def HasFontsDir (s : Rehashing) (p : Path) : Prop := System.HasFontsDir s.system.kernel p

instance (s : Rehashing) (p : Path) : Decidable (s.HasFontsDir p) :=
  inferInstanceAs (Decidable (System.HasFontsDir _ _))

/-- No event is queued, no handler is running, and no rehash is left to call. -/
def Quiet (s : Rehashing) : Prop := s.system.Quiet ∧ s.rehash = false

instance (s : Rehashing) : Decidable s.Quiet := inferInstanceAs (Decidable (_ ∧ _))

end Rehashing

/-- The file is created, moved in or rewritten. -/
def renews (op : Kernel.FileOp) : Bool := decide (op ≠ .delete ∧ op ≠ .moveOut)

/-- The step creates or rewrites the `fonts.dir` of a folder. -/
def Renews (p : Path) (t : Rehashing.Step) : Prop :=
  ∃ op, t.input = .of (.env (.file p fontsDir op)) ∧ renews op = true ∧
    op.Possible (t.before.HasFontsDir p) ∧ t.after.HasFontsDir p

/-- Something happens to the `fonts.dir` of a folder, or the monitor goes on, whose `xset`
succeeds. -/
def Action.OfFontsDir (p : Path) : Action → Prop
  | .of (.env (.file q n _)) => q = p ∧ n = fontsDir
  | .of .read => True
  | .of (.call c) => c.xset = true
  | .rehash => True
  | _ => False

instance (p : Path) : DecidablePred (Action.OfFontsDir p)
  | .of (.env (.file q n _)) => inferInstanceAs (Decidable (q = p ∧ n = fontsDir))
  | .of (.call c) => inferInstanceAs (Decidable (c.xset = true))
  | .of .read | .rehash => isTrue trivial
  | .of (.env (.mkdir _ _)) | .of (.env (.rmdir _ _)) | .of (.env (.rename _ _ _ _)) => isFalse id
  | .of .start | .of .stop => isFalse id

/-- The monitor attends to a folder: the folder is tracked, the watch on it has its
descriptor, and no other folder has the descriptor. -/
structure Attended (s : System) (p : Path) : Prop where
  running : s.monitor.fontMonitorThread = true
  noFolder : ¬ s.kernel.IsDir (child p fontsDir)
  tracked : ∃ f i, s.monitor.fontMonitorFolders.find? p = some f ∧
    s.kernel.inode? p = some i ∧ s.kernel.watches i = some f.wd ∧
      ∀ q g, s.monitor.fontMonitorFolders.find? q = some g → g.wd = f.wd → q = p

/-- The last step of a run that creates or rewrites the file, and the steps behind it. -/
structure LastRenewal (p : Path) (run : List Rehashing.Step) (t : Rehashing.Step)
    (later : List Rehashing.Step) : Prop where
  split : ∃ earlier, run = earlier ++ t :: later
  renews : Renews p t
  last : ∀ u ∈ later, ¬ Renews p u

/-- What the rehash is for: when all events are handled and the file is there, one was
called behind the last step that created or rewrote it. -/
def SeesLatest (p : Path) (s : Rehashing) (actions : List Action) : Prop :=
  (finish Rehashing.step s actions).Quiet → (finish Rehashing.step s actions).HasFontsDir p →
    ∀ t later, LastRenewal p (transitions Rehashing.step s actions) t later →
      ∃ u ∈ later, u.output = true

/-- The folder is on the font path, no event that takes it off is queued, and no `xset` is
about to be called. -/
def Stale (p : Path) (s : Rehashing) : Prop :=
  ∃ f, s.system.monitor.fontMonitorFolders.find? p = some f ∧ f.isPathAdded = true ∧
    (∀ e ∈ s.system.pending f.wd, adds e = true) ∧
    (∀ isAdd, s.system.monitor.tasks.head? ≠ some (.modify p isAdd)) ∧ s.rehash = false

/-! ### One folder -/

/-- What a handler of an event of `fonts.dir` has still to do. -/
inductive Doing where
  | idle
  | testing
  | calling (isAdd : Bool)
  | rehashing
deriving DecidableEq

/-- A folder, its `fonts.dir` and the monitor's work on it. -/
structure Folder where
  added : Bool
  present : Bool
  events : List Kernel.FileOp := []
  doing : Doing := .idle

inductive Turn where
  | change (op : Kernel.FileOp)
  | read
  | call
  | rehash

namespace Folder

/-- The file is there afterwards. -/
def leaves (op : Kernel.FileOp) (present : Bool) : Bool :=
  match op with
  | .write => present
  | op => renews op

/-- The handler of an event, up to its first call. -/
def handle (a : Folder) (op : Kernel.FileOp) (events : List Kernel.FileOp) : Folder :=
  if renews op then { a with events := events, doing := .testing }
  else if a.added then { a with events := events, doing := .calling false }
  else { a with events := events }

/-- A turn, and whether there is a rehash in it. -/
def step (a : Folder) : Turn → Bool × Folder
  | .change op =>
      (false, if op.Possible (a.present = true) then
          { a with present := leaves op a.present, events := a.events ++ [op] }
        else a)
  | .read =>
      match a.doing, a.events with
      | .idle, op :: events => (false, a.handle op events)
      | _, _ => (false, a)
  | .call =>
      match a.doing with
      | .idle => (false, a)
      | .testing =>
          (false, { a with doing := if a.present && !a.added then .calling true else .idle })
      | .calling isAdd => (false, { a with added := isAdd, doing := .rehashing })
      | .rehashing => (false, a)
  | .rehash =>
      match a.doing with
      | .rehashing => (true, { a with doing := .idle })
      | _ => (false, a)

/-- The turn creates or rewrites the file. -/
def Renewal (t : Transition Folder Turn Bool) : Prop :=
  ∃ op, t.input = .change op ∧ renews op = true ∧ op.Possible (t.before.present = true) ∧
    t.after.present = true

def Stale (a : Folder) : Prop :=
  a.added = true ∧ (∀ op ∈ a.events, renews op = true) ∧
    (∀ isAdd, a.doing ≠ .calling isAdd) ∧ a.doing ≠ .rehashing

/-- The file is there, and the folder is added or something is under way. -/
def Coming (a : Folder) : Prop :=
  a.present = true ∧
    (a.added = true ∨ (∃ op ∈ a.events, renews op = true) ∨ a.doing ≠ .idle)

/-- A file that is there and is removed. -/
theorem leaves_eq_true_iff {op : Kernel.FileOp} {present : Bool}
    (possible : op.Possible (present = true)) :
    leaves op present = true ↔ renews op = true ∧ (op = .write → present = true) := by
  cases op <;> simp [leaves, renews]

/-- Without a renewal a file that is gone stays away. -/
theorem absent_finish {turns : List Turn} {a : Folder} (absent : a.present = false)
    (none_ : ¬ ∃ t ∈ transitions step a turns, Renewal t) :
    (finish step a turns).present = false := by
  induction turns generalizing a with
  | nil => exact absent
  | cons turn turns ih =>
      rw [transitions, List.exists_mem_cons_iff, not_or] at none_
      refine ih ?_ none_.2
      cases turn with
      | change op =>
          by_contra there
          have present : (step a (.change op)).2.present = true := by simpa using there
          apply none_.1
          rw [step] at present
          dsimp only at present
          split at present
          · rename_i possible
            refine ⟨op, rfl, ((leaves_eq_true_iff possible).mp present).1, possible, ?_⟩
            simpa only [take, step, if_pos possible] using present
          · cases absent.symm.trans present
      | read =>
          rw [step]
          split
          · rw [handle]
            split
            · exact absent
            · split <;> exact absent
          · exact absent
      | call =>
          rw [step]
          split <;> exact absent
      | rehash =>
          rw [step]
          split <;> exact absent

/-- An event that is handled changes nothing about what is to come. -/
theorem handle_spec {a : Folder} {op : Kernel.FileOp} {rest : List Kernel.FileOp}
    (coming : a.Coming) (events : a.events = op :: rest) (idle : a.doing = .idle) :
    (a.handle op rest).Coming ∧ ((a.handle op rest).Stale ↔ a.Stale) := by
  obtain ⟨added, present, events', doing⟩ := a
  simp only at events idle
  subst events idle
  have present : present = true := coming.1
  subst present
  cases renewing : renews op with
  | true => simp [handle, Coming, Stale, renewing]
  | false =>
      cases added with
      | true => simp [handle, Coming, Stale, renewing]
      | false => simpa [handle, Coming, Stale, renewing] using coming.2

/-- The monitor comes to a rehash, or what is to come stays. -/
theorem work_spec {a : Folder} (coming : a.Coming) {turn : Turn} (work : ∀ op, turn ≠ .change op) :
    ((step a turn).1 = true ∧ ¬ a.Stale) ∨
      ((step a turn).1 = false ∧ (step a turn).2.Coming ∧ ((step a turn).2.Stale ↔ a.Stale)) := by
  have same : ((false, a) : Bool × Folder).1 = false ∧
      ((false, a) : Bool × Folder).2.Coming ∧ (((false, a) : Bool × Folder).2.Stale ↔ a.Stale) :=
    ⟨rfl, coming, Iff.rfl⟩
  cases turn with
  | change op => exact absurd rfl (work op)
  | read =>
      rw [step]
      split
      · rename_i op rest idle events
        exact .inr ⟨rfl, handle_spec coming events idle⟩
      · exact .inr same
  | call =>
      rw [step]
      split
      · exact .inr same
      · rename_i testing
        have present : a.present = true := coming.1
        right
        cases added : a.added with
        | true => simp [Coming, Stale, present, added, testing]
        | false => simp [Coming, Stale, present, added]
      · rename_i isAdd calling
        right
        simp [Coming, Stale, coming.1, calling]
      · exact .inr same
  | rehash =>
      rw [step]
      split
      · rename_i rehashing
        exact .inl ⟨rfl, fun stale => stale.2.2.2 rehashing⟩
      · exact .inr same

/-- When all is handled in the end, and the file that is there is not renewed any more, a
rehash comes exactly if the folder is not stale. -/
theorem rehashed_iff {turns : List Turn} {a : Folder} (coming : a.Coming)
    (none_ : ¬ ∃ t ∈ transitions step a turns, Renewal t)
    (handled : (finish step a turns).events = [] ∧ (finish step a turns).doing = .idle)
    (there : (finish step a turns).present = true) :
    (∃ t ∈ transitions step a turns, t.output = true) ↔ ¬ a.Stale := by
  induction turns generalizing a with
  | nil =>
      have events : a.events = [] := handled.1
      have idle : a.doing = .idle := handled.2
      have added : a.added = true := by simpa [events, idle] using coming.2
      simp [transitions, Stale, added, events, idle]
  | cons turn turns ih =>
      rw [transitions, List.exists_mem_cons_iff, not_or] at none_
      rw [transitions, List.exists_mem_cons_iff]
      -- a turn that has no rehash and leaves what is to come to the next ones
      have next : (step a turn).1 = false → (step a turn).2.Coming →
          ((step a turn).2.Stale ↔ a.Stale) →
          (((take step a turn).output = true ∨
            ∃ t ∈ transitions step (step a turn).2 turns, t.output = true) ↔ ¬ a.Stale) := by
        intro noRehash coming' same
        rw [take, noRehash, ih coming' none_.2 handled there, same]
        simp
      by_cases change : ∃ op, turn = .change op
      · obtain ⟨op, rfl⟩ := change
        by_cases possible : op.Possible (a.present = true)
        · -- the file is gone, and does not come back
          have noRenewal : ¬ leaves op a.present = true := by
            intro stays
            refine none_.1 ⟨op, rfl, ((leaves_eq_true_iff possible).mp stays).1, possible, ?_⟩
            simpa only [take, step, if_pos possible] using stays
          have gone : (step a (.change op)).2.present = false := by
            simpa only [step, if_pos possible, Bool.not_eq_true] using noRenewal
          cases (absent_finish gone none_.2).symm.trans there
        · have same : step a (.change op) = (false, a) := by simp only [step, if_neg possible]
          rw [same] at next ⊢
          exact next rfl coming Iff.rfl
      · rcases work_spec coming fun op isChange => change ⟨op, isChange⟩ with
          ⟨rehash, fresh⟩ | ⟨noRehash, coming', same⟩
        · exact iff_of_true (.inl rehash) fresh
        · exact next noRehash coming' same

/-- A renewal makes no stale folder fresh, and no fresh one stale. -/
theorem renewal_spec {t : Transition Folder Turn Bool} (taken : Taken step t)
    (renewal : Renewal t) : t.after.Coming ∧ (t.after.Stale ↔ t.before.Stale) := by
  obtain ⟨op, isInput, renewing, possible, there⟩ := renewal
  have after : t.after =
      { t.before with
        present := leaves op t.before.present, events := t.before.events ++ [op] } := by
    have stepped := congrArg Prod.snd taken
    simpa only [isInput, step, if_pos possible] using stepped.symm
  rw [after] at there ⊢
  refine ⟨⟨there, .inr (.inl ⟨op, by simp, renewing⟩)⟩, ?_⟩
  simp [Stale, or_imp, forall_and, renewing]

end Folder

/-! ### The folder in the system -/

/-- The queued event of an operation. -/
def eventOf (wd : Int) (op : Kernel.FileOp) : Event := ⟨wd, op.mask, fontsDir⟩

def Doing.tasks (p : Path) : Doing → List Task
  | idle => []
  | testing => [.testFontsDir p]
  | calling isAdd => [.modify p isAdd]
  | rehashing => []

def Action.turn : Action → Turn
  | .of (.env (.file _ _ op)) => .change op
  | .of .read => .read
  | .of _ => .call
  | .rehash => .rehash

/-- The folder is what the system shows of it. -/
structure Shows (p : Path) (wd : Int) (s : System) (a : Folder) : Prop where
  running : s.monitor.fontMonitorThread = true
  noFolder : ¬ s.kernel.IsDir (child p fontsDir)
  tracked : s.monitor.fontMonitorFolders.find? p = some ⟨p, wd, a.added⟩
  alone : ∀ q g, s.monitor.fontMonitorFolders.find? q = some g → g.wd = wd → q = p
  watched : ∃ i, s.kernel.inode? p = some i ∧ s.kernel.watches i = some wd
  present : System.HasFontsDir s.kernel p ↔ a.present = true
  queue : s.kernel.queue = a.events.map (eventOf wd)
  tasks : s.monitor.tasks = a.doing.tasks p

section Shows

variable {p : Path} {wd : Int} {s : System} {a : Folder}

theorem ofFontsDir_eventOf (op : Kernel.FileOp) : ofFontsDir wd (eventOf wd op) = true := by
  cases op <;> simp [ofFontsDir, eventOf] <;> decide

theorem adds_eventOf (op : Kernel.FileOp) : adds (eventOf wd op) = renews op := adds_mask op

theorem Shows.pending (shows_ : Shows p wd s a) : s.pending wd = a.events.map (eventOf wd) := by
  rw [System.pending, shows_.queue, List.filter_eq_self]
  intro e mem
  obtain ⟨op, -, rfl⟩ := List.mem_map.mp mem
  exact ofFontsDir_eventOf op

/-- Something happens to the file. -/
theorem shows_change (shows_ : Shows p wd s a) (op : Kernel.FileOp) :
    Shows p wd { s with kernel := s.kernel.fileOp p fontsDir op } (a.step (.change op)).2 := by
  obtain ⟨i, found, held⟩ := shows_.watched
  have plain : Plain fontsDir := by decide
  have before := present_eq shows_.noFolder found
  by_cases possible : op.Possible (a.present = true)
  · have possible' : op.Possible ((i, fontsDir) ∈ s.kernel.files) := by
      rwa [← before, shows_.present]
    have changed : s.kernel.fileOp p fontsDir op = Kernel.notify { s.kernel with
        files := Kernel.filesAfter s.kernel.files (i, fontsDir) op } i op.mask fontsDir := by
      have can : Plain fontsDir ∧ ¬ s.kernel.IsDir (child p fontsDir) ∧
          op.Possible ((i, fontsDir) ∈ s.kernel.files) := ⟨plain, shows_.noFolder, possible'⟩
      simp only [Kernel.fileOp, found, if_pos can]
    have lookup : ∀ q, (s.kernel.fileOp p fontsDir op).inode? q = s.kernel.inode? q := by
      intro q
      rw [changed, Kernel.inode?_notify]
      rfl
    have noFolder : ¬ (s.kernel.fileOp p fontsDir op).IsDir (child p fontsDir) := by
      rw [Kernel.IsDir, lookup]
      exact shows_.noFolder
    simp only [Folder.step, if_pos possible]
    refine ⟨shows_.running, noFolder, shows_.tracked, shows_.alone, ⟨i, ?_, ?_⟩, ?_, ?_,
      shows_.tasks⟩
    · rw [lookup]
      exact found
    · simpa only [changed, Kernel.watches_notify] using held
    · rw [present_eq noFolder (by rw [lookup]; exact found), changed, Kernel.files_notify]
      have there := before.symm.trans shows_.present
      cases op <;> simp [Kernel.filesAfter, Folder.leaves, renews, there]
    · simp only [changed, Kernel.queue_notify, held, shows_.queue, List.map_append, List.map_cons,
        List.map_nil, eventOf, Option.map_some, Option.toList_some]
  · have impossible : ¬ op.Possible ((i, fontsDir) ∈ s.kernel.files) := by
      rwa [← before, shows_.present]
    have same : s.kernel.fileOp p fontsDir op = s.kernel := by
      have refused : ¬ (Plain fontsDir ∧ ¬ s.kernel.IsDir (child p fontsDir) ∧
          op.Possible ((i, fontsDir) ∈ s.kernel.files)) := fun all => impossible all.2.2
      simp only [Kernel.fileOp, found, if_neg refused]
    rw [same]
    simp only [Folder.step, if_neg possible]
    exact shows_

/-- `ModifyX11FontPath` of the folder. -/
theorem tasks_modifyX11FontPath {m : FontMonitor} {f : FontFolder}
    (tracked : m.fontMonitorFolders.find? p = some f) (isAdd : Bool) :
    m.modifyX11FontPath p isAdd =
      { m with tasks := (if f.isPathAdded ≠ isAdd then [.modify p isAdd] else []) ++ m.tasks } := by
  rw [FontMonitor.modifyX11FontPath, tracked]
  dsimp only
  split <;> rfl

/-- An event is read. -/
theorem shows_handle (shows_ : Shows p wd s a) (idle : a.doing = .idle) (op : Kernel.FileOp)
    (rest : List Kernel.FileOp) :
    Shows p wd { s with
      kernel := { s.kernel with queue := rest.map (eventOf wd) }
      monitor := s.monitor.handleEvent (eventOf wd op) } (a.handle op rest) := by
  have noTasks : s.monitor.tasks = [] := by
    rw [shows_.tasks, idle]
    rfl
  have byWd : s.monitor.fontMonitorFolders.findByWd wd = some ⟨p, wd, a.added⟩ :=
    @FolderMap.findByWd_of_alone _ p ⟨p, wd, a.added⟩ shows_.tracked shows_.alone
  have handled := @handleEvent_fontsDir s.monitor ⟨p, wd, a.added⟩ (eventOf wd op) byWd
    (ofFontsDir_eventOf op)
  have goesOn : ∀ (doing : Doing) (m : FontMonitor),
      m = { s.monitor with tasks := doing.tasks p } →
      Shows p wd { s with
        kernel := { s.kernel with queue := rest.map (eventOf wd) }
        monitor := m } { a with events := rest, doing := doing } := by
    rintro doing m rfl
    exact ⟨shows_.running, shows_.noFolder, shows_.tracked, shows_.alone, shows_.watched,
      shows_.present, rfl, rfl⟩
  rw [handled, adds_eventOf, Folder.handle]
  cases renewing : renews op with
  | true =>
      refine goesOn .testing _ ?_
      simp [FontMonitor.call, Doing.tasks, noTasks]
  | false =>
      have removes : has (eventOf wd op).mask (inDelete ||| inMovedFrom) = true := by
        have known := removes_mask op
        rw [adds_mask] at known
        exact known.resolve_left (by simpa [renews] using renewing)
      rw [if_neg Bool.false_ne_true, if_neg Bool.false_ne_true, if_pos removes,
        tasks_modifyX11FontPath shows_.tracked]
      by_cases added : a.added = true
      · rw [if_pos added]
        apply goesOn (.calling false)
        simp [Doing.tasks, noTasks, added]
      · rw [if_neg added, idle]
        apply goesOn .idle
        simp [Doing.tasks, noTasks, added]

theorem Shows.reads_iff (shows_ : Shows p wd s a) :
    s.Reads ↔ a.doing = .idle ∨ a.doing = .rehashing := by
  have tasks := shows_.tasks
  have running : s.Reads ↔ s.monitor.tasks = [] := and_iff_right shows_.running
  rw [running, tasks]
  cases a.doing <;> simp [Doing.tasks]

/-- The thread reads an event if it is idle and one is queued. -/
theorem shows_read (shows_ : Shows p wd s a) (free : a.doing ≠ .rehashing) :
    Shows p wd (s.step .read).2 (a.step .read).2 := by
  have queue := shows_.queue
  by_cases idle : a.doing = .idle
  · have reads := shows_.reads_iff.mpr (.inl idle)
    have can : s.monitor.fontMonitorThread = true ∧ s.monitor.tasks = [] := reads
    cases events : a.events with
    | nil =>
        rw [events] at queue
        simp only [System.step, queue, List.map_nil, Folder.step, idle, events]
        exact shows_
    | cons op rest =>
        rw [events] at queue
        simp only [System.step, queue, List.map_cons, if_pos reads, System.feed, Fonts.step,
          if_pos can, Folder.step, idle, events]
        exact shows_handle shows_ idle op rest
  · have waits : (s.step .read).2 = s := by
      have busy : ¬ s.Reads := fun reads => (shows_.reads_iff.mp reads).elim idle free
      simp only [System.step, if_neg busy]
      split <;> rfl
    have waits' : (a.step .read).2 = a := by
      rw [Folder.step]
      split
      · rename_i isIdle _
        exact absurd isIdle idle
      · rfl
    rw [waits, waits']
    exact shows_

/-- Reading an event calls no `xset`. -/
theorem silent_read (s : System) : (s.step .read).1 = [] := by
  simp only [System.step]
  split
  · rfl
  · split <;> rfl

/-- The call that comes first is made. -/
theorem shows_call (shows_ : Shows p wd s a) (free : a.doing ≠ .rehashing) {c : Choice}
    (xset : c.xset = true) :
    Shows p wd (s.step (.call c)).2 (a.step .call).2 ∧
      ((s.step (.call c)).1.any (·.success) = true ↔ (a.step .call).2.doing = .rehashing) := by
  have tasks := shows_.tasks
  cases doing : a.doing with
  | idle =>
      rw [doing, Doing.tasks] at tasks
      have rests : s.step (.call c) = ([], s) := by simp only [System.step, tasks]
      have rests' : a.step .call = (false, a) := by simp only [Folder.step, doing]
      rw [rests, rests']
      exact ⟨shows_, by simp [doing]⟩
  | testing =>
      rw [doing, Doing.tasks] at tasks
      have next : s.step (.call c) = ([], { s with monitor := { s.monitor with
          tasks := (if a.present && !a.added then Doing.calling true else .idle).tasks p } }) := by
        have asks := @tasks_modifyX11FontPath p { s.monitor with tasks := [] } ⟨p, wd, a.added⟩
          shows_.tracked true
        simp only [System.step_call tasks, System.answered, System.serve, FontMonitor.resume, asks,
          shows_.present]
        cases a.present <;> cases a.added <;> rfl
      have next' : a.step .call =
          (false, { a with doing := if a.present && !a.added then .calling true else .idle }) := by
        simp only [Folder.step, doing]
      rw [next, next']
      constructor
      · exact ⟨shows_.running, shows_.noFolder, shows_.tracked, shows_.alone, shows_.watched,
          shows_.present, shows_.queue, rfl⟩
      · cases a.present <;> cases a.added <;> simp
  | calling isAdd =>
      rw [doing, Doing.tasks] at tasks
      have next : s.step (.call c) = ([⟨isAdd, p, true⟩], { s with monitor := { s.monitor with
          fontMonitorFolders := s.monitor.fontMonitorFolders.set ⟨p, wd, isAdd⟩
          tasks := [] } }) := by
        simp only [System.step_call tasks, System.answered, System.serve, FontMonitor.resume,
          FontMonitor.setPathAdded, shows_.tracked, xset, if_true]
      have next' : a.step .call = (false, { a with added := isAdd, doing := .rehashing }) := by
        simp only [Folder.step, doing]
      rw [next, next']
      refine ⟨⟨shows_.running, shows_.noFolder, ?_, ?_, shows_.watched, shows_.present,
        shows_.queue, rfl⟩, by simp⟩
      · rw [FolderMap.find?_set, if_pos rfl]
      · intro q g found same
        rw [FolderMap.find?_set] at found
        split at found
        · rename_i isPath
          exact isPath
        · exact shows_.alone q g found same
  | rehashing => exact absurd doing free

end Shows

/-- The folder is what the system with its rehashes shows of it. -/
structure ShowsAll (p : Path) (wd : Int) (s : Rehashing) (a : Folder) : Prop where
  system : Shows p wd s.system a
  rehash : s.rehash = true ↔ a.doing = .rehashing

section ShowsAll

variable {p : Path} {wd : Int} {s : Rehashing} {a : Folder}

theorem ShowsAll.free (shows_ : ShowsAll p wd s a) (noRehash : ¬ s.rehash = true) :
    a.doing ≠ .rehashing := fun rehashing => noRehash (shows_.rehash.mpr rehashing)

theorem ShowsAll.stale_iff (shows_ : ShowsAll p wd s a) : Stale p s ↔ a.Stale := by
  have calling : (∀ isAdd, s.system.monitor.tasks.head? ≠ some (.modify p isAdd)) ↔
      ∀ isAdd, a.doing ≠ .calling isAdd := by
    rw [shows_.system.tasks]
    cases a.doing <;> simp [Doing.tasks]
  have rehashing : s.rehash = false ↔ a.doing ≠ .rehashing := by
    rw [Ne, ← shows_.rehash, Bool.not_eq_true]
  have events : (∀ e ∈ s.system.pending wd, adds e = true) ↔
      ∀ op ∈ a.events, renews op = true := by
    rw [shows_.system.pending, List.forall_mem_map]
    simp only [adds_eventOf]
  rw [Stale, Folder.Stale, ← calling, ← rehashing, ← events]
  constructor
  · rintro ⟨f, found, stale⟩
    cases shows_.system.tracked.symm.trans found
    exact stale
  · intro stale
    exact ⟨_, shows_.system.tracked, stale⟩

/-- Till the rehash is called the thread does nothing else. -/
theorem rehashing_waits (rehashing : a.doing = .rehashing) :
    a.step .read = (false, a) ∧ a.step .call = (false, a) := by
  simp only [Folder.step, rehashing]
  exact ⟨trivial, trivial⟩

theorem doing_change (a : Folder) (op : Kernel.FileOp) :
    (a.step (.change op)).2.doing = a.doing := by
  rw [Folder.step]
  dsimp only
  split <;> rfl

theorem doing_read (free : a.doing ≠ .rehashing) : (a.step .read).2.doing ≠ .rehashing := by
  rw [Folder.step]
  split
  · rw [Folder.handle]
    split
    · simp
    · split
      · simp
      · exact free
  · exact free

/-- A rehash is called where it is called in the folder's turn. -/
theorem rehashes_iff (s : Rehashing) (a : Folder) (action : Action) (shows_ : ShowsAll p wd s a)
    (mine : action.OfFontsDir p) :
    (take Rehashing.step s action).output = true ↔
      (take Folder.step a action.turn).output = true := by
  have silent : (a.step .read).1 = false ∧ (a.step .call).1 = false := by
    simp only [Folder.step]
    exact ⟨by split <;> rfl, by split <;> rfl⟩
  cases action with
  | of move =>
      cases move with
      | env op =>
          cases op with
          | file q n op => simp [take, Rehashing.step, Action.turn, Folder.step]
          | _ => exact mine.elim
      | read =>
          have turn : (Action.of .read).turn = .read := rfl
          rw [take, take, turn, silent.1, Rehashing.step_thread (by rintro op ⟨⟩)]
          split <;> rfl
      | call c =>
          have turn : (Action.of (.call c)).turn = .call := rfl
          rw [take, take, turn, silent.2, Rehashing.step_thread (by rintro op ⟨⟩)]
          split <;> rfl
      | _ => exact mine.elim
  | rehash =>
      rw [take, take, Action.turn, Rehashing.step, Folder.step]
      rw [shows_.rehash]
      cases a.doing <;> simp

/-- Each action is a turn of the folder. -/
theorem shows_step (s : Rehashing) (a : Folder) (action : Action) (shows_ : ShowsAll p wd s a)
    (mine : action.OfFontsDir p) : ShowsAll p wd (s.step action).2 (a.step action.turn).2 := by
  cases action with
  | of move =>
      cases move with
      | env op =>
          cases op with
          | file q n op =>
              obtain ⟨rfl, rfl⟩ := mine
              refine ⟨shows_change shows_.system op, ?_⟩
              rw [Action.turn, doing_change]
              exact shows_.rehash
          | _ => exact mine.elim
      | read =>
          have turn : (Action.of .read).turn = .read := rfl
          rw [turn, Rehashing.step_thread (by rintro op ⟨⟩)]
          split
          · rename_i rehash
            rw [(rehashing_waits (shows_.rehash.mp rehash)).1]
            exact shows_
          · rename_i noRehash
            have free := shows_.free noRehash
            refine ⟨shows_read shows_.system free, ?_⟩
            simp [silent_read, doing_read free]
      | call c =>
          have turn : (Action.of (.call c)).turn = .call := rfl
          rw [turn, Rehashing.step_thread (by rintro op ⟨⟩)]
          split
          · rename_i rehash
            rw [(rehashing_waits (shows_.rehash.mp rehash)).2]
            exact shows_
          · rename_i noRehash
            obtain ⟨system, rehash⟩ := shows_call shows_.system (shows_.free noRehash) mine
            exact ⟨system, rehash⟩
      | _ => exact mine.elim
  | rehash =>
      rw [Rehashing.step, Action.turn, Folder.step]
      split
      · rename_i rehashing
        have tasks := shows_.system.tasks
        rw [rehashing] at tasks
        refine ⟨⟨shows_.system.running, shows_.system.noFolder, shows_.system.tracked,
          shows_.system.alone, shows_.system.watched, shows_.system.present, shows_.system.queue,
          tasks⟩, by simp⟩
      · rename_i other
        refine ⟨shows_.system, iff_of_false Bool.false_ne_true fun rehashing => other rehashing⟩

theorem renews_iff (s : Rehashing) (a : Folder) (action : Action) (shows_ : ShowsAll p wd s a)
    (mine : action.OfFontsDir p) :
    Renews p (take Rehashing.step s action) ↔
      Folder.Renewal (take Folder.step a action.turn) := by
  have after := (shows_step s a action shows_ mine).system.present
  have possible : ∀ op : Kernel.FileOp, op.Possible (s.HasFontsDir p) ↔
      op.Possible (a.present = true) := by
    intro op
    rw [Rehashing.HasFontsDir, shows_.system.present]
  constructor
  · rintro ⟨op, isInput, renewing, can, there⟩
    have isAction : action = .of (.env (.file p fontsDir op)) := isInput
    refine ⟨op, ?_, renewing, (possible op).mp can, after.mp there⟩
    rw [isAction]
    rfl
  · rintro ⟨op, isInput, renewing, can, there⟩
    refine ⟨op, ?_, renewing, (possible op).mpr can, after.mpr there⟩
    have isTurn : action.turn = .change op := isInput
    cases action with
    | rehash => cases isTurn
    | of move =>
        cases move with
        | env op' =>
            cases op' with
            | file q n op' =>
                obtain ⟨rfl, rfl⟩ := mine
                cases isTurn
                rfl
            | _ => exact mine.elim
        | read => cases isTurn
        | call c => cases isTurn
        | _ => exact mine.elim

/-- A folder that is attended to, with nothing to do. -/
theorem shows_of_attended (attended : Attended s.system p) (quiet : s.Quiet) :
    ∃ wd a, ShowsAll p wd s a := by
  obtain ⟨f, i, tracked, found, held, alone⟩ := attended.tracked
  have isPath := FolderMap.path_of_find? tracked
  refine ⟨f.wd, ⟨f.isPathAdded, System.HasFontsDir s.system.kernel p, [], .idle⟩,
    ⟨attended.running, attended.noFolder, ?_, alone, ⟨i, found, held⟩, by simp, quiet.1.1,
      quiet.1.2⟩, by simp [quiet.2]⟩
  rw [tracked, ← isPath]

end ShowsAll

/-! ### Runs -/

section Runs

variable {p : Path} {s : Rehashing} {actions : List Action}

/-- From a folder with something to come, whose file is there in the end and not renewed any
more. -/
theorem rehashes_later_iff {wd : Int} {a : Folder} (shows_ : ShowsAll p wd s a)
    (mine : ∀ action ∈ actions, action.OfFontsDir p) (coming : a.Coming)
    (none_ : ∀ u ∈ transitions Rehashing.step s actions, ¬ Renews p u)
    (handled : (finish Rehashing.step s actions).Quiet)
    (there : (finish Rehashing.step s actions).HasFontsDir p) :
    (∃ u ∈ transitions Rehashing.step s actions, u.output = true) ↔ ¬ a.Stale := by
  have ends := related_finish shows_step shows_ mine
  have rehashes : (∃ u ∈ transitions Rehashing.step s actions, u.output = true) ↔
      ∃ t ∈ transitions Folder.step a (actions.map Action.turn), t.output = true :=
    exists_transition_iff shows_step rehashes_iff shows_ mine
  have renews := exists_transition_iff shows_step renews_iff shows_ mine
  rw [rehashes]
  apply Folder.rehashed_iff coming
  · rw [← renews]
    rintro ⟨u, mem, renewal⟩
    exact none_ u mem renewal
  · have queue := ends.system.queue
    rw [handled.1.1] at queue
    refine ⟨List.map_eq_nil_iff.mp queue.symm, ?_⟩
    have reads := ends.system.reads_iff.mp ⟨ends.system.running, handled.1.2⟩
    apply reads.resolve_right
    rw [← ends.rehash, handled.2]
    exact Bool.false_ne_true
  · exact ends.system.present.mp there

/-- Behind the last renewal of a file that is there in the end, when all is handled, a
rehash comes exactly if the renewal did not find the folder stale. -/
theorem rehash_follows_iff (attended : Attended s.system p) (quiet : s.Quiet)
    (mine : ∀ action ∈ actions, action.OfFontsDir p)
    (handled : (finish Rehashing.step s actions).Quiet)
    (there : (finish Rehashing.step s actions).HasFontsDir p) {t : Rehashing.Step}
    {later : List Rehashing.Step}
    (isLast : LastRenewal p (transitions Rehashing.step s actions) t later) :
    (∃ u ∈ later, u.output = true) ↔ ¬ Stale p t.before := by
  obtain ⟨wd, a, shows_⟩ := shows_of_attended attended quiet
  obtain ⟨⟨earlier, split⟩, renewal, none_⟩ := isLast
  obtain ⟨before, after, rfl, rfl, isTake⟩ := split_transitions split
  generalize t.input = action at *
  subst isTake
  have mine' : ∀ action ∈ before, action.OfFontsDir p := fun action mem =>
    mine action (List.mem_append_left _ mem)
  have isMine : action.OfFontsDir p := mine action (by simp)
  have mine'' : ∀ action ∈ after, action.OfFontsDir p := fun action mem =>
    mine action (List.mem_append_right _ (List.mem_cons_of_mem _ mem))
  have isLater : later = transitions Rehashing.step
      ((finish Rehashing.step s before).step action).2 after := by
    rw [transitions_append] at split
    exact (List.cons.inj (List.append_cancel_left split)).2.symm
  have here := related_finish shows_step shows_ mine'
  obtain ⟨coming, same⟩ := Folder.renewal_spec (taken_take _ _)
    ((renews_iff _ _ action here isMine).mp renewal)
  rw [isLater] at none_ ⊢
  rw [finish_append] at handled there
  rw [rehashes_later_iff (shows_step _ _ action here isMine) mine'' coming none_ handled there]
  exact not_congr (same.trans here.stale_iff.symm)

/-- Of a folder that is attended to, the X server sees the latest fonts exactly if the last
step that created or rewrote its `fonts.dir` did not find the folder stale. -/
theorem sees_latest_iff (attended : Attended s.system p) (quiet : s.Quiet)
    (mine : ∀ action ∈ actions, action.OfFontsDir p) :
    SeesLatest p s actions ↔
      ((finish Rehashing.step s actions).Quiet →
        (finish Rehashing.step s actions).HasFontsDir p →
          ∀ t later, LastRenewal p (transitions Rehashing.step s actions) t later →
            ¬ Stale p t.before) := by
  constructor
  · intro sees handled there t later isLast
    have rehash := sees handled there t later isLast
    exact (rehash_follows_iff attended quiet mine handled there isLast).mp rehash
  · intro fresh handled there t later isLast
    have notStale := fresh handled there t later isLast
    exact (rehash_follows_iff attended quiet mine handled there isLast).mpr notStale

/-- While folders only come, every folder that is tracked is attended to. -/
theorem attended_of_grown {s : System} (grown : Grown s)
    (running : s.monitor.fontMonitorThread = true)
    (noFolder : ¬ s.kernel.IsDir (child p fontsDir)) (tracked : s.Tracked p) : Attended s p := by
  obtain ⟨f, found⟩ := FolderMap.has_iff.mp tracked
  obtain ⟨i, isInode, held⟩ := grown.tracked p f.wd (by rw [FontMonitor.wd?, found]; rfl)
  exact ⟨running, noFolder, f, i, found, isInode, held, fun _ _ => grown.alone found⟩

end Runs

/-! ### A folder whose fonts come, and come again -/

/-- The alternative font path is tracked, and has no `fonts.dir` yet. -/
def altTracked : Rehashing :=
  ⟨System.after System.altTree (.start :: List.replicate 11 (.call {})), false⟩

def fontsDirCreated : List Action :=
  [.of (.env (.file altDistroFontPath fontsDir .create)), .of .read, .of (.call {}), .of (.call {}),
    .rehash]

def fontsDirRewritten : List Action :=
  fontsDirCreated ++
    [.of (.env (.file altDistroFontPath fontsDir .write)), .of .read, .of (.call {})]

theorem attended_altTracked : Attended altTracked.system altDistroFontPath := by
  have tree : System.altTree.Tree := ⟨by decide, by decide, by decide, by decide⟩
  apply attended_of_grown (grown_after tree (by decide))
  · decide +kernel
  · decide +kernel
  · decide +kernel

theorem sees_latest_iff_created : SeesLatest altDistroFontPath altTracked fontsDirCreated := by
  refine (sees_latest_iff attended_altTracked (by decide +kernel) (by decide)).mpr ?_
  rintro - - t later ⟨⟨earlier, split⟩, ⟨op, isInput, -⟩, -⟩ ⟨f, found, added, -⟩
  -- it is the first step, and the folder has just been tracked
  have mem : t ∈ transitions Rehashing.step altTracked fontsDirCreated := by
    rw [split]
    simp
  simp only [fontsDirCreated, transitions, List.mem_cons, List.not_mem_nil, or_false] at mem
  rcases mem with rfl | rfl | rfl | rfl | rfl
  · have fresh : (altTracked.system.monitor.fontMonitorFolders.find? altDistroFontPath).map
        FontFolder.isPathAdded = some false := by decide +kernel
    have isFound : altTracked.system.monitor.fontMonitorFolders.find? altDistroFontPath =
      some f := found
    rw [isFound, Option.map_some, added] at fresh
    cases fresh
  · cases isInput
  · cases isInput
  · cases isInput
  · cases isInput

/-- The rewritten file is looked for, and that is all. -/
theorem rewritten_not_seen :
    Attended altTracked.system altDistroFontPath ∧ altTracked.Quiet ∧
      (∀ action ∈ fontsDirRewritten, action.OfFontsDir altDistroFontPath) ∧
      ¬ SeesLatest altDistroFontPath altTracked fontsDirRewritten := by
  refine ⟨attended_altTracked, by decide +kernel, by decide, fun sees => ?_⟩
  have last : LastRenewal altDistroFontPath
      (transitions Rehashing.step altTracked fontsDirRewritten)
      (take Rehashing.step (finish Rehashing.step altTracked fontsDirCreated)
        (.of (.env (.file altDistroFontPath fontsDir .write))))
      (transitions Rehashing.step
        (finish Rehashing.step altTracked
          (fontsDirCreated ++ [.of (.env (.file altDistroFontPath fontsDir .write))]))
        [.of .read, .of (.call {})]) := by
    refine ⟨⟨transitions Rehashing.step altTracked fontsDirCreated, ?_⟩, ?_, ?_⟩
    · rw [fontsDirRewritten, transitions_append, finish_append]
      rfl
    · exact ⟨.write, rfl, rfl, trivial, by decide +kernel⟩
    · rintro u mem ⟨op, isInput, -⟩
      have isAction := input_of_mem mem
      rw [isInput] at isAction
      simp at isAction
  obtain ⟨u, mem, rehash⟩ := sees (by decide +kernel) (by decide +kernel) _ _ last
  have silent : ∀ u ∈ transitions Rehashing.step
      (finish Rehashing.step altTracked
        (fontsDirCreated ++ [.of (.env (.file altDistroFontPath fontsDir .write))]))
      [.of .read, .of (.call {})], u.output = false := by decide +kernel
  rw [silent u mem] at rehash
  cases rehash

end Wslg.Fonts
