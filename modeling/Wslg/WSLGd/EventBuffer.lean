/-
`FontMonitorThread` on the bytes that `read` returns.

The thread reads several events at once into a buffer and goes through them with an offset, a
handler at a time; meanwhile the kernel queues more. The machine of `FontSystem.lean` takes
one event at a time from the kernel. Here both loops of the source run on the buffer, next to
the same kernel, and every run of theirs is one of that machine, whose queue is the rest of
the buffer and the kernel's queue behind it (`buffered_refines`). So each event is handled
once, in the order of the kernel; nothing outside the buffer is read; and there is always room
for the next event.
-/

import Wslg.Logic.InotifyBuffer
import Wslg.WSLGd.FontGrowth

namespace Wslg.Fonts

open Wslg.Inotify Wslg.Runs

/-! ### The thread and its buffer -/

/-- `char buf[10 * (sizeof *event + 256)]`. -/
def bufSize : Nat := 10 * (headerSize + 256)

/-- The local variables of `FontMonitorThread`, in a system. -/
structure Buffered where
  system : System
  buf : List UInt8
  len : Int := 0
  cur : Int := 0

inductive Act where
  | env (op : Kernel.EnvOp)
  | start
  | stop
  | call (c : Choice)
  /-- `read`, which returns one event for each cookie, or -1. -/
  | read (cookies : Option (List UInt32))
  /-- One turn of the inner loop, up to the first call of the handler. -/
  | turn
deriving DecidableEq

/-- The move of the system that takes one event at a time. -/
def Act.move? : Act → Option Move
  | .env op => some (.env op)
  | .start => some .start
  | .stop => some .stop
  | .call c => some (.call c)
  | .read _ => none
  | .turn => some .read

namespace Buffered

/-- A move of the system. -/
def move (s : Buffered) (m : Move) : Option (List Xset) × Buffered :=
  (some (s.system.step m).1, { s with system := (s.system.step m).2 })

/-- The bytes of events, each with its cookie. -/
def encodeAll (events : List (UInt32 × Event)) : List UInt8 :=
  events.flatMap fun e => encodeEvent e.1 e.2

/-- What `xset` is asked for; nothing stands for an access outside the buffer. -/
def step (s : Buffered) : Act → Option (List Xset) × Buffered
  | .env op => s.move (.env op)
  | .start => s.move .start
  | .stop =>
      -- the buffer goes with the thread
      ((s.move .stop).1,
        if s.system.monitor.tasks = [] then { (s.move .stop).2 with len := 0, cur := 0 } else s)
  | .call c => s.move (.call c)
  | .read none => (some [], { s with len := -1, cur := 0 })
  | .read (some cookies) =>
      let bytes := encodeAll (cookies.zip s.system.kernel.queue)
      (some [],
        { s with
          system := { s.system with kernel := { s.system.kernel with
            queue := s.system.kernel.queue.drop cookies.length } }
          buf := bytes ++ s.buf.drop bytes.length
          len := bytes.length
          cur := 0 })
  | .turn =>
      match eventAt s.buf s.cur with
      | none => (none, s)
      | some (event, next) =>
          (some (s.system.feed (.event event)).1,
            { s with system := (s.system.feed (.event event)).2, cur := next })

/-- The order of the program, and what the kernel does. The thread reads again when it is
through the buffer; it gets whole events from the front of the queue, as many as fit. -/
def Permitted (s : Buffered) : Act → Prop
  | .read none => s.system.Reads ∧ s.len ≤ s.cur
  | .read (some cookies) =>
      s.system.Reads ∧ s.len ≤ s.cur ∧ 0 < cookies.length ∧
        cookies.length ≤ s.system.kernel.queue.length ∧
        (∀ e ∈ s.system.kernel.queue.take cookies.length, Encodable e) ∧
        (encodeAll (cookies.zip s.system.kernel.queue)).length ≤ bufSize
  | .turn => s.system.Reads ∧ s.cur < s.len
  | _ => True

instance (s : Buffered) (act : Act) : Decidable (s.Permitted act) := by
  cases act with
  | read cookies => cases cookies <;> unfold Permitted <;> infer_instance
  | _ => unfold Permitted; infer_instance

def boot (k : Kernel) (buf : List UInt8) : Buffered := { system := System.boot k, buf }

end Buffered

/-! ### Other queues -/

/-- The kernel with another queue. -/
def withQueue (k : Kernel) (q : List Event) : Kernel := { k with queue := q }

/-- What a kernel becomes, whatever its queue was: the same, with the same events behind the
queue. -/
def Appends (x : List Event → Kernel) : Prop := ∃ k news, ∀ q, x q = withQueue k (q ++ news)

theorem appends_self (k : Kernel) : Appends (withQueue k) :=
  ⟨k, [], fun q => by rw [List.append_nil]⟩

theorem Appends.notify {x : List Event → Kernel} (appends : Appends x) (i : Nat) (mask : UInt32)
    (n : Name) : Appends fun q => (x q).notify i mask n := by
  obtain ⟨k, news, same⟩ := appends
  cases watched : k.watches i with
  | none =>
      refine ⟨k, news, fun q => ?_⟩
      have unwatched : (withQueue k (q ++ news)).watches i = none := watched
      simp only [same, Kernel.notify, unwatched]
  | some wd =>
      refine ⟨k, news ++ [⟨wd, mask, n⟩], fun q => ?_⟩
      have isWatched : (withQueue k (q ++ news)).watches i = some wd := watched
      simp only [same, Kernel.notify, isWatched, ← List.append_assoc]
      rfl

theorem Appends.ite {c : Prop} [Decidable c] {x y : List Event → Kernel} (hx : Appends x)
    (hy : Appends y) : Appends fun q => if c then x q else y q := by
  by_cases holds : c
  · simp only [if_pos holds]
    exact hx
  · simp only [if_neg holds]
    exact hy

theorem inode?_withQueue (k : Kernel) (q : List Event) (p : Path) :
    (withQueue k q).inode? p = k.inode? p := rfl

theorem appends_mkdir (k : Kernel) (p : Path) (n : Name) :
    Appends fun q => (withQueue k q).mkdir p n := by
  simp only [Kernel.mkdir, inode?_withQueue]
  cases k.inode? p with
  | none => exact appends_self k
  | some i =>
      show Appends fun q => if Plain n ∧ ¬ k.IsDir (child p n) ∧ (i, n) ∉ k.files then
          (withQueue { k with
            dirs := (child p n, k.nextInode) :: k.dirs
            nextInode := k.nextInode + 1 } q).notify i (inCreate ||| inIsDir) n
        else withQueue k q
      exact Appends.ite ((appends_self _).notify _ _ _) (appends_self k)

theorem appends_rmdir (k : Kernel) (p : Path) (n : Name) :
    Appends fun q => (withQueue k q).rmdir p n := by
  simp only [Kernel.rmdir, inode?_withQueue]
  cases k.inode? p with
  | none => exact appends_self k
  | some i =>
      cases k.inode? (child p n) with
      | none => exact appends_self k
      | some c =>
          show Appends fun q => if Plain n ∧ k.IsEmpty (child p n) c then
              (withQueue (k.drop (child p n) c) q).notify i (inDelete ||| inIsDir) n
            else withQueue k q
          exact Appends.ite ((appends_self _).notify _ _ _) (appends_self k)

theorem appends_fileOp (k : Kernel) (p : Path) (n : Name) (op : Kernel.FileOp) :
    Appends fun q => (withQueue k q).fileOp p n op := by
  simp only [Kernel.fileOp, inode?_withQueue]
  cases k.inode? p with
  | none => exact appends_self k
  | some i =>
      show Appends fun q => if Plain n ∧ ¬ k.IsDir (child p n) ∧ op.Possible ((i, n) ∈ k.files) then
          (withQueue { k with files := Kernel.filesAfter k.files (i, n) op } q).notify i op.mask n
        else withQueue k q
      exact Appends.ite ((appends_self _).notify _ _ _) (appends_self k)

/-- The directory that is replaced goes without an event. -/
theorem vacate_withQueue (k : Kernel) (q : List Event) (p : Path) :
    (withQueue k q).vacate p = (k.vacate p).map fun k' => withQueue k' q := by
  simp only [Kernel.vacate, inode?_withQueue]
  cases k.inode? p with
  | none => rfl
  | some v =>
      show (if k.IsEmpty p v then some (withQueue (k.drop p v) q) else none) = _
      by_cases empty : k.IsEmpty p v
      · simp only [if_pos empty, Option.map_some]
      · simp only [if_neg empty, Option.map_none]

theorem appends_rename (k : Kernel) (p : Path) (n : Name) (p' : Path) (n' : Name) :
    Appends fun q => (withQueue k q).rename p n p' n' := by
  simp only [Kernel.rename, inode?_withQueue, vacate_withQueue]
  cases k.inode? p with
  | none => exact appends_self k
  | some i =>
      cases k.inode? (child p n) with
      | none => exact appends_self k
      | some c =>
          cases k.inode? p' with
          | none => exact appends_self k
          | some i' =>
              cases k.vacate (child p' n') with
              | none =>
                  show Appends fun q => if Plain n ∧ Plain n' ∧ child p' n' ≠ child p n ∧
                      ¬ Under (child p n) (child p' n') ∧ (i', n') ∉ k.files then withQueue k q
                    else withQueue k q
                  exact Appends.ite (appends_self k) (appends_self k)
              | some k' =>
                  show Appends fun q => if Plain n ∧ Plain n' ∧ child p' n' ≠ child p n ∧
                      ¬ Under (child p n) (child p' n') ∧ (i', n') ∉ k.files then
                      ((withQueue (k'.move (child p n) (child p' n')) q).notify i
                        (inMovedFrom ||| inIsDir) n).notify i' (inMovedTo ||| inIsDir) n'
                    else withQueue k q
                  exact Appends.ite (((appends_self _).notify _ _ _).notify _ _ _) (appends_self k)

/-- What others do adds the same events to every queue. -/
theorem exists_news (k : Kernel) (op : Kernel.EnvOp) :
    ∃ news, ∀ q, (withQueue k q).apply op = withQueue (k.apply op) (q ++ news) := by
  have appends : Appends fun q => (withQueue k q).apply op := by
    cases op with
    | mkdir p n => exact appends_mkdir k p n
    | rmdir p n => exact appends_rmdir k p n
    | rename p n p' n' => exact appends_rename k p n p' n'
    | file p n op => exact appends_fileOp k p n op
  obtain ⟨k', news, same⟩ := appends
  have here : k.apply op = withQueue k' (k.queue ++ news) := same k.queue
  refine ⟨news, fun q => (same q).trans ?_⟩
  rw [here]
  rfl

/-! ### Booting -/

/-- A task of `Start` up to its roots, or the one that makes the thread. -/
def Task.Boots (t : Task) : Prop := t.Starts ∨ t = .createThread

/-- Neither the thread is touched nor what is to make it. -/
structure SameBoot (m m' : FontMonitor) : Prop where
  thread : m'.fontMonitorThread = m.fontMonitorThread
  boots : ∀ u ∈ m'.tasks, u.Boots → u ∈ m.tasks

section Boots

variable {m m' m'' : FontMonitor} {a : Answer} {t : Task} {path : Path}

theorem SameBoot.refl (m : FontMonitor) : SameBoot m m := ⟨rfl, fun _ mem _ => mem⟩

theorem SameBoot.trans (first : SameBoot m m') (second : SameBoot m' m'') : SameBoot m m'' :=
  ⟨second.thread.trans first.thread,
    fun u mem boots => first.boots u (second.boots u mem boots) boots⟩

theorem sameBoot_folders (m : FontMonitor) (folders : FolderMap) :
    SameBoot m { m with fontMonitorFolders := folders } := ⟨rfl, fun _ mem _ => mem⟩

theorem sameBoot_call (m : FontMonitor) (noStart : ¬ t.Starts) (noThread : t ≠ .createThread) :
    SameBoot m (m.call t) := by
  refine ⟨rfl, fun u mem boots => ?_⟩
  rcases List.mem_cons.mp mem with rfl | old
  · exact absurd boots (not_or.mpr ⟨noStart, noThread⟩)
  · exact old

theorem sameBoot_addMonitorFolder (m : FontMonitor) (path : Path) :
    SameBoot m (m.addMonitorFolder path) := by
  unfold FontMonitor.addMonitorFolder
  split
  · exact sameBoot_call m id nofun
  · exact .refl m

theorem sameBoot_addSubfolders (m : FontMonitor) (path : Path) :
    SameBoot m (m.addSubfolders path) := by
  unfold FontMonitor.addSubfolders
  split
  · exact sameBoot_call m id nofun
  · exact sameBoot_call m id nofun

theorem sameBoot_insertFolder (m : FontMonitor) (f : FontFolder) :
    SameBoot m (m.insertFolder f) := by
  unfold FontMonitor.insertFolder
  split
  · exact sameBoot_folders m _
  · exact sameBoot_call m id nofun

theorem sameBoot_removeMonitorFolder (m : FontMonitor) (path : Path) :
    SameBoot m (m.removeMonitorFolder path) := by
  unfold FontMonitor.removeMonitorFolder
  split
  · exact .refl m
  · rename_i f _
    exact (sameBoot_folders m _).trans (sameBoot_call (t := .destroy f) _ id nofun)

theorem sameBoot_modifyX11FontPath (m : FontMonitor) (path : Path) (isAdd : Bool) :
    SameBoot m (m.modifyX11FontPath path isAdd) := by
  unfold FontMonitor.modifyX11FontPath
  split
  · exact .refl m
  · split
    · exact sameBoot_call m id nofun
    · exact .refl m

theorem sameBoot_setPathAdded (m : FontMonitor) (path : Path) (isAdd : Bool) :
    SameBoot m (m.setPathAdded path isAdd) := by
  unfold FontMonitor.setPathAdded
  split
  · exact .refl m
  · exact sameBoot_folders m _

/-- Only `Start` adds tasks of its own, and only the task for it makes the thread. -/
theorem sameBoot_resume (notStart : ¬ t.Starts) (notThread : t ≠ .createThread) (m : FontMonitor)
    (a : Answer) : SameBoot m (m.resume a t).2 := by
  cases t with
  | access path =>
      simp only [FontMonitor.resume]
      split
      · exact sameBoot_call m id (by simp)
      · exact sameBoot_call m id (by simp)
  | addPath path => exact sameBoot_call m id (by simp)
  | addWatch folder =>
      simp only [FontMonitor.resume]
      split
      · exact (sameBoot_addSubfolders m _).trans (sameBoot_insertFolder _ _)
      · exact sameBoot_call m id (by simp)
  | existsX11 =>
      simp only [FontMonitor.resume]
      split
      · exact sameBoot_addMonitorFolder m _
      · exact .refl m
  | openDirectory path =>
      simp only [FontMonitor.resume]
      split
      · exact sameBoot_call m id (by simp)
      · exact .refl m
  | nextEntry path =>
      simp only [FontMonitor.resume]
      split
      · exact .refl m
      · split
        · exact (sameBoot_call (t := .nextEntry path) m id (by simp)).trans
            (sameBoot_addMonitorFolder _ _)
        · exact sameBoot_call m id (by simp)
  | destroy folder =>
      simp only [FontMonitor.resume]
      split
      · exact sameBoot_call m id (by simp)
      · exact .refl m
  | rmWatch wd => exact .refl m
  | testFontsDir path =>
      simp only [FontMonitor.resume]
      split
      · exact sameBoot_modifyX11FontPath m _ _
      · exact .refl m
  | modify path isAdd =>
      simp only [FontMonitor.resume]
      split
      · exact sameBoot_setPathAdded m _ _
      · exact .refl m
  | add path => exact sameBoot_addMonitorFolder m path
  | createThread => exact absurd rfl notThread
  | _ => exact absurd trivial notStart

theorem sameBoot_handleEvent (m : FontMonitor) (event : Event) :
    SameBoot m (m.handleEvent event) := by
  have folder : SameBoot m (m.handleFolderEvent event) := by
    unfold FontMonitor.handleFolderEvent
    split
    · exact .refl m
    · split_ifs
      · exact .refl m
      · exact sameBoot_addMonitorFolder m _
      · exact sameBoot_removeMonitorFolder m _
      · exact .refl m
  have file : SameBoot m (m.handleFontsDirEvent event) := by
    unfold FontMonitor.handleFontsDirEvent
    split
    · exact .refl m
    · split_ifs
      · exact sameBoot_call m id nofun
      · exact sameBoot_modifyX11FontPath m _ _
      · exact .refl m
  unfold FontMonitor.handleEvent
  split_ifs
  · exact folder
  · exact file
  · exact .refl m
  · exact .refl m

/-- The thread is there or is to be made. -/
def FontMonitor.Listens (m : FontMonitor) : Prop :=
  m.fontMonitorThread = true ∨ Task.createThread ∈ m.tasks

/-- `Start` is through its checks when there is a thread. -/
def FontMonitor.Started (m : FontMonitor) : Prop :=
  m.fontMonitorThread = true → ∀ t ∈ m.tasks, ¬ t.Starts

theorem FontMonitor.Started.noThread (started : m.Started) (mem : t ∈ m.tasks)
    (starts : t.Starts) : m.fontMonitorThread = false :=
  Bool.eq_false_iff.mpr fun isThread => started isThread t mem starts

/-- What a step does to the thread that is not a call of `Stop`. -/
structure Proceeds (m m' : FontMonitor) (inits : Prop) : Prop where
  started : m'.Started
  thread : m'.fontMonitorThread = false → m.fontMonitorThread = false
  listens : m'.Listens → m.Listens ∨ inits

theorem SameBoot.proceeds (same : SameBoot m m') (started : m.Started) (inits : Prop) :
    Proceeds m m' inits := by
  constructor
  · intro thread u mem starts
    exact started (same.thread ▸ thread) u (same.boots u mem (Or.inl starts)) starts
  · intro noThread
    exact same.thread ▸ noThread
  · rintro (thread | later)
    · exact Or.inl (Or.inl (same.thread ▸ thread))
    · exact Or.inl (Or.inr (same.boots _ later (Or.inr rfl)))

/-- A thread is made only behind `inotify_init`, and then `Start` has nothing left to do. -/
theorem proceeds_resume {rest : List Task} (tasks : m.tasks = t :: rest)
    (orderly : Busy m ∨ Emptied m) (started : m.Started) (a : Answer) :
    Proceeds m (FontMonitor.resume { m with tasks := rest } a t).2
      (∃ user alt, t = .startInit user alt ∧ a.ok = true) := by
  obtain ⟨folders, thread, tasks'⟩ := m
  simp only at tasks
  subst tasks
  have popped : SameBoot ⟨folders, thread, t :: rest⟩ ⟨folders, thread, rest⟩ :=
    ⟨rfl, fun _ mem _ => List.mem_cons_of_mem _ mem⟩
  by_cases starts : t.Starts
  · have noThread : thread = false := started.noThread List.mem_cons_self starts
    subst noThread
    have busy : Busy ⟨folders, false, t :: rest⟩ := by
      refine orderly.resolve_right fun emptied => ?_
      have destroys := emptied.destroys t List.mem_cons_self
      cases t <;> first | exact starts | exact destroys
    rcases resume_starts starts ⟨folders, false, rest⟩ a with
      gaveUp | ⟨t', starts', goesOn⟩ | ⟨user, alt, isInit, can, roots⟩
    · rw [gaveUp, stop_of_starts busy starts]
      exact ⟨nofun, fun _ => rfl, fun listens => (listens.elim nofun nofun)⟩
    · rw [goesOn]
      refine ⟨nofun, fun _ => rfl, ?_⟩
      rintro (isThread | later)
      · cases isThread
      · rcases List.mem_cons.mp later with rfl | later
        · exact starts'.elim
        · exact Or.inl (Or.inr (List.mem_cons_of_mem _ later))
    · rw [roots]
      exact ⟨nofun, fun _ => rfl, fun _ => Or.inr ⟨user, alt, isInit, can⟩⟩
  · by_cases makes : t = .createThread
    · subst makes
      have busy : Busy ⟨folders, thread, .createThread :: rest⟩ := by
        refine orderly.resolve_right fun emptied => ?_
        exact emptied.destroys _ List.mem_cons_self
      refine ⟨fun _ u mem => (busy.waiting u mem).not_starts, nofun, fun _ => ?_⟩
      exact Or.inl (Or.inr List.mem_cons_self)
    · exact (popped.trans (sameBoot_resume starts makes _ a)).proceeds started _

end Boots

/-! ### The two machines -/

namespace System

/-- The system with another queue. -/
def withQueue (s : System) (q : List Event) : System :=
  { s with kernel := Fonts.withQueue s.kernel q }

theorem tracked_of_withQueue {s a : System} {q : List Event} {p : Path}
    (same : a = s.withQueue q) (tracked : a.Tracked p) : s.Tracked p := by
  rw [same] at tracked
  exact tracked

/-- The call makes a new inotify instance, whose queue is empty. -/
def Renews (c : Choice) (t : Task) : Prop := ∃ user alt, t = .startInit user alt ∧ c.start = true

theorem withQueue_addWatch (k : Kernel) (q : List Event) (p : Path) :
    (Fonts.withQueue k q).addWatch p =
        ((k.addWatch p).1, Fonts.withQueue (k.addWatch p).2 q) ∧
      (k.addWatch p).2.queue = k.queue := by
  simp only [Kernel.addWatch, inode?_withQueue]
  cases k.inode? p with
  | none => exact ⟨rfl, rfl⟩
  | some i =>
      have same : (Fonts.withQueue k q).watches i = k.watches i := rfl
      cases watched : k.watches i with
      | none =>
          simp only [same, watched]
          exact ⟨rfl, trivial⟩
      | some wd =>
          simp only [same, watched]
          exact ⟨trivial, trivial⟩

/-- No other call depends on the queue or changes it. -/
theorem serve_withQueue {c : Choice} {t : Task} (keeps : ¬ Renews c t) (s : System)
    (q : List Event) :
    (s.withQueue q).serve c t = ((s.serve c t).1, (s.serve c t).2.withQueue q) ∧
      (s.serve c t).2.kernel.queue = s.kernel.queue := by
  cases t with
  | addWatch folder =>
      obtain ⟨same, queue⟩ := withQueue_addWatch s.kernel q folder.path
      by_cases room : c.watch = true
      · simp only [serve, if_pos room, System.withQueue, same]
        exact ⟨trivial, queue⟩
      · simp only [serve, if_neg room]
        exact ⟨trivial, trivial⟩
  | nextEntry path =>
      have next : (s.withQueue q).nextName path c.entry = s.nextName path c.entry := rfl
      simp only [serve, next]
      cases s.nextName path c.entry with
      | none => exact ⟨rfl, rfl⟩
      | some n => exact ⟨rfl, rfl⟩
  | startInit user alt =>
      have refused : ¬ c.start = true := fun starts => keeps ⟨user, alt, rfl, starts⟩
      simp only [serve, if_neg refused]
      exact ⟨trivial, trivial⟩
  | _ => exact ⟨rfl, rfl⟩

theorem serve_renews {c : Choice} {t : Task} (renews : Renews c t) (s : System)
    (q : List Event) :
    (s.withQueue q).serve c t = s.serve c t ∧ (s.serve c t).2.kernel.queue = [] := by
  obtain ⟨user, alt, rfl, starts⟩ := renews
  simp only [serve, if_pos starts]
  exact ⟨rfl, rfl⟩

/-- The call that comes first is made, next to another queue. -/
theorem step_call_withQueue {s : System} {c : Choice} {t : Task} {rest : List Task}
    (tasks : s.monitor.tasks = t :: rest) (keeps : ¬ Renews c t) (q : List Event) :
    (s.withQueue q).step (.call c) =
        ((s.step (.call c)).1, (s.step (.call c)).2.withQueue q) ∧
      (s.step (.call c)).2.kernel.queue = s.kernel.queue := by
  have tasks' : (s.withQueue q).monitor.tasks = t :: rest := tasks
  obtain ⟨served, queue⟩ := serve_withQueue keeps s q
  rw [step_call tasks, step_call tasks', answered, answered, served]
  exact ⟨rfl, queue⟩

theorem step_call_renews {s : System} {c : Choice} {t : Task} {rest : List Task}
    (tasks : s.monitor.tasks = t :: rest) (renews : Renews c t) (q : List Event) :
    (s.withQueue q).step (.call c) = s.step (.call c) ∧
      (s.step (.call c)).2.kernel.queue = [] := by
  have tasks' : (s.withQueue q).monitor.tasks = t :: rest := tasks
  obtain ⟨served, queue⟩ := serve_renews renews s q
  rw [step_call tasks, step_call tasks', answered, answered, served]
  exact ⟨rfl, queue⟩

theorem proceeds_call {s : System} {t : Task} {rest : List Task}
    (tasks : s.monitor.tasks = t :: rest) (orderly : Busy s.monitor ∨ Emptied s.monitor)
    (started : s.monitor.Started) (c : Choice) :
    Proceeds s.monitor (s.step (.call c)).2.monitor (Renews c t) := by
  have proceeds := proceeds_resume tasks orderly started (s.serve c t).1
  rw [step_call tasks]
  refine ⟨proceeds.started, proceeds.thread, fun listens => ?_⟩
  refine (proceeds.listens listens).imp_right fun ⟨user, alt, isInit, can⟩ => ?_
  refine ⟨user, alt, isInit, by_contra fun refused => ?_⟩
  subst isInit
  simp only [serve, if_neg refused] at can
  cases can

end System

namespace Buffered

/-! ### The buffer -/

/-- The buffer holds these events, and the thread has not come to them. -/
structure Holds (s : Buffered) (left : List (UInt32 × Event)) : Prop where
  size : s.buf.length = bufSize
  encodable : ∀ e ∈ left, Encodable e.2
  through : left = [] → s.len ≤ s.cur
  rest : left ≠ [] → ∃ front back, s.buf = front ++ (encodeAll left ++ back) ∧
    s.cur = front.length ∧ s.len = (front.length + (encodeAll left).length : Nat)

section Holds

variable {s : Buffered} {left : List (UInt32 × Event)}

theorem encodeAll_cons (e : UInt32 × Event) (es : List (UInt32 × Event)) :
    encodeAll (e :: es) = encodeEvent e.1 e.2 ++ encodeAll es := rfl

/-- There is an event left as long as the loop goes on. -/
theorem Holds.left_iff (holds : s.Holds left) : left ≠ [] ↔ s.cur < s.len := by
  constructor
  · intro any
    obtain ⟨front, back, -, cur, len⟩ := holds.rest any
    obtain ⟨e, es, rfl⟩ := List.exists_cons_of_ne_nil any
    have size := length_encodeEvent e.1 e.2
    rw [encodeAll_cons, List.length_append, headerSize] at *
    omega
  · intro more none_
    have through := holds.through none_
    omega

/-- A turn comes to the first event that is left, and what it reads is inside the buffer. -/
theorem Holds.eventAt {e : UInt32 × Event} (holds : s.Holds (e :: left)) :
    ∃ next, Inotify.eventAt s.buf s.cur = some (e.2, next) ∧
      ∀ system : System, Holds { s with system := system, cur := next } left := by
  obtain ⟨front, back, buf, cur, len⟩ := holds.rest (List.cons_ne_nil e left)
  have size := holds.size
  rw [encodeAll_cons, List.append_assoc] at buf
  have small : front.length + (encodeEvent e.1 e.2).length < 2147483648 := by
    have inside := congrArg List.length buf
    have limit : bufSize = 2720 := rfl
    rw [List.length_append, List.length_append] at inside
    omega
  have here := eventAt_encodeEvent (holds.encodable e List.mem_cons_self) e.1 front
    (encodeAll left ++ back) small
  rw [← buf, ← cur] at here
  refine ⟨_, here, fun system => ?_⟩
  rw [encodeAll_cons, List.length_append] at len
  refine ⟨holds.size, fun e' mem => holds.encodable e' (List.mem_cons_of_mem _ mem), ?_, ?_⟩
  · rintro rfl
    have none_ : (encodeAll []).length = 0 := rfl
    show s.len ≤ (front.length + (encodeEvent e.1 e.2).length : Nat)
    omega
  · intro _
    refine ⟨front ++ encodeEvent e.1 e.2, back, ?_, ?_, ?_⟩
    · rw [List.append_assoc]
      exact buf
    · rw [List.length_append]
    · rw [List.length_append, Nat.add_assoc]
      exact len

/-- Where there is nothing left, any events that fit can be put into the buffer. -/
theorem holds_read {es : List (UInt32 × Event)} (size : s.buf.length = bufSize)
    (encodable : ∀ e ∈ es, Encodable e.2) (fits : (encodeAll es).length ≤ bufSize)
    (system : System) :
    Holds ⟨system, encodeAll es ++ s.buf.drop (encodeAll es).length, (encodeAll es).length, 0⟩
      es := by
  constructor
  · rw [List.length_append, List.length_drop, size]
    omega
  · exact encodable
  · rintro rfl
    exact le_rfl
  · intro _
    refine ⟨[], s.buf.drop (encodeAll es).length, rfl, rfl, ?_⟩
    show ((encodeAll es).length : Int) = (0 + (encodeAll es).length : Nat)
    rw [Nat.zero_add]

theorem holds_through (size : s.buf.length = bufSize) (system : System) {len cur : Int}
    (through : len ≤ cur) : Holds ⟨system, s.buf, len, cur⟩ [] :=
  ⟨size, nofun, fun _ => through, fun any => absurd rfl any⟩

theorem Holds.other (holds : s.Holds left) (system : System) :
    Holds { s with system := system } left :=
  ⟨holds.size, holds.encodable, holds.through, holds.rest⟩

end Holds

/-! ### The two machines together -/

/-- The system shows what the thread has still to come to at the front of its queue, while
there is a thread; it is the same in everything else. -/
structure Shows (s : Buffered) (a : System) : Prop where
  same : a = s.system.withQueue a.kernel.queue
  orderly : Busy s.system.monitor ∨ Emptied s.system.monitor
  started : s.system.monitor.Started
  queued : ∃ left, s.Holds left ∧ (s.system.monitor.fontMonitorThread = false → left = []) ∧
    (s.system.monitor.Listens → a.kernel.queue = left.map (·.2) ++ s.system.kernel.queue)

section Shows

variable {s : Buffered} {a : System}

/-- The monitor goes on next to both queues. -/
theorem Shows.goOn (shows : Shows s a) {system : System} {q : List Event} {inits : Prop}
    (orderly : Busy system.monitor ∨ Emptied system.monitor)
    (proceeds : Proceeds s.system.monitor system.monitor inits)
    (queue : ∀ left : List (UInt32 × Event),
      (s.system.monitor.fontMonitorThread = false → left = []) →
      (s.system.monitor.Listens → a.kernel.queue = left.map (·.2) ++ s.system.kernel.queue) →
      system.monitor.Listens → q = left.map (·.2) ++ system.kernel.queue) :
    Shows { s with system := system } (system.withQueue q) := by
  obtain ⟨left, holds, noThread, queued⟩ := shows.queued
  refine ⟨rfl, orderly, proceeds.started, left, holds.other system, ?_, ?_⟩
  · exact fun isNone => noThread (proceeds.thread isNone)
  · exact queue left noThread queued

/-- No new inotify instance, and the kernel's queue is as it was. -/
theorem Shows.goOn' (shows : Shows s a) {system : System}
    (orderly : Busy system.monitor ∨ Emptied system.monitor)
    (proceeds : Proceeds s.system.monitor system.monitor False)
    (queue : system.kernel.queue = s.system.kernel.queue) :
    Shows { s with system := system } (system.withQueue a.kernel.queue) := by
  refine shows.goOn orderly proceeds fun left _ queued listens => ?_
  rw [queue]
  exact queued ((proceeds.listens listens).resolve_right id)

theorem Shows.proceeds_refl (shows : Shows s a) :
    Proceeds s.system.monitor s.system.monitor False :=
  (SameBoot.refl _).proceeds shows.started _

theorem Shows.env (shows : Shows s a) (op : Kernel.EnvOp) :
    Shows (s.move (.env op)).2 (a.step (.env op)).2 := by
  obtain ⟨news, same⟩ := exists_news s.system.kernel op
  have queue : (s.system.kernel.apply op).queue = s.system.kernel.queue ++ news :=
    congrArg Kernel.queue (same s.system.kernel.queue)
  have moved : (a.step (.env op)).2 = System.withQueue
      { s.system with kernel := s.system.kernel.apply op } (a.kernel.queue ++ news) := by
    have kernel : a.kernel = withQueue s.system.kernel a.kernel.queue :=
      congrArg System.kernel shows.same
    show { a with kernel := a.kernel.apply op } = _
    rw [kernel, same, shows.same]
    rfl
  rw [moved]
  refine shows.goOn shows.orderly shows.proceeds_refl fun left _ queued listens => ?_
  show _ = _ ++ (s.system.kernel.apply op).queue
  rw [queued listens, queue, List.append_assoc]

theorem Shows.start (shows : Shows s a) : Shows (s.move .start).2 (a.step .start).2 := by
  have moved : (a.step .start).2 = (s.system.step .start).2.withQueue a.kernel.queue := by
    rw [shows.same]
    rfl
  rw [moved]
  refine shows.goOn' (System.orderly_step shows.orderly .start) ?_ rfl
  simp only [System.step, System.feed, Fonts.step]
  split
  · rename_i can
    refine ⟨?_, fun _ => can.1, ?_⟩
    · intro isThread
      cases can.1.symm.trans isThread
    · rintro (isThread | later)
      · exact Or.inl (Or.inl isThread)
      · rcases List.mem_cons.mp later with isStart | later
        · cases isStart
        · exact Or.inl (Or.inr later)
  · exact shows.proceeds_refl

theorem Shows.call (shows : Shows s a) (c : Choice) :
    (a.step (.call c)).1 = (s.system.step (.call c)).1 ∧
      Shows (s.move (.call c)).2 (a.step (.call c)).2 := by
  have orderly := System.orderly_step shows.orderly (.call c)
  cases tasks : s.system.monitor.tasks with
  | nil =>
      have tasks' : a.monitor.tasks = [] := by
        rw [shows.same]
        exact tasks
      have idle : a.step (.call c) = ([], a) := by simp only [System.step, tasks']
      have idle' : s.system.step (.call c) = ([], s.system) := by simp only [System.step, tasks]
      rw [move, idle, idle']
      exact ⟨rfl, shows⟩
  | cons t rest =>
      have proceeds := System.proceeds_call tasks shows.orderly shows.started c
      by_cases renews : System.Renews c t
      · -- both queues are empty, and there is no thread that could have events left
        obtain ⟨stepped, queue⟩ := System.step_call_renews tasks renews a.kernel.queue
        have moved : a.step (.call c) = ((s.system.step (.call c)).1,
            (s.system.step (.call c)).2.withQueue []) := by
          rw [shows.same, stepped, ← queue]
          rfl
        rw [moved]
        refine ⟨rfl, shows.goOn orderly proceeds fun left noThread _ _ => ?_⟩
        obtain ⟨user, alt, isInit, -⟩ := renews
        have isFirst : Task.startInit user alt ∈ s.system.monitor.tasks := by
          rw [tasks, isInit]
          exact List.mem_cons_self
        rw [noThread (shows.started.noThread isFirst trivial), queue]
        rfl
      · obtain ⟨stepped, queue⟩ := System.step_call_withQueue tasks renews a.kernel.queue
        rw [← shows.same] at stepped
        rw [stepped]
        refine ⟨rfl, shows.goOn' orderly ?_ queue⟩
        exact ⟨proceeds.started, proceeds.thread, fun listens =>
          (proceeds.listens listens).imp_right renews⟩

theorem Shows.stop (shows : Shows s a) : Shows (s.step .stop).2 (a.step .stop).2 := by
  have orderly := System.orderly_step shows.orderly .stop
  by_cases idle : s.system.monitor.tasks = []
  · have moved : (a.step .stop).2 = (s.system.step .stop).2.withQueue a.kernel.queue := by
      rw [shows.same]
      rfl
    obtain ⟨left, holds, -, -⟩ := shows.queued
    have stopped : (s.system.step .stop).2.monitor = s.system.monitor.stop := by
      simp only [System.step, System.feed, Fonts.step, if_pos idle]
    simp only [step, if_pos idle, moved]
    refine ⟨rfl, orderly, ?_, [], holds_through holds.size _ le_rfl, fun _ => rfl, ?_⟩
    · show (s.system.step .stop).2.monitor.Started
      rw [stopped]
      intro isThread
      cases isThread
    · show (s.system.step .stop).2.monitor.Listens → _
      rw [stopped]
      rintro (isThread | later)
      · cases isThread
      · exact ((emptied_stop idle).destroys _ later).elim
  · have idle' : ¬ a.monitor.tasks = [] := by
      rw [shows.same]
      exact idle
    simp only [step, if_neg idle, System.step, System.feed, Fonts.step, if_neg idle']
    exact shows

/-- The thread reads on when it is through the buffer. -/
theorem Shows.read (shows : Shows s a) {cookies : Option (List UInt32)}
    (permitted : s.Permitted (.read cookies)) : Shows (s.step (.read cookies)).2 a := by
  obtain ⟨left, holds, noThread, queued⟩ := shows.queued
  cases cookies with
  | none =>
      obtain ⟨-, through⟩ := permitted
      have none_ : left = [] := by_contra fun any => absurd (holds.left_iff.mp any) (by omega)
      subst none_
      exact ⟨shows.same, shows.orderly, shows.started, [], holds_through holds.size _ (by decide),
        noThread, queued⟩
  | some cookies =>
      obtain ⟨reads, through, -, enough, encodable, fits⟩ := permitted
      have none_ : left = [] := by_contra fun any => absurd (holds.left_iff.mp any) (by omega)
      subst none_
      have events : (cookies.zip s.system.kernel.queue).map (·.2) =
          s.system.kernel.queue.take cookies.length := by
        rw [List.zip_eq_zip_take_min, min_eq_left enough, List.take_length, List.map_snd_zip]
        rw [List.length_take, min_eq_left enough]
      refine ⟨shows.same, shows.orderly, shows.started, cookies.zip s.system.kernel.queue,
        holds_read holds.size ?_ fits _, ?_, ?_⟩
      · intro e mem
        exact encodable e.2 (events ▸ List.mem_map_of_mem mem)
      · intro isNone
        cases reads.1.symm.trans isNone
      · intro listens
        rw [queued listens, events]
        exact (List.take_append_drop _ _).symm

theorem Shows.turn (shows : Shows s a) (permitted : s.Permitted .turn) :
    (s.step .turn).1 = some (a.step .read).1 ∧ Shows (s.step .turn).2 (a.step .read).2 := by
  obtain ⟨reads, more⟩ := permitted
  obtain ⟨left, holds, noThread, queued⟩ := shows.queued
  obtain ⟨e, left, rfl⟩ := List.exists_cons_of_ne_nil (holds.left_iff.mpr more)
  obtain ⟨next, here, holds'⟩ := holds.eventAt
  have queue : a.kernel.queue = e.2 :: (left.map (·.2) ++ s.system.kernel.queue) :=
    queued (Or.inl reads.1)
  have reads' : a.Reads := by
    rw [shows.same]
    exact reads
  have orderly := Fonts.orderly_step shows.orderly (.event e.2)
  have handled : Fonts.step s.system.monitor (.event e.2) =
      ([], s.system.monitor.handleEvent e.2) := by
    have can : s.system.monitor.fontMonitorThread = true ∧ s.system.monitor.tasks = [] := reads
    simp only [Fonts.step, if_pos can]
  have turned : s.step .turn = (some (s.system.feed (.event e.2)).1,
      { s with system := (s.system.feed (.event e.2)).2, cur := next }) := by
    simp only [step, here]
  have moved : a.step .read = ((s.system.feed (.event e.2)).1,
      (s.system.feed (.event e.2)).2.withQueue (left.map (·.2) ++ s.system.kernel.queue)) := by
    simp only [System.step, queue, if_pos reads']
    rw [shows.same]
    rfl
  have proceeds : Proceeds s.system.monitor (s.system.monitor.handleEvent e.2) False :=
    (sameBoot_handleEvent _ _).proceeds shows.started _
  rw [turned, moved]
  refine ⟨rfl, rfl, orderly, ?_, left, holds' _, ?_, fun _ => rfl⟩
  · show (Fonts.step s.system.monitor (.event e.2)).2.Started
    rw [handled]
    exact proceeds.started
  · show (Fonts.step s.system.monitor (.event e.2)).2.fontMonitorThread = false → _
    rw [handled]
    intro isNone
    cases reads.1.symm.trans (proceeds.thread isNone)

/-- Each act is a move of the system, or reads more of its queue into the buffer. -/
theorem Shows.simulates (shows : Shows s a) {act : Act} (permitted : s.Permitted act) :
    match act.move? with
    | none => (s.step act).1 = some [] ∧ Shows (s.step act).2 a
    | some m => (s.step act).1 = some (a.step m).1 ∧ Shows (s.step act).2 (a.step m).2 := by
  cases act with
  | env op => exact ⟨rfl, shows.env op⟩
  | start => exact ⟨rfl, shows.start⟩
  | stop => exact ⟨rfl, shows.stop⟩
  | call c =>
      obtain ⟨same, shows'⟩ := shows.call c
      exact ⟨congrArg some same.symm, shows'⟩
  | read cookies =>
      refine ⟨?_, shows.read permitted⟩
      cases cookies <;> rfl
  | turn => exact shows.turn permitted

theorem Shows.steps (shows : Shows s a) {act : Act} (permitted : s.Permitted act) :
    (s.step act).1 ≠ none ∧ ∃ a', Shows (s.step act).2 a' := by
  have simulated := shows.simulates permitted
  revert simulated
  cases act.move? with
  | none =>
      rintro ⟨output, shows'⟩
      rw [output]
      exact ⟨nofun, _, shows'⟩
  | some m =>
      rintro ⟨output, shows'⟩
      rw [output]
      exact ⟨nofun, _, shows'⟩

theorem shows_boot (k : Kernel) {buf : List UInt8} (size : buf.length = bufSize) :
    Shows (boot k buf) (System.boot k) := by
  refine ⟨rfl, Or.inl busy_start, nofun, [], ?_, fun _ => rfl, fun _ => rfl⟩
  exact ⟨size, nofun, fun _ => le_rfl, fun any => absurd rfl any⟩

/-- Where the system could take an event, the thread has one left, or there is room for the
next. -/
theorem Shows.goesOn (shows : Shows s a) (reads : a.Reads) (any : a.kernel.queue ≠ [])
    (encodable : ∀ e ∈ a.kernel.queue, Encodable e) :
    s.Permitted .turn ∨ s.Permitted (.read (some [0])) := by
  obtain ⟨left, holds, -, queued⟩ := shows.queued
  have reads' : s.system.Reads := by
    rw [shows.same] at reads
    exact reads
  have queue := queued (Or.inl reads'.1)
  cases left with
  | cons e left => exact Or.inl ⟨reads', holds.left_iff.mp (List.cons_ne_nil e left)⟩
  | nil =>
      have through : s.len ≤ s.cur := holds.through rfl
      rw [queue] at any encodable
      cases isQueue : s.system.kernel.queue with
      | nil => exact absurd isQueue any
      | cons e events =>
          rw [isQueue] at encodable
          have isEncodable := encodable e List.mem_cons_self
          have fits := length_encodeEvent_le 0 isEncodable
          have one : encodeAll ([0].zip (e :: events)) = encodeEvent 0 e := by
            rw [List.zip_cons_cons, List.zip_nil_left, encodeAll_cons]
            exact List.append_nil _
          have room : headerSize + (nameMax + 1) ≤ bufSize := by decide
          refine Or.inr ⟨reads', through, Nat.one_pos, ?_, ?_, ?_⟩
          · rw [isQueue]
            exact Nat.succ_le_succ (Nat.zero_le _)
          · rw [isQueue]
            intro e' mem
            rw [List.mem_singleton.mp mem]
            exact isEncodable
          · rw [isQueue, one]
            exact fits.trans room

end Shows

end Buffered

open Buffered in
/-- A run of the thread on its buffer is one of the system that takes one event at a time. It
never reads outside the buffer and asks `xset` for the same; it is the same system but for the
events that wait in the buffer; and it is stuck only where the other is. -/
theorem buffered_refines (k : Kernel) {buf : List UInt8} (size : buf.length = bufSize)
    (acts : List Act)
    (permitted : ∀ t ∈ transitions Buffered.step (boot k buf) acts, t.before.Permitted t.input) :
    let s := finish Buffered.step (boot k buf) acts
    let a := System.after k (acts.filterMap Act.move?)
    (∀ t ∈ transitions Buffered.step (boot k buf) acts, t.output ≠ none) ∧
      (transitions Buffered.step (boot k buf) acts).flatMap (fun t => t.output.getD []) =
        (transitions System.step (System.boot k) (acts.filterMap Act.move?)).flatMap
          (·.output) ∧
      a = s.system.withQueue a.kernel.queue ∧
      (s.system.monitor.fontMonitorThread = true → ∃ left, s.Holds left ∧
        a.kernel.queue = left.map (·.2) ++ s.system.kernel.queue) ∧
      (a.Reads → a.kernel.queue ≠ [] → (∀ e ∈ a.kernel.queue, Encodable e) →
        s.Permitted .turn ∨ s.Permitted (.read (some [0]))) := by
  intro s a
  have start := shows_boot k size
  have refined : Shows s a ∧
      (transitions Buffered.step (boot k buf) acts).flatMap (fun t => t.output.getD []) =
        (transitions System.step (System.boot k) (acts.filterMap Act.move?)).flatMap
          (·.output) := by
    refine refines_stuttering (fun t s' taken can shows => ?_) start permitted
    have simulated := shows.simulates can
    rw [taken] at simulated
    revert simulated
    cases t.input.move? with
    | none => exact fun ⟨same, shows'⟩ => ⟨shows', congrArg (Option.getD · []) same⟩
    | some m => exact fun ⟨same, shows'⟩ => ⟨shows', congrArg (Option.getD · []) same⟩
  obtain ⟨shows, asked⟩ := refined
  refine ⟨fun t mem => ?_, asked, shows.same, ?_, shows.goesOn⟩
  · have shown : (∃ a, Shows t.before a) ∧ ∃ a, Shows t.after a := by
      refine invariant_transitions (I := fun s => ∃ a, Shows s a)
        (fun t taken can ⟨s', shows⟩ => ?_) ⟨_, start⟩ permitted t mem
      have later := (shows.steps can).2
      rw [taken] at later
      exact later
    obtain ⟨⟨s', shows⟩, -⟩ := shown
    have output := (shows.steps (permitted t mem)).1
    rw [taken_of_mem mem] at output
    exact output
  · intro isThread
    obtain ⟨left, holds, -, queued⟩ := shows.queued
    exact ⟨left, holds, queued (Or.inl isThread)⟩

/-- Two folders are made, a third while the handler of the first is at work; the events of
the first two are read at once. -/
def readsTwo : List Act :=
  .start :: List.replicate 11 (.call {}) ++
    .env (.mkdir altDistroFontPath (cxx "a")) :: .env (.mkdir altDistroFontPath (cxx "b")) ::
    .read (some [1, 2]) :: .turn :: .env (.mkdir altDistroFontPath (cxx "c")) ::
    List.replicate 4 (.call {}) ++ .turn :: List.replicate 4 (.call {}) ++
    .read (some [3]) :: .turn :: List.replicate 4 (.call {})

def zeros : List UInt8 := List.replicate bufSize 0

theorem buffered_refines_readsTwo :
    (finish Buffered.step (Buffered.boot System.altTree zeros) readsTwo).system.Tracked
      (child altDistroFontPath (cxx "c")) := by
  have size : zeros.length = bufSize := List.length_replicate
  obtain ⟨-, -, same, -, -⟩ := buffered_refines System.altTree size readsTwo (by decide +kernel)
  have tracked : (System.after System.altTree (readsTwo.filterMap Act.move?)).Tracked
      (child altDistroFontPath (cxx "c")) := by decide +kernel
  exact System.tracked_of_withQueue same tracked

end Wslg.Fonts
