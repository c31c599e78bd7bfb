/-
No font folder is lost.

While folders only come, a folder that is tracked is watched before its entries are read.
So each directory in it is expected: there is an event of it in the queue, or the stream
of the folder is still to give it, or its own constructor is under way. The mounted font
path has no stream; its `X11` is asked for after the watch. When nothing is queued and no
handler runs, nothing is expected any more, and all is tracked that is to be monitored.

Nothing else is: below the mounted font path only `X11` is taken in, by event or not.
-/

import Wslg.WSLGd.FontGrowth

namespace Wslg.Fonts

open Wslg.Inotify Wslg.Protocol Wslg.Runs

/-! ### The monitored region -/

def x11Path : Path := child userDistroFontPath x11

/-- At or below a root that `Start` found; of the mounted one, only its `X11`. -/
def System.Monitored (s : System) (p : Path) : Prop :=
  (s.userRoot = true ∧ (p = userDistroFontPath ∨ p = x11Path ∨ Under x11Path p)) ∨
    (s.altRoot = true ∧ (p = altDistroFontPath ∨ Under altDistroFontPath p))

instance (s : System) (p : Path) : Decidable (s.Monitored p) :=
  inferInstanceAs (Decidable (_ ∨ _))

section Monitored

variable {s : System} {p : Path} {n : Name}

theorem monitored_child (monitored : s.Monitored p) (plain : Plain n)
    (isX11 : p = userDistroFontPath → n = x11) : s.Monitored (child p n) := by
  rcases monitored with ⟨root, isUser | isX11Path | below⟩ | ⟨root, isAlt | below⟩
  · refine Or.inl ⟨root, Or.inr (Or.inl ?_)⟩
    rw [isUser, isX11 isUser]
    rfl
  · exact Or.inl ⟨root, Or.inr (Or.inr ((under_child_iff plain).mpr (Or.inl isX11Path)))⟩
  · exact Or.inl ⟨root, Or.inr (Or.inr ((under_child_iff plain).mpr (Or.inr below)))⟩
  · exact Or.inr ⟨root, Or.inr ((under_child_iff plain).mpr (Or.inl isAlt))⟩
  · exact Or.inr ⟨root, Or.inr ((under_child_iff plain).mpr (Or.inr below))⟩

theorem not_under_x11 : ¬ (userDistroFontPath = x11Path ∨ Under x11Path userDistroFontPath) := by
  decide

theorem not_under_alt :
    ¬ (userDistroFontPath = altDistroFontPath ∨ Under altDistroFontPath userDistroFontPath) := by
  decide

/-- What is monitored is a root or is an entry of what is monitored. -/
theorem monitored_parent (plain : Plain n) (monitored : s.Monitored (child p n)) :
    child p n = userDistroFontPath ∨ child p n = altDistroFontPath ∨
      s.Monitored p ∧ (p = userDistroFontPath → n = x11) := by
  rcases monitored with ⟨root, isUser | isX11 | below⟩ | ⟨root, isAlt | below⟩
  · exact Or.inl isUser
  · obtain ⟨rfl, rfl⟩ := child_inj plain plain_x11 isX11
    exact Or.inr (Or.inr ⟨Or.inl ⟨root, Or.inl rfl⟩, fun _ => rfl⟩)
  · have below := (under_child_iff plain).mp below
    refine Or.inr (Or.inr ⟨Or.inl ⟨root, Or.inr below⟩, ?_⟩)
    rintro rfl
    exact absurd below not_under_x11
  · exact Or.inr (Or.inl isAlt)
  · have below := (under_child_iff plain).mp below
    refine Or.inr (Or.inr ⟨Or.inr ⟨root, below⟩, ?_⟩)
    rintro rfl
    exact absurd below not_under_alt

/-- Below the mounted font path, only its `X11`. -/
theorem monitored_user_child (plain : Plain n)
    (monitored : s.Monitored (child userDistroFontPath n)) : n = x11 := by
  have notUnder : ¬ Under userDistroFontPath altDistroFontPath := by decide
  have below := under_child userDistroFontPath n
  rcases monitored_parent plain monitored with isUser | isAlt | ⟨-, isX11⟩
  · have longer := congrArg List.length isUser
    simp [child] at longer
  · rw [isAlt] at below
    exact absurd below notUnder
  · exact isX11 rfl

end Monitored

/-! ### What is expected -/

/-- The folder that a task will take in. -/
def Task.made? : Task → Option Path
  | access path => some path
  | addPath path => some path
  | addWatch folder => some folder.path
  | add path => some path
  | _ => none

/-- A task that will come to the entry `n` of `p`. -/
def Task.Expects (due : Path → List Name) (p : Path) (n : Name) : Task → Prop
  | openDirectory path => path = p
  | nextEntry path => path = p ∧ n ∈ due p
  | existsX11 => p = userDistroFontPath
  | _ => False

/-- A folder is to be taken in. -/
def System.Coming (s : System) (p : Path) : Prop := ∃ t ∈ s.monitor.tasks, t.made? = some p

/-- The directory `n` of the tracked folder `p` is not forgotten. -/
inductive System.Expected (s : System) (p : Path) (n : Name) : Prop where
  | queued (e : Event) (mem : e ∈ s.kernel.queue) (wd : s.monitor.wd? p = some e.wd)
      (name : e.name = n) (mask : e.mask = inCreate ||| inIsDir) : s.Expected p n
  | coming (made : s.Coming (child p n)) : s.Expected p n
  | scanned (t : Task) (mem : t ∈ s.monitor.tasks) (expects : t.Expects s.due p n) :
      s.Expected p n

/-- What a task is about is to be monitored, or is tracked. -/
def Task.Sound (s : System) : Task → Prop
  | access path => s.Monitored path
  | addPath path => s.Monitored path
  | addWatch folder => s.Monitored folder.path
  | existsX11 => s.Tracked userDistroFontPath
  | openDirectory path => s.Tracked path ∧ path ≠ userDistroFontPath
  | nextEntry path => s.Tracked path ∧ path ≠ userDistroFontPath
  | add path => s.Monitored path
  | startAlt user => user = true → s.kernel.IsDir userDistroFontPath
  | startInit user alt => (user = true → s.kernel.IsDir userDistroFontPath) ∧
      (alt = true → s.kernel.IsDir altDistroFontPath)
  | _ => True

structure Covers (s : System) : Prop where
  monitored : ∀ p, s.Tracked p → s.Monitored p
  sound : ∀ t ∈ s.monitor.tasks, t.Sound s
  children : ∀ p n, s.Tracked p → Plain n → s.kernel.IsDir (child p n) →
    s.Monitored (child p n) → s.Tracked (child p n) ∨ s.Expected p n
  user : s.userRoot = true → s.kernel.IsDir userDistroFontPath ∧
    (s.Tracked userDistroFontPath ∨ s.Coming userDistroFontPath)
  alt : s.altRoot = true → s.kernel.IsDir altDistroFontPath ∧
    (s.Tracked altDistroFontPath ∨ s.Coming altDistroFontPath)
  due : s.PlainDue

section Tasks

variable {s s' : System} {t : Task} {rest : List Task}

theorem tracked_iff_wd? {p : Path} : s.Tracked p ↔ ∃ wd, s.monitor.wd? p = some wd := has_iff_wd?

theorem Task.Sound.mono (tracked : ∀ p, s.Tracked p → s'.Tracked p)
    (monitored : ∀ p, s.Monitored p → s'.Monitored p)
    (dirs : ∀ p, s.kernel.IsDir p → s'.kernel.IsDir p) (sound : t.Sound s) : t.Sound s' := by
  cases t with
  | access path => exact monitored _ sound
  | addPath path => exact monitored _ sound
  | addWatch folder => exact monitored _ sound
  | existsX11 => exact tracked _ sound
  | openDirectory path => exact ⟨tracked _ sound.1, sound.2⟩
  | nextEntry path => exact ⟨tracked _ sound.1, sound.2⟩
  | add path => exact monitored _ sound
  | startAlt user => exact fun found => dirs _ (sound found)
  | startInit user alt =>
      exact ⟨fun found => dirs _ (sound.1 found), fun found => dirs _ (sound.2 found)⟩
  | _ => trivial

/-- The same descriptors, directories and roots. -/
structure SameFolders (s s' : System) : Prop where
  kernel : s'.kernel = s.kernel
  wds : ∀ p, s'.monitor.wd? p = s.monitor.wd? p
  userRoot : s'.userRoot = s.userRoot
  altRoot : s'.altRoot = s.altRoot

theorem SameFolders.tracked (same : SameFolders s s') {p : Path} : s'.Tracked p ↔ s.Tracked p := by
  rw [tracked_iff_wd?, tracked_iff_wd?]
  simp only [same.wds]

theorem SameFolders.monitored (same : SameFolders s s') {p : Path} :
    s'.Monitored p ↔ s.Monitored p := by
  unfold System.Monitored
  rw [same.userRoot, same.altRoot]

/-- The first task is done. What it was about to take in is tracked or still coming, and so
is what it expected. -/
theorem Covers.goOn (covers : Covers s) (tasks : s.monitor.tasks = t :: rest)
    (same : SameFolders s s') (due : s'.PlainDue)
    (sound : ∀ u ∈ s'.monitor.tasks, u ∈ rest ∨ u.Sound s')
    (kept : ∀ u ∈ rest, u ∈ s'.monitor.tasks)
    (made : ∀ p, t.made? = some p → s.kernel.IsDir p → s'.Tracked p ∨ s'.Coming p)
    (expects : ∀ u ∈ t :: rest, ∀ p n, Plain n → s.kernel.IsDir (child p n) →
      s.Monitored (child p n) → u.Expects s.due p n →
        s'.Tracked (child p n) ∨ s'.Expected p n) : Covers s' := by
  have coming : ∀ p, s.kernel.IsDir p → s.Coming p → s'.Tracked p ∨ s'.Coming p := by
    rintro p isDir ⟨u, mem, isMade⟩
    rw [tasks] at mem
    rcases List.mem_cons.mp mem with rfl | old
    · exact made p isMade isDir
    · exact Or.inr ⟨u, kept u old, isMade⟩
  have root : ∀ p, (s.kernel.IsDir p ∧ (s.Tracked p ∨ s.Coming p)) →
      s'.kernel.IsDir p ∧ (s'.Tracked p ∨ s'.Coming p) := by
    rintro p ⟨isDir, tracked | isComing⟩
    · exact ⟨by rw [same.kernel]; exact isDir, Or.inl (same.tracked.mpr tracked)⟩
    · exact ⟨by rw [same.kernel]; exact isDir, coming p isDir isComing⟩
  refine ⟨?_, ?_, ?_, ?_, ?_, due⟩
  · intro p tracked
    exact same.monitored.mpr (covers.monitored p (same.tracked.mp tracked))
  · intro u mem
    rcases sound u mem with old | new
    · have before := covers.sound u (by rw [tasks]; exact List.mem_cons_of_mem _ old)
      refine before.mono (fun p => same.tracked.mpr) (fun p => same.monitored.mpr) ?_
      rw [same.kernel]
      exact fun _ => id
    · exact new
  · intro p n tracked plain isDir monitored
    rw [same.kernel] at isDir
    have monitored := same.monitored.mp monitored
    rcases covers.children p n (same.tracked.mp tracked) plain isDir monitored with
      isTracked | expected
    · exact Or.inl (same.tracked.mpr isTracked)
    · cases expected with
      | queued e mem wd name mask =>
          refine Or.inr (.queued e ?_ ?_ name mask)
          · rw [same.kernel]
            exact mem
          · rw [same.wds]
            exact wd
      | coming isComing =>
          rcases coming _ isDir isComing with isTracked | isComing
          · exact Or.inl isTracked
          · exact Or.inr (.coming isComing)
      | scanned u mem isExpected =>
          rw [tasks] at mem
          exact expects u mem p n plain isDir monitored isExpected
  · rw [same.userRoot]
    exact fun found => root _ (covers.user found)
  · rw [same.altRoot]
    exact fun found => root _ (covers.alt found)

/-- The same where the streams stay as they are. -/
theorem Covers.goOn' (covers : Covers s) (tasks : s.monitor.tasks = t :: rest)
    (same : SameFolders s s') (due : s'.due = s.due)
    (sound : ∀ u ∈ s'.monitor.tasks, u ∈ rest ∨ u.Sound s')
    (kept : ∀ u ∈ rest, u ∈ s'.monitor.tasks)
    (made : ∀ p, t.made? = some p → s.kernel.IsDir p → s'.Tracked p ∨ s'.Coming p)
    (expects : ∀ p n, Plain n → s.kernel.IsDir (child p n) → s.Monitored (child p n) →
      t.Expects s.due p n → s'.Tracked (child p n) ∨ s'.Expected p n) : Covers s' := by
  refine covers.goOn tasks same ?_ sound kept made ?_
  · unfold System.PlainDue
    rw [due]
    exact covers.due
  · intro u mem p n plain isDir monitored isExpected
    rcases List.mem_cons.mp mem with rfl | old
    · exact expects p n plain isDir monitored isExpected
    · exact Or.inr (.scanned u (kept u old) (by rw [due]; exact isExpected))

end Tasks

/-! ### Answers -/

section Answers

variable {s : System} {c : Choice} {t : Task} {rest : List Task}

/-- A call that is not about a watch, and not `inotify_init`, leaves these. -/
theorem Grown.sameFolders (grown : Grown s) (tasks : s.monitor.tasks = t :: rest)
    (noWatch : ∀ f, t = .addWatch f → (s.serve c t).1.wd < 0)
    (kernel : (s.serve c t).2.kernel = s.kernel)
    (roots : (s.serve c t).2.userRoot = s.userRoot ∧ (s.serve c t).2.altRoot = s.altRoot) :
    SameFolders s (s.answered c t rest) :=
  ⟨kernel, (grown.goesOn tasks noWatch).1, roots.1, roots.2⟩

/-- A task gives way to the next one about the same folder. -/
theorem covers_next {t' : Task} (covers : Covers s) (grown : Grown s)
    (tasks : s.monitor.tasks = t :: rest)
    (noWatch : ∀ f, t = .addWatch f → (s.serve c t).1.wd < 0)
    (served : ∃ tested, (s.serve c t).2 = { s with tested := tested })
    (next : (s.answered c t rest).monitor.tasks = t' :: rest)
    (sound : t'.Sound (s.answered c t rest))
    (made : ∀ p, t.made? = some p → s.kernel.IsDir p → t'.made? = some p)
    (noEntries : ∀ p n, ¬ t.Expects s.due p n) : Covers (s.answered c t rest) := by
  obtain ⟨tested, served⟩ := served
  refine covers.goOn' tasks (grown.sameFolders tasks noWatch (by rw [served]) ?_) ?_ ?_ ?_ ?_ ?_
  · rw [served]
    exact ⟨rfl, rfl⟩
  · simp only [System.answered, served]
  · intro u mem
    rw [next] at mem
    rcases List.mem_cons.mp mem with rfl | old
    · exact Or.inr sound
    · exact Or.inl old
  · intro u mem
    rw [next]
    exact List.mem_cons_of_mem _ mem
  · intro p isMade isDir
    refine Or.inr ⟨t', ?_, made p isMade isDir⟩
    rw [next]
    exact List.mem_cons_self
  · intro p n _ _ _ expects
    exact absurd expects (noEntries p n)

/-- A task goes, and a folder is to be added. -/
theorem covers_added {path : Path} {news : List Task} (covers : Covers s)
    (tasks : s.monitor.tasks = t :: rest) {s' : System} (same : SameFolders s s')
    (added : s'.monitor = FontMonitor.addMonitorFolder
      { s.monitor with tasks := news ++ rest } path)
    (due : s'.PlainDue) (monitored : s.Monitored path) (newSound : ∀ u ∈ news, u.Sound s')
    (made : ∀ p, t.made? = some p → p = path)
    (expects : ∀ u ∈ t :: rest, ∀ p n, Plain n → s.kernel.IsDir (child p n) →
      s.Monitored (child p n) → u.Expects s.due p n →
        child p n = path ∨ ∃ v ∈ news ++ rest, v.Expects s'.due p n) : Covers s' := by
  have cases := @addMonitorFolder_cases { s.monitor with tasks := news ++ rest } path
  rw [← added] at cases
  obtain ⟨taken, kept, only⟩ := cases
  have isTaken : s'.Tracked path ∨ s'.Coming path :=
    taken.imp_right fun mem => ⟨.access path, mem, rfl⟩
  refine covers.goOn tasks same due ?_ ?_ ?_ ?_
  · intro u mem
    rcases only u mem with rfl | old
    · exact Or.inr (same.monitored.mpr monitored)
    · rcases List.mem_append.mp old with new | old
      · exact Or.inr (newSound u new)
      · exact Or.inl old
  · intro u mem
    exact kept u (List.mem_append_right _ mem)
  · intro p isMade _
    rw [made p isMade]
    exact isTaken
  · intro u mem p n plain isDir isMonitored isExpected
    rcases expects u mem p n plain isDir isMonitored isExpected with isPath | ⟨v, mem', expects'⟩
    · rw [isPath]
      rcases isTaken with isTracked | isComing
      · exact Or.inl isTracked
      · exact Or.inr (.coming (by rw [isPath]; exact isComing))
    · exact Or.inr (.scanned v (kept v mem') expects')

/-- A task goes. -/
theorem covers_done (covers : Covers s) (tasks : s.monitor.tasks = t :: rest) {s' : System}
    (same : SameFolders s s') (due : s'.due = s.due)
    (only : ∀ u ∈ s'.monitor.tasks, u ∈ rest ∨ u.Sound s') (kept : ∀ u ∈ rest, u ∈ s'.monitor.tasks)
    (made : ∀ p, t.made? = some p → ¬ s.kernel.IsDir p)
    (expects : ∀ p n, s.kernel.IsDir (child p n) → s.Monitored (child p n) → Plain n →
      ¬ t.Expects s.due p n) : Covers s' := by
  refine covers.goOn' tasks same due only kept ?_ ?_
  · intro p isMade isDir
    exact absurd isDir (made p isMade)
  · intro p n plain isDir monitored isExpected
    exact absurd isExpected (expects p n isDir monitored plain)

/-- `Start` goes on to its next check, or gives up. -/
theorem covers_starts {t' : Task} (covers : Covers s) (grown : Grown s)
    (tasks : s.monitor.tasks = t :: rest) (starts : t.Starts) (served : (s.serve c t).2 = s)
    (next : (s.answered c t rest).monitor = FontMonitor.call { s.monitor with tasks := rest } t' ∨
      (s.answered c t rest).monitor = FontMonitor.stop { s.monitor with tasks := rest })
    (sound : t'.Sound (s.answered c t rest)) : Covers (s.answered c t rest) := by
  have noWatch : ∀ f, t = .addWatch f → (s.serve c t).1.wd < 0 := by
    rintro f rfl
    exact starts.elim
  have same := @Grown.sameFolders s c t rest grown tasks noWatch (by rw [served])
    (by rw [served]; exact ⟨rfl, rfl⟩)
  have alone : rest = [] := (grown.busy.starting t rest tasks starts).1
  have gaveUp := grown.busy.stop_of_starts tasks starts
  refine covers_done covers tasks same (by simp only [System.answered, served]) ?_ ?_ ?_ ?_
  · intro u mem
    rcases next with goesOn | stops
    · rw [goesOn] at mem
      rcases List.mem_cons.mp mem with rfl | old
      · exact Or.inr sound
      · exact Or.inl old
    · rw [stops, gaveUp] at mem
      cases mem
  · rw [alone]
    rintro _ ⟨⟩
  · intro p isMade
    cases t <;> first | exact starts.elim | cases isMade
  · intro p n _ _ _ expects
    cases t <;> first | exact starts.elim | exact expects

/-- A folder is watched and inserted: all its entries are expected from now on. -/
theorem covers_watchedFolder {folder : FontFolder} {i : Nat} (covers : Covers s)
    (tasks : s.monitor.tasks = .addWatch folder :: rest) :
    Covers (watchedFolder s folder rest i) := by
  have tracked : ∀ p, (watchedFolder s folder rest i).Tracked p ↔ p = folder.path ∨ s.Tracked p :=
    fun p => FolderMap.has_set
  have wds : ∀ p, p ≠ folder.path →
      (watchedFolder s folder rest i).monitor.wd? p = s.monitor.wd? p := by
    intro p other
    simp only [FontMonitor.wd?, watchedFolder, FolderMap.find?_set, if_neg other]
  have isRest : ∀ u ∈ rest, u ∈ s.monitor.tasks := by
    rw [tasks]
    exact fun u => List.mem_cons_of_mem _
  have here : s.Monitored folder.path :=
    covers.sound (.addWatch folder) (by rw [tasks]; exact List.mem_cons_self)
  have coming : ∀ p, s.Coming p → (watchedFolder s folder rest i).Tracked p ∨
      (watchedFolder s folder rest i).Coming p := by
    rintro p ⟨u, mem, isMade⟩
    rw [tasks] at mem
    rcases List.mem_cons.mp mem with rfl | old
    · exact Or.inl ((tracked p).mpr (Or.inl (Option.some.inj isMade).symm))
    · exact Or.inr ⟨u, List.mem_cons_of_mem _ old, isMade⟩
  have root : ∀ p, (s.kernel.IsDir p ∧ (s.Tracked p ∨ s.Coming p)) → s.kernel.IsDir p ∧
      ((watchedFolder s folder rest i).Tracked p ∨ (watchedFolder s folder rest i).Coming p) := by
    rintro p ⟨isDir, isTracked | isComing⟩
    · exact ⟨isDir, Or.inl ((tracked p).mpr (Or.inr isTracked))⟩
    · exact ⟨isDir, coming p isComing⟩
  refine ⟨?_, ?_, ?_, fun found => root _ (covers.user found),
    fun found => root _ (covers.alt found), covers.due⟩
  · intro p isTracked
    rcases (tracked p).mp isTracked with rfl | old
    · exact here
    · exact covers.monitored p old
  · intro u mem
    rcases List.mem_cons.mp mem with rfl | old
    · have isTracked := (tracked folder.path).mpr (Or.inl rfl)
      unfold Task.subfolders
      split
      · rename_i isUser
        unfold Task.Sound
        rw [← isUser]
        exact isTracked
      · rename_i notUser
        exact ⟨isTracked, notUser⟩
    · exact (covers.sound u (isRest u old)).mono (fun p => (tracked p).mpr ∘ Or.inr)
        (fun _ => id) (fun _ => id)
  · intro p n isTracked plain isDir monitored
    by_cases isNew : p = folder.path
    · refine Or.inr (.scanned (Task.subfolders folder.path) List.mem_cons_self ?_)
      rw [isNew]
      unfold Task.subfolders
      split
      · rename_i isUser
        exact isUser
      · rfl
    · have old := ((tracked p).mp isTracked).resolve_left isNew
      rcases covers.children p n old plain isDir monitored with isTracked' | expected
      · exact Or.inl ((tracked _).mpr (Or.inr isTracked'))
      · cases expected with
        | queued e mem wd name mask =>
            exact Or.inr (.queued e mem (by rw [wds p isNew]; exact wd) name mask)
        | coming isComing => exact (coming _ isComing).imp_right .coming
        | scanned u mem expects =>
            rw [tasks] at mem
            rcases List.mem_cons.mp mem with rfl | later
            · exact expects.elim
            · exact Or.inr (.scanned u (List.mem_cons_of_mem _ later) expects)

/-- `Start` comes to the roots. -/
theorem covers_startInit {user alt : Bool} (covers : Covers s) (grown : Grown s)
    (tasks : s.monitor.tasks = .startInit user alt :: rest) (can : c.start = true) :
    Covers (s.answered c (.startInit user alt) rest) := by
  have none_ := (grown.busy.starting _ _ tasks trivial).2
  have alone := (grown.busy.starting _ _ tasks trivial).1
  have sound : (user = true → s.kernel.IsDir userDistroFontPath) ∧
      (alt = true → s.kernel.IsDir altDistroFontPath) :=
    covers.sound (.startInit user alt) (by rw [tasks]; exact List.mem_cons_self)
  rw [System.answered_startInit can, alone]
  have untracked : ∀ p, ¬ s.Tracked p := by
    intro p isTracked
    obtain ⟨f, found⟩ := FolderMap.has_iff.mp isTracked
    cases (none_ p).symm.trans found
  refine ⟨fun p isTracked => absurd isTracked (untracked p), ?_,
    fun p n isTracked => absurd isTracked (untracked p), ?_, ?_, covers.due⟩
  · intro u mem
    rcases mem_startRoots mem with ⟨found, rfl⟩ | ⟨found, rfl⟩ | rfl | old
    · exact Or.inl ⟨found, Or.inl rfl⟩
    · exact Or.inr ⟨found, Or.inl rfl⟩
    · trivial
    · cases old
  · intro found
    have found : user = true := found
    subst found
    refine ⟨sound.1 rfl, Or.inr ⟨.add userDistroFontPath, ?_, rfl⟩⟩
    exact List.mem_append_left _ (List.mem_append_left _ List.mem_cons_self)
  · intro found
    have found : alt = true := found
    subst found
    refine ⟨sound.2 rfl, Or.inr ⟨.add altDistroFontPath, ?_, rfl⟩⟩
    exact List.mem_append_left _ (List.mem_append_right _ List.mem_cons_self)

/-- A stream is opened: all directories that are there are due. -/
theorem covers_openDirectory {path : Path} (covers : Covers s) (grown : Grown s)
    (tasks : s.monitor.tasks = .openDirectory path :: rest) :
    Covers (s.answered c (.openDirectory path) rest) := by
  have sound : s.Tracked path ∧ path ≠ userDistroFontPath :=
    covers.sound (.openDirectory path) (by rw [tasks]; exact List.mem_cons_self)
  obtain ⟨wd, isTracked⟩ := tracked_iff_wd?.mp sound.1
  obtain ⟨i, found, -⟩ := grown.tracked path wd isTracked
  have isDir : s.kernel.IsDir path := Kernel.isDir_iff.mpr ⟨i, found⟩
  have same := @Grown.sameFolders s c _ rest grown tasks (by rintro _ ⟨⟩) rfl ⟨rfl, rfl⟩
  have after : (s.answered c (.openDirectory path) rest).monitor.tasks =
      .nextEntry path :: rest := by
    simp only [System.answered, System.serve, FontMonitor.resume, decide_eq_true isDir, if_true,
      FontMonitor.call]
  have opened : ∀ n, Plain n → s.kernel.IsDir (child path n) →
      n ∈ (s.answered c (.openDirectory path) rest).due path := by
    intro n plain isEntry
    simp only [System.answered, System.serve, Function.update_self]
    exact Kernel.mem_subdirs.mpr ⟨isEntry, plain⟩
  refine covers.goOn tasks same ?_ ?_ ?_ (by rintro _ ⟨⟩) ?_
  · exact System.plainDue_serve covers.due c (.openDirectory path)
  · intro u mem
    rw [after] at mem
    rcases List.mem_cons.mp mem with rfl | old
    · exact Or.inr ⟨same.tracked.mpr sound.1, sound.2⟩
    · exact Or.inl old
  · intro u mem
    rw [after]
    exact List.mem_cons_of_mem _ mem
  · intro u mem p n plain isEntry _ expects
    by_cases isPath : p = path
    · subst isPath
      refine Or.inr (.scanned (.nextEntry p) ?_ ⟨rfl, opened n plain isEntry⟩)
      rw [after]
      exact List.mem_cons_self
    · rcases List.mem_cons.mp mem with rfl | old
      · exact absurd expects.symm isPath
      · refine Or.inr (.scanned u (by rw [after]; exact List.mem_cons_of_mem _ old) ?_)
        cases u with
        | nextEntry q =>
            refine ⟨expects.1, ?_⟩
            simp only [System.answered, System.serve, Function.update_of_ne isPath]
            exact expects.2
        | openDirectory q => exact expects
        | existsX11 => exact expects
        | _ => exact expects.elim

/-- A stream gives one more, or is at its end. -/
theorem covers_nextEntry {path : Path} (covers : Covers s) (grown : Grown s)
    (tasks : s.monitor.tasks = .nextEntry path :: rest) :
    Covers (s.answered c (.nextEntry path) rest) := by
  have sound : s.Tracked path ∧ path ≠ userDistroFontPath :=
    covers.sound (.nextEntry path) (by rw [tasks]; exact List.mem_cons_self)
  cases next : s.nextName path c.entry with
  | none =>
      have after : s.answered c (.nextEntry path) rest =
          { s with monitor := { s.monitor with tasks := rest } } := by
        simp only [System.answered, System.serve, next, FontMonitor.resume]
      rw [after]
      refine covers_done covers tasks ⟨rfl, fun _ => rfl, rfl, rfl⟩ rfl (fun u => Or.inl)
        (fun u => id) (by rintro _ ⟨⟩) ?_
      rintro p n isDir _ _ ⟨rfl, isDue⟩
      exact System.nextName_none next isDue isDir
  | some name =>
      have plain := System.plain_nextName covers.due next
      have monitored : s.Monitored (child path name) :=
        monitored_child (covers.monitored path sound.1) plain fun isUser =>
          absurd isUser sound.2
      have served : (s.serve c (.nextEntry path)).2 = { s with
          due := Function.update s.due path ((s.due path).filter (· ≠ name)) } := by
        simp only [System.serve, next]
      have same := @Grown.sameFolders s c _ rest grown tasks (by rintro _ ⟨⟩) (by rw [served])
        (by rw [served]; exact ⟨rfl, rfl⟩)
      have due : (s.answered c (.nextEntry path) rest).due =
          Function.update s.due path ((s.due path).filter (· ≠ name)) := by
        simp only [System.answered, served]
      refine @covers_added s _ rest _ [.nextEntry path] covers tasks _ same ?_ ?_ monitored ?_
        (by rintro _ ⟨⟩) ?_
      · simp only [System.answered, System.serve, next, FontMonitor.resume, if_true,
          FontMonitor.call, List.cons_append, List.nil_append]
      · exact System.plainDue_serve covers.due c (.nextEntry path)
      · intro u mem
        cases List.mem_singleton.mp mem
        exact ⟨same.tracked.mpr sound.1, sound.2⟩
      · -- what was due is still due, or is the one that was given
        have isDue : ∀ p n, n ∈ s.due p → child p n = child path name ∨
            n ∈ (s.answered c (.nextEntry path) rest).due p := by
          intro p n mem
          rw [due]
          by_cases isPath : p = path
          · subst isPath
            rw [Function.update_self]
            by_cases given : n = name
            · exact Or.inl (by rw [given])
            · exact Or.inr (List.mem_filter.mpr ⟨mem, by simpa using given⟩)
          · rw [Function.update_of_ne isPath]
            exact Or.inr mem
        intro u mem p n _ _ _ expects
        have isTask : u ∈ [.nextEntry path] ++ rest := mem
        cases u with
        | nextEntry q =>
            rcases isDue p n expects.2 with given | stillDue
            · exact Or.inl given
            · exact Or.inr ⟨_, isTask, expects.1, stillDue⟩
        | openDirectory q => exact Or.inr ⟨_, isTask, expects⟩
        | existsX11 => exact Or.inr ⟨_, isTask, expects⟩
        | _ => exact expects.elim

/-- A folder is watched, or is gone and is destroyed. -/
theorem covers_addWatch {folder : FontFolder} (covers : Covers s) (grown : Grown s)
    (tasks : s.monitor.tasks = .addWatch folder :: rest) (room : c.watch = true) :
    Covers (s.answered c (.addWatch folder) rest) := by
  cases found : s.kernel.inode? folder.path with
  | some i =>
      rw [grown.answered_addWatch tasks room found]
      exact covers_watchedFolder covers tasks
  | none =>
      have served := @System.serve_addWatch_refused s c folder fun _ => found
      refine @covers_next s c _ rest (.destroy { folder with wd := -1 }) covers grown tasks ?_
        ⟨s.tested, by rw [served]⟩ ?_ trivial ?_ (by rintro _ _ ⟨⟩)
      · intro _ _
        rw [served]
        exact System.noWatch
      · simp [System.answered, served, FontMonitor.resume, FontMonitor.call]
      · intro p isMade isDir
        cases isMade
        rw [Kernel.isDir_iff, found] at isDir
        obtain ⟨i, none_⟩ := isDir
        cases none_

/-- The `X11` of the mounted font path is added, if it is there. -/
theorem covers_existsX11 (covers : Covers s) (grown : Grown s)
    (tasks : s.monitor.tasks = .existsX11 :: rest) : Covers (s.answered c .existsX11 rest) := by
  have sound : s.Tracked userDistroFontPath :=
    covers.sound .existsX11 (by rw [tasks]; exact List.mem_cons_self)
  -- what the task expects is the `X11`
  have expected : ∀ p n, Plain n → s.Monitored (child p n) →
      Task.Expects s.due p n .existsX11 → child p n = x11Path := by
    intro p n plain monitored expects
    have isUser : p = userDistroFontPath := expects
    subst isUser
    rw [monitored_user_child plain monitored]
    rfl
  by_cases isThere : s.kernel.IsDir x11Path
  · have same := @Grown.sameFolders s c _ rest grown tasks (by rintro _ ⟨⟩) rfl ⟨rfl, rfl⟩
    refine @covers_added s _ rest x11Path [] covers tasks _ same ?_ covers.due ?_
      (by rintro _ ⟨⟩) (by rintro _ ⟨⟩) ?_
    · have isThere : s.kernel.IsDir (child userDistroFontPath x11) := isThere
      simp only [System.answered, System.serve, FontMonitor.resume, decide_eq_true isThere,
        if_true]
      rfl
    · exact monitored_child (covers.monitored _ sound) plain_x11 fun _ => rfl
    · intro u mem p n plain isDir monitored expects
      rcases List.mem_cons.mp mem with rfl | old
      · exact Or.inl (expected p n plain monitored expects)
      · exact Or.inr ⟨u, old, expects⟩
  · have after : s.answered c .existsX11 rest =
        { s with monitor := { s.monitor with tasks := rest } } := by
      have isThere : ¬ s.kernel.IsDir (child userDistroFontPath x11) := isThere
      simp [System.answered, System.serve, FontMonitor.resume, isThere]
    rw [after]
    refine covers_done covers tasks ⟨rfl, fun _ => rfl, rfl, rfl⟩ rfl (fun u => Or.inl)
      (fun u => id) (by rintro _ ⟨⟩) ?_
    intro p n isDir monitored plain expects
    rw [expected p n plain monitored expects] at isDir
    exact isThere isDir

theorem covers_answered (covers : Covers s) (grown : Grown s)
    (tasks : s.monitor.tasks = t :: rest) (room : c.watch = true) :
    Covers (s.answered c t rest) := by
  have sound := covers.sound t (by rw [tasks]; exact List.mem_cons_self)
  cases t with
  | access path =>
      by_cases isThere : System.HasFontsDir s.kernel path
      · refine @covers_next s c _ rest (.addPath path) covers grown tasks (by rintro _ ⟨⟩)
          ⟨_, rfl⟩ ?_ sound (fun p isMade _ => isMade) (by rintro _ _ ⟨⟩)
        simp [System.answered, System.serve, FontMonitor.resume, FontMonitor.call, isThere]
      · refine @covers_next s c _ rest (.addWatch { path := path }) covers grown tasks
          (by rintro _ ⟨⟩) ⟨_, rfl⟩ ?_ sound (fun p isMade _ => isMade) (by rintro _ _ ⟨⟩)
        simp [System.answered, System.serve, FontMonitor.resume, FontMonitor.call, isThere]
  | addPath path =>
      exact covers_next covers grown tasks (by rintro _ ⟨⟩) ⟨_, rfl⟩ rfl sound
        (fun p isMade _ => isMade) (by rintro _ _ ⟨⟩)
  | addWatch folder =>
      exact covers_addWatch covers grown tasks room
  | existsX11 => exact covers_existsX11 covers grown tasks
  | openDirectory path => exact covers_openDirectory covers grown tasks
  | nextEntry path => exact covers_nextEntry covers grown tasks
  | destroy folder =>
      obtain ⟨f, ⟨⟩, free⟩ := grown.unwatched (.destroy folder)
        (by rw [tasks]; exact List.mem_cons_self) trivial
      have same := @Grown.sameFolders s c _ rest grown tasks (by rintro _ ⟨⟩) rfl ⟨rfl, rfl⟩
      refine covers_done covers tasks same rfl ?_ ?_ (by rintro _ ⟨⟩)
        (by rintro _ _ - - - ⟨⟩)
      · intro u mem
        simp only [System.answered, FontMonitor.resume, if_neg (Int.not_le.mpr free)] at mem
        exact Or.inl mem
      · intro u mem
        simp only [System.answered, FontMonitor.resume, if_neg (Int.not_le.mpr free)]
        exact mem
  | rmWatch wd =>
      obtain ⟨f, isDestroy, -⟩ := grown.unwatched (.rmWatch wd)
        (by rw [tasks]; exact List.mem_cons_self) trivial
      cases isDestroy
  | testFontsDir path =>
      have same := @Grown.sameFolders s c _ rest grown tasks (by rintro _ ⟨⟩) rfl ⟨rfl, rfl⟩
      have cases := @modifyX11FontPath_cases { s.monitor with tasks := rest } path true
      refine covers_done covers tasks same rfl ?_ ?_ (by rintro _ ⟨⟩)
        (by rintro _ _ - - - ⟨⟩)
      · intro u mem
        simp only [System.answered, FontMonitor.resume] at mem
        split at mem
        · rcases cases.2 u mem with rfl | old
          · exact Or.inr trivial
          · exact Or.inl old
        · exact Or.inl mem
      · intro u mem
        simp only [System.answered, FontMonitor.resume]
        split
        · exact cases.1 u mem
        · exact mem
  | modify path isAdd =>
      have same := @Grown.sameFolders s c _ rest grown tasks (by rintro _ ⟨⟩) rfl ⟨rfl, rfl⟩
      have stays : (s.answered c (.modify path isAdd) rest).monitor.tasks = rest := by
        simp only [System.answered, FontMonitor.resume]
        split
        · exact tasks_setPathAdded _ _
        · rfl
      refine covers_done covers tasks same rfl ?_ ?_ (by rintro _ ⟨⟩)
        (by rintro _ _ - - - ⟨⟩)
      · intro u mem
        rw [stays] at mem
        exact Or.inl mem
      · intro u mem
        rw [stays]
        exact mem
  | startXset =>
      refine @covers_starts s c _ rest .startMount covers grown tasks trivial rfl ?_ trivial
      simp only [System.answered, FontMonitor.resume]
      split
      · exact Or.inl rfl
      · exact Or.inr rfl
  | startMount =>
      refine @covers_starts s c _ rest .startUser covers grown tasks trivial rfl ?_ trivial
      simp only [System.answered, FontMonitor.resume]
      split
      · exact Or.inl rfl
      · exact Or.inr rfl
  | startUser =>
      refine covers_starts covers grown tasks trivial rfl (Or.inl rfl) ?_
      exact fun found => of_decide_eq_true found
  | startAlt user =>
      refine @covers_starts s c _ rest
        (.startInit user (s.kernel.IsDir altDistroFontPath)) covers grown tasks trivial rfl ?_ ?_
      · simp only [System.answered, System.serve, FontMonitor.resume]
        by_cases anyFound : (user || decide (s.kernel.IsDir altDistroFontPath)) = true
        · exact Or.inl (if_pos anyFound)
        · exact Or.inr (if_neg anyFound)
      · exact ⟨sound, fun found => of_decide_eq_true found⟩
  | startInit user alt =>
      by_cases can : c.start = true
      · exact covers_startInit covers grown tasks can
      · have served : s.serve c (.startInit user alt) = ({}, s) := by
          simp only [System.serve, if_neg can]
        refine @covers_starts s c _ rest .startXset covers grown tasks trivial (by rw [served]) ?_
          trivial
        simp only [System.answered, served, FontMonitor.resume]
        exact Or.inr rfl
  | add path =>
      have same := @Grown.sameFolders s c _ rest grown tasks (by rintro _ ⟨⟩) rfl ⟨rfl, rfl⟩
      refine @covers_added s _ rest path [] covers tasks _ same rfl covers.due sound
        (by rintro _ ⟨⟩) ?_ ?_
      · intro p isMade
        exact (Option.some.inj isMade).symm
      · intro u mem p n _ _ _ expects
        rcases List.mem_cons.mp mem with rfl | old
        · exact expects.elim
        · exact Or.inr ⟨u, old, expects⟩
  | createThread =>
      exact covers_done covers tasks ⟨rfl, fun _ => rfl, rfl, rfl⟩ rfl (fun u => Or.inl)
        (fun u => id) (by rintro _ ⟨⟩) (by rintro _ _ - - - ⟨⟩)

end Answers

/-! ### Steps -/

section Steps

variable {s : System}

/-- A directory that others make in a tracked folder has an event. -/
theorem covers_grew {k : Kernel} (covers : Covers s) (grown : Grown s)
    (grew : Kernel.Grew s.kernel k) : Covers { s with kernel := k } := by
  have dirs : ∀ p, s.kernel.IsDir p → k.IsDir p := by
    intro p isDir
    obtain ⟨i, found⟩ := Kernel.isDir_iff.mp isDir
    exact Kernel.isDir_iff.mpr ⟨i, grew.inode? p i found⟩
  refine ⟨covers.monitored, ?_, ?_, ?_, ?_, covers.due⟩
  · intro t mem
    exact @Task.Sound.mono s { s with kernel := k } t (fun _ => id) (fun _ => id) dirs
      (covers.sound t mem)
  · intro p n isTracked plain isDir monitored
    obtain ⟨wd, isWd⟩ := tracked_iff_wd?.mp isTracked
    obtain ⟨i, found, held⟩ := grown.tracked p wd isWd
    rcases grew.created p n i wd plain found held isDir with wasDir | ⟨e, mem, sameWd, name, mask⟩
    · rcases covers.children p n isTracked plain wasDir monitored with isTracked' | expected
      · exact Or.inl isTracked'
      · right
        cases expected with
        | queued e mem isWd name mask =>
            obtain ⟨es, queue, -⟩ := grew.queue
            refine .queued e ?_ isWd name mask
            simp only [queue]
            exact List.mem_append_left _ mem
        | coming isComing => exact .coming isComing
        | scanned t mem expects => exact .scanned t mem expects
    · exact Or.inr (.queued e mem (by rw [sameWd]; exact isWd) name mask)
  · exact fun found => (covers.user found).imp_left (dirs _)
  · exact fun found => (covers.alt found).imp_left (dirs _)

/-- The event of a directory that is monitored has it taken in. -/
theorem handleEvent_created (grown : Grown s) {p : Path} {event : Event}
    (wd : s.monitor.wd? p = some event.wd) (mask : event.mask = inCreate ||| inIsDir)
    (plain : Plain event.name) (monitored : s.Monitored (child p event.name)) :
    s.monitor.handleEvent event = s.monitor.addMonitorFolder (child p event.name) := by
  obtain ⟨f, found, sameWd⟩ := Option.map_eq_some_iff.mp wd
  have isPath := FolderMap.path_of_find? found
  have byWd := grown.findByWd found
  rw [sameWd] at byWd
  have isFolder : has event.mask inIsDir = true := by
    rw [mask]
    decide
  have isNew : has event.mask (inCreate ||| inMovedTo) = true := by
    rw [mask]
    decide
  have isX11 : ¬ (p = userDistroFontPath ∧ event.name ≠ x11) := by
    rintro ⟨isUser, other⟩
    rw [isUser] at monitored
    exact other (monitored_user_child plain monitored)
  rw [FontMonitor.handleEvent, if_pos plain.1, if_pos isFolder, FontMonitor.handleFolderEvent, byWd]
  simp only [if_pos isNew, isPath, if_neg isX11]

/-- What an event adds to the tasks. -/
theorem sound_handleEvent (covers : Covers s) (grown : Grown s) {event : Event}
    {events : List Event} (queue : s.kernel.queue = event :: events) :
    ∀ t ∈ (s.monitor.handleEvent event).tasks, t.Sound s := by
  obtain ⟨-, plain, -⟩ := grown.queued event (by rw [queue]; exact List.mem_cons_self)
  have idle : ∀ t ∈ s.monitor.tasks, t.Sound s := covers.sound
  have handled := handled_handleEvent s.monitor event
  generalize s.monitor.handleEvent event = m' at handled ⊢
  cases handled with
  | ignored => exact idle
  | folderAdded f found isFolder mask monitored =>
      have isTracked := (FolderMap.find?_of_findByWd found).1
      intro t mem
      rcases (addMonitorFolder_cases _).2.2 t mem with rfl | old
      · refine monitored_child (covers.monitored _ (FolderMap.has_of_find? isTracked)) plain ?_
        intro isUser
        by_contra other
        exact monitored ⟨isUser, other⟩
      · exact idle t old
  | folderRemoved f found named isFolder mask =>
      exact absurd (grown.not_removed queue isFolder) mask
  | fontsDirAdded =>
      intro t mem
      rcases List.mem_cons.mp mem with rfl | old
      · trivial
      · exact idle t old
  | fontsDirRemoved =>
      intro t mem
      rcases (modifyX11FontPath_cases _ _).2 t mem with rfl | old
      · trivial
      · exact idle t old

theorem covers_read (covers : Covers s) (grown : Grown s) {event : Event} {events : List Event}
    (queue : s.kernel.queue = event :: events) (reads : s.Reads) :
    Covers { s with
      kernel := { s.kernel with queue := events }
      monitor := s.monitor.handleEvent event } := by
  obtain ⟨-, plain, -⟩ := grown.queued event (by rw [queue]; exact List.mem_cons_self)
  have notComing : ∀ p, ¬ s.Coming p := by
    rintro p ⟨t, mem, -⟩
    rw [reads.2] at mem
    cases mem
  have wds : ∀ p, (s.monitor.handleEvent event).wd? p = s.monitor.wd? p := by
    have handled := handled_handleEvent s.monitor event
    generalize s.monitor.handleEvent event = m' at handled ⊢
    cases handled with
    | ignored => exact fun _ => rfl
    | folderAdded => exact wd?_addMonitorFolder _
    | folderRemoved f found named isFolder mask =>
        exact absurd (grown.not_removed queue isFolder) mask
    | fontsDirAdded => exact fun _ => rfl
    | fontsDirRemoved => exact wd?_modifyX11FontPath _ _
  have tracked : ∀ p, (s.monitor.handleEvent event).fontMonitorFolders.Has p ↔ s.Tracked p := by
    intro p
    rw [has_iff_wd?, tracked_iff_wd?]
    simp only [wds]
  have root : ∀ p, (s.kernel.IsDir p ∧ (s.Tracked p ∨ s.Coming p)) → s.kernel.IsDir p ∧
      (s.monitor.handleEvent event).fontMonitorFolders.Has p := by
    rintro p ⟨isDir, isTracked | isComing⟩
    · exact ⟨isDir, (tracked p).mpr isTracked⟩
    · exact absurd isComing (notComing p)
  refine ⟨fun p isTracked => covers.monitored p ((tracked p).mp isTracked), ?_, ?_,
    fun found => (root _ (covers.user found)).imp_right Or.inl,
    fun found => (root _ (covers.alt found)).imp_right Or.inl, covers.due⟩
  · intro t mem
    refine (sound_handleEvent covers grown queue t mem).mono (fun p => (tracked p).mpr) ?_ ?_
    · exact fun _ => id
    · exact fun _ => id
  · intro p n isTracked plain' isDir monitored
    rcases covers.children p n ((tracked p).mp isTracked) plain' isDir monitored with
      isTracked' | expected
    · exact Or.inl ((tracked _).mpr isTracked')
    · cases expected with
      | queued e mem wd name mask =>
          rw [queue] at mem
          rcases List.mem_cons.mp mem with rfl | later
          · subst name
            have added := handleEvent_created grown wd mask plain monitored
            rcases (addMonitorFolder_cases (child p e.name)).1 with isTracked' | isComing
            · refine Or.inl ?_
              rw [← added] at isTracked'
              exact isTracked'
            · refine Or.inr (.coming ⟨.access (child p e.name), ?_, rfl⟩)
              rw [← added] at isComing
              exact isComing
          · exact Or.inr (.queued e later (by simp only [wds]; exact wd) name mask)
      | coming isComing => exact absurd isComing (notComing _)
      | scanned t mem =>
          rw [reads.2] at mem
          cases mem

theorem covers_step (grown : Grown s) (covers : Covers s) {move : Move} (grows : move.Grows)
    (room : ∀ c, move = .call c → c.watch = true) : Covers (s.step move).2 := by
  refine @System.keeps Covers s covers move ?env ?start ?stop ?read ?call
  case env =>
    rintro op rfl
    exact covers_grew covers grown (grew_apply grows s.kernel)
  case start =>
    intro _ _ idle
    have notComing : ∀ p, ¬ s.Coming p := by
      rintro p ⟨t, mem, -⟩
      rw [idle] at mem
      cases mem
    refine ⟨covers.monitored, ?_, ?_, ?_, ?_, covers.due⟩
    · intro t mem
      rcases List.mem_cons.mp mem with rfl | old
      · trivial
      · exact (covers.sound t old).mono (fun _ => id) (fun _ => id) (fun _ => id)
    · intro p n isTracked plain isDir monitored
      rcases covers.children p n isTracked plain isDir monitored with isTracked' | expected
      · exact Or.inl isTracked'
      · cases expected with
        | queued e mem wd name mask => exact Or.inr (.queued e mem wd name mask)
        | coming isComing => exact absurd isComing (notComing _)
        | scanned t mem =>
            rw [idle] at mem
            cases mem
    · exact fun found => (covers.user found).imp_right fun either =>
        Or.inl (either.resolve_right (notComing _))
    · exact fun found => (covers.alt found).imp_right fun either =>
        Or.inl (either.resolve_right (notComing _))
  case stop =>
    rintro rfl
    exact grows.elim
  case read =>
    intro event events _ queue reads
    exact covers_read covers grown queue reads
  case call =>
    intro c t rest isCall tasks
    exact covers_answered covers grown tasks (room c isCall)

theorem covers_boot (k : Kernel) : Covers (System.boot k) := by
  have untracked : ∀ p, ¬ (System.boot k).Tracked p := by
    intro p isTracked
    obtain ⟨f, found⟩ := FolderMap.has_iff.mp isTracked
    cases FolderMap.find?_empty.symm.trans found
  exact ⟨fun p isTracked => absurd isTracked (untracked p), nofun,
    fun p n isTracked => absurd isTracked (untracked p), nofun, nofun, nofun⟩

end Steps

/-! ### Runs -/

section Quiet

variable {s : System}

/-- Nothing is expected any more. -/
theorem Covers.child_tracked (covers : Covers s) (quiet : s.Quiet) {p : Path} {n : Name}
    (isTracked : s.Tracked p) (plain : Plain n) (isDir : s.kernel.IsDir (child p n))
    (monitored : s.Monitored (child p n)) : s.Tracked (child p n) := by
  rcases covers.children p n isTracked plain isDir monitored with done | expected
  · exact done
  · cases expected with
    | queued e mem =>
        rw [quiet.1] at mem
        cases mem
    | coming isComing =>
        obtain ⟨t, mem, -⟩ := isComing
        rw [quiet.2] at mem
        cases mem
    | scanned t mem =>
        rw [quiet.2] at mem
        cases mem

theorem Covers.root_tracked (quiet : s.Quiet) {p : Path}
    (either : s.Tracked p ∨ s.Coming p) : s.Tracked p := by
  rcases either with done | ⟨t, mem, -⟩
  · exact done
  · rw [quiet.2] at mem
    cases mem

/-- By induction on the depth, from the roots down. -/
theorem Covers.tracked (covers : Covers s) (tree : s.kernel.Tree) (quiet : s.Quiet) {p : Path}
    (isDir : s.kernel.IsDir p) (monitored : s.Monitored p) : s.Tracked p := by
  induction length : p.length using Nat.strong_induction_on generalizing p with
  | _ depth ih =>
      subst length
      by_cases isUser : p = userDistroFontPath
      · subst isUser
        rcases monitored with ⟨root, -⟩ | ⟨-, below⟩
        · exact Covers.root_tracked quiet (covers.user root).2
        · exact absurd below not_under_alt
      by_cases isAlt : p = altDistroFontPath
      · subst isAlt
        have apart : ¬ (altDistroFontPath = userDistroFontPath ∨ altDistroFontPath = x11Path ∨
            Under x11Path altDistroFontPath) := by decide
        rcases monitored with ⟨-, below⟩ | ⟨root, -⟩
        · exact absurd below apart
        · exact Covers.root_tracked quiet (covers.alt root).2
      have notRoot : p ≠ [] := by
        rintro rfl
        have apart : ¬ (([] : Path) = userDistroFontPath ∨ [] = x11Path ∨ Under x11Path []) ∧
            ¬ (([] : Path) = altDistroFontPath ∨ Under altDistroFontPath []) := by decide
        exact monitored.elim (fun below => apart.1 below.2) fun below => apart.2 below.2
      obtain ⟨q, isChild, isDir'⟩ := tree.isChild isDir notRoot
      have shorter := isChild.length_lt
      obtain ⟨n, plain, rfl⟩ := isChild_iff.mp isChild
      rcases monitored_parent plain monitored with same | same | ⟨monitored', -⟩
      · exact absurd same isUser
      · exact absurd same isAlt
      · exact covers.child_tracked quiet (ih q.length shorter isDir' monitored' rfl) plain isDir
          monitored

end Quiet

/-- While others only make folders and files and no watch is refused: whenever no event is
queued and no handler runs, the tracked folders are exactly the directories at or below the
roots that `Start` found, the `X11` of the mounted font path in the place of what is below
it; and at no time is another entry of that path tracked. -/
theorem tracked_iff_monitored (k : Kernel) (tree : k.Tree) (moves : List Move)
    (grows : ∀ move ∈ moves, move.Grows) (room : ∀ c, Move.call c ∈ moves → c.watch = true) :
    ((System.after k moves).Quiet → ∀ p,
      (System.after k moves).Tracked p ↔
        (System.after k moves).kernel.IsDir p ∧ (System.after k moves).Monitored p) ∧
    ∀ n, Plain n → (System.after k moves).Tracked (child userDistroFontPath n) → n = x11 := by
  obtain ⟨grown, covers⟩ : Grown (System.after k moves) ∧ Covers (System.after k moves) := by
    refine @invariant_finish _ _ _ System.step (fun s => Grown s ∧ Covers s)
      (fun t => t.input.Grows ∧ ∀ c, t.input = .call c → c.watch = true) ?_ (System.boot k) moves
      ⟨grown_boot tree, covers_boot k⟩ ?_
    · rintro t taken ⟨isGrowth, hasRoom⟩ ⟨grown, covers⟩
      rw [taken.eq_take]
      exact ⟨grown_step grown isGrowth, covers_step grown covers isGrowth hasRoom⟩
    · intro t mem
      have isMove := input_of_mem mem
      exact ⟨grows _ isMove, fun c isCall => room c (by rw [← isCall]; exact isMove)⟩
  constructor
  · intro quiet p
    constructor
    · intro isTracked
      obtain ⟨wd, isWd⟩ := tracked_iff_wd?.mp isTracked
      obtain ⟨i, found, -⟩ := grown.tracked p wd isWd
      exact ⟨Kernel.isDir_iff.mpr ⟨i, found⟩, covers.monitored p isTracked⟩
    · rintro ⟨isDir, monitored⟩
      exact covers.tracked grown.tree quiet isDir monitored
  · intro n plain isTracked
    exact monitored_user_child plain (covers.monitored _ isTracked)

/-- A folder is made in the alternative font path when its stream was opened, and one in
that before it is watched. -/
def makesFolders : List Move :=
  .start :: List.replicate 9 (.call {}) ++
    .env (.mkdir altDistroFontPath (cxx "a")) :: List.replicate 2 (.call {}) ++
    .read :: .env (.mkdir (child altDistroFontPath (cxx "a")) (cxx "b")) ::
    List.replicate 9 (.call {})

theorem tracked_iff_monitored_makesFolders :
    (System.after System.altTree makesFolders).Tracked
      (child (child altDistroFontPath (cxx "a")) (cxx "b")) := by
  have tree : System.altTree.Tree := ⟨by decide, by decide, by decide, by decide⟩
  have room : ∀ c, Move.call c ∈ makesFolders → c.watch = true := by
    intro c mem
    simp only [makesFolders, List.mem_cons, List.mem_append, List.mem_replicate, Move.call.injEq,
      reduceCtorEq, false_or] at mem
    rcases mem with ((⟨-, rfl⟩ | ⟨-, rfl⟩) | ⟨-, rfl⟩) <;> rfl
  have iff := (tracked_iff_monitored System.altTree tree makesFolders (by decide) room).1
    (by decide +kernel) (child (child altDistroFontPath (cxx "a")) (cxx "b"))
  exact iff.mpr (by decide +kernel)

end Wslg.Fonts
