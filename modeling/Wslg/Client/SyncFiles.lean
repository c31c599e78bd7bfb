/-
Which files a sync deletes.

On a file system that does what its calls say, the walk finds the shortcuts below the
menu folder and the icon files they point to. So the sweep deletes exactly those of
them that no update of the sync reported (`sync_deletes_unreported`).

Two things do not follow. A shortcut may point to any file, and that file goes with it
(`swept_stems_from_menu`). And the database of the sync knows a file by one spelling
of its path: an application that is reported under another spelling is deleted with
the old one (`survives_iff_spelled`).
-/

import Wslg.Client.Disk
import Wslg.Client.SyncRun

namespace Wslg.Client

open Wslg.Protocol Wslg.StateExcept Wslg.Lexical

variable {ω : Type} {os : Os ω}

/-! ### File systems -/

/-- Which files and folders there are in a state of Windows, as far as the calls tell: a
folder found empty has nothing below it, and removing a folder leaves every file and
what the shortcuts store. -/
structure FileSystem (os : Os ω) where
  isFile : ω → WStr → Prop
  isFolder : ω → WStr → Prop
  empty : ∀ {w dir path}, os.pathIsDirectoryEmptyW w dir = true → Below dir path →
    ¬ isFile w path ∧ ¬ isFolder w path
  isFile_removeDirectory : ∀ w dir path,
    isFile (os.removeDirectory dir w).2 path ↔ isFile w path
  icon_removeDirectory : ∀ w dir path,
    os.loadIconLocation (os.removeDirectory dir w).2 path = os.loadIconLocation w path

theorem files_removeDirectory (dir : WStr) (d : Disk) :
    (diskOs.removeDirectory dir d).2.files = d.files := by
  show (if d.isEmpty dir then _ else _ : Bool × Disk).2.files = d.files
  split <;> rfl

/-- The files and folders of a `Disk`. -/
def diskFiles : FileSystem diskOs where
  isFile d path := path ∈ d.files.map (·.1)
  isFolder d path := path ∈ d.folders
  empty := by
    intro d dir path empty inside
    have none_ : ∀ p ∈ d.files.map (·.1) ++ d.folders, ¬ Below dir p := fun p mem =>
      of_decide_eq_true (List.all_eq_true.mp empty p mem)
    exact ⟨fun file => none_ path (List.mem_append_left _ file) inside,
      fun folder => none_ path (List.mem_append_right _ folder) inside⟩
  isFile_removeDirectory d dir path := by rw [files_removeDirectory]
  icon_removeDirectory d dir path := by
    have files := files_removeDirectory dir d
    simp only [diskOs] at files ⊢
    rw [files]

/-- The client of the provider `U`, whose menu folder has a shortcut from before. -/
def clientWith (name icon : String) : ClientState Disk :=
  (step diskOs (.fresh
    { files := [(wide "M\\Programs\\U\\" ++ wide name, wide icon)]
      folders := [wide "M\\Programs\\U"] }) (caps "U")).2

/-! ### What the walk finds -/

namespace Listing

theorem files_below {entries : Listing} {path p : WStr} (mem : p ∈ entries.files path) :
    Below path p := by
  induction entries generalizing path with
  | done => cases mem
  | file name rest ih =>
      rcases List.mem_cons.mp mem with rfl | later
      · exact Below.of_name path name
      · exact ih later
  | dir name sub rest ihSub ih =>
      rcases List.mem_append.mp mem with inner | later
      · split at inner
        · cases inner
        · exact (Below.of_name path name).trans (ihSub inner)
      · exact ih later

/-- The shortcuts are those of the entries one after the other. -/
theorem mem_lnkFiles {entries : Listing} {path p : WStr} :
    p ∈ entries.lnkFiles path ↔ p ∈ entries.files path ∧ pathFindExtensionW p = lnkExtension := by
  rw [lnkFiles, List.mem_filter, decide_eq_true_iff]

end Listing

namespace FileSystem

variable (fs : FileSystem os)

/-- The walk leaves every file and what the shortcuts store. -/
theorem walk_leaves (entries : Listing) (path : WStr) (w : ω) :
    (∀ p, fs.isFile (walk os entries path w).2 p ↔ fs.isFile w p) ∧
      ∀ p, os.loadIconLocation (walk os entries path w).2 p = os.loadIconLocation w p := by
  induction entries generalizing path w with
  | done => exact ⟨fun _ => Iff.rfl, fun _ => rfl⟩
  | file name rest ih =>
      rw [walk]
      split
      · exact ih path w
      · exact ih path w
  | dir name sub rest ihSub ih =>
      rw [walk]
      split
      · exact ih path w
      split
      · obtain ⟨files, icons⟩ := ih path (os.removeDirectory (below path name) w).2
        exact ⟨fun p => (files p).trans (fs.isFile_removeDirectory w _ p),
          fun p => (icons p).trans (fs.icon_removeDirectory w _ p)⟩
      · obtain ⟨files, icons⟩ := ih path (walk os sub (below path name) w).2
        obtain ⟨filesSub, iconsSub⟩ := ihSub (below path name) w
        exact ⟨fun p => (files p).trans (filesSub p), fun p => (icons p).trans (iconsSub p)⟩

/-- A walk told about files that are there finds the shortcuts among them and the icon
files they point to. -/
theorem mem_found_walk {entries : Listing} {path : WStr} {w : ω}
    (listed : ∀ p ∈ entries.files path, fs.isFile w p) (p : WStr) :
    p ∈ found (walk os entries path w).1 ↔
      ∃ link ∈ entries.lnkFiles path, p = link ∨ os.loadIconLocation w link = .ok p := by
  induction entries generalizing path w with
  | done => simp [walk, found, Listing.lnkFiles, Listing.files]
  | file name rest ih =>
      have listedRest : ∀ p ∈ rest.files path, fs.isFile w p :=
        fun p mem => listed p (List.mem_cons_of_mem _ mem)
      have isLnk := pathFindExtensionW_below path name
      rw [walk, Listing.lnkFiles, Listing.files]
      by_cases lnk : pathFindExtensionW name.chars = lnkExtension
      · rw [if_pos lnk, List.filter_cons_of_pos (by rw [isLnk, lnk]; exact decide_eq_true rfl)]
        simp only [found, List.flatMap_cons, List.mem_append, List.exists_mem_cons_iff]
        refine or_congr ?_ (ih listedRest)
        cases os.loadIconLocation w (below path name) with
        | ok icon => simp [Action.found, Except.toOption, eq_comm]
        | error hr => simp [Action.found, Except.toOption]
      · rw [if_neg lnk, List.filter_cons_of_neg (by
          rw [isLnk]
          exact fun isLink => lnk (of_decide_eq_true isLink))]
        exact ih listedRest
  | dir name sub rest ihSub ih =>
      have listedRest : ∀ p ∈ rest.files path, fs.isFile w p :=
        fun p mem => listed p (List.mem_append_right _ mem)
      rw [walk, Listing.lnkFiles, Listing.files]
      by_cases special : name.isSpecial
      · rw [if_pos special, if_pos special]
        exact ih listedRest
      rw [if_neg special, if_neg special]
      have listedSub : ∀ p ∈ sub.files (below path name), fs.isFile w p := fun p mem =>
        listed p (List.mem_append_left _ (by rw [if_neg special]; exact mem))
      by_cases empty : os.pathIsDirectoryEmptyW w (below path name)
      · -- a folder found empty has no files, and the others stay when it is removed
        have none_ : sub.files (below path name) = [] := List.eq_nil_iff_forall_not_mem.mpr
          fun p mem => (fs.empty empty (Listing.files_below mem)).1 (listedSub p mem)
        rw [if_pos empty, none_, List.nil_append]
        have rest_ := @ih path (os.removeDirectory (below path name) w).2 fun p mem =>
          (fs.isFile_removeDirectory w _ p).mpr (listedRest p mem)
        simp only [fs.icon_removeDirectory] at rest_
        exact rest_
      · rw [if_neg empty, List.filter_append]
        obtain ⟨files, icons⟩ := fs.walk_leaves sub (below path name) w
        have rest_ := @ih path (walk os sub (below path name) w).2 fun p mem =>
          (files p).mpr (listedRest p mem)
        simp only [icons] at rest_
        rw [found_append, List.mem_append, ihSub listedSub, rest_]
        simp only [List.mem_append, or_and_right, exists_or]
        rfl

end FileSystem

/-! ### The sweep is exact -/

/-- A shortcut below the menu folder before a step, or the icon file one points to. -/
def SyncFile (fs : FileSystem os) (t : Step ω) (path : WStr) : Prop :=
  ∃ link, fs.isFile t.before.world link ∧ Below t.before.cb.appMenuPath link ∧
    pathFindExtensionW link = lnkExtension ∧
    (path = link ∨ os.loadIconLocation t.before.world link = .ok path)

/-- The files the walk of the menu folder is told of in a step. -/
def enumerated (os : Os ω) (t : Step ω) : List WStr :=
  (os.listing t.before.world t.before.cb.appMenuPath).files t.before.cb.appMenuPath

/-- A shortcut among them, or the icon file one points to. -/
def Listed (os : Os ω) (t : Step ω) (path : WStr) : Prop :=
  ∃ link ∈ enumerated os t, pathFindExtensionW link = lnkExtension ∧
    (path = link ∨ os.loadIconLocation t.before.world link = .ok path)

/-- A step that starts a sync finds the shortcuts it is told of and the icon files they
point to. -/
theorem mem_found_of_startsSync (fs : FileSystem os) {t : Step ω}
    (taken : Runs.Taken (step os) t) (starts : StartsSync os t)
    (listed : ∀ p ∈ enumerated os t, fs.isFile t.before.world p) (p : WStr) :
    p ∈ found t.output.calls ↔ Listed os t p := by
  rw [found_of_startsSync taken starts]
  refine (fs.mem_found_walk listed p).trans (exists_congr fun link => ?_)
  rw [Listing.mem_lnkFiles, and_assoc]
  rfl

/-- When the menu folder's files are enumerated as they are, the sweep deletes each of
the shortcuts and icon files of the start that no update reported, once, and nothing
else; every folder removed on the way is empty; and a sync that the end of the channel
drops deletes nothing. -/
theorem sync_deletes_unreported (fs : FileSystem os) {ts : List (Step ω)} {first last : Step ω}
    (sync : SyncRun os ts first last)
    (told : ∀ path, path ∈ enumerated os first ↔
      fs.isFile first.before.world path ∧ Below first.before.cb.appMenuPath path) :
    (swept last.output.calls).Nodup ∧
      (∀ path, path ∈ swept last.output.calls ↔
        SyncFile fs first path ∧ ∀ t ∈ ts, ¬ Reported os t path) ∧
      (∀ t ∈ ts, ∀ call ∈ t.output.calls, ∀ caller dir,
        call.action = .removeDirectory caller dir →
          ∀ path, Below dir path → ¬ fs.isFile call.world path ∧ ¬ fs.isFolder call.world path) ∧
      last.after.cb.spFileDBSync = none ∧
      ∀ s, (step os s .close).1.calls = [] ∧ (step os s .close).2.cb.spFileDBSync = none := by
  have taken := sync.taken (List.mem_of_head? sync.head)
  have deleted := swept_of_syncRun sync
  refine ⟨deleted.nodup, fun path => ?_, fun t mem call made caller dir action path => ?_,
    deleted.off, fun s => ?_⟩
  · rw [deleted.mem]
    refine and_congr_left' ((mem_found_of_startsSync fs taken sync.starts
      (fun p mem => ((told p).mp mem).1) path).trans (exists_congr fun link => ?_))
    rw [told, and_assoc]
  · exact fs.empty (empty_of_removed (sync.taken mem) made action)
  · cases did_close os s with
    | published ok update => cases update
    | rejected failed update => cases update
    | spared input => exact absurd rfl input
    | closed input calls off => exact ⟨calls, off⟩

/-- An update that starts a sync over a shortcut to `C:\doc`, and one that ends it. -/
def syncStart : Step Disk :=
  Runs.take (step diskOs) (clientWith "old.lnk" "C:\\doc")
    (update (hintSyncStart ||| hintSync) "a" "App")

def syncEnd : Step Disk :=
  Runs.take (step diskOs) syncStart.after (update (hintSync ||| hintSyncEnd) "b" "Tool")

theorem syncRun_syncEnd : SyncRun diskOs [syncStart, syncEnd] syncStart syncEnd where
  run := ⟨_, _, (Runs.transitions_two ..).symm⟩
  head := rfl
  getLast := rfl
  starts := by decide +kernel
  ends := by decide +kernel
  goesOn := by
    intro t mem
    rw [List.mem_singleton.mp mem]
    exact ⟨by decide +kernel, nofun⟩

theorem enumerated_syncStart (path : WStr) : path ∈ enumerated diskOs syncStart ↔
    diskFiles.isFile syncStart.before.world path ∧
      Below syncStart.before.cb.appMenuPath path := by
  have told : enumerated diskOs syncStart = [wide "M\\Programs\\U\\old.lnk"] := by decide +kernel
  have files : syncStart.before.world.files.map (·.1) = [wide "M\\Programs\\U\\old.lnk"] := by
    decide +kernel
  have inside : Below syncStart.before.cb.appMenuPath (wide "M\\Programs\\U\\old.lnk") := by
    decide +kernel
  show _ ↔ path ∈ syncStart.before.world.files.map (·.1) ∧ _
  rw [told, files, List.mem_singleton]
  exact ⟨fun same => ⟨same, same ▸ inside⟩, And.left⟩

/-- Of the two, the second deletes the shortcut and the file it points to. -/
theorem sync_deletes_unreported_syncEnd :
    swept syncEnd.output.calls =
        [wide "C:\\doc", wide "M\\Programs\\U\\old.lnk"] ∧
      SyncFile diskFiles syncStart (wide "C:\\doc") ∧ syncEnd.after.cb.spFileDBSync = none := by
  have two : swept syncEnd.output.calls =
      [wide "C:\\doc", wide "M\\Programs\\U\\old.lnk"] := by decide +kernel
  obtain ⟨-, deleted, -, off, -⟩ :=
    sync_deletes_unreported diskFiles syncRun_syncEnd enumerated_syncStart
  refine ⟨two, ((deleted _).mp ?_).1, off⟩
  rw [two]
  exact List.mem_cons_self

/-! ### Where the sweep goes -/

theorem components_name (name : FileName) : components windowsPath name.chars = [name.chars] :=
  components_of_no_sep fun c mem => (name.plain c mem).2

/-- An entry of a folder that is not `..` is inside the folder. -/
theorem inside_below (path : WStr) {name : FileName} (up : name.chars ≠ [dot, dot]) :
    Inside windowsPath path (below path name) := by
  refine inside_join (by decide) fun c mem => ?_
  rw [components_name] at mem
  rw [List.mem_singleton.mp mem]
  exact up

theorem strictlyInside_below (path : WStr) {name : FileName} (up : name.chars ≠ [dot, dot])
    (named : Named windowsPath name.chars) : StrictlyInside windowsPath path (below path name) := by
  refine (strictlyInside_join_iff (by decide) fun c mem => ?_).mpr ⟨name.chars, ?_, named⟩
  · rw [components_name] at mem
    rw [List.mem_singleton.mp mem]
    exact up
  · rw [components_name]
    exact List.mem_cons_self

theorem parentFolder_below (path : WStr) (name : FileName) :
    parentFolder (below path name) = some path := by
  have plain : ∀ c ∈ name.chars.reverse, decide (c ≠ backslash) = true := by
    intro c mem
    refine decide_eq_true fun same => ?_
    have notSep := (name.plain c (List.mem_reverse.mp mem)).2
    rw [same] at notSep
    exact absurd notSep (by decide)
  rw [parentFolder, below, List.reverse_append, List.reverse_cons, List.append_assoc,
    List.dropWhile_append_of_pos plain]
  simp

/-- A shortcut below a folder is strictly inside it, and so is the folder it stands in,
or that is the folder itself. -/
theorem Listing.shortcut_inside {entries : Listing} {path p : WStr}
    (mem : p ∈ entries.files path) (lnk : pathFindExtensionW p = lnkExtension) :
    StrictlyInside windowsPath path p ∧
      ∃ dir, parentFolder p = some dir ∧ Inside windowsPath path dir := by
  induction entries generalizing path with
  | done => cases mem
  | file name rest ih =>
      rcases List.mem_cons.mp mem with rfl | later
      · rw [pathFindExtensionW_below] at lnk
        have other : ∀ chars : WStr, pathFindExtensionW chars ≠ lnkExtension →
            name.chars ≠ chars := fun chars differs same => differs (same ▸ lnk)
        exact ⟨strictlyInside_below path (other _ (by decide))
          ⟨other _ (by decide), other _ (by decide)⟩, path, parentFolder_below path name,
          Inside.refl path⟩
      · exact ih later
  | dir name sub rest ihSub ih =>
      rcases List.mem_append.mp mem with inner | later
      · split at inner
        · cases inner
        · rename_i special
          have up : name.chars ≠ [dot, dot] := fun same =>
            special (decide_eq_true (Or.inr same))
          obtain ⟨inside, dir, parent, insideDir⟩ := ihSub inner
          exact ⟨(inside_below path up).trans_strictly inside, dir, parent,
            (inside_below path up).trans insideDir⟩
      · exact ih later

/-- An icon location that the walk of a step read from a shortcut below the menu folder. -/
def PointedTo (os : Os ω) (t : Step ω) (icon : WStr) : Prop :=
  ∃ link ∈ enumerated os t, pathFindExtensionW link = lnkExtension ∧
    ∃ call ∈ t.output.calls, call.action = .getIconFile link (some icon)

/-- What a step that starts a sync finds is a shortcut below the menu folder or where
one points to. -/
theorem found_cases {t : Step ω} (taken : Runs.Taken (step os) t) {path : WStr}
    (mem : path ∈ found t.output.calls) :
    (path ∈ enumerated os t ∧ pathFindExtensionW path = lnkExtension) ∨ PointedTo os t path := by
  obtain ⟨call, made, inFound⟩ := List.mem_flatMap.mp mem
  have unfound : ∀ {action : Action}, call.action = action → action.found = [] → False := by
    intro action same none_
    rw [same, none_] at inFound
    cases inFound
  cases callOf_of_mem taken made with
  | walk walked =>
      rcases walked with ⟨link, inMenu, action⟩ | ⟨dir, action, -⟩
      · obtain ⟨isFile, lnk⟩ := Listing.mem_lnkFiles.mp inMenu
        rw [action] at inFound
        rcases List.mem_cons.mp inFound with rfl | icon
        · exact Or.inl ⟨isFile, lnk⟩
        · refine Or.inr ⟨link, isFile, lnk, call, made, ?_⟩
          rw [action, Option.mem_toList.mp icon]
      · exact (unfound action rfl).elim
  | icon _ _ _ action => exact (unfound action rfl).elim
  | link _ _ action => exact (unfound action rfl).elim
  | entry ofEntry =>
      obtain ⟨db, -, k, e, -, path', -, -, action⟩ := ofEntry
      exact (unfound action rfl).elim
  | sweep swept _ =>
      obtain ⟨fileId, -, action | ⟨dir, -, action, -⟩⟩ := mem_sweep swept <;>
        exact (unfound action rfl).elim

/-- The sweep deletes shortcuts strictly inside the menu folder of the start and the
files that shortcuts found there point to, and removes folders of these. -/
theorem swept_stems_from_menu {ts : List (Step ω)} {first last : Step ω}
    (sync : SyncRun os ts first last) {call : Call ω} (mem : call ∈ last.output.calls) :
    (∀ path, call.action = .deleteFile .deleteAllFileIdFiles path →
      StrictlyInside windowsPath first.before.cb.appMenuPath path ∨ PointedTo os first path) ∧
    ∀ dir, call.action = .removeDirectory .deleteAllFileIdFiles dir →
      Inside windowsPath first.before.cb.appMenuPath dir ∨
        ∃ icon, PointedTo os first icon ∧ parentFolder icon = some dir := by
  have taken := sync.taken (List.mem_of_head? sync.head)
  have stems : ∀ path ∈ swept last.output.calls,
      (path ∈ enumerated os first ∧ pathFindExtensionW path = lnkExtension) ∨
        PointedTo os first path := fun path deleted =>
    found_cases taken (((swept_of_syncRun sync).mem path).mp deleted).1
  constructor
  · intro path action
    have deleted : path ∈ swept last.output.calls :=
      List.mem_flatMap.mpr ⟨call, mem, by rw [action]; exact List.mem_cons_self⟩
    exact (stems path deleted).imp_left fun ⟨isFile, lnk⟩ =>
      (Listing.shortcut_inside isFile lnk).1
  · intro dir action
    obtain ⟨fileId, deleted, parent⟩ :=
      parent_of_removed (sync.taken (List.mem_of_getLast? sync.getLast)) mem action
    rcases stems fileId deleted with ⟨isFile, lnk⟩ | pointed
    · obtain ⟨-, dir', parent', inside⟩ := Listing.shortcut_inside isFile lnk
      cases parent.symm.trans parent'
      exact Or.inl inside
    · exact Or.inr ⟨fileId, pointed, parent⟩

theorem swept_stems_from_menu_syncEnd : PointedTo diskOs syncStart (wide "C:\\doc") := by
  have deleted : ∃ call ∈ syncEnd.output.calls,
      call.action = .deleteFile .deleteAllFileIdFiles (wide "C:\\doc") := by decide +kernel
  obtain ⟨call, mem, action⟩ := deleted
  have outside : ¬ StrictlyInside windowsPath syncStart.before.cb.appMenuPath
      (wide "C:\\doc") := by decide +kernel
  exact ((swept_stems_from_menu syncRun_syncEnd mem).1 _ action).resolve_left outside

/-- A sync that deletes `C:\doc`, which is in neither folder of the provider. -/
theorem sweep_leaves_folders :
    ∃ ts first last, SyncRun diskOs ts first last ∧ ∃ call ∈ last.output.calls,
      call.action = .deleteFile .deleteAllFileIdFiles (wide "C:\\doc") ∧
        ∀ t ∈ ts, ¬ Inside windowsPath t.before.cb.appMenuPath (wide "C:\\doc") ∧
          ¬ Inside windowsPath t.before.cb.iconPath (wide "C:\\doc") := by
  exact ⟨_, syncStart, syncEnd, syncRun_syncEnd, by decide +kernel⟩

/-! ### Spellings -/

/-- The step is an update with `HINT_SYNC` that returned `S_OK`, and wrote a file under
this path. -/
def WrittenInSync (os : Os ω) (t : Step ω) (path : WStr) : Prop :=
  (∃ u, Applied os t u ∧ has u.flags hintSync = true) ∧
    ∃ call ∈ t.output.calls,
      call.action = .createShellLink path true ∨ call.action = .createIconFile path true

instance (t : Step ω) (path : WStr) : Decidable (WrittenInSync os t path) :=
  decidable_of_iff ((t.output.failure = none ∧ ∃ u ∈ updateOf os t,
      has u.flags hintSync = true) ∧ ∃ call ∈ t.output.calls,
        call.action = .createShellLink path true ∨ call.action = .createIconFile path true)
    (and_congr_left' ⟨fun ⟨ok, u, read, hint⟩ => ⟨u, ⟨ok, read⟩, hint⟩,
      fun ⟨u, ⟨ok, read⟩, hint⟩ => ⟨ok, u, read, hint⟩⟩)

/-- The sweep deletes no file an update of the sync wrote, under any spelling. -/
def Survives (os : Os ω) (fold : WCHAR → WCHAR) (ts : List (Step ω)) (last : Step ω) : Prop :=
  ∀ t ∈ ts, ∀ path, WrittenInSync os t path →
    ∀ p ∈ swept last.output.calls, ¬ SameName windowsPath fold p path

/-- What the updates of a sync write survives exactly when every path listed at the start
that names a file they write is spelled as one of the paths they report. -/
theorem survives_iff_spelled (fs : FileSystem os) (fold : WCHAR → WCHAR) {ts : List (Step ω)}
    {first last : Step ω} (sync : SyncRun os ts first last)
    (listed : ∀ p ∈ enumerated os first, fs.isFile first.before.world p) :
    Survives os fold ts last ↔ ∀ p, Listed os first p →
      (∃ t ∈ ts, ∃ path, WrittenInSync os t path ∧ SameName windowsPath fold p path) →
        ∃ t ∈ ts, Reported os t p := by
  have taken := sync.taken (List.mem_of_head? sync.head)
  have deleted : ∀ p, p ∈ swept last.output.calls ↔
      Listed os first p ∧ ∀ t ∈ ts, ¬ Reported os t p := fun p =>
    ((swept_of_syncRun sync).mem p).trans
      (and_congr_left' (mem_found_of_startsSync fs taken sync.starts listed p))
  constructor
  · rintro survives p atStart ⟨t, mem, path, written_, same⟩
    by_contra unreported
    push Not at unreported
    exact survives t mem path written_ p ((deleted p).mpr ⟨atStart, unreported⟩) same
  · intro spelled t mem path written_ p swept_ same
    obtain ⟨atStart, unreported⟩ := (deleted p).mp swept_
    obtain ⟨t', mem', reported⟩ := spelled p atStart ⟨t, mem, path, written_, same⟩
    exact unreported t' mem' reported

/-- ASCII letters without their case. -/
def lower (c : WCHAR) : WCHAR := if 0x41 ≤ c ∧ c ≤ 0x5A then c + 0x20 else c

theorem survives_iff_spelled_syncEnd :
    Survives diskOs lower [syncStart, syncEnd] syncEnd ↔ ∀ p, Listed diskOs syncStart p →
      (∃ t ∈ [syncStart, syncEnd], ∃ path, WrittenInSync diskOs t path ∧
        SameName windowsPath lower p path) →
        ∃ t ∈ [syncStart, syncEnd], Reported diskOs t p :=
  survives_iff_spelled diskFiles lower syncRun_syncEnd
    fun p mem => ((enumerated_syncStart p).mp mem).1

/-- An update of `App` that starts and ends a sync over a shortcut named `app.lnk`. -/
def respelled : Step Disk :=
  Runs.take (step diskOs) (clientWith "app.lnk" "")
    (update (hintSyncStart ||| hintSync ||| hintSyncEnd) "a" "App")

/-- The shortcut it wrote is deleted under its old spelling. -/
theorem respelled_deleted : SyncRun diskOs [respelled] respelled respelled ∧
    ¬ Survives diskOs lower [respelled] respelled := by
  constructor
  · exact {
      run := ⟨_, _, (Runs.transitions_one ..).symm⟩
      head := rfl
      getLast := rfl
      starts := by decide +kernel
      ends := by decide +kernel
      goesOn := fun t mem => absurd mem List.not_mem_nil }
  · intro survives
    exact survives respelled List.mem_cons_self (wide "M\\Programs\\U\\App.lnk")
      (by decide +kernel) (wide "M\\Programs\\U\\app.lnk") (by decide +kernel)
      (by decide +kernel)

end Wslg.Client
