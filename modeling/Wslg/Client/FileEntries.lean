/-
The representation of the file database: `class fileEntry` and the `std::set` of
`WSLDVCFileDB.cpp`.

The set holds objects of five strings, and its comparator looks at the id. A lookup
builds an entry of which only the id counts. What the set stands for is a map from ids to
the other four strings (`contents`): `fileEntries_refine` says that every sequence of
calls is answered as such a map would answer it. `Client.FileDB`, which the rest of the
client is modelled over, is that map, and gives the same answers (`findFiles_agrees` and
its like).
-/

import Mathlib.Logic.Function.Basic
import Wslg.Client.FileDB
import Wslg.Logic.KeyedSet
import Wslg.Logic.Runs

namespace Wslg.Client

open Wslg.Protocol Wslg.Runs

/-- `class fileEntry`, by default with empty strings besides the id. -/
structure IdFileEntry extends FileEntry where
  fileId : WStr
deriving DecidableEq

/-- `set<fileEntry>`, ordered by `operator<`. -/
abbrev FileEntries := KeyedSet IdFileEntry.fileId

/-! ### Output buffers -/

/-- A buffer of `size` characters, with the string in it. -/
structure OutBuffer where
  size : Nat
  string : WStr
deriving DecidableEq

/-- The buffers handed to `FindFiles`, `none` for a null pointer. -/
structure OutBuffers where
  linkFilePath : Option OutBuffer := none
  iconFilePath : Option OutBuffer := none
  exeFilePath : Option OutBuffer := none
  exeFileArgs : Option OutBuffer := none
deriving DecidableEq

/-- `*p = NULL`. -/
def OutBuffer.blank (b : OutBuffer) : OutBuffer := { b with string := [] }

def OutBuffers.blank (out : OutBuffers) : OutBuffers :=
  ⟨out.linkFilePath.map (·.blank), out.iconFilePath.map (·.blank),
    out.exeFilePath.map (·.blank), out.exeFileArgs.map (·.blank)⟩

/-- `wcscpy_s` to a pointer that may be null: whether it returns zero, and the buffer. A
string that does not fit leaves the buffer empty. -/
def wcscpyS (dst : Option OutBuffer) (src : WStr) : Bool × Option OutBuffer :=
  match dst with
  | none => (true, none)
  | some b =>
      if src.length < b.size then (true, some { b with string := src })
      else (false, some b.blank)

/-- The buffers with the strings of an entry in them. -/
def OutBuffers.fill (out : OutBuffers) (e : FileEntry) : OutBuffers :=
  ⟨out.linkFilePath.map fun b => { b with string := e.linkFilePath },
    out.iconFilePath.map fun b => { b with string := e.iconFilePath },
    out.exeFilePath.map fun b => { b with string := e.exeFilePath },
    out.exeFileArgs.map fun b => { b with string := e.exeFileArgs }⟩

/-- The sizes of the buffers, as `Client.FileDB` takes them. -/
def OutBuffers.sizes (out : OutBuffers) : FileDB.FindBuffers :=
  ⟨out.linkFilePath.map (·.size), out.iconFilePath.map (·.size), out.exeFilePath.map (·.size),
    out.exeFileArgs.map (·.size)⟩

/-- What is in the buffers, as `Client.FileDB` gives it. -/
def OutBuffers.entry (out : OutBuffers) : FileEntry :=
  ⟨(out.linkFilePath.map (·.string)).getD [], (out.iconFilePath.map (·.string)).getD [],
    (out.exeFilePath.map (·.string)).getD [], (out.exeFileArgs.map (·.string)).getD []⟩

/-- The strings of an entry fit the buffers there are. -/
structure OutBuffers.Fits (out : OutBuffers) (e : FileEntry) : Prop where
  linkFilePath : ∀ b ∈ out.linkFilePath, e.linkFilePath.length < b.size
  iconFilePath : ∀ b ∈ out.iconFilePath, e.iconFilePath.length < b.size
  exeFilePath : ∀ b ∈ out.exeFilePath, e.exeFilePath.length < b.size
  exeFileArgs : ∀ b ∈ out.exeFileArgs, e.exeFileArgs.length < b.size

theorem wcscpyS_of_fits {dst : Option OutBuffer} {src : WStr}
    (fits : ∀ b ∈ dst, src.length < b.size) :
    wcscpyS (dst.map (·.blank)) src = (true, dst.map fun b => { b with string := src }) := by
  cases dst with
  | none => rfl
  | some b => exact if_pos (fits b rfl)

/-! ### The four calls -/

namespace FileEntries

/-- The throwaway entry of `m_fileEntries.find(key)`. -/
def keyEntry (key : WStr) : IdFileEntry := { fileId := key }

/-- `m_fileEntries.find(key)`. -/
def find (s : FileEntries) (key : WStr) : Option IdFileEntry := KeyedSet.find keyEntry s key

/-- The strings an `OnFileAdded` is given: null counts as the empty string. -/
def strings (linkFilePath iconFilePath exeFilePath exeFileArgs : Option WStr) : FileEntry :=
  ⟨linkFilePath.getD [], iconFilePath.getD [], exeFilePath.getD [], exeFileArgs.getD []⟩

def onFileAdded (s : FileEntries) (key : WStr)
    (linkFilePath iconFilePath exeFilePath exeFileArgs : Option WStr) : HRESULT × FileEntries :=
  let given := strings linkFilePath iconFilePath exeFilePath exeFileArgs
  let ((first, second), s) := s.insertNew { toFileEntry := given, fileId := key }
  if second then (S_OK, s)
  else if first.linkFilePath ≠ given.linkFilePath ∨ first.iconFilePath ≠ given.iconFilePath ∨
      first.exeFilePath ≠ given.exeFilePath ∨ first.exeFileArgs ≠ given.exeFileArgs then
    (E_FAIL, s)
  else (S_OK, s)

def onFileRemoved (s : FileEntries) (key : WStr) : HRESULT × FileEntries :=
  match s.find key with
  | none => (E_FAIL, s)
  | some it => (S_OK, s.erase it)

/-- `FindFiles`: what it returns and the buffers after it. -/
def findFiles (s : FileEntries) (key : WStr) (out : OutBuffers) : HRESULT × OutBuffers :=
  let out := out.blank
  match s.find key with
  | none => (E_FAIL, out)
  | some it =>
      match wcscpyS out.linkFilePath it.linkFilePath with
      | (false, link) => (E_FAIL, { out with linkFilePath := link })
      | (true, link) =>
          let out := { out with linkFilePath := link }
          match wcscpyS out.iconFilePath it.iconFilePath with
          | (false, icon) => (E_FAIL, { out with iconFilePath := icon })
          | (true, icon) =>
              let out := { out with iconFilePath := icon }
              match wcscpyS out.exeFilePath it.exeFilePath with
              | (false, exe) => (E_FAIL, { out with exeFilePath := exe })
              | (true, exe) =>
                  let out := { out with exeFilePath := exe }
                  match wcscpyS out.exeFileArgs it.exeFileArgs with
                  | (false, args) => (E_FAIL, { out with exeFileArgs := args })
                  | (true, args) => (S_OK, { out with exeFileArgs := args })

/-- `OnClose`. -/
def onClose (_ : FileEntries) : HRESULT × FileEntries := (S_OK, ∅)

end FileEntries

/-! ### The map -/

/-- What a file database is: the strings of each id. -/
abbrev Files := WStr → Option FileEntry

namespace FileEntries

/-- The map that a set stands for. -/
def contents (s : FileEntries) : Files := fun key => (s.find key).map (·.toFileEntry)

variable {s : FileEntries} {key : WStr}

theorem fileId_keyEntry (k : WStr) : (keyEntry k).fileId = k := rfl

theorem contents_eq_some {e : FileEntry} :
    s.contents key = some e ↔ s.find key = some { toFileEntry := e, fileId := key } := by
  constructor
  · intro held
    obtain ⟨it, found, rfl⟩ := Option.map_eq_some_iff.mp held
    have id : it.fileId = key := KeyedSet.key_of_find fileId_keyEntry found
    rw [found, ← id]
  · intro found
    rw [contents, found]
    rfl

theorem contents_eq_none : s.contents key = none ↔ s.find key = none := Option.map_eq_none_iff

theorem contents_empty : contents ∅ = fun _ => none := rfl

/-- A database holds finitely many ids. -/
theorem finite_contents (s : FileEntries) : {key | s.contents key ≠ none}.Finite :=
  (KeyedSet.finite_find fileId_keyEntry s).subset fun _ held none =>
    held (contents_eq_none.mpr none)

variable {link icon exe args : Option WStr}

/-- `OnFileAdded` under a key that is not there. -/
theorem onFileAdded_absent (absent : s.contents key = none) :
    (s.onFileAdded key link icon exe args).1 = S_OK ∧
      (s.onFileAdded key link icon exe args).2.contents =
        Function.update s.contents key (some (strings link icon exe args)) := by
  set a : IdFileEntry := { toFileEntry := strings link icon exe args, fileId := key } with new
  have notFound : KeyedSet.find keyEntry s a.fileId = none := contents_eq_none.mp absent
  have added : s.onFileAdded key link icon exe args = (S_OK, s.insert a) := by
    simp only [onFileAdded, ← new, KeyedSet.insertNew_of_absent fileId_keyEntry notFound, if_true]
  rw [added]
  refine ⟨rfl, funext fun k => ?_⟩
  rw [contents, find, KeyedSet.find_insert fileId_keyEntry notFound, Function.update_apply]
  by_cases here : k = key
  · rw [if_pos here, if_pos here]
    rfl
  · rw [if_neg here, if_neg here]
    rfl

/-- `OnFileAdded` under a key that is there compares, and changes nothing. -/
theorem onFileAdded_present {d : FileEntry} (held : s.contents key = some d) :
    s.onFileAdded key link icon exe args =
      (if d = strings link icon exe args then S_OK else E_FAIL, s) := by
  have found := contents_eq_some.mp held
  have compared : (d.linkFilePath ≠ (strings link icon exe args).linkFilePath ∨
      d.iconFilePath ≠ (strings link icon exe args).iconFilePath ∨
      d.exeFilePath ≠ (strings link icon exe args).exeFilePath ∨
      d.exeFileArgs ≠ (strings link icon exe args).exeFileArgs) ↔
        d ≠ strings link icon exe args := by
    cases d
    simp only [ne_eq, strings, FileEntry.mk.injEq, not_and_or]
  simp only [onFileAdded]
  rw [@KeyedSet.insertNew_of_find _ _ _ _ keyEntry _ s
    { toFileEntry := strings link icon exe args, fileId := key } _ fileId_keyEntry _ found]
  simp only [Bool.false_eq_true, if_false, compared, ite_not]
  split <;> rfl

/-- `OnFileRemoved` fails exactly on a key that is not there, and takes the key out. -/
theorem onFileRemoved_eq (s : FileEntries) (key : WStr) :
    (s.onFileRemoved key).1 = (if s.contents key = none then E_FAIL else S_OK) ∧
      (s.onFileRemoved key).2.contents = Function.update s.contents key none := by
  cases held : s.contents key with
  | none =>
      rw [onFileRemoved, contents_eq_none.mp held]
      refine ⟨rfl, ?_⟩
      rw [← held, Function.update_eq_self]
  | some d =>
      rw [onFileRemoved, contents_eq_some.mp held]
      refine ⟨rfl, funext fun k => ?_⟩
      rw [contents, find, KeyedSet.find_erase fileId_keyEntry, Function.update_apply]
      by_cases here : k = key
      · rw [if_pos here, if_pos here]
        rfl
      · rw [if_neg here, if_neg here]
        rfl

/-- `FindFiles` on a key that is not there leaves every buffer empty. -/
theorem findFiles_absent (absent : s.contents key = none) (out : OutBuffers) :
    s.findFiles key out = (E_FAIL, out.blank) := by
  simp only [findFiles, contents_eq_none.mp absent]

/-- `FindFiles` on a key that is there fills the buffers, where they are large enough. -/
theorem findFiles_present {d : FileEntry} (held : s.contents key = some d) {out : OutBuffers}
    (fits : out.Fits d) : s.findFiles key out = (S_OK, out.fill d) := by
  simp only [findFiles, contents_eq_some.mp held, OutBuffers.blank,
    wcscpyS_of_fits fits.linkFilePath, wcscpyS_of_fits fits.iconFilePath,
    wcscpyS_of_fits fits.exeFilePath, wcscpyS_of_fits fits.exeFileArgs]
  rfl

/-! ### Every sequence of calls -/

inductive DbCall where
  | onFileAdded (key : WStr) (linkFilePath iconFilePath exeFilePath exeFileArgs : Option WStr)
  | onFileRemoved (key : WStr)
  | findFiles (key : WStr) (out : OutBuffers)
  | onClose
deriving DecidableEq

/-- One call: what it returns, and the buffers it was given. -/
def call (s : FileEntries) : DbCall → (HRESULT × OutBuffers) × FileEntries
  | .onFileAdded key link icon exe args =>
      let (hr, s) := s.onFileAdded key link icon exe args
      ((hr, {}), s)
  | .onFileRemoved key =>
      let (hr, s) := s.onFileRemoved key
      ((hr, {}), s)
  | .findFiles key out => (s.findFiles key out, s)
  | .onClose =>
      let (hr, s) := s.onClose
      ((hr, {}), s)

/-- The call is answered as a map `before` answers it, and leaves the map `after`. -/
def Answers (before after : Files) : DbCall → HRESULT × OutBuffers → Prop
  | .onFileAdded key link icon exe args, (hr, _) =>
      (hr = S_OK ↔ before key = none ∨ before key = some (strings link icon exe args)) ∧
      (hr = S_OK → after = Function.update before key (some (strings link icon exe args))) ∧
      (hr ≠ S_OK → hr = E_FAIL ∧ after = before)
  | .onFileRemoved key, (hr, _) =>
      (hr = S_OK ↔ before key ≠ none) ∧ (hr ≠ S_OK → hr = E_FAIL) ∧
      after = Function.update before key none
  | .findFiles key out, (hr, out') =>
      after = before ∧
      ((∀ d, before key = some d → out.Fits d) →
        (hr = S_OK ↔ before key ≠ none) ∧ (hr ≠ S_OK → hr = E_FAIL) ∧
        (∀ d, before key = some d → out' = out.fill d) ∧
        (before key = none → out' = out.blank))
  | .onClose, (hr, _) => hr = S_OK ∧ after = fun _ => none

theorem e_fail_ne : E_FAIL ≠ S_OK := by decide

theorem answers_onFileAdded (s : FileEntries) (key : WStr) (link icon exe args : Option WStr) :
    Answers s.contents (s.onFileAdded key link icon exe args).2.contents
      (.onFileAdded key link icon exe args) ((s.onFileAdded key link icon exe args).1, {}) := by
  cases held : s.contents key with
  | none =>
      obtain ⟨ok, after⟩ := @onFileAdded_absent s key link icon exe args held
      simp [Answers, ok, after, held]
  | some d =>
      rw [onFileAdded_present held]
      by_cases same : d = strings link icon exe args
      · subst same
        simp [Answers, held]
      · simp [Answers, held, same, e_fail_ne]

theorem answers_call (s : FileEntries) (c : DbCall) :
    Answers s.contents (call s c).2.contents c (call s c).1 := by
  cases c with
  | onFileAdded key link icon exe args => exact answers_onFileAdded s key link icon exe args
  | onFileRemoved key =>
      obtain ⟨hr, after⟩ := s.onFileRemoved_eq key
      refine ⟨?_, ?_, after⟩ <;> simp only [call, hr]
      · split <;> simp [*, e_fail_ne]
      · split <;> simp
  | findFiles key out =>
      refine ⟨rfl, fun fits => ?_⟩
      simp only [call]
      cases held : s.contents key with
      | none => simp [findFiles_absent held, e_fail_ne]
      | some d => simp [findFiles_present held (fits d held)]
  | onClose => exact ⟨rfl, contents_empty⟩

/-- The file database is a finite map. In every sequence of calls the set has one entry
an id, and each call is answered as the map of what is there answers it. -/
theorem fileEntries_refine (es : List DbCall) :
    contents ∅ = (fun _ => none) ∧
    ∀ t ∈ transitions call ∅ es,
      (t.after.toList.map (·.fileId)).Nodup ∧ {key | contents t.after key ≠ none}.Finite ∧
        Answers (contents t.before) (contents t.after) t.input t.output := by
  refine ⟨contents_empty, fun t mem => ⟨KeyedSet.nodup_keys _, finite_contents _, ?_⟩⟩
  rw [(taken_of_mem mem).eq_take]
  exact answers_call _ _

/-- An entry is added, asked for with a buffer for its link only, added with another link,
removed, and asked for again. -/
def addFindRemove : List DbCall :=
  [.onFileAdded [1] (some [2]) none none none, .findFiles [1] { linkFilePath := some ⟨4, [9]⟩ },
    .onFileAdded [1] (some [3]) none none none, .onFileRemoved [1],
    .findFiles [1] { linkFilePath := some ⟨4, [9]⟩ }]

theorem fileEntries_refine_addFindRemove :
    (∀ t ∈ transitions call ∅ addFindRemove,
      Answers (contents t.before) (contents t.after) t.input t.output) ∧
    (transitions call ∅ addFindRemove).map (·.output) =
      [(S_OK, {}), (S_OK, { linkFilePath := some ⟨4, [2]⟩ }), (E_FAIL, {}), (S_OK, {}),
        (E_FAIL, { linkFilePath := some ⟨4, []⟩ })] :=
  ⟨fun t mem => ((fileEntries_refine addFindRemove).2 t mem).2.2, by decide⟩

/-! ### The map that the client is modelled over -/

/-- The set and the tree map hold the same. -/
def Agrees (s : FileEntries) (db : FileDB) : Prop := ∀ key : WStr, s.contents key = db[key]?

variable {db : FileDB}

theorem agrees_empty : Agrees ∅ {} := fun _ => Std.TreeMap.getElem?_emptyc.symm

theorem onFileAdded_agrees (agrees : Agrees s db) :
    (s.onFileAdded key link icon exe args).1 = (db.onFileAdded key link icon exe args).1 ∧
      Agrees (s.onFileAdded key link icon exe args).2
        (db.onFileAdded key link icon exe args).2 := by
  have there := agrees key
  cases held : s.contents key with
  | none =>
      obtain ⟨ok, after⟩ := @onFileAdded_absent s key link icon exe args held
      rw [held] at there
      have new : key ∉ db := by
        rw [Std.TreeMap.mem_iff_isSome_getElem?, ← there]
        exact Bool.false_ne_true
      rw [ok]
      refine ⟨by simp only [FileDB.onFileAdded, ← there], fun k => ?_⟩
      rw [after, Function.update_apply]
      simp only [FileDB.onFileAdded, ← there, Std.TreeMap.getElem?_insertIfNew, new,
        not_false_eq_true, and_true, Std.LawfulEqCmp.compare_eq_iff_eq, @eq_comm _ key]
      split
      · rfl
      · exact agrees k
  | some d =>
      rw [held] at there
      have old : key ∈ db := by
        rw [Std.TreeMap.mem_iff_isSome_getElem?, ← there]
        rfl
      rw [onFileAdded_present held]
      refine ⟨by simp only [FileDB.onFileAdded, ← there]; rfl, fun k => ?_⟩
      simp only [FileDB.onFileAdded, ← there, Std.TreeMap.getElem?_insertIfNew, old, not_true,
        and_false, if_false]
      exact agrees k

theorem onFileRemoved_agrees (agrees : Agrees s db) :
    (s.onFileRemoved key).1 = (db.onFileRemoved key).1 ∧
      Agrees (s.onFileRemoved key).2 (db.onFileRemoved key).2 := by
  obtain ⟨hr, after⟩ := s.onFileRemoved_eq key
  constructor
  · rw [hr, agrees key, FileDB.onFileRemoved]
    cases db[key]? <;> rfl
  · intro k
    rw [after, Function.update_apply, FileDB.getElem?_onFileRemoved]
    split
    · rfl
    · exact agrees k

theorem wcscpyS_eq (dst : Option OutBuffer) (src : WStr) :
    wcscpyS (dst.map (·.blank)) src =
      match FileDB.copyOut (dst.map (·.size)) src with
      | some out => (true, dst.map fun b => { b with string := out })
      | none => (false, dst.map (·.blank)) := by
  cases dst with
  | none => rfl
  | some b =>
      simp only [wcscpyS, FileDB.copyOut, Option.map_some, OutBuffer.blank]
      split <;> rfl

theorem string_map (dst : Option OutBuffer) {src out : WStr}
    (copied : FileDB.copyOut (dst.map (·.size)) src = some out) :
    ((dst.map fun b => { b with string := out }).map (·.string)).getD [] = out := by
  cases dst with
  | none => exact Option.some.inj copied
  | some b => rfl

theorem string_blank (dst : Option OutBuffer) :
    ((dst.map (·.blank)).map (·.string)).getD [] = [] := by
  cases dst <;> rfl

/-- `FindFiles` of both returns the same and leaves the same strings in the buffers,
whether these are large enough or not. -/
theorem findFiles_agrees (agrees : Agrees s db) (out : OutBuffers) :
    (s.findFiles key out).1 = (db.findFiles key out.sizes).1 ∧
      (s.findFiles key out).2.entry = (db.findFiles key out.sizes).2 := by
  have there := agrees key
  cases held : s.contents key with
  | none =>
      rw [held] at there
      rw [findFiles_absent held, FileDB.findFiles, ← there]
      exact ⟨rfl, by simp only [OutBuffers.entry, OutBuffers.blank, string_blank]⟩
  | some d =>
      rw [held] at there
      simp only [findFiles, contents_eq_some.mp held, FileDB.findFiles, ← there,
        OutBuffers.blank, OutBuffers.sizes, wcscpyS_eq]
      cases link : FileDB.copyOut (out.linkFilePath.map (·.size)) d.linkFilePath with
      | none => exact ⟨rfl, by simp only [OutBuffers.entry, string_blank]⟩
      | some l =>
      cases icon : FileDB.copyOut (out.iconFilePath.map (·.size)) d.iconFilePath with
      | none => exact ⟨rfl, by simp only [OutBuffers.entry, string_blank, string_map _ link]⟩
      | some i =>
      cases exe : FileDB.copyOut (out.exeFilePath.map (·.size)) d.exeFilePath with
      | none =>
          exact ⟨rfl, by
            simp only [OutBuffers.entry, string_blank, string_map _ link, string_map _ icon]⟩
      | some x =>
      cases args : FileDB.copyOut (out.exeFileArgs.map (·.size)) d.exeFileArgs with
      | none =>
          exact ⟨rfl, by
            simp only [OutBuffers.entry, string_blank, string_map _ link, string_map _ icon,
              string_map _ exe]⟩
      | some a =>
          exact ⟨rfl, by
            simp only [OutBuffers.entry, string_map _ link, string_map _ icon, string_map _ exe,
              string_map _ args]⟩

end FileEntries

end Wslg.Client
