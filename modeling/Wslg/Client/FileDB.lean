/-
The file database: `WSLDVCFileDB.cpp` without its walk and sweep of the disk.

`m_fileEntries` is a `std::set` ordered by the id of its entries, so an id is
there at most once and a second insertion under an id changes nothing. It is a
tree map here from ids to the other four strings of an entry; iteration is in
the order of the ids.
-/

import Wslg.Client.Reader

namespace Wslg.Client

open Wslg.Protocol

def S_OK : HRESULT := 0

/-- `SUCCEEDED(hr)`. -/
def succeeded (hr : HRESULT) : Bool := hr < 0x80000000

/-- The members of a `fileEntry` besides its id. -/
structure FileEntry where
  linkFilePath : WStr := []
  iconFilePath : WStr := []
  exeFilePath : WStr := []
  exeFileArgs : WStr := []
deriving DecidableEq

/-- `m_fileEntries`. -/
abbrev FileDB := Std.TreeMap WStr FileEntry

namespace FileDB

/-- The ids in the order of iteration. -/
abbrev fileIds (db : FileDB) : List WStr := db.keys

/-- `m_fileEntries.insert(fileEntry(fileId))`. -/
def insertFileId (db : FileDB) (fileId : WStr) : FileDB := db.insertIfNew fileId {}

/-- `OnFileAdded`; a null argument counts as the empty string. -/
def onFileAdded (db : FileDB) (key : WStr)
    (linkFilePath iconFilePath exeFilePath exeFileArgs : Option WStr) : HRESULT × FileDB :=
  let entry : FileEntry :=
    ⟨linkFilePath.getD [], iconFilePath.getD [], exeFilePath.getD [], exeFileArgs.getD []⟩
  match db[key]? with
  | none => (S_OK, db.insertIfNew key entry)
  | some present => (if present = entry then S_OK else E_FAIL, db.insertIfNew key entry)

def onFileRemoved (db : FileDB) (key : WStr) : HRESULT × FileDB :=
  match db[key]? with
  | none => (E_FAIL, db)
  | some _ => (S_OK, db.erase key)

/-- The sizes of the buffers handed to `FindFiles`, `none` for a null pointer. -/
structure FindBuffers where
  linkFilePath : Option Nat := none
  iconFilePath : Option Nat := none
  exeFilePath : Option Nat := none
  exeFileArgs : Option Nat := none

/-- `wcscpy_s` into a buffer that may not be there; no result when `src` does not
fit. -/
def copyOut (size : Option Nat) (src : WStr) : Option WStr :=
  match size with
  | none => some []
  | some n => if src.length < n then some src else none

/-- `FindFiles`: what it returns and what is in the buffers then. -/
def findFiles (db : FileDB) (key : WStr) (size : FindBuffers) : HRESULT × FileEntry :=
  match db[key]? with
  | none => (E_FAIL, {})
  | some e =>
      match copyOut size.linkFilePath e.linkFilePath with
      | none => (E_FAIL, {})
      | some link =>
          match copyOut size.iconFilePath e.iconFilePath with
          | none => (E_FAIL, { linkFilePath := link })
          | some icon =>
              match copyOut size.exeFilePath e.exeFilePath with
              | none => (E_FAIL, { linkFilePath := link, iconFilePath := icon })
              | some exe =>
                  match copyOut size.exeFileArgs e.exeFileArgs with
                  | none =>
                      (E_FAIL,
                        { linkFilePath := link, iconFilePath := icon, exeFilePath := exe })
                  | some args => (S_OK, ⟨link, icon, exe, args⟩)

/-! ### Which ids are there -/

variable {db : FileDB} {key k : WStr}

theorem mem_fileIds : k ∈ db.fileIds ↔ ∃ e, db[k]? = some e := by
  rw [Std.TreeMap.mem_keys, Std.TreeMap.mem_iff_isSome_getElem?, Option.isSome_iff_exists]

theorem nodup_fileIds (db : FileDB) : db.fileIds.Nodup := Std.TreeMap.nodup_keys

theorem mem_fileIds_insertFileId :
    k ∈ (db.insertFileId key).fileIds ↔ k = key ∨ k ∈ db.fileIds := by
  rw [Std.TreeMap.mem_keys, Std.TreeMap.mem_keys, insertFileId, Std.TreeMap.mem_insertIfNew,
    Std.LawfulEqCmp.compare_eq_iff_eq, eq_comm]

/-- Removing an id takes it away if it was there, and nothing else. -/
theorem mem_fileIds_onFileRemoved :
    k ∈ (db.onFileRemoved key).2.fileIds ↔ k ≠ key ∧ k ∈ db.fileIds := by
  cases entry : db[key]? with
  | none =>
      have absent : key ∉ db.fileIds := fun mem => by
        obtain ⟨e, found⟩ := mem_fileIds.mp mem
        rw [entry] at found
        cases found
      simp only [onFileRemoved, entry]
      exact ⟨fun mem => ⟨fun same => absent (same ▸ mem), mem⟩, And.right⟩
  | some e =>
      simp only [onFileRemoved, entry]
      rw [Std.TreeMap.mem_keys, Std.TreeMap.mem_keys, Std.TreeMap.mem_erase, ne_eq,
        Std.LawfulEqCmp.compare_eq_iff_eq, eq_comm, ne_eq]

/-! ### Which entries are there -/

theorem getElem?_insertIfNew_cases {e e' : FileEntry}
    (found : (db.insertIfNew key e)[k]? = some e') : db[k]? = some e' ∨ (k = key ∧ e' = e) := by
  rw [Std.TreeMap.getElem?_insertIfNew] at found
  split at found
  · rename_i new
    rw [Std.LawfulEqCmp.compare_eq_iff_eq] at new
    exact Or.inr ⟨new.1.symm, (Option.some.inj found).symm⟩
  · exact Or.inl found

/-- An entry present after `OnFileAdded` was there before or is the one added. -/
theorem entry_of_onFileAdded {link icon exe args : WStr} {e : FileEntry}
    (found : (db.onFileAdded key (some link) (some icon) (some exe) (some args)).2[k]? = some e) :
    db[k]? = some e ∨ e = ⟨link, icon, exe, args⟩ := by
  rw [onFileAdded] at found
  split at found <;>
    rcases getElem?_insertIfNew_cases found with old | ⟨-, new⟩
  · exact Or.inl old
  · exact Or.inr new
  · exact Or.inl old
  · exact Or.inr new

/-- `std::set` keeps what it has: inserting a key again is no change at all. -/
theorem insertIfNew_of_mem {e : FileEntry} (there : key ∈ db) : db.insertIfNew key e = db := by
  obtain ⟨⟨entries, ordered⟩⟩ := db
  have contained : entries.contains key = true := there
  simp [Std.TreeMap.insertIfNew, Std.DTreeMap.insertIfNew,
    Std.DTreeMap.Internal.Impl.insertIfNew, contained]

/-- `OnFileAdded` that fails, on a key that is there with other strings, leaves the very
same database. -/
theorem onFileAdded_failed {link icon exe args : Option WStr}
    (failed : succeeded (db.onFileAdded key link icon exe args).1 = false) :
    (db.onFileAdded key link icon exe args).2 = db := by
  rw [onFileAdded] at failed ⊢
  split at failed
  · exact absurd failed (show ¬ succeeded S_OK = false by decide)
  · rename_i present entry
    apply insertIfNew_of_mem
    rw [Std.TreeMap.mem_iff_isSome_getElem?, entry]
    rfl

theorem entry_of_onFileRemoved {e : FileEntry}
    (found : (db.onFileRemoved key).2[k]? = some e) : db[k]? = some e := by
  rw [onFileRemoved] at found
  split at found
  · exact found
  · rw [Std.TreeMap.getElem?_erase] at found
    split at found
    · cases found
    · exact found

/-- `OnFileAdded` on a key that is not there. -/
theorem onFileAdded_new {link icon exe args : WStr} (absent : db[key]? = none) (k : WStr) :
    (db.onFileAdded key (some link) (some icon) (some exe) (some args)).2[k]? =
      if k = key then some ⟨link, icon, exe, args⟩ else db[k]? := by
  have new : key ∉ db := by
    rw [Std.TreeMap.mem_iff_isSome_getElem?, absent]
    exact Bool.false_ne_true
  simp only [onFileAdded, absent, Std.TreeMap.getElem?_insertIfNew,
    Std.LawfulEqCmp.compare_eq_iff_eq]
  by_cases same : k = key
  · rw [if_pos same, if_pos ⟨same.symm, new⟩]
    rfl
  · rw [if_neg same, if_neg fun h => same h.1.symm]

/-- `OnFileAdded` on a key that is there keeps the entry, and succeeds if it is the
same. -/
theorem onFileAdded_present {link icon exe args : WStr} {e : FileEntry}
    (present : db[key]? = some e) :
    (∀ k : WStr, (db.onFileAdded key (some link) (some icon) (some exe) (some args)).2[k]? =
      db[k]?) ∧
    (succeeded (db.onFileAdded key (some link) (some icon) (some exe) (some args)).1 = true →
      e = ⟨link, icon, exe, args⟩) := by
  have there : key ∈ db := by
    rw [Std.TreeMap.mem_iff_isSome_getElem?, present]
    rfl
  simp only [onFileAdded, present]
  constructor
  · intro k
    rw [Std.TreeMap.getElem?_insertIfNew, if_neg fun new => new.2 there]
  · intro ok
    split at ok
    · rename_i same
      exact same
    · exact absurd ok (by decide)

theorem getElem?_onFileRemoved (k : WStr) :
    (db.onFileRemoved key).2[k]? = if k = key then none else db[k]? := by
  rw [onFileRemoved]
  split
  · rename_i absent
    split
    · rename_i same
      rw [same, absent]
    · rfl
  · rw [Std.TreeMap.getElem?_erase]
    by_cases same : k = key
    · rw [if_pos same, if_pos (Std.LawfulEqCmp.compare_eq_iff_eq.mpr same.symm)]
    · rw [if_neg same, if_neg fun h => same (Std.LawfulEqCmp.compare_eq_iff_eq.mp h).symm]

/-- A buffer that is filled has the whole string. -/
theorem eq_of_copyOut {n : Nat} {src out : WStr} (copied : copyOut (some n) src = some out) :
    out = src := by
  simp only [copyOut] at copied
  split at copied
  · exact (Option.some.inj copied).symm
  · cases copied

/-- `FindFiles` that returns `S_OK` copied an entry's strings. -/
theorem entry_of_findFiles {size : FindBuffers} (found : (db.findFiles key size).1 = S_OK) :
    ∃ e, db[key]? = some e ∧
      copyOut size.linkFilePath e.linkFilePath = some (db.findFiles key size).2.linkFilePath ∧
      copyOut size.iconFilePath e.iconFilePath = some (db.findFiles key size).2.iconFilePath := by
  have failed : E_FAIL ≠ S_OK := by decide
  rw [findFiles] at found ⊢
  split at found
  · exact absurd found failed
  rename_i e entry
  simp only [entry]
  refine ⟨e, rfl, ?_⟩
  cases link : copyOut size.linkFilePath e.linkFilePath with
  | none => simp only [link] at found; exact absurd found failed
  | some l =>
      cases icon : copyOut size.iconFilePath e.iconFilePath with
      | none => simp only [link, icon] at found; exact absurd found failed
      | some i =>
          cases exe : copyOut size.exeFilePath e.exeFilePath with
          | none => exact ⟨rfl, rfl⟩
          | some x => cases args : copyOut size.exeFileArgs e.exeFileArgs <;> exact ⟨rfl, rfl⟩

/-- With buffers for both paths they are those of the entry. -/
theorem entry_of_findFiles_both {size : FindBuffers} {n i : Nat}
    (link : size.linkFilePath = some n) (icon : size.iconFilePath = some i)
    (found : (db.findFiles key size).1 = S_OK) :
    ∃ e, db[key]? = some e ∧ (db.findFiles key size).2.linkFilePath = e.linkFilePath ∧
      (db.findFiles key size).2.iconFilePath = e.iconFilePath := by
  obtain ⟨e, entry, copiedLink, copiedIcon⟩ := entry_of_findFiles found
  rw [link] at copiedLink
  rw [icon] at copiedIcon
  exact ⟨e, entry, eq_of_copyOut copiedLink, eq_of_copyOut copiedIcon⟩

end FileDB

end Wslg.Client
