/-
A small Windows to run the client on.

`Disk` is a file system in two lists, changed by nothing but the client's own
calls; a shortcut is a file that stores an icon location. Every other question has
one fixed answer. It serves as the machine on which hypotheses about an `Os` are
shown to have an instance and on which runs are evaluated. The PDUs of such runs
are written out in bytes.
-/

import Wslg.Client.Dispatch

namespace Wslg.Client

open Wslg.LittleEndian Wslg.Protocol

/-- Files with the icon location each one stores, and folders. -/
structure Disk where
  files : List (WStr × WStr) := []
  folders : List WStr := []
deriving DecidableEq

/-- `p` is a path below the folder `dir`, as strings. -/
def Below (dir p : WStr) : Prop := dir ++ [backslash] <+: p

instance (dir p : WStr) : Decidable (Below dir p) := inferInstanceAs (Decidable (_ <+: _))

theorem Below.of_name (path : WStr) (name : FileName) : Below path (below path name) :=
  ⟨name.chars, by rw [below, List.append_assoc, List.singleton_append]⟩

theorem Below.trans {p q r : WStr} (first : Below p q) (second : Below q r) : Below p r :=
  List.IsPrefix.trans first ((List.prefix_append _ _).trans second)

namespace Disk

/-- The name of `p` when it stands directly in the folder `dir`. -/
def nameIn (dir p : WStr) : Option FileName :=
  let chars := p.drop (dir.length + 1)
  if plain : (chars.all fun c => c ≠ 0 ∧ windowsPath.sep c = false) = true then
    if Below dir p then some ⟨chars, by simpa using plain⟩ else none
  else none

/-- The tree below a folder, to a depth. -/
def listing (d : Disk) : Nat → WStr → Listing
  | 0, _ => .done
  | depth + 1, dir =>
      (d.folders.filterMap (nameIn dir)).foldr
        (fun name rest => .dir name (d.listing depth (below dir name)) rest)
        ((d.files.filterMap fun f => nameIn dir f.1).foldr .file .done)

/-- A file is there, by whatever was written to it. -/
def write (d : Disk) (path icon : WStr) : Disk :=
  { d with files := (path, icon) :: d.files.filter (·.1 ≠ path) }

def isEmpty (d : Disk) (dir : WStr) : Bool :=
  (d.files.map (·.1) ++ d.folders).all fun p => ¬ Below dir p

end Disk

/-- The calls of the client on a `Disk`. -/
def diskOs : Os Disk where
  localAlloc _ _ := true
  createFileDB _ := .ok ()
  clsidFromString _ _ _ := (.ok (), { data1 := 1 })
  knownFolderStartMenu _ := some (wide "M")
  getTempPathW _ _ _ := (2, wide "T\\")
  regOpenKeyExW _ := .ok ()
  regGetValueW _ _ := (.ok (), wide "W")
  expandEnvironmentStringsW _ _ := (true, wide "D")
  languageName _ := some [0x65, 0x6E]
  countryName _ := some [0x55, 0x53]
  createDirectoryW path d :=
    if path ∈ d.folders then (.alreadyExists, d)
    else (.created, { d with folders := path :: d.folders })
  pathIsDirectoryEmptyW d dir := d.isEmpty dir
  removeDirectory dir d :=
    if d.isEmpty dir then (true, { d with folders := d.folders.filter (· ≠ dir) }) else (false, d)
  deleteFileW path d := (d.files.any (·.1 = path), { d with files := d.files.filter (·.1 ≠ path) })
  createFileW path d := (true, d.write path [])
  writeFile _ _ d := (true, d)
  saveShellLink path link d := (.ok (), d.write path (link.iconLocation.getD []))
  loadIconLocation d path :=
    match d.files.find? (·.1 = path) with
    | some f => .ok f.2
    | none => .error E_FAIL
  listing d dir := d.listing (d.folders.length + 1) dir
  channelWrite _ d := (.ok (), d)
  enumWindows _ d := d

/-! ### PDUs -/

/-- A string of a PDU. -/
def pduText (s : String) : List BYTE :=
  word16 (UInt16.ofNat (bytes (wide s)).length) ++ bytes (wide s)

/-- The body of a CAPS of version 4. -/
def capsBody (name : String) : Cursor := .of (word16 4 ++ (pduText name ++ pduText "id"))

def caps (name : String) : Event Disk := .pdu cmdIdCaps (capsBody name)

/-- An update with nothing but its required fields. -/
def update (hints : UInt32) (id desc : String) : Event Disk :=
  .pdu cmdIdUpdateAppList (.of (word32 (fieldId ||| fieldExecPath ||| fieldDesc ||| hints) ++
    (pduText id ++ (pduText "x" ++ pduText desc))))

end Wslg.Client
