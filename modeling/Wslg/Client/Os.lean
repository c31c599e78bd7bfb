/-
What the client asks of Windows.

`Os ω` collects the calls the plug-in makes outside itself, over an unknown
state `ω` of the machine. A query reads the state, an operation also changes it;
what they answer is arbitrary, so a fact about every `Os` is a fact about every
outcome of every call. The walk of a folder is answered by a finite tree
(`Listing`): the answers of `FindFirstFile` and `FindNextFile`, with those of the
folders walked inside it.

A result about a file system names what it relies on as hypotheses about an
`Os`; none is built in.
-/

import Wslg.Client.FileDB
import Wslg.Lexical.Path

namespace Wslg.Client

open Wslg.Protocol

/-! ### Characters and paths -/

def backslash : WCHAR := 0x5C
def slash : WCHAR := 0x2F
def dot : WCHAR := 0x2E
def space : WCHAR := 0x20
def quote : WCHAR := 0x22

/-- How Windows reads a path: either slash separates. -/
def windowsPath : Lexical.PathSyntax WCHAR where
  sep c := c = backslash ∨ c = slash
  dot := dot
  dot_not_sep := by decide

/-- `MAX_PATH`. -/
def maxPath : Nat := 260

/-- `wcsstr(s, pattern) != NULL`. -/
def wcsstr (s pattern : WStr) : Bool := decide (pattern <:+: s)

/-- `PathFindExtensionW`: from the last dot on, unless a space or a backslash
follows it. -/
def pathFindExtensionW : WStr → WStr
  | [] => []
  | c :: cs =>
      if pathFindExtensionW cs ≠ [] then pathFindExtensionW cs
      else if c = dot ∧ cs.all fun d => d ≠ space ∧ d ≠ backslash then c :: cs
      else []

/-- A name in a folder. -/
structure FileName where
  chars : WStr
  plain : ∀ c ∈ chars, c ≠ 0 ∧ windowsPath.sep c = false
deriving DecidableEq

/-- Text without separators, checked character by character. -/
theorem noSep_of_all {text : WStr} (all : (text.all fun c => ¬ windowsPath.sep c) = true) :
    ∀ c ∈ text, windowsPath.sep c = false := by
  simpa using all

/-- The path of an entry: the folder's path, a backslash and the name. -/
def below (path : WStr) (name : FileName) : WStr := path ++ backslash :: name.chars

/-- What the walk of a folder is told: its entries in order, a folder with its
own. -/
inductive Listing where
  | done
  | file (name : FileName) (rest : Listing)
  | dir (name : FileName) (sub : Listing) (rest : Listing)
deriving DecidableEq

/-! ### The calls -/

/-- `GUID`. -/
structure GUID where
  data1 : UInt32 := 0
  data2 : UInt16 := 0
  data3 : UInt16 := 0
  data4 : List BYTE := List.replicate 8 0
deriving DecidableEq

/-- `CreateDirectoryW`, with the one error the code tells from others. -/
inductive DirectoryResult where
  | created
  | alreadyExists
  | failed
deriving DecidableEq

/-- What a shell link is saved with. -/
structure ShellLink where
  pathObj : WStr
  args : WStr
  workingDir : WStr
  desc : WStr
  iconLocation : Option WStr
deriving DecidableEq

/-- `WslgWindowData` as `EnumWindows` passes it on. -/
structure WslgWindowData where
  windowId : UInt64
  displayName : Option WStr
  relaunchCommandline : Option WStr
  iconPath : Option WStr
deriving DecidableEq

/-- The calls the client makes. A failure of an `HRESULT` call is its code; a call
that fills a buffer also tells what the buffer holds then. -/
structure Os (ω : Type) where
  localAlloc : ω → UInt32 → Bool
  createFileDB : ω → Except HRESULT Unit
  clsidFromString : ω → WStr → GUID → Except HRESULT Unit × GUID
  knownFolderStartMenu : ω → Option WStr
  getTempPathW : ω → Nat → WStr → Nat × WStr
  regOpenKeyExW : ω → Except HRESULT Unit
  regGetValueW : ω → WStr → Except HRESULT Unit × WStr
  expandEnvironmentStringsW : ω → WStr → Bool × WStr
  languageName : ω → Option (List BYTE)
  countryName : ω → Option (List BYTE)
  createDirectoryW : WStr → ω → DirectoryResult × ω
  pathIsDirectoryEmptyW : ω → WStr → Bool
  removeDirectory : WStr → ω → Bool × ω
  deleteFileW : WStr → ω → Bool × ω
  createFileW : WStr → ω → Bool × ω
  writeFile : WStr → List BYTE → ω → Bool × ω
  saveShellLink : WStr → ShellLink → ω → Except HRESULT Unit × ω
  loadIconLocation : ω → WStr → Except HRESULT WStr
  listing : ω → WStr → Listing
  channelWrite : List BYTE → ω → Except HRESULT Unit × ω
  enumWindows : WslgWindowData → ω → ω

/-- A call on a state that has something else next to it. -/
def onFirst {ω α β : Type} (op : ω → α × ω) (w : ω × β) : α × ω × β :=
  ((op w.1).1, (op w.1).2, w.2)

/-- The calls the client makes, none of which touches what is next to Windows. -/
def Os.beside {ω : Type} (os : Os ω) (β : Type) : Os (ω × β) where
  localAlloc w := os.localAlloc w.1
  createFileDB w := os.createFileDB w.1
  clsidFromString w := os.clsidFromString w.1
  knownFolderStartMenu w := os.knownFolderStartMenu w.1
  getTempPathW w := os.getTempPathW w.1
  regOpenKeyExW w := os.regOpenKeyExW w.1
  regGetValueW w := os.regGetValueW w.1
  expandEnvironmentStringsW w := os.expandEnvironmentStringsW w.1
  languageName w := os.languageName w.1
  countryName w := os.countryName w.1
  createDirectoryW path := onFirst (os.createDirectoryW path)
  pathIsDirectoryEmptyW w := os.pathIsDirectoryEmptyW w.1
  removeDirectory path := onFirst (os.removeDirectory path)
  deleteFileW path := onFirst (os.deleteFileW path)
  createFileW path := onFirst (os.createFileW path)
  writeFile path bytes := onFirst (os.writeFile path bytes)
  saveShellLink path link := onFirst (os.saveShellLink path link)
  loadIconLocation w := os.loadIconLocation w.1
  listing w := os.listing w.1
  channelWrite bytes := onFirst (os.channelWrite bytes)
  enumWindows data w := (os.enumWindows data w.1, w.2)

end Wslg.Client
