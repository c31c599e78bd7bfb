/-
Sync mode: `OnSyncStart`, `OnSyncEnd`, and the walk and the sweep of
`WSLDVCFileDB.cpp`.

At the start `m_spFileDBSync` is filled with the shortcuts found below the menu
path and the icon files they point to; while it is set, a reported application
takes its files out of it; at the end what is left is deleted. Both loops work on
the database while they change the disk: the walk removes folders it finds empty,
the sweep removes the folder of a file it deleted when that leaves it empty.
-/

import Wslg.Client.Machine

namespace Wslg.Client

open Wslg.Protocol Wslg.StateExcept

variable {ω : Type}

/-! ### The sync database and the disk -/

/-- A call on `m_spFileDBSync`, which must not be null. -/
def withSync (f : FileDB → FileDB) : Handler ω Unit :=
  members >>= fun cb =>
  match cb.spFileDBSync with
  | some db => setMembers fun cb => { cb with spFileDBSync := some (f db) }
  | none => violate

/-- `PathIsDirectoryEmptyW`. -/
def isEmptyDirectory (os : Os ω) (path : WStr) : Handler ω Bool :=
  query fun w => os.pathIsDirectoryEmptyW w path

/-- `RemoveDirectory`, whose failure is only reported. -/
def removeDirectory (os : Os ω) (caller : Caller) (path : WStr) : Handler ω Unit :=
  record (.removeDirectory caller path) >>= fun _ =>
  perform (os.removeDirectory path) >>= fun _ => pure ()

/-- `DeleteFileW`. -/
def deleteFile (os : Os ω) (caller : Caller) (path : WStr) : Handler ω Bool :=
  record (.deleteFile caller path) >>= fun _ => perform (os.deleteFileW path)

section Blind

variable {R : Machine ω → Machine ω → Prop}

theorem guarantees_withSync [Std.Refl R] {g : FileDB → FileDB}
    (ignored : ∀ m db, R m { m with cb := { m.cb with spFileDBSync := db } }) :
    Guarantees R (withSync g) := by
  intro m
  rw [withSync, members_bind]
  cases h : m.cb.spFileDBSync with
  | none => exact Std.Refl.refl m
  | some db => exact ignored m (some (g db))

variable [IsTrans (Machine ω) R] [Blind R]

theorem guarantees_deleteFile (os : Os ω) (caller : Caller) (path : WStr) :
    Guarantees R (deleteFile os caller path) :=
  (guarantees_record _).bind fun _ => guarantees_perform _

theorem guarantees_removeDirectory [Std.Refl R] (os : Os ω) (caller : Caller) (path : WStr) :
    Guarantees R (removeDirectory os caller path) :=
  (guarantees_record _).bind fun _ => (guarantees_perform _).bind fun _ => Guarantees.pure _

end Blind

/-! ### The walk -/

/-- `OnLnkFileAdded`. -/
def onLnkFileAdded (os : Os ω) (lnkFile : WStr) : Handler ω Unit :=
  withSync (·.insertFileId lnkFile) >>= fun _ =>
  getIconFileFromShellLink os lnkFile >>= fun icon =>
  match icon with
  | some iconFile => withSync (·.insertFileId iconFile)
  | none => pure ()

def lnkExtension : WStr := wide ".lnk"

/-- A folder entry that is not a folder of its own. -/
def FileName.isSpecial (name : FileName) : Bool := name.chars = [dot] ∨ name.chars = [dot, dot]

/-- `addAllSubFolderFiles(path)`, the answers of the enumeration being given. -/
def addAllSubFolderFiles (os : Os ω) : Listing → WStr → Handler ω Unit
  | .done, _ => pure ()
  | .file name rest, path =>
      (if pathFindExtensionW name.chars = lnkExtension then onLnkFileAdded os (below path name)
        else pure ()) >>= fun _ =>
      addAllSubFolderFiles os rest path
  | .dir name sub rest, path =>
      (if name.isSpecial then pure ()
        else
          isEmptyDirectory os (below path name) >>= fun empty =>
          if empty then removeDirectory os .addAllSubFolderFiles (below path name)
          else addAllSubFolderFiles os sub (below path name)) >>= fun _ =>
      addAllSubFolderFiles os rest path

/-- `addAllFilesAsFileIdAt`. -/
def addAllFilesAsFileIdAt (os : Os ω) (path : WStr) : Handler ω Unit :=
  query (fun w => os.listing w path) >>= fun entries => addAllSubFolderFiles os entries path

/-! ### The sweep -/

/-- What stands before the last backslash: `substr(0, find_last_of(L"\\"))`. -/
def parentFolder (path : WStr) : Option WStr :=
  match path.reverse.dropWhile (· ≠ backslash) with
  | [] => none
  | _ :: front => some front.reverse

/-- The parent folder of a deleted file goes with it when it is empty now. -/
def removeParent (os : Os ω) (fileId : WStr) : Handler ω Unit :=
  match parentFolder fileId with
  | none => pure ()
  | some dir =>
      isEmptyDirectory os dir >>= fun empty =>
      if empty then removeDirectory os .deleteAllFileIdFiles dir else pure ()

/-- One turn of the loop of `deleteAllFileIdFiles`. -/
def deleteFileId (os : Os ω) (fileId : WStr) : Handler ω Unit :=
  deleteFile os .deleteAllFileIdFiles fileId >>= fun deleted =>
  (if deleted then removeParent os fileId else pure ()) >>= fun _ =>
  withSync fun db => db.erase fileId

def deleteFileIds (os : Os ω) : List WStr → Handler ω Unit
  | [] => pure ()
  | fileId :: rest => deleteFileId os fileId >>= fun _ => deleteFileIds os rest

/-- `deleteAllFileIdFiles`: the loop erases what it has handled, so it visits the
ids that were there at its start. -/
def deleteAllFileIdFiles (os : Os ω) : Handler ω Unit :=
  members >>= fun cb =>
  match cb.spFileDBSync with
  | some db => deleteFileIds os db.fileIds
  | none => violate

/-! ### Start and end -/

def onSyncStart (os : Os ω) : Handler ω Unit :=
  members >>= fun cb =>
  require (cb.spFileDBSync.isNone = true) >>= fun _ =>
  query os.createFileDB >>= fun created =>
  check created >>= fun _ =>
  setMembers (fun cb => { cb with spFileDBSync := some ∅ }) >>= fun _ =>
  addAllFilesAsFileIdAt os cb.appMenuPath

/-- `OnSyncEnd(cleanupFiles)`. -/
def onSyncEnd (os : Os ω) (cleanupFiles : Bool) : Handler ω Unit :=
  members >>= fun cb =>
  if cb.spFileDBSync.isSome then
    (if cleanupFiles then deleteAllFileIdFiles os else pure ()) >>= fun _ =>
    setMembers fun cb => { cb with spFileDBSync := none }
  else pure ()

/-- A sync that is not cleaned up is dropped as it is. -/
theorem onSyncEnd_false (os : Os ω) (m : Machine ω) :
    onSyncEnd os false m = .ok () { m with cb := { m.cb with spFileDBSync := none } } := by
  cases sync : m.cb.spFileDBSync with
  | some db => simp [onSyncEnd, sync, setMembers]
  | none =>
      obtain ⟨⟨fileDB, sync_⟩, heap, world, log⟩ := m
      cases sync
      rfl

/-! ### What a sync leaves alone -/

section Blind

variable {R : Machine ω → Machine ω → Prop} [Std.Refl R] [IsTrans (Machine ω) R] [Blind R]
  (ignored : ∀ m db, R m { m with cb := { m.cb with spFileDBSync := db } })

include ignored

theorem guarantees_onLnkFileAdded (os : Os ω) (lnkFile : WStr) :
    Guarantees R (onLnkFileAdded os lnkFile) := by
  refine (guarantees_withSync ignored).bind fun _ =>
    (guarantees_getIconFileFromShellLink os lnkFile).bind fun icon => ?_
  cases icon with
  | none => exact Guarantees.pure _
  | some iconFile => exact guarantees_withSync ignored

theorem guarantees_addAllSubFolderFiles (os : Os ω) (entries : Listing) (path : WStr) :
    Guarantees R (addAllSubFolderFiles os entries path) := by
  induction entries generalizing path with
  | done => exact Guarantees.pure _
  | file name rest ih =>
      exact (Guarantees.ite (guarantees_onLnkFileAdded ignored os _) (Guarantees.pure _)).bind
        fun _ => ih path
  | dir name sub rest ihSub ih =>
      exact (Guarantees.ite (Guarantees.pure _)
        ((guarantees_query _).bind fun _ =>
          Guarantees.ite (guarantees_removeDirectory os _ _) (ihSub _))).bind fun _ => ih path

theorem guarantees_onSyncStart (os : Os ω) : Guarantees R (onSyncStart os) :=
  guarantees_members.bind fun _ => (guarantees_require _).bind fun _ =>
    (guarantees_query _).bind fun _ => (guarantees_check _).bind fun _ =>
      Guarantees.bind (fun m => ignored m _) fun _ =>
        (guarantees_query _).bind fun _ => guarantees_addAllSubFolderFiles ignored os _ _

theorem guarantees_deleteFileId (os : Os ω) (fileId : WStr) :
    Guarantees R (deleteFileId os fileId) := by
  have parent : Guarantees R (removeParent os fileId) := by
    rw [removeParent]
    split
    · exact Guarantees.pure _
    · exact (guarantees_query _).bind fun _ =>
        Guarantees.ite (guarantees_removeDirectory os _ _) (Guarantees.pure _)
  exact (guarantees_deleteFile os _ fileId).bind fun _ =>
    (Guarantees.ite parent (Guarantees.pure _)).bind fun _ => guarantees_withSync ignored

theorem guarantees_deleteFileIds (os : Os ω) (fileIds : List WStr) :
    Guarantees R (deleteFileIds os fileIds) := by
  induction fileIds with
  | nil => exact Guarantees.pure _
  | cons fileId rest ih => exact (guarantees_deleteFileId ignored os fileId).bind fun _ => ih

theorem guarantees_onSyncEnd (os : Os ω) (cleanupFiles : Bool) :
    Guarantees R (onSyncEnd os cleanupFiles) := by
  have sweep : Guarantees R (deleteAllFileIdFiles os) := by
    refine guarantees_members.bind fun cb => ?_
    split
    · exact guarantees_deleteFileIds ignored os _
    · exact Guarantees.throw _
  exact guarantees_members.bind fun _ => Guarantees.ite
    ((Guarantees.ite sweep (Guarantees.pure _)).bind fun _ =>
      fun m => ignored m _) (Guarantees.pure _)

end Blind

end Wslg.Client
