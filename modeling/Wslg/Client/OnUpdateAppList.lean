/-
UPDATE_APPLIST: `WSLDVCCallback::OnUpdateAppList`.

The handler reads the PDU and its icon, starts a sync if asked to, checks the
names, builds the paths of the icon and the link while creating their folders,
registers the application, writes the icon and the link, and keeps the books of
the sync. Everything from the registration on succeeds.

`linkPathOf`, `iconPathOf`, `exeArgsOf` and `keyOf` say in one piece what the
handler puts together with `wcscat_s`.
-/

import Wslg.Client.Sync

namespace Wslg.Client

open Wslg.LittleEndian Wslg.Protocol Wslg.StateExcept

variable {ω : Type}

/-! ### Reading -/

/-- `ReadAppListUpdate` into a fresh struct. -/
def readUpdateStrings (c : Cursor) : Handler ω (Cursor × UpdateAppListPdu) := fun m =>
  match readAppListUpdate {} c with
  | (.ok c', u) => .ok (c', u) m
  | (.error e, _) => .error e m

/-- `ReadAppListIconData` into a fresh struct. -/
def readUpdateIcon (os : Os ω) (c : Cursor) : Handler ω (Cursor × IconData) := fun m =>
  match readAppListIconData (os.localAlloc m.world) ⟨{}, m.heap⟩ c with
  | (.ok c', s) => .ok (c', s.icon) { m with heap := s.heap }
  | (.error e, s) => .error e { m with heap := s.heap }

/-- What the buffer read scope leaves: the cursor behind the PDU and the PDU. -/
structure UpdateRead where
  cur : Cursor
  update : UpdateAppListPdu
  icon : IconData

def readUpdate (os : Os ω) (c : Cursor) : Handler ω UpdateRead :=
  readUpdateStrings c >>= fun r =>
  if has r.2.flags fieldIcon then
    readUpdateIcon os r.1 >>= fun i => pure ⟨i.1, r.2, i.2⟩
  else pure ⟨r.1, r.2, {}⟩

/-! ### Checks -/

/-- `HINT_SYNC_START`. -/
def Asserting.startSync (assertion : Handler ω Unit) (os : Os ω) (flags : UInt32) :
    Handler ω Unit :=
  if has flags hintSyncStart then onSyncStart os >>= fun _ => assertion else pure ()

/-- `HINT_SYNC` and `HINT_SYNC_END` need sync mode. -/
def checkSyncMode (flags : UInt32) : Handler ω Unit :=
  members >>= fun cb =>
  require (has flags (hintSync ||| hintSyncEnd) = true → cb.spFileDBSync.isSome = true)

/-- No `..` and no double quote. -/
def PlainName (name : WStr) : Prop :=
  wcsstr name [dot, dot] = false ∧ wcsstr name [quote] = false

instance (name : WStr) : Decidable (PlainName name) := inferInstanceAs (Decidable (_ ∧ _))

namespace UpdateAppListPdu

/-- `updateAppList.appGroupLength` read as a condition. -/
def HasGroup (u : UpdateAppListPdu) : Prop := u.appGroup.length ≠ 0

instance (u : UpdateAppListPdu) : Decidable u.HasGroup := inferInstanceAs (Decidable (_ ≠ _))

/-- The filters on the names. -/
structure PlainNames (u : UpdateAppListPdu) : Prop where
  appGroup : u.HasGroup → PlainName u.appGroup.str
  appId : PlainName u.appId.str
  appDesc : PlainName u.appDesc.str
  appWorkingDir : wcsstr u.appWorkingDir.str [quote] = false

end UpdateAppListPdu

def checkNames (u : UpdateAppListPdu) : Handler ω Unit :=
  require (u.HasGroup → PlainName u.appGroup.str) >>= fun _ =>
  require (PlainName u.appId.str) >>= fun _ =>
  require (PlainName u.appDesc.str) >>= fun _ =>
  require (wcsstr u.appWorkingDir.str [quote] = false)

/-! ### Paths -/

/-- A folder, and in it the folder of the group if there is one: each is created
on the way. -/
def enterFolders (os : Os ω) (base : WStr) (u : UpdateAppListPdu) : Handler ω WStr :=
  wcscat [] base >>= fun path =>
  createDirectory os path >>= fun _ =>
  if u.HasGroup then
    wcscat path [backslash] >>= fun path =>
    wcscat path u.appGroup.str >>= fun path =>
    createDirectory os path >>= fun _ => pure path
  else pure path

/-- `\\`, a name and an extension behind a path. -/
def catFile (path name extension : WStr) : Handler ω WStr :=
  wcscat path [backslash] >>= fun path =>
  wcscat path name >>= fun path =>
  wcscat path extension

def icoExtension : WStr := wide ".ico"

/-- The icon path; empty when the PDU has no icon. -/
def buildIconFilePath (os : Os ω) (u : UpdateAppListPdu) : Handler ω WStr :=
  if has u.flags fieldIcon then
    members >>= fun cb =>
    enterFolders os cb.iconPath u >>= fun path =>
    catFile path u.appId.str icoExtension
  else pure []

def buildLinkPath (os : Os ω) (u : UpdateAppListPdu) : Handler ω WStr :=
  members >>= fun cb =>
  enterFolders os cb.appMenuPath u >>= fun path =>
  catFile path u.appDesc.str lnkExtension

/-- A group as a prefix of a path: `group + L"\\"`. -/
def UpdateAppListPdu.groupPrefix (u : UpdateAppListPdu) : WStr :=
  if u.HasGroup then u.appGroup.str ++ [backslash] else []

/-- The path of the shortcut of an update. -/
def linkPathOf (cb : Callback) (u : UpdateAppListPdu) : WStr :=
  cb.appMenuPath ++ backslash :: (u.groupPrefix ++ u.appDesc.str ++ lnkExtension)

/-- The path of the icon file of an update. -/
def iconPathOf (cb : Callback) (u : UpdateAppListPdu) : WStr :=
  if has u.flags fieldIcon then
    cb.iconPath ++ backslash :: (u.groupPrefix ++ u.appId.str ++ icoExtension)
  else []

/-- The arguments of `wslg.exe`. -/
def exeArgsOf (cb : Callback) (u : UpdateAppListPdu) : WStr :=
  wide "-d " ++ cb.appProvider.str ++ wide " --cd \"" ++
    (if u.appWorkingDir.length ≠ 0 then u.appWorkingDir.str else wide "~") ++
    wide "\" -- " ++ u.appExecPath.str

/-- `swprintf_s(exeArgs, …)`. -/
def buildExeArgs (u : UpdateAppListPdu) : Handler ω WStr :=
  members >>= fun cb =>
  require ((exeArgsOf cb u).length < maxPath) >>= fun _ => pure (exeArgsOf cb u)

/-- The key of an application in the database. -/
def keyOf (u : UpdateAppListPdu) : WStr := u.groupPrefix ++ u.appId.str

def buildKey (u : UpdateAppListPdu) : Handler ω WStr :=
  if u.HasGroup then
    wcscat [] u.appGroup.str >>= fun key =>
    wcscat key [backslash] >>= fun key =>
    wcscat key u.appId.str
  else wcscat [] u.appId.str

/-- The four strings an update is registered with, and its key. -/
structure Prepared where
  key : WStr
  linkPath : WStr
  iconPath : WStr
  exeArgs : WStr
deriving DecidableEq

/-- From the sync check to the key. -/
def prepare (os : Os ω) (u : UpdateAppListPdu) : Handler ω Prepared :=
  checkSyncMode u.flags >>= fun _ =>
  checkNames u >>= fun _ =>
  buildIconFilePath os u >>= fun iconPath =>
  buildLinkPath os u >>= fun linkPath =>
  buildExeArgs u >>= fun exeArgs =>
  buildKey u >>= fun key =>
  pure ⟨key, linkPath, iconPath, exeArgs⟩

/-! ### Registration and files -/

/-- `m_spFileDB->OnFileAdded`. -/
def register (p : Prepared) : Handler ω Unit :=
  members >>= fun cb =>
  match cb.spFileDB with
  | none => violate
  | some db =>
      let (hr, db') := db.onFileAdded p.key (some p.linkPath) (some p.iconPath)
        (some cb.expandedPathObj) (some p.exeArgs)
      setMembers (fun cb => { cb with spFileDB := some db' }) >>= fun _ =>
      if succeeded hr then pure () else fail hr

/-- The icon file; a failure to write it is not one of the update. -/
def writeIcon (os : Os ω) (u : UpdateAppListPdu) (icon : IconData) (path : WStr) :
    Handler ω Bool :=
  if has u.flags fieldIcon then
    createIconFile os ((icon.iconFileData.map (·.bytes)).getD []) path
  else pure false

def writeLink (os : Os ω) (u : UpdateAppListPdu) (p : Prepared) (hasIcon : Bool) :
    Handler ω Unit :=
  members >>= fun cb =>
  createShellLink os p.linkPath
    { pathObj := cb.expandedPathObj
      args := p.exeArgs
      workingDir := cb.expandedWorkingDir
      desc := u.appDesc.str
      iconLocation := if hasIcon then some p.iconPath else none }

/-- `m_spFileDBSync->OnFileRemoved`. -/
def removeFromSync (path : WStr) : Handler ω Unit := withSync fun db => (db.onFileRemoved path).2

/-- The files of an application reported in a sync stay. -/
def Asserting.keepInSync (assertion : Handler ω Unit) (flags : UInt32) (p : Prepared)
    (hasIcon : Bool) : Handler ω Unit :=
  if has flags hintSync then
    assertion >>= fun _ =>
    removeFromSync p.linkPath >>= fun _ =>
    if hasIcon then removeFromSync p.iconPath else pure ()
  else pure ()

/-- `HINT_SYNC_END`. -/
def endSync (os : Os ω) (flags : UInt32) : Handler ω Unit :=
  if has flags hintSyncEnd then onSyncEnd os true else pure ()

/-- The icon file, the link and the books of the sync. -/
def Asserting.publish (assertion : Handler ω Unit) (os : Os ω) (u : UpdateAppListPdu)
    (icon : IconData) (p : Prepared) : Handler ω Unit :=
  writeIcon os u icon p.iconPath >>= fun hasIcon =>
  writeLink os u p hasIcon >>= fun _ =>
  keepInSync assertion u.flags p hasIcon >>= fun _ =>
  endSync os u.flags

/-- `OnUpdateAppList` behind the buffer read scope. -/
def Asserting.applyUpdate (assertion : Handler ω Unit) (os : Os ω) (u : UpdateAppListPdu)
    (icon : IconData) : Handler ω Unit :=
  startSync assertion os u.flags >>= fun _ =>
  prepare os u >>= fun p =>
  register p >>= fun _ =>
  publish assertion os u icon p

def Asserting.onUpdateAppList (assertion : Handler ω Unit) (os : Os ω) (c : Cursor) :
    Handler ω Cursor :=
  readUpdate os c >>= fun r =>
  applyUpdate assertion os r.update r.icon >>= fun _ =>
  pure r.cur

/-! ### Without assertions -/

def startSync (os : Os ω) (flags : UInt32) : Handler ω Unit :=
  Asserting.startSync (pure ()) os flags

def keepInSync (flags : UInt32) (p : Prepared) (hasIcon : Bool) : Handler ω Unit :=
  Asserting.keepInSync (pure ()) flags p hasIcon

def publish (os : Os ω) (u : UpdateAppListPdu) (icon : IconData) (p : Prepared) :
    Handler ω Unit :=
  Asserting.publish (pure ()) os u icon p

def applyUpdate (os : Os ω) (u : UpdateAppListPdu) (icon : IconData) : Handler ω Unit :=
  Asserting.applyUpdate (pure ()) os u icon

def onUpdateAppList (os : Os ω) (c : Cursor) : Handler ω Cursor :=
  Asserting.onUpdateAppList (pure ()) os c

theorem startSync_eq (os : Os ω) (flags : UInt32) :
    startSync os flags = if has flags hintSyncStart then onSyncStart os else pure () := by
  rw [startSync, Asserting.startSync]
  split
  · exact bind_pure (onSyncStart os)
  · rfl

theorem keepInSync_eq (flags : UInt32) (p : Prepared) (hasIcon : Bool) :
    (keepInSync flags p hasIcon : Handler ω Unit) =
      if has flags hintSync then
        removeFromSync p.linkPath >>= fun _ =>
        if hasIcon then removeFromSync p.iconPath else pure ()
      else pure () := rfl

theorem publish_eq (os : Os ω) (u : UpdateAppListPdu) (icon : IconData) (p : Prepared) :
    publish os u icon p =
      writeIcon os u icon p.iconPath >>= fun hasIcon =>
      writeLink os u p hasIcon >>= fun _ =>
      keepInSync u.flags p hasIcon >>= fun _ =>
      endSync os u.flags := rfl

theorem applyUpdate_eq (os : Os ω) (u : UpdateAppListPdu) (icon : IconData) :
    applyUpdate os u icon =
      startSync os u.flags >>= fun _ =>
      prepare os u >>= fun p =>
      register p >>= fun _ =>
      publish os u icon p := rfl

theorem onUpdateAppList_eq (os : Os ω) (c : Cursor) :
    onUpdateAppList os c =
      readUpdate os c >>= fun r =>
      applyUpdate os r.update r.icon >>= fun _ =>
      pure r.cur := rfl

/-! ### What an update leaves alone -/

theorem quiet_enterFolders (os : Os ω) (base : WStr) (u : UpdateAppListPdu) :
    Guarantees Quiet (enterFolders os base u) :=
  (guarantees_wcscat _ _).bind fun _ => (quiet_createDirectory os _).bind fun _ =>
    Guarantees.ite
      ((guarantees_wcscat _ _).bind fun _ => (guarantees_wcscat _ _).bind fun _ =>
        (quiet_createDirectory os _).bind fun _ => Guarantees.pure _)
      (Guarantees.pure _)

theorem quiet_catFile (path name extension : WStr) :
    Guarantees Quiet (catFile path name extension : Handler ω WStr) :=
  (guarantees_wcscat _ _).bind fun _ => (guarantees_wcscat _ _).bind fun _ =>
    guarantees_wcscat _ _

theorem quiet_checkNames (u : UpdateAppListPdu) :
    Guarantees Quiet (checkNames u : Handler ω Unit) :=
  (guarantees_require _).bind fun _ => (guarantees_require _).bind fun _ =>
    (guarantees_require _).bind fun _ => guarantees_require _

theorem quiet_buildIconFilePath (os : Os ω) (u : UpdateAppListPdu) :
    Guarantees Quiet (buildIconFilePath os u) :=
  Guarantees.ite (guarantees_members.bind fun _ => (quiet_enterFolders os _ u).bind fun _ =>
    quiet_catFile _ _ _) (Guarantees.pure _)

theorem quiet_buildLinkPath (os : Os ω) (u : UpdateAppListPdu) :
    Guarantees Quiet (buildLinkPath os u) :=
  guarantees_members.bind fun _ => (quiet_enterFolders os _ u).bind fun _ => quiet_catFile _ _ _

theorem quiet_buildExeArgs (u : UpdateAppListPdu) :
    Guarantees Quiet (buildExeArgs u : Handler ω WStr) :=
  guarantees_members.bind fun _ => (guarantees_require _).bind fun _ => Guarantees.pure _

theorem quiet_buildKey (u : UpdateAppListPdu) : Guarantees Quiet (buildKey u : Handler ω WStr) :=
  Guarantees.ite ((guarantees_wcscat _ _).bind fun _ => (guarantees_wcscat _ _).bind fun _ =>
    guarantees_wcscat _ _) (guarantees_wcscat _ _)

/-- Up to the key an update looks, checks and creates folders. -/
theorem quiet_prepare (os : Os ω) (u : UpdateAppListPdu) : Guarantees Quiet (prepare os u) :=
  (guarantees_members.bind fun _ => guarantees_require _).bind fun _ =>
    (quiet_checkNames u).bind fun _ => (quiet_buildIconFilePath os u).bind fun _ =>
      (quiet_buildLinkPath os u).bind fun _ => (quiet_buildExeArgs u).bind fun _ =>
        (quiet_buildKey u).bind fun _ => Guarantees.pure _

section Blind

variable {R : Machine ω → Machine ω → Prop} [Std.Refl R] [IsTrans (Machine ω) R]
  (ignored : ∀ m db sync, R m { m with
    cb := { m.cb with spFileDB := db, spFileDBSync := sync } })

include ignored

theorem guarantees_register (p : Prepared) : Guarantees R (register p) := by
  refine guarantees_members.bind fun cb => ?_
  split
  · exact Guarantees.throw _
  · exact Guarantees.bind (fun m => ignored m _ m.cb.spFileDBSync) fun _ =>
      Guarantees.ite (Guarantees.pure _) (guarantees_fail _)

variable [Blind R]

theorem guarantees_publish (os : Os ω) (u : UpdateAppListPdu) (icon : IconData) (p : Prepared) :
    Guarantees R (publish os u icon p) := by
  have sync : ∀ (m : Machine ω) db, R m { m with cb := { m.cb with spFileDBSync := db } } :=
    fun m db => ignored m m.cb.spFileDB db
  have kept : ∀ hasIcon, Guarantees R (keepInSync u.flags p hasIcon) :=
    fun hasIcon => Guarantees.ite ((guarantees_withSync sync).bind fun _ =>
      Guarantees.ite (guarantees_withSync sync) (Guarantees.pure _)) (Guarantees.pure _)
  exact (Guarantees.ite (guarantees_createIconFile os _ _) (Guarantees.pure _)).bind fun _ =>
    (guarantees_members.bind fun _ => guarantees_createShellLink os _ _).bind fun _ =>
      (kept _).bind fun _ => Guarantees.ite (guarantees_onSyncEnd sync os true) (Guarantees.pure _)

/-- An update changes the databases, Windows and nothing else. -/
theorem guarantees_applyUpdate (os : Os ω) (u : UpdateAppListPdu) (icon : IconData) :
    Guarantees R (applyUpdate os u icon) := by
  have start : Guarantees R (startSync os u.flags) := by
    rw [startSync_eq]
    exact Guarantees.ite (guarantees_onSyncStart (fun m db => ignored m m.cb.spFileDB db) os)
      (Guarantees.pure _)
  exact start.bind fun _ => (guarantees_of_quiet (quiet_prepare os u)).bind fun _ =>
    (guarantees_register ignored _).bind fun _ => guarantees_publish ignored os u icon _

end Blind

/-- Reading takes a block from the heap at most. -/
theorem reads_only_heap (os : Os ω) (c : Cursor) (m : Machine ω) :
    final (readUpdate os c m) = { m with heap := (final (readUpdate os c m)).heap } := by
  rw [readUpdate]
  cases strings : readUpdateStrings c m with
  | error e m₁ =>
      rw [bind_of_error strings]
      rw [readUpdateStrings] at strings
      split at strings <;> cases strings
      rfl
  | ok r m₁ =>
      rw [bind_of_ok strings]
      have same : m₁ = m := by
        rw [readUpdateStrings] at strings
        split at strings <;> cases strings
        rfl
      subst same
      split
      · cases icon : readUpdateIcon os r.1 m₁ with
        | error e m₂ =>
            rw [bind_of_error icon]
            rw [readUpdateIcon] at icon
            split at icon <;> cases icon
            rfl
        | ok i m₂ =>
            rw [bind_of_ok icon]
            rw [readUpdateIcon] at icon
            split at icon <;> cases icon
            rfl
      · rfl

end Wslg.Client
