/-
CAPS: `WSLDVCCallback::OnCaps` with `BuildMenuPath`, `BuildIconPath` and
`GetLocaleName` of `utils.cpp`.

The handler fills the members in place, one after the other, and each step may
return early; the flag of the handshake is assigned at the end only. The steps
are functions of their own here, in the order of the source. `installProvider`
goes up to the icon path, after which the provider has its folders.
-/

import Wslg.Client.Machine

namespace Wslg.Client

open Wslg.LittleEndian Wslg.Protocol Wslg.StateExcept

variable {ω : Type}

/-! ### The provider -/

/-- The buffer read scope: the PDU is read into `m_serverCaps` itself. -/
def readServerCaps (c : Cursor) : Handler ω Cursor := fun m =>
  match readAppListServerCaps m.cb.serverCaps c with
  | (.ok c', caps) => .ok c' { m with cb := { m.cb with serverCaps := caps } }
  | (.error e, caps) => .error e { m with cb := { m.cb with serverCaps := caps } }

/-- The bytes `memcpy` takes from the name's array. -/
def ServerCapsPdu.nameBytes (caps : ServerCapsPdu) : List BYTE :=
  (bytes caps.appListProviderName.buf.chars).take caps.appListProviderName.length.toNat

/-- `memcpy(m_appProvider, …)`: no NUL is put behind the copied bytes. -/
def copyProviderName : Handler ω Unit :=
  members >>= fun cb =>
  match cb.appProvider.copyBytes cb.serverCaps.nameBytes with
  | some name => setMembers fun cb => { cb with appProvider := name }
  | none => violate

/-- The name holds none of the three forbidden strings. -/
def PlainProvider (name : WStr) : Prop :=
  wcsstr name [dot, dot] = false ∧ wcsstr name [quote] = false ∧ wcsstr name [space] = false

instance (name : WStr) : Decidable (PlainProvider name) := inferInstanceAs (Decidable (_ ∧ _ ∧ _))

def checkProviderName : Handler ω Unit :=
  members >>= fun cb => require (PlainProvider cb.appProvider.str)

/-- `szAppProviderGUID` holds 40 wide characters. -/
def guidStringSize : Nat := 40

def guidString (uniqueId : WStr) : WStr := 0x7B :: uniqueId ++ [0x7D]

/-- `CLSIDFromString(szAppProviderGUID, &m_appProviderGUID)`, from version 4 on. -/
def installProviderGUID (os : Os ω) : Handler ω Unit :=
  members >>= fun cb =>
  if cb.serverCaps.version ≥ 4 then
    let guid := guidString cb.serverCaps.appListProviderUniqueId.str
    require (guid.length < guidStringSize) >>= fun _ =>
    query (fun w => os.clsidFromString w guid cb.appProviderGUID) >>= fun r =>
    setMembers (fun cb => { cb with appProviderGUID := r.2 }) >>= fun _ =>
    check r.1
  else pure ()

/-! ### Its folders -/

/-- What `BuildMenuPath` prints. -/
def menuPath (startMenu provider : WStr) : WStr := startMenu ++ (wide "\\Programs\\" ++ provider)

/-- `BuildMenuPath(ARRAYSIZE(m_appMenuPath), m_appMenuPath, …, true)`; a path that
does not fit leaves an empty string. -/
def buildMenuPath (os : Os ω) (provider : WStr) : Handler ω Unit :=
  query os.knownFolderStartMenu >>= fun folder =>
  match folder with
  | none => fail E_FAIL
  | some startMenu =>
      let path := menuPath startMenu provider
      let fits : Bool := path.length < maxPath
      setMembers (fun cb => { cb with appMenuPath := if fits then path else [] }) >>= fun _ =>
      require (fits = true) >>= fun _ =>
      createDirectory os path

/-- `prefix` of `BuildIconPath`. -/
def iconPrefix : WStr := wide "WSLDVCPlugin\\"

/-- `wcscat_s(m_iconPath, …)`. -/
def catIconPath (src : WStr) : Handler ω Unit :=
  members >>= fun cb =>
  let fits : Bool := cb.iconPath.length + src.length < maxPath
  setMembers (fun cb => { cb with iconPath := if fits then cb.iconPath ++ src else [] }) >>=
    fun _ => require (fits = true)

/-- `CreateDirectoryW(m_iconPath, NULL)`. -/
def createIconDirectory (os : Os ω) : Handler ω Unit :=
  members >>= fun cb => createDirectory os cb.iconPath

/-- `BuildIconPath(ARRAYSIZE(m_iconPath), m_iconPath, …, true)`. -/
def buildIconPath (os : Os ω) (provider : WStr) : Handler ω Unit :=
  members >>= fun cb =>
  query (fun w => os.getTempPathW w maxPath cb.iconPath) >>= fun temp =>
  setMembers (fun cb => { cb with iconPath := temp.2 }) >>= fun _ =>
  require (temp.1 ≠ 0) >>= fun _ =>
  require (¬ temp.1 + (iconPrefix.length + 1) + provider.length > maxPath) >>= fun _ =>
  catIconPath iconPrefix >>= fun _ =>
  createIconDirectory os >>= fun _ =>
  catIconPath provider >>= fun _ =>
  createIconDirectory os

/-- From the buffer read scope to the icon path. -/
def installProvider (os : Os ω) : Handler ω Unit :=
  copyProviderName >>= fun _ =>
  checkProviderName >>= fun _ =>
  installProviderGUID os >>= fun _ =>
  members >>= fun cb =>
  buildMenuPath os cb.appProvider.str >>= fun _ =>
  buildIconPath os cb.appProvider.str

/-! ### The command and the language -/

def exeName : WStr := wide "\\wslg.exe"

/-- The install location from the registry, and `wslg.exe` in it. -/
def installExpandedPath (os : Os ω) : Handler ω Unit :=
  query os.regOpenKeyExW >>= fun opened =>
  check opened >>= fun _ =>
  members >>= fun cb =>
  query (fun w => os.regGetValueW w cb.expandedPathObj) >>= fun value =>
  setMembers (fun cb => { cb with expandedPathObj := value.2 }) >>= fun _ =>
  check value.1 >>= fun _ =>
  let fits : Bool := value.2.length + exeName.length < maxPath
  setMembers (fun cb =>
    { cb with expandedPathObj := if fits then value.2 ++ exeName else [] }) >>= fun _ =>
  require (fits = true)

def expandWorkingDir (os : Os ω) : Handler ω Unit :=
  members >>= fun cb =>
  query (fun w => os.expandEnvironmentStringsW w cb.expandedWorkingDir) >>= fun dir =>
  setMembers (fun cb => { cb with expandedWorkingDir := dir.2 }) >>= fun _ =>
  require (dir.1 = true)

/-- `GetLocaleName` into a buffer of `langSize` characters. -/
def localeName (os : Os ω) (w : ω) : Option (List BYTE) :=
  match os.languageName w, os.countryName w with
  | some language, some country =>
      if language.length + 1 + country.length < langSize then
        some (language ++ 0x5F :: country)
      else none
  | _, _ => none

/-- `"en_US"`. -/
def defaultLocale : List BYTE := [0x65, 0x6E, 0x5F, 0x55, 0x53]

def installLanguage (os : Os ω) : Handler ω Unit :=
  query (localeName os) >>= fun name =>
  setMembers fun cb => { cb with clientLanguageId := name.getD defaultLocale }

/-! ### The reply -/

/-- `sizeof replyBuf`. -/
def replySize : UInt32 := 8 + 2 + 32

/-- The client's CAPS PDU. -/
def reply (language : List BYTE) : List BYTE :=
  word32 cmdIdCaps ++ word32 replySize ++ word16 channelVersion ++
    (language ++ List.replicate (langSize - language.length) 0)

/-- The version check and the write, whose outcome is `hr`. -/
def sendReply (os : Os ω) : Handler ω (Except HRESULT Unit) :=
  members >>= fun cb =>
  if cb.serverCaps.version ≥ channelVersion then
    require (cb.clientLanguageId.length < langSize) >>= fun _ =>
    perform (os.channelWrite (reply cb.clientLanguageId))
  else pure (.error E_FAIL)

/-- `m_handShakeComplated = SUCCEEDED(hr) ? true : false; return hr;` -/
def finishHandshake (hr : Except HRESULT Unit) : Handler ω Unit :=
  setMembers (fun cb => { cb with handShakeComplated := hr.isOk }) >>= fun _ => check hr

/-- From the end of the buffer read scope to the assignment of the flag. -/
def prepareHandshake (os : Os ω) : Handler ω (Except HRESULT Unit) :=
  installProvider os >>= fun _ =>
  installExpandedPath os >>= fun _ =>
  expandWorkingDir os >>= fun _ =>
  installLanguage os >>= fun _ =>
  sendReply os

/-- `OnCaps` behind the buffer read scope. -/
def applyCaps (os : Os ω) : Handler ω Unit :=
  prepareHandshake os >>= fun hr => finishHandshake hr

def onCaps (os : Os ω) (c : Cursor) : Handler ω Cursor :=
  readServerCaps c >>= fun c' =>
  applyCaps os >>= fun _ =>
  pure c'

/-! ### What CAPS leaves alone -/

/-- The members that do not come from a provider's CAPS. -/
structure Session where
  spFileDB : Option FileDB
  spFileDBSync : Option FileDB
  channelClosed : Bool

def Callback.session (cb : Callback) : Session :=
  ⟨cb.spFileDB, cb.spFileDBSync, cb.channelClosed⟩

/-- The session with the flag of the handshake. -/
def Callback.state (cb : Callback) : Session × Bool := (cb.session, cb.handShakeComplated)

/-- Only members of the provider and Windows may have changed. -/
structure Installs (m m' : Machine ω) : Prop where
  state : m'.cb.state = m.cb.state
  heap : m'.heap = m.heap
  log : m'.log = m.log

instance : Std.Refl (Installs (ω := ω)) := ⟨fun _ => ⟨rfl, rfl, rfl⟩⟩

instance : IsTrans (Machine ω) Installs :=
  ⟨fun _ _ _ h h' => ⟨h'.state.trans h.state, h'.heap.trans h.heap, h'.log.trans h.log⟩⟩

theorem Quiet.installs {m m' : Machine ω} (h : Quiet m m') : Installs m m' :=
  ⟨congrArg _ h.cb, h.heap, h.log⟩

theorem installs_setMembers {g : Callback → Callback}
    (other : ∀ cb, (g cb).state = cb.state := by intro cb; rfl) :
    Guarantees (Installs (ω := ω)) (setMembers g) :=
  fun m => ⟨other m.cb, rfl, rfl⟩

theorem installs_perform {α : Type} (op : ω → α × ω) : Guarantees Installs (perform op) :=
  (quiet_perform op).weaken fun _ _ => Quiet.installs

theorem installs_createDirectory (os : Os ω) (path : WStr) :
    Guarantees Installs (createDirectory os path) :=
  (quiet_createDirectory os path).weaken fun _ _ => Quiet.installs

theorem installs_copyProviderName : Guarantees (Installs (ω := ω)) copyProviderName := by
  refine guarantees_members.bind fun cb => ?_
  split
  · exact installs_setMembers
  · exact Guarantees.throw _

theorem installs_installProviderGUID (os : Os ω) :
    Guarantees Installs (installProviderGUID os) := by
  refine guarantees_members.bind fun cb => ?_
  split
  · exact (guarantees_require _).bind fun _ => (guarantees_query _).bind fun _ =>
      (installs_setMembers).bind fun _ => guarantees_check _
  · exact Guarantees.pure _

theorem installs_buildMenuPath (os : Os ω) (provider : WStr) :
    Guarantees Installs (buildMenuPath os provider) := by
  refine (guarantees_query _).bind fun folder => ?_
  cases folder with
  | none => exact guarantees_fail _
  | some startMenu =>
      exact (installs_setMembers).bind fun _ => (guarantees_require _).bind fun _ =>
        installs_createDirectory os _

theorem installs_catIconPath (src : WStr) : Guarantees (Installs (ω := ω)) (catIconPath src) :=
  guarantees_members.bind fun _ => (installs_setMembers).bind fun _ =>
    guarantees_require _

theorem installs_createIconDirectory (os : Os ω) : Guarantees Installs (createIconDirectory os) :=
  guarantees_members.bind fun _ => installs_createDirectory os _

theorem installs_buildIconPath (os : Os ω) (provider : WStr) :
    Guarantees Installs (buildIconPath os provider) :=
  guarantees_members.bind fun _ => (guarantees_query _).bind fun _ =>
    (installs_setMembers).bind fun _ => (guarantees_require _).bind fun _ =>
      (guarantees_require _).bind fun _ => (installs_catIconPath _).bind fun _ =>
        (installs_createIconDirectory os).bind fun _ => (installs_catIconPath _).bind fun _ =>
          installs_createIconDirectory os

theorem installs_installProvider (os : Os ω) : Guarantees Installs (installProvider os) :=
  installs_copyProviderName.bind fun _ =>
    (guarantees_members.bind fun _ => guarantees_require _).bind fun _ =>
      (installs_installProviderGUID os).bind fun _ => guarantees_members.bind fun _ =>
        (installs_buildMenuPath os _).bind fun _ => installs_buildIconPath os _

theorem installs_installExpandedPath (os : Os ω) :
    Guarantees Installs (installExpandedPath os) :=
  (guarantees_query _).bind fun _ => (guarantees_check _).bind fun _ =>
    guarantees_members.bind fun _ => (guarantees_query _).bind fun _ =>
      (installs_setMembers).bind fun _ => (guarantees_check _).bind fun _ =>
        (installs_setMembers).bind fun _ => guarantees_require _

theorem installs_sendReply (os : Os ω) : Guarantees Installs (sendReply os) := by
  refine guarantees_members.bind fun cb => ?_
  split
  · exact (guarantees_require _).bind fun _ => installs_perform _
  · exact Guarantees.pure _

theorem installs_prepareHandshake (os : Os ω) : Guarantees Installs (prepareHandshake os) :=
  (installs_installProvider os).bind fun _ => (installs_installExpandedPath os).bind fun _ =>
    (guarantees_members.bind fun _ => (guarantees_query _).bind fun _ =>
      (installs_setMembers).bind fun _ => guarantees_require _).bind fun _ =>
        ((guarantees_query _).bind fun _ => installs_setMembers).bind fun _ =>
          installs_sendReply os

theorem installs_readServerCaps (c : Cursor) : Guarantees Installs (readServerCaps (ω := ω) c) := by
  intro m
  rw [readServerCaps]
  split <;> exact ⟨rfl, rfl, rfl⟩

/-- Members of the provider, the flag of the handshake and Windows may have
changed. -/
structure Handshakes (m m' : Machine ω) : Prop where
  session : m'.cb.session = m.cb.session
  heap : m'.heap = m.heap
  log : m'.log = m.log

instance : Std.Refl (Handshakes (ω := ω)) := ⟨fun _ => ⟨rfl, rfl, rfl⟩⟩

instance : IsTrans (Machine ω) Handshakes :=
  ⟨fun _ _ _ h h' => ⟨h'.session.trans h.session, h'.heap.trans h.heap, h'.log.trans h.log⟩⟩

theorem Installs.handshakes {m m' : Machine ω} (h : Installs m m') : Handshakes m m' :=
  ⟨congrArg Prod.fst h.state, h.heap, h.log⟩

theorem Installs.flag {m m' : Machine ω} (h : Installs m m') :
    m'.cb.handShakeComplated = m.cb.handShakeComplated :=
  congrArg Prod.snd h.state

theorem finishHandshake_apply (hr : Except HRESULT Unit) (m : Machine ω) :
    finishHandshake hr m =
      match hr with
      | .ok _ => .ok () { m with cb := { m.cb with handShakeComplated := true } }
      | .error e =>
          .error (.hresult e) { m with cb := { m.cb with handShakeComplated := false } } := by
  cases hr <;> rfl

theorem handshakes_applyCaps (os : Os ω) : Guarantees Handshakes (applyCaps os) := by
  refine ((installs_prepareHandshake os).weaken fun _ _ => Installs.handshakes).bind fun hr m => ?_
  rw [finishHandshake_apply]
  cases hr <;> exact ⟨rfl, rfl, rfl⟩

theorem handshakes_onCaps (os : Os ω) (c : Cursor) : Guarantees Handshakes (onCaps os c) :=
  ((installs_readServerCaps c).weaken fun _ _ => Installs.handshakes).bind fun _ =>
    (handshakes_applyCaps os).bind fun _ => Guarantees.pure _

/-- A CAPS that fails completes no handshake. -/
theorem flag_of_onCaps_error {os : Os ω} {c : Cursor} {m m' : Machine ω} {e : Failure}
    (run : onCaps os c m = .error e m') (flag : m'.cb.handShakeComplated = true) :
    m.cb.handShakeComplated = true := by
  rcases bind_eq_error.mp run with failed | ⟨c', m₁, read, rest⟩
  · rw [← ((installs_readServerCaps c).of_error failed).flag, flag]
  rw [← ((installs_readServerCaps c).of_ok read).flag]
  rcases bind_eq_error.mp rest with failed | ⟨_, m₂, -, last⟩
  · rcases bind_eq_error.mp failed with early | ⟨hr, m₂, -, finish⟩
    · rw [← ((installs_prepareHandshake os).of_error early).flag, flag]
    · rw [finishHandshake_apply] at finish
      cases hr <;> cases finish
      cases flag
  · cases last

/-! ### Steps of CAPS that succeed -/

section EqOk

variable {os : Os ω} {m m' : Machine ω} {u : Unit}

theorem copyProviderName_eq_ok :
    copyProviderName m = .ok u m' ↔ ∃ name,
      m.cb.appProvider.copyBytes m.cb.serverCaps.nameBytes = some name ∧
        m' = { m with cb := { m.cb with appProvider := name } } := by
  rw [copyProviderName, members_bind]
  cases copied : m.cb.appProvider.copyBytes m.cb.serverCaps.nameBytes with
  | none => exact ⟨nofun, fun ⟨_, h, _⟩ => nomatch h⟩
  | some name =>
      constructor
      · intro run
        cases run
        exact ⟨name, rfl, rfl⟩
      · rintro ⟨name', same, rfl⟩
        cases same
        rfl

theorem checkProviderName_eq_ok :
    checkProviderName m = .ok u m' ↔ PlainProvider m.cb.appProvider.str ∧ m' = m := by
  rw [checkProviderName, members_bind, require_eq_ok]

/-- What `CLSIDFromString` makes of the unique id; nothing before version 4. -/
def ParsedGUID (os : Os ω) (w : ω) (caps : ServerCapsPdu) (old guid : GUID) : Prop :=
  if caps.version ≥ 4 then
    (guidString caps.appListProviderUniqueId.str).length < guidStringSize ∧
      os.clsidFromString w (guidString caps.appListProviderUniqueId.str) old = (.ok (), guid)
  else guid = old

theorem installProviderGUID_eq_ok :
    installProviderGUID os m = .ok u m' ↔ ∃ guid,
      ParsedGUID os m.world m.cb.serverCaps m.cb.appProviderGUID guid ∧
        m' = { m with cb := { m.cb with appProviderGUID := guid } } := by
  rw [installProviderGUID, members_bind]
  by_cases version : m.cb.serverCaps.version ≥ 4
  · simp only [ParsedGUID, if_pos version, require_bind, query_bind, setMembers_bind]
    by_cases fits : (guidString m.cb.serverCaps.appListProviderUniqueId.str).length < guidStringSize
    · rw [if_pos fits, check_eq_ok]
      constructor
      · rintro ⟨parsed, rfl⟩
        exact ⟨_, ⟨fits, Prod.ext parsed rfl⟩, rfl⟩
      · rintro ⟨guid, ⟨-, parsed⟩, rfl⟩
        rw [parsed]
        exact ⟨rfl, rfl⟩
    · rw [if_neg fits]
      exact ⟨nofun, fun ⟨_, ⟨h, _⟩, _⟩ => absurd h fits⟩
  · simp only [ParsedGUID, if_neg version]
    constructor
    · intro run
      cases run
      exact ⟨_, rfl, rfl⟩
    · rintro ⟨guid, rfl, rfl⟩
      rfl

theorem buildMenuPath_eq_ok {provider : WStr} :
    buildMenuPath os provider m = .ok u m' ↔ ∃ startMenu w',
      os.knownFolderStartMenu m.world = some startMenu ∧
        (menuPath startMenu provider).length < maxPath ∧
        MadeFolder os (menuPath startMenu provider) m.world w' ∧
        m' = { m with
          cb := { m.cb with appMenuPath := menuPath startMenu provider }, world := w' } := by
  rw [buildMenuPath, query_bind]
  cases folder : os.knownFolderStartMenu m.world with
  | none => exact ⟨nofun, fun ⟨_, _, h, _⟩ => nomatch h⟩
  | some startMenu =>
      simp only [setMembers_bind, require_bind, decide_eq_true_eq]
      by_cases fits : (menuPath startMenu provider).length < maxPath
      · rw [if_pos fits, createDirectory_eq_ok]
        constructor
        · rintro ⟨w', made, rfl⟩
          exact ⟨_, w', rfl, fits, made, by simp only [if_pos fits]⟩
        · rintro ⟨startMenu', w', same, -, made, rfl⟩
          cases same
          exact ⟨w', made, by simp only [if_pos fits]⟩
      · rw [if_neg fits]
        exact ⟨nofun, fun ⟨_, _, h, h', _⟩ => absurd (by cases h; exact h') fits⟩

theorem catIconPath_eq_ok {src : WStr} :
    catIconPath src m = .ok u m' ↔ m.cb.iconPath.length + src.length < maxPath ∧
      m' = { m with cb := { m.cb with iconPath := m.cb.iconPath ++ src } } := by
  rw [catIconPath, members_bind]
  simp only [setMembers_bind, decide_eq_true_eq, require_eq_ok]
  constructor
  · rintro ⟨fits, rfl⟩
    exact ⟨fits, by simp only [if_pos fits]⟩
  · rintro ⟨fits, rfl⟩
    exact ⟨fits, by simp only [if_pos fits]⟩

theorem createIconDirectory_eq_ok :
    createIconDirectory os m = .ok u m' ↔
      ∃ w', MadeFolder os m.cb.iconPath m.world w' ∧ m' = { m with world := w' } := by
  rw [createIconDirectory, members_bind, createDirectory_eq_ok]

/-- The icon path `BuildIconPath` makes in the temp folder, with the worlds on the
way. -/
structure IconFolder (os : Os ω) (old provider : WStr) (w w' : ω) (temp : WStr) : Prop where
  tempPath : ∃ n, os.getTempPathW w maxPath old = (n, temp) ∧ n ≠ 0 ∧
    n + (iconPrefix.length + 1) + provider.length ≤ maxPath
  catPrefix : temp.length + iconPrefix.length < maxPath
  catName : (temp ++ iconPrefix).length + provider.length < maxPath
  made : ∃ w₁, MadeFolder os (temp ++ iconPrefix) w w₁ ∧
    MadeFolder os (temp ++ iconPrefix ++ provider) w₁ w'

theorem buildIconPath_eq_ok {provider : WStr} :
    buildIconPath os provider m = .ok u m' ↔ ∃ temp w',
      IconFolder os m.cb.iconPath provider m.world w' temp ∧
        m' = { m with
          cb := { m.cb with iconPath := temp ++ iconPrefix ++ provider }, world := w' } := by
  obtain ⟨⟨n, temp⟩, temp_eq⟩ : ∃ r, os.getTempPathW m.world maxPath m.cb.iconPath = r := ⟨_, rfl⟩
  rw [buildIconPath, members_bind, query_bind, setMembers_bind]
  simp only [temp_eq, require_bind]
  constructor
  · intro run
    split at run
    · rename_i there
      split at run
      · rename_i fits
        obtain ⟨_, m₁, first, run⟩ := bind_eq_ok.mp run
        obtain ⟨catPrefix, rfl⟩ := catIconPath_eq_ok.mp first
        obtain ⟨_, m₂, second, run⟩ := bind_eq_ok.mp run
        obtain ⟨w₁, made₁, rfl⟩ := createIconDirectory_eq_ok.mp second
        obtain ⟨_, m₃, third, run⟩ := bind_eq_ok.mp run
        obtain ⟨catName, rfl⟩ := catIconPath_eq_ok.mp third
        obtain ⟨w', made, rfl⟩ := createIconDirectory_eq_ok.mp run
        exact ⟨temp, w', ⟨⟨n, temp_eq, there, Nat.not_lt.mp fits⟩, catPrefix, catName,
          w₁, made₁, made⟩, rfl⟩
      · cases run
    · cases run
  · rintro ⟨temp', w', ⟨⟨n', same, there, fits⟩, catPrefix, catName, w₁, made₁, made⟩, rfl⟩
    rw [temp_eq] at same
    cases same
    rw [if_pos there, if_pos (Nat.not_lt.mpr fits)]
    refine bind_eq_ok.mpr ⟨(), _, catIconPath_eq_ok.mpr ⟨catPrefix, rfl⟩, ?_⟩
    refine bind_eq_ok.mpr ⟨(), _, createIconDirectory_eq_ok.mpr ⟨w₁, made₁, rfl⟩, ?_⟩
    refine bind_eq_ok.mpr ⟨(), _, catIconPath_eq_ok.mpr ⟨catName, rfl⟩, ?_⟩
    exact createIconDirectory_eq_ok.mpr ⟨w', made, rfl⟩

/-- The provider CAPS installs: its name, its id and its two folders. -/
structure Provider (os : Os ω) (cb : Callback) (w : ω) where
  name : WBuf maxPath
  copied : cb.appProvider.copyBytes cb.serverCaps.nameBytes = some name
  plain : PlainProvider name.str
  guid : GUID
  parsed : ParsedGUID os w cb.serverCaps cb.appProviderGUID guid
  startMenu : WStr
  folder : os.knownFolderStartMenu w = some startMenu
  menuFits : (menuPath startMenu name.str).length < maxPath
  menuWorld : ω
  menuMade : MadeFolder os (menuPath startMenu name.str) w menuWorld
  temp : WStr
  world : ω
  iconFolder : IconFolder os cb.iconPath name.str menuWorld world temp

/-- The members after the provider's CAPS got that far. -/
def Provider.install {cb : Callback} {w : ω} (p : Provider os cb w) : Callback :=
  { cb with
    appProvider := p.name
    appProviderGUID := p.guid
    appMenuPath := menuPath p.startMenu p.name.str
    iconPath := p.temp ++ iconPrefix ++ p.name.str }

theorem installProvider_eq_ok :
    installProvider os m = .ok u m' ↔ ∃ p : Provider os m.cb m.world,
      m' = { m with cb := p.install, world := p.world } := by
  constructor
  · intro run
    obtain ⟨_, m₁, first, run⟩ := bind_eq_ok.mp run
    obtain ⟨name, copied, rfl⟩ := copyProviderName_eq_ok.mp first
    obtain ⟨_, m₂, second, run⟩ := bind_eq_ok.mp run
    obtain ⟨plain, rfl⟩ := checkProviderName_eq_ok.mp second
    obtain ⟨_, m₃, third, run⟩ := bind_eq_ok.mp run
    obtain ⟨guid, parsed, rfl⟩ := installProviderGUID_eq_ok.mp third
    rw [members_bind] at run
    obtain ⟨_, m₄, fourth, run⟩ := bind_eq_ok.mp run
    obtain ⟨startMenu, w₁, folder, fits, made, rfl⟩ := buildMenuPath_eq_ok.mp fourth
    obtain ⟨temp, w₂, iconFolder, rfl⟩ := buildIconPath_eq_ok.mp run
    exact ⟨⟨name, copied, plain, guid, parsed, startMenu, folder, fits, w₁, made, temp, w₂,
      iconFolder⟩, rfl⟩
  · rintro ⟨p, rfl⟩
    refine bind_eq_ok.mpr ⟨(), _, copyProviderName_eq_ok.mpr ⟨p.name, p.copied, rfl⟩, ?_⟩
    refine bind_eq_ok.mpr ⟨(), _, checkProviderName_eq_ok.mpr ⟨p.plain, rfl⟩, ?_⟩
    refine bind_eq_ok.mpr ⟨(), _, installProviderGUID_eq_ok.mpr ⟨p.guid, p.parsed, rfl⟩, ?_⟩
    rw [members_bind]
    refine bind_eq_ok.mpr ⟨(), _,
      buildMenuPath_eq_ok.mpr ⟨p.startMenu, _, p.folder, p.menuFits, p.menuMade, rfl⟩, ?_⟩
    exact buildIconPath_eq_ok.mpr ⟨p.temp, p.world, p.iconFolder, rfl⟩

/-- The command and the working directory, where the registry and the environment
give them. -/
structure Command (os : Os ω) (cb : Callback) (w : ω) where
  opened : os.regOpenKeyExW w = .ok ()
  location : WStr
  value : os.regGetValueW w cb.expandedPathObj = (.ok (), location)
  fits : location.length + exeName.length < maxPath
  workingDir : WStr
  expanded : os.expandEnvironmentStringsW w cb.expandedWorkingDir = (true, workingDir)

def Command.install {cb : Callback} {w : ω} (c : Command os cb w) : Callback :=
  { cb with
    expandedPathObj := c.location ++ exeName
    expandedWorkingDir := c.workingDir
    clientLanguageId := (localeName os w).getD defaultLocale }

theorem installExpandedPath_eq_ok :
    installExpandedPath os m = .ok u m' ↔ ∃ location,
      os.regOpenKeyExW m.world = .ok () ∧
        os.regGetValueW m.world m.cb.expandedPathObj = (.ok (), location) ∧
        location.length + exeName.length < maxPath ∧
        m' = { m with cb := { m.cb with expandedPathObj := location ++ exeName } } := by
  rw [installExpandedPath, query_bind, check_bind]
  cases opened : os.regOpenKeyExW m.world with
  | error hr => exact ⟨nofun, fun ⟨_, h, _⟩ => nomatch h⟩
  | ok _ =>
      simp only [members_bind, query_bind, setMembers_bind, check_bind]
      obtain ⟨⟨hr, location⟩, value⟩ : ∃ r, os.regGetValueW m.world m.cb.expandedPathObj = r :=
        ⟨_, rfl⟩
      rw [value]
      cases hr with
      | error hr => exact ⟨nofun, fun ⟨_, _, h, _⟩ => nomatch h⟩
      | ok _ =>
          simp only [decide_eq_true_eq]
          rw [require_eq_ok]
          constructor
          · rintro ⟨fits, rfl⟩
            exact ⟨location, trivial, rfl, fits, by simp only [if_pos fits]⟩
          · rintro ⟨location', -, same, fits, rfl⟩
            cases same
            exact ⟨fits, by simp only [if_pos fits]⟩

/-- The language of `GetLocaleName` fits into its array. -/
theorem length_localeName {w : ω} : ((localeName os w).getD defaultLocale).length < langSize := by
  rw [localeName]
  split
  · split
    · rename_i fits
      simp only [Option.getD_some, List.length_append, List.length_cons]
      omega
    · decide
  · decide

/-- The outcome of the reply, and the world after it. -/
def replied (os : Os ω) (cb : Callback) (w : ω) : Except HRESULT Unit × ω :=
  if cb.serverCaps.version ≥ channelVersion then os.channelWrite (reply cb.clientLanguageId) w
  else (.error E_FAIL, w)

theorem sendReply_apply (short : m.cb.clientLanguageId.length < langSize) :
    sendReply os m = .ok (replied os m.cb m.world).1
      { m with world := (replied os m.cb m.world).2 } := by
  rw [sendReply, members_bind]
  by_cases version : m.cb.serverCaps.version ≥ channelVersion
  · simp only [replied, if_pos version, require_bind, if_pos short]
    rfl
  · simp only [replied, if_neg version]
    rfl

theorem expandWorkingDir_eq_ok :
    expandWorkingDir os m = .ok u m' ↔ ∃ dir,
      os.expandEnvironmentStringsW m.world m.cb.expandedWorkingDir = (true, dir) ∧
        m' = { m with cb := { m.cb with expandedWorkingDir := dir } } := by
  rw [expandWorkingDir, members_bind, query_bind, setMembers_bind, require_eq_ok]
  constructor
  · rintro ⟨expanded, rfl⟩
    exact ⟨_, Prod.ext expanded rfl, rfl⟩
  · rintro ⟨dir, expanded, rfl⟩
    rw [expanded]
    exact ⟨rfl, rfl⟩

/-- Everything CAPS needs before it assigns the flag of the handshake. -/
theorem prepareHandshake_eq_ok {hr : Except HRESULT Unit} :
    prepareHandshake os m = .ok hr m' ↔
      ∃ (p : Provider os m.cb m.world) (c : Command os p.install p.world),
        hr = (replied os c.install p.world).1 ∧
          m' = { m with cb := c.install, world := (replied os c.install p.world).2 } := by
  constructor
  · intro run
    obtain ⟨_, m₁, first, run⟩ := bind_eq_ok.mp run
    obtain ⟨p, rfl⟩ := installProvider_eq_ok.mp first
    obtain ⟨_, m₂, second, run⟩ := bind_eq_ok.mp run
    obtain ⟨location, opened, value, fits, rfl⟩ := installExpandedPath_eq_ok.mp second
    obtain ⟨_, m₃, third, run⟩ := bind_eq_ok.mp run
    obtain ⟨dir, expanded, rfl⟩ := expandWorkingDir_eq_ok.mp third
    rw [installLanguage, bind_assoc, query_bind, setMembers_bind,
      sendReply_apply length_localeName] at run
    cases run
    exact ⟨p, ⟨opened, location, value, fits, dir, expanded⟩, rfl, rfl⟩
  · rintro ⟨p, c, rfl, rfl⟩
    refine bind_eq_ok.mpr ⟨(), _, installProvider_eq_ok.mpr ⟨p, rfl⟩, ?_⟩
    refine bind_eq_ok.mpr ⟨(), _,
      installExpandedPath_eq_ok.mpr ⟨c.location, c.opened, c.value, c.fits, rfl⟩, ?_⟩
    refine bind_eq_ok.mpr ⟨(), _, expandWorkingDir_eq_ok.mpr ⟨c.workingDir, c.expanded, rfl⟩, ?_⟩
    rw [installLanguage, bind_assoc, query_bind, setMembers_bind,
      sendReply_apply length_localeName]
    rfl

end EqOk

end Wslg.Client
