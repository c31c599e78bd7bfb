/-
The other two handlers and the loop that runs them all: `OnDeleteAppList`,
`OnAssociateWindowId`, `OnDataReceived` and `OnClose`.

`OnDataReceived` reads a header and hands the cursor to the handler of the
command; the length in the header is not looked at. `step` is the same one PDU at
a time, together with what else can happen to a client: Windows changes by itself
and the channel is closed. A buffer is a run of such steps
(`steps_of_receiveLoop`), so what holds of every run of `step` holds between any
two PDUs of any buffers.
-/

import Wslg.Client.OnCaps
import Wslg.Client.OnUpdateAppList
import Wslg.Logic.Runs

namespace Wslg.Client

open Wslg.LittleEndian Wslg.Protocol Wslg.StateExcept

variable {ω : Type}

/-! ### DELETE_APPLIST -/

/-- `ReadAppListDelete` into a fresh struct. -/
def readDelete (c : Cursor) : Handler ω (Cursor × DeleteAppListPdu) := fun m =>
  match readAppListDelete {} c with
  | (.ok c', d) => .ok (c', d) m
  | (.error e, _) => .error e m

/-- The key of a group and an id, built in an array of `MAX_PATH`. -/
def buildFindKey (group id : PduString) : Handler ω WStr :=
  if group.length ≠ 0 then
    wcscat [] group.str >>= fun key =>
    wcscat key [backslash] >>= fun key =>
    wcscat key id.str
  else wcscat [] id.str

/-- `m_spFileDB`, which must not be null. -/
def fileDB : Handler ω FileDB :=
  members >>= fun cb =>
  match cb.spFileDB with
  | some db => pure db
  | none => violate

theorem guarantees_buildFindKey {R : Machine ω → Machine ω → Prop} [Std.Refl R]
    [IsTrans (Machine ω) R] (group id : PduString) : Guarantees R (buildFindKey group id) :=
  Guarantees.ite ((guarantees_wcscat _ _).bind fun _ => (guarantees_wcscat _ _).bind fun _ =>
    guarantees_wcscat _ _) (guarantees_wcscat _ _)

theorem guarantees_fileDB {R : Machine ω → Machine ω → Prop} [Std.Refl R]
    [IsTrans (Machine ω) R] : Guarantees R fileDB := by
  refine guarantees_members.bind fun cb => ?_
  split
  · exact Guarantees.pure _
  · exact Guarantees.throw _

/-- `DeleteFileW` on a path that is not empty; its failure is only reported. -/
def deleteIfAny (os : Os ω) (path : WStr) : Handler ω Unit :=
  if path ≠ [] then deleteFile os .onDeleteAppList path >>= fun _ => pure () else pure ()

/-- The buffers `OnDeleteAppList` hands to `FindFiles`. -/
def deleteBuffers : FileDB.FindBuffers :=
  { linkFilePath := some maxPath, iconFilePath := some maxPath }

/-- `OnDeleteAppList` behind the buffer read scope. -/
def applyDelete (os : Os ω) (d : DeleteAppListPdu) : Handler ω Unit :=
  buildFindKey d.appGroup d.appId >>= fun key =>
  fileDB >>= fun db =>
  let found := db.findFiles key deleteBuffers
  require (succeeded found.1 = true) >>= fun _ =>
  deleteIfAny os found.2.linkFilePath >>= fun _ =>
  deleteIfAny os found.2.iconFilePath >>= fun _ =>
  setMembers fun cb => { cb with spFileDB := some (db.onFileRemoved key).2 }

def onDeleteAppList (os : Os ω) (c : Cursor) : Handler ω Cursor :=
  readDelete c >>= fun r =>
  applyDelete os r.2 >>= fun _ =>
  pure r.1

/-! ### ASSOCIATE_WINDOW_ID -/

/-- `ReadAssociateWindowId` into a fresh struct. -/
def readAssociate (c : Cursor) : Handler ω (Cursor × AssociateWindowIdPdu) := fun m =>
  match readAssociateWindowId {} c with
  | (.ok c', d) => .ok (c', d) m
  | (.error e, _) => .error e m

/-- The window id: the provider's first word above that of the PDU. -/
def fullWindowId (guid : GUID) (appWindowId : UInt32) : UInt64 :=
  (guid.data1.toUInt64 <<< 32) ||| appWindowId.toUInt64

/-- The buffers `OnAssociateWindowId` hands to `FindFiles`. -/
def associateBuffers : FileDB.FindBuffers :=
  { iconFilePath := some maxPath, exeFilePath := some maxPath, exeFileArgs := some maxPath }

/-- The command line of an application that is not registered. -/
def unregisteredExePath (cb : Callback) (a : AssociateWindowIdPdu) : WStr :=
  cb.expandedPathObj ++ wide " -d " ++ cb.appProvider.str ++ wide " --cd \"" ++ wide "~" ++
    wide "\" -- " ++ a.appExecPath.str

/-- `exePath`, from the database or from the PDU. -/
def buildExePath (cb : Callback) (a : AssociateWindowIdPdu) (found : HRESULT × FileEntry) :
    Handler ω WStr :=
  if succeeded found.1 then
    let exePath := found.2.exeFilePath ++ space :: found.2.exeFileArgs
    require (exePath.length < maxPath) >>= fun _ => pure exePath
  else if a.appExecPath.str ≠ [] then
    let exePath := unregisteredExePath cb a
    require (exePath.length < maxPath) >>= fun _ => pure exePath
  else pure []

/-- A string as `WslgWindowData` has it: empty is null. -/
def nonEmpty (s : WStr) : Option WStr := if s = [] then none else some s

/-- `OnAssociateWindowId` behind the buffer read scope. -/
def applyAssociate (os : Os ω) (a : AssociateWindowIdPdu) : Handler ω Unit :=
  members >>= fun cb =>
  let windowId := fullWindowId cb.appProviderGUID a.appWindowId
  require (windowId ≠ 0) >>= fun _ =>
  buildFindKey a.appGroup a.appId >>= fun key =>
  fileDB >>= fun db =>
  let found := db.findFiles key associateBuffers
  buildExePath cb a found >>= fun exePath =>
  perform fun w => ((), os.enumWindows
    { windowId := windowId
      displayName := nonEmpty a.appDesc.str
      relaunchCommandline := nonEmpty exePath
      iconPath := nonEmpty found.2.iconFilePath } w)

def onAssociateWindowId (os : Os ω) (c : Cursor) : Handler ω Cursor :=
  members >>= fun cb =>
  require (¬ cb.serverCaps.version < 4) >>= fun _ =>
  readAssociate c >>= fun r =>
  applyAssociate os r.2 >>= fun _ =>
  pure r.1

/-! ### Dispatch -/

/-- The commands that need the handshake. -/
def handle (os : Os ω) (cmdId : UInt32) (c : Cursor) : Handler ω Cursor :=
  if cmdId = cmdIdUpdateAppList then onUpdateAppList os c
  else if cmdId = cmdIdDeleteAppList then onDeleteAppList os c
  else if cmdId = cmdIdDeleteAppListProvider then pure c
  else if cmdId = cmdIdAssociateWindowId then onAssociateWindowId os c
  else fail E_FAIL

/-- The chain of command ids in the loop of `OnDataReceived`. -/
def dispatch (os : Os ω) (cmdId : UInt32) (c : Cursor) : Handler ω Cursor :=
  if cmdId = cmdIdCaps then onCaps os c
  else
    members >>= fun cb =>
    if cb.handShakeComplated = false then fail E_FAIL else handle os cmdId c

/-- Before the handshake only CAPS is looked at. -/
theorem dispatch_apply {os : Os ω} {cmdId : UInt32} (other : cmdId ≠ cmdIdCaps) (c : Cursor)
    (m : Machine ω) :
    dispatch os cmdId c m =
      if m.cb.handShakeComplated = false then .error (.hresult E_FAIL) m
      else handle os cmdId c m := by
  rw [dispatch, if_neg other, members_bind]
  split <;> rfl

/-- After the handshake a PDU is handled. -/
theorem dispatch_handshaken {os : Os ω} {cmdId : UInt32} (other : cmdId ≠ cmdIdCaps) {c : Cursor}
    {m : Machine ω} (handshake : m.cb.handShakeComplated = true) :
    dispatch os cmdId c m = handle os cmdId c m := by
  rw [dispatch_apply other]
  exact if_neg fun off => absurd (handshake.symm.trans off) (by decide)

/-- Where the chain of command ids leads. -/
inductive Branch where
  | onCaps
  | onUpdateAppList
  | onDeleteAppList
  | deleteAppListProvider
  | onAssociateWindowId
  | refused
deriving DecidableEq

def branch (cmdId : UInt32) (handShakeComplated : Bool) : Branch :=
  if cmdId = cmdIdCaps then .onCaps
  else if handShakeComplated = false then .refused
  else if cmdId = cmdIdUpdateAppList then .onUpdateAppList
  else if cmdId = cmdIdDeleteAppList then .onDeleteAppList
  else if cmdId = cmdIdDeleteAppListProvider then .deleteAppListProvider
  else if cmdId = cmdIdAssociateWindowId then .onAssociateWindowId
  else .refused

/-- What is run there, with assertions in the handler of UPDATE_APPLIST. -/
def Branch.run (assertion : Handler ω Unit) (os : Os ω) (c : Cursor) : Branch → Handler ω Cursor
  | onCaps => Client.onCaps os c
  | onUpdateAppList => Asserting.onUpdateAppList assertion os c
  | onDeleteAppList => Client.onDeleteAppList os c
  | deleteAppListProvider => pure c
  | onAssociateWindowId => Client.onAssociateWindowId os c
  | refused => fail E_FAIL

/-- The chain leads to one branch, which is run. -/
theorem dispatch_eq_run (os : Os ω) (cmdId : UInt32) (c : Cursor) (m : Machine ω) :
    dispatch os cmdId c m = (branch cmdId m.cb.handShakeComplated).run (pure ()) os c m := by
  rw [dispatch, branch]
  split_ifs with caps off update delete provider associate
  · rfl
  · rw [members_bind, if_pos off]
    rfl
  all_goals
    rw [members_bind, if_neg off, handle]
  · rw [if_pos update]
    rfl
  · rw [if_neg update, if_pos delete]
    rfl
  · rw [if_neg update, if_neg delete, if_pos provider]
    rfl
  · rw [if_neg update, if_neg delete, if_neg provider, if_pos associate]
    rfl
  · rw [if_neg update, if_neg delete, if_neg provider, if_neg associate]
    rfl

/-- `OnClose`. -/
def onClose (os : Os ω) : Handler ω Unit :=
  setMembers (fun cb => { cb with channelClosed := true }) >>= fun _ =>
  onSyncEnd os false >>= fun _ =>
  fileDB >>= fun _ =>
  setMembers fun cb => { cb with spFileDB := none }

/-! ### What the handlers leave alone -/

theorem guarantees_applyDelete {R : Machine ω → Machine ω → Prop} [Std.Refl R]
    [IsTrans (Machine ω) R] [Blind R]
    (ignored : ∀ m db, R m { m with cb := { m.cb with spFileDB := db } }) (os : Os ω)
    (d : DeleteAppListPdu) : Guarantees R (applyDelete os d) := by
  have file : ∀ path, Guarantees R (deleteIfAny os path) := fun path =>
    Guarantees.ite ((guarantees_deleteFile os _ path).bind fun _ => Guarantees.pure _)
      (Guarantees.pure _)
  exact (guarantees_buildFindKey _ _).bind fun _ => guarantees_fileDB.bind fun _ =>
    (guarantees_require _).bind fun _ => (file _).bind fun _ => (file _).bind fun _ =>
      fun m => ignored m _

theorem quiet_applyAssociate (os : Os ω) (a : AssociateWindowIdPdu) :
    Guarantees Quiet (applyAssociate os a) :=
  guarantees_members.bind fun _ => (guarantees_require _).bind fun _ =>
    (guarantees_buildFindKey _ _).bind fun _ => guarantees_fileDB.bind fun _ =>
      (Guarantees.ite ((guarantees_require _).bind fun _ => Guarantees.pure _)
        (Guarantees.ite ((guarantees_require _).bind fun _ => Guarantees.pure _)
          (Guarantees.pure _))).bind fun _ => quiet_perform _

/-- A handler behind the handshake changes no member of the provider. -/
def KeepsProvider (x : Cursor → Handler ω Cursor) : Prop :=
  ∀ c, Guarantees (Keeps Callback.provider) (x c)

theorem keepsProvider_onUpdateAppList (os : Os ω) : KeepsProvider (onUpdateAppList os) := by
  intro c
  have read : Guarantees (Keeps Callback.provider) (readUpdate os c) := fun m => by
    rw [reads_only_heap os c m]
    exact rfl
  exact read.bind fun r =>
    (guarantees_applyUpdate (fun _ _ _ => rfl) os r.update r.icon).bind fun _ => Guarantees.pure _

theorem keepsProvider_onDeleteAppList (os : Os ω) : KeepsProvider (onDeleteAppList os) := by
  intro c
  have read : Guarantees (Keeps Callback.provider) (readDelete c : Handler ω _) := fun m => by
    rw [readDelete]
    split <;> exact rfl
  exact read.bind fun r => (guarantees_applyDelete (fun _ _ => rfl) os r.2).bind fun _ =>
    Guarantees.pure _

theorem quiet_onAssociateWindowId (os : Os ω) (c : Cursor) :
    Guarantees Quiet (onAssociateWindowId os c) := by
  have read : Guarantees Quiet (readAssociate c : Handler ω _) := fun m => by
    rw [readAssociate]
    split <;> exact ⟨rfl, rfl, rfl⟩
  exact guarantees_members.bind fun _ => (guarantees_require _).bind fun _ =>
    read.bind fun r => (quiet_applyAssociate os r.2).bind fun _ => Guarantees.pure _

theorem keepsProvider_onAssociateWindowId (os : Os ω) : KeepsProvider (onAssociateWindowId os) :=
  fun c => (quiet_onAssociateWindowId os c).weaken fun _ _ h => congrArg _ h.cb

/-- Only CAPS changes members of the provider. -/
theorem keepsProvider_dispatch (os : Os ω) {cmdId : UInt32} (other : cmdId ≠ cmdIdCaps) :
    KeepsProvider (dispatch os cmdId) := by
  intro c
  rw [dispatch, if_neg other]
  exact guarantees_members.bind fun _ => Guarantees.ite (guarantees_fail _) <|
    Guarantees.ite (keepsProvider_onUpdateAppList os c) <|
    Guarantees.ite (keepsProvider_onDeleteAppList os c) <|
    Guarantees.ite (Guarantees.pure _) <|
    Guarantees.ite (keepsProvider_onAssociateWindowId os c) (guarantees_fail _)

/-- No handler opens or closes the channel. -/
theorem keepsClosed_dispatch (os : Os ω) (cmdId : UInt32) (c : Cursor) :
    Guarantees (Keeps (·.channelClosed)) (dispatch os cmdId c) := by
  by_cases caps : cmdId = cmdIdCaps
  · rw [dispatch, if_pos caps]
    exact (handshakes_onCaps os c).weaken fun _ _ h => congrArg Session.channelClosed h.session
  · exact (keepsProvider_dispatch os caps c).weaken fun m m' h =>
      show m'.cb.provider.channelClosed = m.cb.provider.channelClosed from congrArg _ h

/-! ### The cursor moves on -/

/-- A handler that leaves the cursor where it was or further on. -/
def Consumes (x : Cursor → Handler ω Cursor) : Prop :=
  ∀ c c' m m', x c m = .ok c' m' → c'.len ≤ c.len

theorem consumes_onCaps (os : Os ω) : Consumes (onCaps os) := by
  intro c c' m m' run
  obtain ⟨c₁, m₁, read, rest⟩ := bind_eq_ok.mp run
  obtain ⟨_, m₂, -, last⟩ := bind_eq_ok.mp rest
  cases last
  rw [readServerCaps] at read
  split at read
  · rename_i caps body
    cases read
    exact len_le_of_runReader forward_readAppListServerCapsBody body
  · cases read

theorem consumes_onUpdateAppList (os : Os ω) : Consumes (onUpdateAppList os) := by
  intro c c' m m' run
  obtain ⟨r, m₁, read, rest⟩ := bind_eq_ok.mp run
  obtain ⟨_, m₂, -, last⟩ := bind_eq_ok.mp rest
  cases last
  obtain ⟨strings, m₃, readStrings, readRest⟩ := bind_eq_ok.mp read
  have front : strings.1.len ≤ c.len := by
    rw [readUpdateStrings] at readStrings
    split at readStrings
    · rename_i u body
      cases readStrings
      exact len_le_of_runReader forward_readAppListUpdateBody body
    · cases readStrings
  split at readRest
  · obtain ⟨icon, m₄, readIcon, last⟩ := bind_eq_ok.mp readRest
    cases last
    rw [readUpdateIcon] at readIcon
    split at readIcon
    · rename_i i body
      cases readIcon
      exact (len_le_of_runReader (forward_readAppListIconDataBody _) body).trans front
    · cases readIcon
  · cases readRest
    exact front

theorem consumes_onDeleteAppList (os : Os ω) : Consumes (onDeleteAppList os) := by
  intro c c' m m' run
  obtain ⟨r, m₁, read, rest⟩ := bind_eq_ok.mp run
  obtain ⟨_, m₂, -, last⟩ := bind_eq_ok.mp rest
  cases last
  rw [readDelete] at read
  split at read
  · rename_i d body
    cases read
    exact len_le_of_runReader forward_readAppListDeleteBody body
  · cases read

theorem consumes_onAssociateWindowId (os : Os ω) : Consumes (onAssociateWindowId os) := by
  intro c c' m m' run
  rw [onAssociateWindowId, members_bind] at run
  obtain ⟨_, m₁, -, run⟩ := bind_eq_ok.mp run
  obtain ⟨r, m₂, read, rest⟩ := bind_eq_ok.mp run
  obtain ⟨_, m₃, -, last⟩ := bind_eq_ok.mp rest
  cases last
  rw [readAssociate] at read
  split at read
  · rename_i a body
    cases read
    exact len_le_of_runReader forward_readAssociateWindowIdBody body
  · cases read

theorem consumes_dispatch (os : Os ω) (cmdId : UInt32) : Consumes (dispatch os cmdId) := by
  intro c c' m m' run
  rw [dispatch] at run
  split at run
  · exact consumes_onCaps os c c' m m' run
  rw [members_bind] at run
  split at run
  · cases run
  rw [handle] at run
  split at run
  · exact consumes_onUpdateAppList os c c' m m' run
  split at run
  · exact consumes_onDeleteAppList os c c' m m' run
  split at run
  · cases run
    exact Nat.le_refl _
  split at run
  · exact consumes_onAssociateWindowId os c c' m m' run
  · cases run

/-! ### One step -/

/-- What happens to a client: a PDU arrives, with the cursor behind its header;
Windows changes by itself; the channel is closed. -/
inductive Event (ω : Type) where
  | pdu (cmdId : UInt32) (c : Cursor)
  | world (w : ω)
  | close

/-- How a step ended: the failure, if any, the cursor behind the PDU and the calls
made. -/
structure Outcome (ω : Type) where
  failure : Option Failure
  cur : Cursor
  calls : List (Call ω)

/-- The step a handler takes. -/
def runHandler (x : Handler ω Cursor) (c : Cursor) (s : ClientState ω) :
    Outcome ω × ClientState ω :=
  match x s.start with
  | .ok c' m => (⟨none, c', m.log⟩, m.state)
  | .error e m => (⟨some e, c, m.log⟩, m.state)

/-- One event; a PDU on a closed channel is not looked at. -/
def step (os : Os ω) (s : ClientState ω) : Event ω → Outcome ω × ClientState ω
  | .pdu cmdId c =>
      if s.cb.channelClosed then (⟨none, c, []⟩, s) else runHandler (dispatch os cmdId c) c s
  | .world w => (⟨none, ⟨[], 0⟩, []⟩, { s with world := w })
  | .close => runHandler (onClose os >>= fun _ => pure ⟨[], 0⟩) ⟨[], 0⟩ s

section Step

variable {os : Os ω} {s : ClientState ω} {cmdId : UInt32} {c c' : Cursor} {m : Machine ω}

theorem step_of_closed (closed : s.cb.channelClosed = true) :
    step os s (.pdu cmdId c) = (⟨none, c, []⟩, s) := by
  rw [step, closed, if_pos rfl]

theorem step_of_ok (isOpen : s.cb.channelClosed = false)
    (run : dispatch os cmdId c s.start = .ok c' m) :
    step os s (.pdu cmdId c) = (⟨none, c', m.log⟩, m.state) := by
  rw [step, isOpen, if_neg Bool.false_ne_true, runHandler, run]

theorem step_of_error {e : Failure} (isOpen : s.cb.channelClosed = false)
    (run : dispatch os cmdId c s.start = .error e m) :
    step os s (.pdu cmdId c) = (⟨some e, c, m.log⟩, m.state) := by
  rw [step, isOpen, if_neg Bool.false_ne_true, runHandler, run]

theorem step_of_open (isOpen : s.cb.channelClosed = false) :
    step os s (.pdu cmdId c) = runHandler (dispatch os cmdId c) c s := by
  rw [step, isOpen, if_neg Bool.false_ne_true]

/-- A handler's calls and state are those of the client it ends with. -/
theorem runHandler_eq (x : Handler ω Cursor) (c : Cursor) (s : ClientState ω) :
    (runHandler x c s).1.calls = (final (x s.start)).log ∧
      (runHandler x c s).2 = (final (x s.start)).state := by
  rw [runHandler]
  cases x s.start <;> exact ⟨rfl, rfl⟩

/-- The end of the channel makes no call, and leaves it closed and without databases. -/
theorem step_close (os : Os ω) (s : ClientState ω) :
    (step os s .close).1.calls = [] ∧ (step os s .close).2 =
      { s with cb :=
        { s.cb with channelClosed := true, spFileDBSync := none, spFileDB := none } } := by
  have ran : final ((onClose os >>= fun _ => pure (⟨[], 0⟩ : Cursor)) s.start) =
      { s.start with cb :=
        { s.cb with channelClosed := true, spFileDBSync := none, spFileDB := none } } := by
    rw [onClose, bind_assoc, setMembers_bind, bind_assoc, bind_of_ok (onSyncEnd_false os _), fileDB]
    rw [bind_assoc, bind_assoc, members_bind]
    obtain ⟨⟨fileDB, sync⟩, world⟩ := s
    cases fileDB <;> rfl
  obtain ⟨calls, after⟩ := runHandler_eq (onClose os >>= fun _ => pure ⟨[], 0⟩) ⟨[], 0⟩ s
  rw [ran] at calls after
  exact ⟨calls, after⟩

end Step

/-- A step of the client. -/
abbrev Step (ω : Type) := Runs.Transition (ClientState ω) (Event ω) (Outcome ω)

/-! ### A buffer -/

/-- What `OnDataReceived` did with a buffer: its result, the cursor it ended with
and the steps it took. -/
structure Received (ω : Type) where
  failure : Option Failure
  cur : Cursor
  steps : List (Step ω)

/-- The loop of `OnDataReceived`; no result when the fuel is used up first. -/
def receiveLoop (os : Os ω) : Nat → ClientState ω → Cursor → Option (Received ω)
  | fuel, s, c =>
      if c.len ≠ 0 ∧ s.cb.channelClosed = false then
        match fuel with
        | 0 => none
        | fuel + 1 =>
            match readAppListHeader c with
            | (.error e, _) => some ⟨some e, c, []⟩
            | (.ok c', header) =>
                let t := Runs.take (step os) s (.pdu header.cmdId c')
                match t.output.failure with
                | some e => some ⟨some e, t.output.cur, [t]⟩
                | none =>
                    (receiveLoop os fuel t.after t.output.cur).map fun r =>
                      { r with steps := t :: r.steps }
      else some ⟨none, c, []⟩

/-- `OnDataReceived(cbSize, pBuffer)`. -/
def onDataReceived (os : Os ω) (s : ClientState ω) (buffer : List BYTE) : Option (Received ω) :=
  receiveLoop os (buffer.length / 8 + 1) s (.of buffer)

/-- A freshly made callback. -/
def ClientState.fresh (w : ω) : ClientState ω := ⟨{}, {}, w⟩

/-- A PDU was handed to its handler, which returned `S_OK`. -/
structure Served (t : Step ω) : Prop where
  isOpen : t.before.cb.channelClosed = false
  ok : t.output.failure = none

/-- The handler's run behind a step that served a PDU. -/
theorem Served.run {os : Os ω} {t : Step ω} (served : Served t) (taken : Runs.Taken (step os) t)
    {cmdId : UInt32} {c : Cursor} (input : t.input = .pdu cmdId c) :
    ∃ m, dispatch os cmdId c t.before.start = .ok t.output.cur m ∧
      t.output.calls = m.log ∧ t.after = m.state := by
  rw [Runs.Taken, input] at taken
  cases run : dispatch os cmdId c t.before.start with
  | ok c' m =>
      rw [step_of_ok served.isOpen run] at taken
      injection taken with output after
      exact ⟨m, by rw [← output], by rw [← output], after.symm⟩
  | error e m =>
      rw [step_of_error served.isOpen run] at taken
      injection taken with output after
      have failed := served.ok
      rw [← output] at failed
      cases failed

/-! ### Buffers as runs -/

variable {os : Os ω}

theorem receiveLoop_ended {fuel : Nat} {s : ClientState ω} {c : Cursor}
    (ended : ¬ (c.len ≠ 0 ∧ s.cb.channelClosed = false)) :
    receiveLoop os fuel s c = some ⟨none, c, []⟩ := by
  cases fuel <;> rw [receiveLoop, if_neg ended]

theorem receiveLoop_served (fuel : Nat) {s : ClientState ω} {c c' : Cursor} {header : Header}
    (more : c.len ≠ 0 ∧ s.cb.channelClosed = false)
    (read : readAppListHeader c = (.ok c', header)) {cur : Cursor} {calls : List (Call ω)}
    {s' : ClientState ω} (served : step os s (.pdu header.cmdId c') = (⟨none, cur, calls⟩, s')) :
    receiveLoop os (fuel + 1) s c = (receiveLoop os fuel s' cur).map fun r =>
      { r with steps := ⟨s, .pdu header.cmdId c', ⟨none, cur, calls⟩, s'⟩ :: r.steps } := by
  rw [receiveLoop, if_pos more]
  simp only [read, Runs.take, served]

/-- A served PDU leaves the cursor where it was or further on. -/
theorem len_of_step (os : Os ω) (s : ClientState ω) (cmdId : UInt32) (c : Cursor) :
    ((step os s (.pdu cmdId c)).1).cur.len ≤ c.len := by
  rw [step]
  split
  · exact Nat.le_refl _
  · rw [runHandler]
    split
    · rename_i c' m run
      exact consumes_dispatch os cmdId c c' _ m run
    · exact Nat.le_refl _

/-- Every PDU takes at least its header, so the loop ends before the fuel does. -/
theorem receiveLoop_isSome {fuel : Nat} {s : ClientState ω} {c : Cursor}
    (enough : c.len < 8 * fuel) : (receiveLoop os fuel s c).isSome := by
  induction fuel generalizing s c with
  | zero => omega
  | succ fuel ih =>
      rw [receiveLoop]
      split
      · simp only
        split
        · rfl
        · rename_i c' header read
          have taken := len_of_readAppListHeader read
          split
          · rfl
          · rw [Option.isSome_map]
            have moved := len_of_step os s header.cmdId c'
            refine ih ?_
            show (step os s (.pdu header.cmdId c')).1.cur.len < _
            omega
      · rfl

theorem onDataReceived_isSome (os : Os ω) (s : ClientState ω) (buffer : List BYTE) :
    (onDataReceived os s buffer).isSome :=
  receiveLoop_isSome (by show buffer.length < _; omega)

/-- The steps of a buffer are a run of the client. -/
theorem steps_of_receiveLoop {fuel : Nat} {s : ClientState ω} {c : Cursor} {r : Received ω}
    (received : receiveLoop os fuel s c = some r) :
    r.steps = Runs.transitions (step os) s (r.steps.map (·.input)) := by
  induction fuel generalizing s c r with
  | zero =>
      rw [receiveLoop] at received
      split at received <;> cases received
      rfl
  | succ fuel ih =>
      rw [receiveLoop] at received
      split at received
      · simp only at received
        split at received
        · cases received
          rfl
        · split at received
          · cases received
            rfl
          · obtain ⟨r', rest, rfl⟩ := Option.map_eq_some_iff.mp received
            exact congrArg (List.cons _) (ih rest)
      · cases received
        rfl

/-- What reaches the plug-in: a buffer, a change of Windows, the end of the
channel. -/
inductive Input (ω : Type) where
  | data (buffer : List BYTE)
  | world (w : ω)
  | close

/-- The client after an input. -/
def receive (os : Os ω) (s : ClientState ω) : Input ω → ClientState ω
  | .data buffer =>
      ((onDataReceived os s buffer).bind fun r => r.steps.getLast?.map (·.after)).getD s
  | .world w => (step os s (.world w)).2
  | .close => (step os s .close).2

/-- Whatever buffers, changes and closings come in, the client ends where a run of
single steps ends. -/
theorem receive_eq_finish (os : Os ω) (s : ClientState ω) (inputs : List (Input ω)) :
    ∃ es, inputs.foldl (receive os) s = Runs.finish (step os) s es := by
  induction inputs generalizing s with
  | nil => exact ⟨[], rfl⟩
  | cons input inputs ih =>
      have one : ∃ es, receive os s input = Runs.finish (step os) s es := by
        cases input with
        | world w => exact ⟨[.world w], rfl⟩
        | close => exact ⟨[.close], rfl⟩
        | data buffer =>
            obtain ⟨r, received⟩ := Option.isSome_iff_exists.mp (onDataReceived_isSome os s buffer)
            refine ⟨r.steps.map (·.input), ?_⟩
            rw [Runs.finish_eq_getLast, ← steps_of_receiveLoop received]
            show ((onDataReceived os s buffer).bind _).getD s = _
            rw [received, Option.bind_some]
      obtain ⟨es, first⟩ := one
      obtain ⟨es', rest⟩ := ih (receive os s input)
      refine ⟨es ++ es', ?_⟩
      rw [Runs.finish_append, ← first]
      exact rest

end Wslg.Client
