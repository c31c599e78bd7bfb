/-
The life of a channel: any number of `OnDataReceived` calls and one `OnClose`, each
on its own thread.

A call tests the closed flag without the lock, enters the critical section, and then
takes turns of its loop and leaves; `OnClose` sets the flag without the lock, enters,
ends the sync, drops the database and leaves. `move` is one such step of one thread, or
a change of Windows; a thread that waits for the lock does not move. A step tells which
branch of the loop a PDU has led to. The handlers run with the assertions of the source,
and one that fails is an access violation.

`channel_life` says what holds in every interleaving. What carries it is `Alive`: the
thread that holds the lock is the one inside, and once `OnClose` is inside no call gets
past the test at the head of its loop.
-/

import Wslg.Client.Handshake
import Wslg.Client.Safety
import Wslg.Client.Steps

namespace Wslg.Client

open Wslg.Protocol Wslg.StateExcept Wslg.Runs

variable {ω : Type}

/-! ### The assertion -/

/-- `assert(m_spFileDBSync.Get())`. -/
def assertFileDBSync : Handler ω Unit :=
  members >>= fun cb => if cb.spFileDBSync.isSome then pure () else violate

theorem assertFileDBSync_eq {m : Machine ω} (sync : m.cb.spFileDBSync.isSome = true) :
    assertFileDBSync m = .ok () m := by
  rw [assertFileDBSync, members_bind, if_pos sync]
  rfl

namespace Asserting

theorem startSync_eq (os : Os ω) (flags : UInt32) {m : Machine ω} (intact : Intact m.cb.vital) :
    startSync assertFileDBSync os flags m = Client.startSync os flags m := by
  rw [Client.startSync_eq, startSync]
  by_cases flagged : has flags hintSyncStart
  · rw [if_pos flagged, if_pos flagged]
    have passed : (onSyncStart os >>= fun _ => assertFileDBSync) m =
        (onSyncStart os >>= fun _ => pure ()) m :=
      (safe_onSyncStart os).bind_congr
        (fun _ m' syncing => assertFileDBSync_eq syncing.fileDBSync) intact
    rw [passed]
    exact congrFun (bind_pure _) m
  · rw [if_neg flagged, if_neg flagged]

theorem keepInSync_eq {flags : UInt32} (p : Prepared) (hasIcon : Bool) {m : Machine ω}
    (asked : SyncIfAsked flags m.cb.vital) :
    keepInSync assertFileDBSync flags p hasIcon m = Client.keepInSync flags p hasIcon m := by
  rw [Client.keepInSync_eq, keepInSync]
  by_cases flagged : has flags hintSync
  · rw [if_pos flagged, if_pos flagged, bind_of_ok (assertFileDBSync_eq (asked.fileDBSync flagged))]
  · rw [if_neg flagged, if_neg flagged]

theorem applyUpdate_eq (os : Os ω) (u : UpdateAppListPdu) (icon : IconData) {m : Machine ω}
    (intact : Intact m.cb.vital) :
    applyUpdate assertFileDBSync os u icon m = Client.applyUpdate os u icon m := by
  refine (bind_congr_left (startSync_eq os u.flags intact)).trans ?_
  refine (safe_startSync os u.flags).bind_congr (fun _ m₁ intact => ?_) intact
  refine (safe_prepare os u).bind_congr (fun p m₂ asked => ?_) intact
  refine (safe_register p).bind_congr (fun _ m₃ asked => ?_) asked
  refine (safe_writeIcon os u icon _).bind_congr (fun hasIcon m₄ asked => ?_) asked
  refine (safe_writeLink os u p hasIcon).bind_congr (fun _ m₅ asked => ?_) asked
  exact bind_congr_left (keepInSync_eq p hasIcon asked)

end Asserting

/-- No assertion ever fails: on members that are intact the branches with assertions do what
those without do. -/
theorem run_assertFileDBSync (os : Os ω) (b : Branch) {c : Cursor} (start : Exact c)
    {m : Machine ω} (intact : Intact m.cb.vital) :
    b.run assertFileDBSync os c m = b.run (pure ()) os c m := by
  cases b with
  | onUpdateAppList =>
      refine (safe_readUpdate os start).bind_congr (fun r m₁ read => ?_) intact
      exact bind_congr_left (Asserting.applyUpdate_eq os r.update r.icon read.2)
  | _ => rfl

/-! ### Threads -/

/-- Where a call of `OnDataReceived` is: before the test without the lock, before the
lock, at the head of its loop, behind the header of a PDU, before the lock is left, and
done. -/
inductive CallPhase where
  | called (buffer : List BYTE)
  | entering (buffer : List BYTE)
  | atHead (c : Cursor)
  | handling (cmdId : UInt32) (c : Cursor)
  | leaving
  | returned

/-- Where `OnClose` is: before it sets the flag, before the lock, before it ends the
sync, before it drops the database, before the lock is left, and done. -/
inductive ClosePhase where
  | called
  | entering
  | endingSync
  | releasing
  | leaving
  | returned
deriving DecidableEq

/-- Inside the critical section. -/
def CallPhase.Inside : CallPhase → Prop
  | atHead _ => True
  | handling _ _ => True
  | leaving => True
  | _ => False

def ClosePhase.Inside : ClosePhase → Prop
  | endingSync => True
  | releasing => True
  | leaving => True
  | _ => False

inductive Thread where
  | call (i : Nat)
  | close
deriving DecidableEq

/-- A channel: the client, who holds the lock, and where the threads are. -/
structure Channel (ω : Type) where
  client : ClientState ω
  owner : Option Thread
  calls : Nat → CallPhase
  closing : ClosePhase

/-- A new callback, and calls with these buffers to come. -/
def Channel.fresh (w : ω) (buffers : Nat → List BYTE) : Channel ω :=
  ⟨.fresh w, none, fun i => .called (buffers i), .called⟩

def Channel.setCall (s : Channel ω) (i : Nat) (p : CallPhase) : Channel ω :=
  { s with calls := Function.update s.calls i p }

/-- What a step did to the client: the branch that a PDU was handled in, if one was, how
that ended, and the calls made. -/
structure Effect (ω : Type) where
  entered : Option Branch := none
  failure : Option Failure := none
  calls : List (Call ω) := []

/-- The loop test and the header. -/
def readHead (s : ClientState ω) (c : Cursor) : CallPhase :=
  if c.len ≠ 0 ∧ s.cb.channelClosed = false then
    match readAppListHeader c with
    | (.error _, _) => .leaving
    | (.ok c', header) => .handling header.cmdId c'
  else .leaving

/-- One step of a call. -/
def moveCall (os : Os ω) (s : Channel ω) (i : Nat) : Effect ω × Channel ω :=
  match s.calls i with
  | .called buffer =>
      ({}, s.setCall i (if s.client.cb.channelClosed then .returned else .entering buffer))
  | .entering buffer =>
      if s.owner = none then
        ({}, { s with owner := some (.call i) }.setCall i (.atHead (.of buffer)))
      else ({}, s)
  | .atHead c => ({}, s.setCall i (readHead s.client c))
  | .handling cmdId c =>
      let entered := branch cmdId s.client.cb.handShakeComplated
      let (out, client) := runHandler (entered.run assertFileDBSync os c) c s.client
      (⟨some entered, out.failure, out.calls⟩, { s with client }.setCall i
        (if out.failure.isNone then .atHead out.cur else .leaving))
  | .leaving => ({}, { s with owner := none }.setCall i .returned)
  | .returned => ({}, s)

/-- A piece of `OnClose`. -/
def runClose (x : Handler ω Unit) (s : ClientState ω) : Effect ω × ClientState ω :=
  match x s.start with
  | .ok _ m => ({ calls := m.log }, m.state)
  | .error e m => ({ failure := some e, calls := m.log }, m.state)

/-- `m_spFileDB->OnClose(); m_spFileDB = nullptr;` -/
def releaseFileDB : Handler ω Unit :=
  fileDB >>= fun _ => setMembers fun cb => { cb with spFileDB := none }

/-- The pieces are those of `OnClose`. -/
theorem onClose_eq_pieces (os : Os ω) :
    onClose os = setMembers (fun cb => { cb with channelClosed := true }) >>= fun _ =>
      onSyncEnd os false >>= fun _ => releaseFileDB := rfl

/-- One step of `OnClose`. -/
def moveClose (os : Os ω) (s : Channel ω) : Effect ω × Channel ω :=
  match s.closing with
  | .called =>
      let (out, client) :=
        runClose (setMembers fun cb => { cb with channelClosed := true }) s.client
      (out, { s with client, closing := .entering })
  | .entering =>
      if s.owner = none then ({}, { s with owner := some .close, closing := .endingSync })
      else ({}, s)
  | .endingSync =>
      let (out, client) := runClose (onSyncEnd os false) s.client
      (out, { s with client, closing := .releasing })
  | .releasing =>
      let (out, client) := runClose releaseFileDB s.client
      (out, { s with client, closing := .leaving })
  | .leaving => ({}, { s with owner := none, closing := .returned })
  | .returned => ({}, s)

inductive Move (ω : Type) where
  | thread (t : Thread)
  | world (w : ω)

/-- One step of one thread, or a change of Windows. -/
def move (os : Os ω) (s : Channel ω) : Move ω → Effect ω × Channel ω
  | .thread (.call i) => moveCall os s i
  | .thread .close => moveClose os s
  | .world w => ({}, { s with client := { s.client with world := w } })

/-! ### One PDU -/

/-- What a handler run inside the critical section does to an intact client. -/
structure HandledWell (cmdId : UInt32) (s : ClientState ω) (out : Outcome ω) (s' : ClientState ω) :
    Prop where
  noViolation : out.failure ≠ some .accessViolation
  cur : Exact out.cur
  intact : Intact s'.cb.vital
  closed : s'.cb.channelClosed = s.cb.channelClosed
  handShake : s'.cb.handShakeComplated = true →
    s.cb.handShakeComplated = true ∨ cmdId = cmdIdCaps ∧ out.failure = none

/-- Only a CAPS that succeeds completes the handshake. -/
theorem handShake_of_dispatch {os : Os ω} {cmdId : UInt32} {c : Cursor} {m : Machine ω}
    (complete : (final (dispatch os cmdId c m)).cb.handShakeComplated = true) :
    m.cb.handShakeComplated = true ∨
      cmdId = cmdIdCaps ∧ isOk (dispatch os cmdId c m) = true := by
  by_cases caps : cmdId = cmdIdCaps
  · have isCaps : dispatch os cmdId c = onCaps os c := by rw [dispatch, if_pos caps]
    rw [isCaps] at complete ⊢
    cases run : onCaps os c m with
    | ok c' m' => exact Or.inr ⟨caps, rfl⟩
    | error e m' =>
        rw [run] at complete
        exact Or.inl (flag_of_onCaps_error run complete)
  · have kept := keepsProvider_dispatch os caps c m
    have flag : (final (dispatch os cmdId c m)).cb.provider.handShakeComplated =
        m.cb.provider.handShakeComplated := congrArg _ kept
    exact Or.inl (flag.symm.trans complete)

theorem handledWell (os : Os ω) (cmdId : UInt32) {c : Cursor} (start : Exact c)
    {s : ClientState ω} (intact : Intact s.cb.vital) :
    HandledWell cmdId s
      (runHandler ((branch cmdId s.cb.handShakeComplated).run assertFileDBSync os c) c s).1
      (runHandler ((branch cmdId s.cb.handShakeComplated).run assertFileDBSync os c) c s).2 := by
  have same : runHandler ((branch cmdId s.cb.handShakeComplated).run assertFileDBSync os c) c s =
      runHandler (dispatch os cmdId c) c s := by
    rw [runHandler, runHandler, run_assertFileDBSync os _ start intact, dispatch_eq_run]
    rfl
  rw [same, runHandler]
  have handled := safe_dispatch os cmdId start s.start intact
  have closed := keepsClosed_dispatch os cmdId c s.start
  have handShake := @handShake_of_dispatch _ os cmdId c s.start
  cases run : dispatch os cmdId c s.start with
  | ok c' m =>
      rw [run] at closed handShake
      obtain ⟨moved, intact'⟩ := handled.1 c' m run
      exact ⟨(Option.some_ne_none _).symm, start.moved moved, intact', closed,
        fun complete => (handShake complete).imp_right fun caps => ⟨caps.1, rfl⟩⟩
  | error e m =>
      rw [run] at closed handShake
      obtain ⟨noViolation, intact'⟩ := handled.2 e m run
      refine ⟨fun h => noViolation (Option.some.inj h), start, intact', closed, fun complete => ?_⟩
      rcases handShake complete with before | ⟨-, ok⟩
      · exact Or.inl before
      · cases ok

/-! ### The invariant -/

/-- `OnClose` is inside the critical section or past it. -/
def ClosePhase.Late : ClosePhase → Prop
  | called => False
  | entering => False
  | _ => True

/-- `OnClose` has ended the sync. -/
def ClosePhase.Ended : ClosePhase → Prop
  | releasing => True
  | leaving => True
  | returned => True
  | _ => False

/-- `OnClose` has dropped the database. -/
def ClosePhase.Released : ClosePhase → Prop
  | leaving => True
  | returned => True
  | _ => False

/-- What holds between the steps of the threads. -/
structure Alive (s : Channel ω) : Prop where
  callInside : ∀ i, (s.calls i).Inside ↔ s.owner = some (.call i)
  closeInside : s.closing.Inside ↔ s.owner = some .close
  atHead : ∀ i c, s.calls i = .atHead c → Exact c
  handling : ∀ i cmdId c, s.calls i = .handling cmdId c → Exact c ∧ ¬ s.closing.Late
  serverCaps : s.client.cb.serverCaps.NulInside
  fileDB : ¬ s.closing.Released → s.client.cb.spFileDB.isSome = true
  closed : s.closing ≠ .called → s.client.cb.channelClosed = true
  sync : s.closing.Ended → s.client.cb.spFileDBSync = none

theorem alive_fresh (w : ω) (buffers : Nat → List BYTE) : Alive (Channel.fresh w buffers) where
  callInside _ := ⟨fun h => h.elim, fun h => by cases h⟩
  closeInside := ⟨fun h => h.elim, fun h => by cases h⟩
  atHead _ _ h := by cases h
  handling _ _ _ h := by cases h
  serverCaps := ServerCapsPdu.nulInside_empty
  fileDB _ := rfl
  closed h := absurd rfl h
  sync h := h.elim

theorem Alive.intact {s : Channel ω} (alive : Alive s) (held : ¬ s.closing.Released) :
    Intact s.client.cb.vital :=
  ⟨alive.fileDB held, alive.serverCaps⟩

/-- A step of call `i`: what is to be shown of the new phase, owner and client. -/
theorem alive_setCall {s : Channel ω} (alive : Alive s) (i : Nat) {owner : Option Thread}
    {client : ClientState ω} {p : CallPhase} (inside : p.Inside ↔ owner = some (.call i))
    (others : ∀ t, t ≠ .call i → (owner = some t ↔ s.owner = some t))
    (atHead : ∀ c, p = .atHead c → Exact c)
    (handling : ∀ cmdId c, p = .handling cmdId c → Exact c ∧ ¬ s.closing.Late)
    (serverCaps : client.cb.serverCaps.NulInside)
    (fileDB : ¬ s.closing.Released → client.cb.spFileDB.isSome = true)
    (closed : s.closing ≠ .called → client.cb.channelClosed = true)
    (sync : s.closing.Ended → client.cb.spFileDBSync = none) :
    Alive ({ s with client, owner }.setCall i p) := by
  have at_ : Function.update s.calls i p i = p := Function.update_self ..
  have off : ∀ j, j ≠ i → Function.update s.calls i p j = s.calls j :=
    fun j other => Function.update_of_ne other ..
  constructor
  · intro j
    show (Function.update s.calls i p j).Inside ↔ owner = some (.call j)
    by_cases same : j = i
    · rw [same, at_]
      exact inside
    · rw [off j same, others (.call j) fun h => same (Thread.call.inj h)]
      exact alive.callInside j
  · exact alive.closeInside.trans (others .close fun h => by cases h).symm
  · intro j c h
    by_cases same : j = i
    · exact atHead c (at_ ▸ same ▸ h)
    · exact alive.atHead j c (off j same ▸ h)
  · intro j cmdId c h
    by_cases same : j = i
    · exact handling cmdId c (at_ ▸ same ▸ h)
    · exact alive.handling j cmdId c (off j same ▸ h)
  · exact serverCaps
  · exact fileDB
  · exact closed
  · exact sync

/-- The handlers that need the handshake. -/
def Branch.NeedsHandShake (b : Branch) : Prop :=
  b ∈ [Branch.onUpdateAppList, .onDeleteAppList, .onAssociateWindowId]

instance (b : Branch) : Decidable b.NeedsHandShake := inferInstanceAs (Decidable (_ ∈ _))

/-- The chain of command ids leads to one of these only behind the handshake. -/
theorem handShake_of_branch {cmdId : UInt32} {handShakeComplated : Bool}
    (needs : (branch cmdId handShakeComplated).NeedsHandShake) : handShakeComplated = true := by
  by_contra off
  have leads : branch cmdId handShakeComplated = .onCaps ∨
      branch cmdId handShakeComplated = .refused := by
    unfold branch
    split
    · exact Or.inl rfl
    · exact Or.inr (if_pos (Bool.eq_false_iff.mpr off))
  rcases leads with caps | refused
  · rw [caps] at needs
    exact absurd needs (by decide)
  · rw [refused] at needs
    exact absurd needs (by decide)

/-- What every step does: it keeps the invariant, ends in no violation, handles PDUs
over a database and not after the end, enters a handler only behind the handshake if the
handler needs one, and completes the handshake by a CAPS only. -/
structure MovedWell (s : Channel ω) (out : Effect ω) (s' : Channel ω) : Prop where
  alive : Alive s'
  noViolation : out.failure ≠ some .accessViolation
  fileDB : out.entered ≠ none → s.client.cb.spFileDB.isSome = true
  done : s.closing = .returned → out.entered = none ∧ out.calls = []
  entered : ∀ b, out.entered = some b → b.NeedsHandShake → s.client.cb.handShakeComplated = true
  handShake : s'.client.cb.handShakeComplated = true →
    s.client.cb.handShakeComplated = true ∨ out.entered = some .onCaps ∧ out.failure = none

/-- A step without an effect. -/
theorem MovedWell.still {s s' : Channel ω} (alive : Alive s')
    (handShake : s'.client.cb.handShakeComplated = true →
      s.client.cb.handShakeComplated = true) : MovedWell s {} s' where
  alive := alive
  noViolation := (Option.some_ne_none _).symm
  fileDB h := absurd rfl h
  done _ := ⟨rfl, rfl⟩
  entered _ h := nomatch h
  handShake h := Or.inl (handShake h)

theorem runClose_endSync (os : Os ω) (client : ClientState ω) :
    runClose (onSyncEnd os false) client =
      ({}, { client with cb := { client.cb with spFileDBSync := none } }) := by
  rw [runClose, onSyncEnd_false]
  rfl

theorem runClose_release {client : ClientState ω} (there : client.cb.spFileDB.isSome = true) :
    runClose releaseFileDB client =
      ({}, { client with cb := { client.cb with spFileDB := none } }) := by
  obtain ⟨db, here⟩ := Option.isSome_iff_exists.mp there
  have held : (fileDB : Handler ω FileDB) client.start = .ok db client.start := by
    rw [fileDB, members_bind, show client.start.cb.spFileDB = some db from here]
    rfl
  rw [runClose, releaseFileDB, bind_of_ok held]
  rfl

section Moves

variable {s : Channel ω} (alive : Alive s)

include alive

/-- A step of call `i` that leaves the client. -/
theorem movedWell_setCall (i : Nat) {owner : Option Thread} {p : CallPhase}
    (inside : p.Inside ↔ owner = some (.call i))
    (others : ∀ t, t ≠ .call i → (owner = some t ↔ s.owner = some t))
    (atHead : ∀ c, p = .atHead c → Exact c)
    (handling : ∀ cmdId c, p = .handling cmdId c → Exact c ∧ ¬ s.closing.Late) :
    MovedWell s {} ({ s with owner }.setCall i p) :=
  .still (alive_setCall alive i inside others atHead handling alive.serverCaps alive.fileDB
    alive.closed alive.sync) id

/-- Behind the test and the header: a PDU only of an open channel. -/
theorem readHead_cases {c : Cursor} (start : Exact c) :
    readHead s.client c = .leaving ∨
      ∃ cmdId c', readHead s.client c = .handling cmdId c' ∧ Exact c' ∧ ¬ s.closing.Late := by
  unfold readHead
  by_cases more : c.len ≠ 0 ∧ s.client.cb.channelClosed = false
  · rw [if_pos more]
    have early : ¬ s.closing.Late := by
      intro late
      have begun : s.closing ≠ .called := fun h => by
        rw [h] at late
        exact late
      rw [alive.closed begun] at more
      cases more.2
    cases read : readAppListHeader c with
    | mk result header =>
        cases result with
        | error e => exact Or.inl rfl
        | ok c' =>
            have moved := readerSafe_header.moved {} c c' start trivial (by rw [read])
            exact Or.inr ⟨header.cmdId, c', rfl, start.moved moved, early⟩
  · rw [if_neg more]
    exact Or.inl rfl

theorem movedWell_moveCall (os : Os ω) (i : Nat) :
    MovedWell s (moveCall os s i).1 (moveCall os s i).2 := by
  have inside := alive.callInside i
  have same : ∀ t, t ≠ Thread.call i → (s.owner = some t ↔ s.owner = some t) := fun _ _ => Iff.rfl
  unfold moveCall
  cases phase : s.calls i with
  | called buffer =>
      rw [phase] at inside
      refine movedWell_setCall alive i ?_ same ?_ ?_ <;>
        cases s.client.cb.channelClosed <;> simp_all [CallPhase.Inside]
  | entering buffer =>
      by_cases free : s.owner = none
      · simp only [if_pos free]
        refine movedWell_setCall alive i ⟨fun _ => rfl, fun _ => trivial⟩ ?_ ?_ ?_
        · intro t other
          rw [free]
          exact ⟨fun h => absurd (Option.some.inj h).symm other, fun h => by cases h⟩
        · intro c h
          cases h
          exact exact_of buffer
        · intro cmdId c h
          cases h
      · simp only [if_neg free]
        exact .still alive id
  | atHead c =>
      rw [phase] at inside
      have owner := inside.mp trivial
      rcases readHead_cases alive (alive.atHead i c phase) with
        head | ⟨cmdId, c', head, start, early⟩
      · simp only [head]
        refine movedWell_setCall alive i ⟨fun _ => owner, fun _ => trivial⟩ same ?_ ?_
        · intro c h
          cases h
        · intro cmdId c h
          cases h
      · simp only [head]
        refine movedWell_setCall alive i ⟨fun _ => owner, fun _ => trivial⟩ same ?_ ?_
        · intro c h
          cases h
        · intro cmdId c h
          cases h
          exact ⟨start, early⟩
  | handling cmdId c =>
      rw [phase] at inside
      have owner := inside.mp trivial
      obtain ⟨start, early⟩ := alive.handling i cmdId c phase
      have held : ¬ s.closing.Released := by
        intro released
        apply early
        cases closing : s.closing <;> rw [closing] at released <;> trivial
      have well := handledWell os cmdId start (alive.intact held)
      constructor
      · refine alive_setCall alive i ?_ same ?_ ?_ well.intact.serverCaps
          (fun _ => well.intact.fileDB) ?_ ?_
        · split
          · exact ⟨fun _ => owner, fun _ => trivial⟩
          · exact ⟨fun _ => owner, fun _ => trivial⟩
        · intro c' h
          split at h
          · cases h
            exact well.cur
          · cases h
        · intro cmdId' c' h
          split at h <;> cases h
        · intro begun
          exact well.closed.trans (alive.closed begun)
        · intro ended
          exact absurd (by cases closing : s.closing <;> rw [closing] at ended <;> trivial) early
      · exact well.noViolation
      · intro _
        exact alive.fileDB held
      · intro returned
        exact absurd (by rw [returned]; trivial) early
      · rintro _ ⟨⟩ needs
        exact handShake_of_branch needs
      · intro complete
        refine (well.handShake complete).imp_right fun caps => ⟨?_, caps.2⟩
        exact congrArg some (if_pos caps.1)
  | leaving =>
      rw [phase] at inside
      have owner := inside.mp trivial
      refine movedWell_setCall alive i ⟨fun h => h.elim, fun h => by cases h⟩ ?_ ?_ ?_
      · intro t other
        rw [owner]
        exact ⟨fun h => (by cases h), fun h => absurd (Option.some.inj h).symm other⟩
      · intro c h
        cases h
      · intro cmdId c h
        cases h
  | returned => exact .still alive id

/-- A step of `OnClose`: what is to be shown of the new phase, owner and client. -/
theorem alive_setClosing {owner : Option Thread} {client : ClientState ω} {closing : ClosePhase}
    (inside : closing.Inside ↔ owner = some .close)
    (others : ∀ i, owner = some (.call i) ↔ s.owner = some (.call i))
    (early : closing.Late → ∀ i cmdId c, s.calls i ≠ .handling cmdId c)
    (serverCaps : client.cb.serverCaps.NulInside)
    (fileDB : ¬ closing.Released → client.cb.spFileDB.isSome = true)
    (closed : client.cb.channelClosed = true)
    (sync : closing.Ended → client.cb.spFileDBSync = none) :
    Alive { s with client, owner, closing } where
  callInside i := (alive.callInside i).trans (others i).symm
  closeInside := inside
  atHead := alive.atHead
  handling i cmdId c h := ⟨(alive.handling i cmdId c h).1, fun late => early late i cmdId c h⟩
  serverCaps := serverCaps
  fileDB := fileDB
  closed _ := closed
  sync := sync

/-- With the lock in the hands of another, no call handles a PDU. -/
theorem no_handling (other : ∀ i, s.owner ≠ some (.call i)) (i : Nat) (cmdId : UInt32)
    (c : Cursor) :
    s.calls i ≠ .handling cmdId c := by
  intro h
  exact other i ((alive.callInside i).mp (by rw [h]; trivial))

theorem movedWell_moveClose (os : Os ω) : MovedWell s (moveClose os s).1 (moveClose os s).2 := by
  have inside := alive.closeInside
  have same : ∀ i, s.owner = some (.call i) ↔ s.owner = some (.call i) := fun _ => Iff.rfl
  unfold moveClose
  cases phase : s.closing with
  | called =>
      rw [phase] at inside
      refine .still (alive_setClosing alive ⟨fun h => h.elim, fun h => inside.mpr h⟩ same
        (fun late => late.elim) alive.serverCaps (fun _ => ?_) rfl fun ended => ended.elim) id
      exact alive.fileDB (by rw [phase]; exact id)
  | entering =>
      rw [phase] at inside
      have begun : s.closing ≠ .called := by
        rw [phase]
        decide
      by_cases free : s.owner = none
      · simp only [if_pos free]
        refine .still (alive_setClosing alive ⟨fun _ => rfl, fun _ => trivial⟩ ?_ ?_
          alive.serverCaps (fun _ => alive.fileDB ?_) (alive.closed begun) fun h => h.elim) id
        · intro i
          rw [free]
          exact ⟨fun h => (by cases h), fun h => (by cases h)⟩
        · intro _
          exact no_handling alive fun i h => by rw [free] at h; cases h
        · rw [phase]
          exact id
      · simp only [if_neg free]
        exact .still alive id
  | endingSync =>
      rw [phase] at inside
      have owner := inside.mp trivial
      have begun : s.closing ≠ .called := by
        rw [phase]
        decide
      simp only [runClose_endSync]
      refine .still (alive_setClosing alive ⟨fun _ => owner, fun _ => trivial⟩ same ?_
        alive.serverCaps (fun _ => alive.fileDB ?_) (alive.closed begun) fun _ => rfl) id
      · intro _
        exact no_handling alive fun i h => by rw [owner] at h; cases h
      · rw [phase]
        exact id
  | releasing =>
      rw [phase] at inside
      have owner := inside.mp trivial
      have begun : s.closing ≠ .called := by
        rw [phase]
        decide
      have there := alive.fileDB (by rw [phase]; exact id)
      simp only [runClose_release there]
      refine .still (alive_setClosing alive ⟨fun _ => owner, fun _ => trivial⟩ same ?_
        alive.serverCaps (fun held => absurd trivial held) (alive.closed begun) fun _ => ?_) id
      · intro _
        exact no_handling alive fun i h => by rw [owner] at h; cases h
      · exact alive.sync (by rw [phase]; trivial)
  | leaving =>
      rw [phase] at inside
      have owner := inside.mp trivial
      have begun : s.closing ≠ .called := by
        rw [phase]
        decide
      refine .still (alive_setClosing alive ⟨fun h => h.elim, fun h => (by cases h)⟩ ?_ ?_
        alive.serverCaps (fun held => absurd trivial held) (alive.closed begun) fun _ => ?_) id
      · intro i
        rw [owner]
        exact ⟨fun h => (by cases h), fun h => (by cases h)⟩
      · intro _
        exact no_handling alive fun i h => by rw [owner] at h; cases h
      · exact alive.sync (by rw [phase]; trivial)
  | returned => exact .still alive id

theorem movedWell_move (os : Os ω) (e : Move ω) : MovedWell s (move os s e).1 (move os s e).2 := by
  cases e with
  | thread t =>
      cases t with
      | call i => exact movedWell_moveCall alive os i
      | close => exact movedWell_moveClose alive os
  | world w =>
      refine .still ?_ id
      exact { alive with }

end Moves

/-! ### Every interleaving -/

/-- A step of the channel. -/
abbrev ChannelStep (ω : Type) := Transition (Channel ω) (Move ω) (Effect ω)

/-- The handler of UPDATE, DELETE or ASSOCIATE starts. -/
def StartsHandler (t : ChannelStep ω) : Prop := ∃ b, t.output.entered = some b ∧ b.NeedsHandShake

/-- A CAPS handler returned success. -/
def CapsSucceeded (t : ChannelStep ω) : Prop :=
  t.output.entered = some .onCaps ∧ t.output.failure = none

/-- What the life of a channel promises about a step and the steps before it. -/
structure LivesWell (before : List (ChannelStep ω)) (t : ChannelStep ω) : Prop where
  handShake : StartsHandler t → ∃ t' ∈ before, CapsSucceeded t'
  fileDB : t.output.entered ≠ none → t.before.client.cb.spFileDB.isSome = true
  assertions : t.output.failure ≠ some .accessViolation
  closed : t.after.closing = .returned → t.after.client.cb.spFileDBSync = none
  done : t.before.closing = .returned → t.output.entered = none ∧ t.output.calls = []

/-- A handshake was completed by a CAPS. -/
def Earned (before : List (ChannelStep ω)) (s : Channel ω) : Prop :=
  s.client.cb.handShakeComplated = true → ∃ t ∈ before, CapsSucceeded t

/-- In every interleaving of any number of `OnDataReceived` calls with `OnClose`, and
whatever Windows answers, every step lives well: `es` are the steps before it. -/
theorem channel_life (os : Os ω) (w : ω) (buffers : Nat → List BYTE) (es : List (Move ω))
    (e : Move ω) :
    LivesWell (transitions (move os) (.fresh w buffers) es)
      (take (move os) (finish (move os) (.fresh w buffers) es) e) := by
  have kept : ∀ ts (t : ChannelStep ω), Taken (move os) t → Alive t.before ∧ Earned ts t.before →
      Alive t.after ∧ Earned (ts ++ [t]) t.after := by
    rintro ts t taken ⟨alive, earned⟩
    have well := movedWell_move alive os t.input
    rw [show move os t.before t.input = (t.output, t.after) from taken] at well
    refine ⟨well.alive, fun complete => ?_⟩
    rcases well.handShake complete with before | caps
    · obtain ⟨t', mem, succeeded⟩ := earned before
      exact ⟨t', List.mem_append_left _ mem, succeeded⟩
    · exact ⟨t, List.mem_append_right _ List.mem_cons_self, caps⟩
  have start : Alive (Channel.fresh w buffers) ∧ Earned [] (Channel.fresh w buffers) :=
    ⟨alive_fresh w buffers, fun h => by cases h⟩
  obtain ⟨alive, earned⟩ := invariant_history (I := fun ts s => Alive s ∧ Earned ts s) kept start es
  have well := movedWell_move alive os e
  constructor
  · rintro ⟨b, entered, needs⟩
    exact earned (well.entered b entered needs)
  · exact well.fileDB
  · exact well.noViolation
  · intro returned
    refine well.alive.sync ?_
    rw [show (move os (finish (move os) (.fresh w buffers) es) e).2.closing = .returned
      from returned]
    trivial
  · exact well.done

end Wslg.Client
