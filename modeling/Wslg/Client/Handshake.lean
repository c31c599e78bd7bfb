/-
What the members of the provider are worth once the handshake is complete.

`OnCaps` writes them in place and assigns the flag of the handshake last. A CAPS
that fails on the way leaves the flag as it was, so the first one leaves the
channel without a handshake; a later one leaves the flag set over members it has
half replaced. Runs in which every CAPS behind the handshake gets as far as the
assignment, or not even to its first write, keep the members those of the last
CAPS that succeeded (`installed_of_last_caps`).
-/

import Wslg.Client.Disk

namespace Wslg.Client

open Wslg.LittleEndian Wslg.Protocol Wslg.StateExcept

variable {ω : Type} {os : Os ω}

/-! ### What CAPS installs -/

/-- The members the other handlers take from the provider's CAPS. -/
structure Installed where
  serverCaps : ServerCapsPdu
  appProvider : WBuf maxPath
  appProviderGUID : GUID
  appMenuPath : WStr
  iconPath : WStr
  expandedPathObj : WStr
deriving DecidableEq

def Callback.installed (cb : Callback) : Installed :=
  ⟨cb.serverCaps, cb.appProvider, cb.appProviderGUID, cb.appMenuPath, cb.iconPath,
    cb.expandedPathObj⟩

/-- Every check of CAPS and every call it needs before it assigns the flag of the
handshake comes out well, from the members, the state of Windows and the bytes. -/
def CapsChecked (os : Os ω) (cb : Callback) (w : ω) (c : Cursor) : Prop :=
  ∃ cur caps, readAppListServerCaps cb.serverCaps c = (.ok cur, caps) ∧
    ∃ p : Provider os { cb with serverCaps := caps } w, Nonempty (Command os p.install p.world)

/-- A provider whose name passes, in the folder of its name. -/
structure ProviderInstalled (os : Os ω) (w : ω) (cb : Callback) : Prop where
  plain : PlainProvider cb.appProvider.str
  menu : ∃ startMenu, os.knownFolderStartMenu w = some startMenu ∧
    cb.appMenuPath = menuPath startMenu cb.appProvider.str
  version : 4 ≤ cb.serverCaps.version

theorem ProviderInstalled.of_installed {w : ω} {cb cb' : Callback}
    (h : ProviderInstalled os w cb) (same : cb'.installed = cb.installed) :
    ProviderInstalled os w cb' := by
  have caps : cb'.serverCaps = cb.serverCaps := congrArg Installed.serverCaps same
  have name : cb'.appProvider = cb.appProvider := congrArg Installed.appProvider same
  have menu : cb'.appMenuPath = cb.appMenuPath := congrArg Installed.appMenuPath same
  exact ⟨name ▸ h.plain, by rw [menu, name]; exact h.menu, caps ▸ h.version⟩

/-- A CAPS that succeeds has installed a provider. -/
theorem providerInstalled_of_onCaps {c c' : Cursor} {m m' : Machine ω}
    (run : onCaps os c m = .ok c' m') : ProviderInstalled os m.world m'.cb := by
  obtain ⟨_, m₁, read, run⟩ := bind_eq_ok.mp run
  obtain ⟨_, m₂, applied, last⟩ := bind_eq_ok.mp run
  cases last
  have world : m₁.world = m.world := by
    rw [readServerCaps] at read
    split at read <;> cases read
    rfl
  obtain ⟨hr, m₃, prepared, finish⟩ := bind_eq_ok.mp applied
  obtain ⟨p, cmd, rfl, rfl⟩ := prepareHandshake_eq_ok.mp prepared
  rw [finishHandshake_apply] at finish
  split at finish
  · rename_i done
    cases finish
    refine ⟨p.plain, ⟨p.startMenu, world ▸ p.folder, rfl⟩, ?_⟩
    rw [replied] at done
    split at done
    · assumption
    · cases done
  · cases finish

/-- A CAPS that gets to the assignment completes the handshake or undoes it. -/
theorem flag_of_checked {c : Cursor} {m m' : Machine ω} {e : Failure}
    (checked : CapsChecked os m.cb m.world c) (run : onCaps os c m = .error e m') :
    m'.cb.handShakeComplated = false := by
  obtain ⟨cur, caps, body, p, ⟨cmd⟩⟩ := checked
  have read : readServerCaps c m = .ok cur { m with cb := { m.cb with serverCaps := caps } } := by
    rw [readServerCaps, body]
  rw [onCaps, bind_of_ok read] at run
  rcases bind_eq_error.mp run with failed | ⟨_, m₁, -, last⟩
  · have prepared : prepareHandshake os { m with cb := { m.cb with serverCaps := caps } } =
        .ok _ _ := prepareHandshake_eq_ok.mpr ⟨p, cmd, rfl, rfl⟩
    rw [applyCaps, bind_of_ok prepared, finishHandshake_apply] at failed
    split at failed
    · cases failed
    · cases failed
      rfl
  · cases last

/-- A CAPS that is served passes every check. -/
theorem capsChecked_of_onCaps {c c' : Cursor} {m m' : Machine ω} (run : onCaps os c m = .ok c' m') :
    CapsChecked os m.cb m.world c := by
  obtain ⟨cur, m₁, read, rest⟩ := bind_eq_ok.mp run
  obtain ⟨_, m₂, applied, -⟩ := bind_eq_ok.mp rest
  obtain ⟨hr, m₃, prepared, -⟩ := bind_eq_ok.mp applied
  obtain ⟨p, cmd, -, -⟩ := prepareHandshake_eq_ok.mp prepared
  rw [readServerCaps] at read
  split at read
  · rename_i caps body
    cases read
    exact ⟨cur, caps, body, p, ⟨cmd⟩⟩
  · cases read

/-- A CAPS too short for a version writes nothing. -/
theorem state_of_short {c : Cursor} {m : Machine ω} (short : c.len < 2) :
    onCaps os c m = .error (.hresult E_FAIL) m := by
  have fetched : fetch 2 (⟨m.cb.serverCaps, c⟩ : ReadState ServerCapsPdu) =
      .error (.hresult E_FAIL) ⟨m.cb.serverCaps, c⟩ := if_pos short
  have word := bind_of_error (f := fun bs => assign ((fun (v : UInt16) (d : ServerCapsPdu) =>
    { d with version := v }) (UInt16.ofNat (decode bs)))) fetched
  have body : readAppListServerCaps m.cb.serverCaps c =
      (.error (.hresult E_FAIL), m.cb.serverCaps) := by
    rw [readAppListServerCaps, runReader, readAppListServerCapsBody, readUINT16]
    rw [bind_of_error word]
  have read : readServerCaps c m = .error (.hresult E_FAIL) m := by
    rw [readServerCaps, body]
  rw [onCaps, bind_of_error read]

/-! ### Runs -/

/-- A CAPS that succeeded. -/
def CapsServed (t : Step ω) : Prop := Served t ∧ ∃ c, t.input = .pdu cmdIdCaps c

/-- A CAPS that arrives behind the handshake passes every check up to the
assignment of the flag, or has no version. -/
def CapsCondition (os : Os ω) (t : Step ω) : Prop :=
  ∀ c, t.input = .pdu cmdIdCaps c → t.before.cb.channelClosed = false →
    t.before.cb.handShakeComplated = true →
    CapsChecked os t.before.cb t.before.world c ∨ c.len < 2

/-- What a step that is no successful CAPS leaves of the handshake. -/
def KeepsHandshake (s s' : ClientState ω) : Prop :=
  s'.cb.handShakeComplated = true →
    s.cb.handShakeComplated = true ∧ s'.cb.installed = s.cb.installed

theorem keepsHandshake_of_provider {s s' : ClientState ω}
    (same : s'.cb.provider = s.cb.provider) : KeepsHandshake s s' := by
  have flag : s'.cb.provider.handShakeComplated = s.cb.provider.handShakeComplated :=
    congrArg _ same
  have installed : s'.cb.provider.installed = s.cb.provider.installed := congrArg _ same
  exact fun complete => ⟨flag.symm.trans complete, installed⟩

theorem keepsHandshake_onClose {s : ClientState ω} :
    KeepsHandshake s (step os s .close).2 := by
  let members := fun cb : Callback => (cb.installed, cb.handShakeComplated)
  have same : Guarantees (Keeps members) (onClose os >>= fun _ => pure (⟨[], 0⟩ : Cursor)) :=
    ((keeps_setMembers).bind fun _ => (guarantees_onSyncEnd (fun _ _ => rfl) os false).bind fun _ =>
      guarantees_fileDB.bind fun _ => keeps_setMembers).bind fun _ => Guarantees.pure _
  have kept : members (step os s .close).2.cb = members s.cb := by
    have final := same s.start
    rw [step, runHandler]
    cases run : (onClose os >>= fun _ => pure (⟨[], 0⟩ : Cursor)) s.start <;>
      (rw [run] at final; exact final)
  exact fun complete => ⟨(congrArg Prod.snd kept).symm.trans complete, congrArg Prod.fst kept⟩

/-- A CAPS behind the handshake that fails leaves it alone or undoes it. -/
theorem keepsHandshake_of_caps_error {s : ClientState ω} {c : Cursor} {e : Failure}
    {m : Machine ω} (run : onCaps os c s.start = .error e m)
    (condition : s.cb.handShakeComplated = true → CapsChecked os s.cb s.world c ∨ c.len < 2) :
    KeepsHandshake s m.state := by
  intro complete
  have before : s.cb.handShakeComplated = true := flag_of_onCaps_error run complete
  rcases condition before with checked | short
  · have undone : m.cb.handShakeComplated = false := flag_of_checked checked run
    rw [show m.cb.handShakeComplated = true from complete] at undone
    cases undone
  · rw [state_of_short short] at run
    cases run
    exact ⟨before, rfl⟩

/-- A step is a successful CAPS or keeps the handshake. -/
theorem handshake_step {s : ClientState ω} {e : Event ω}
    (condition : CapsCondition os (Runs.take (step os) s e)) :
    (CapsServed (Runs.take (step os) s e) ∧
        ProviderInstalled os s.world (step os s e).2.cb) ∨
      (¬ CapsServed (Runs.take (step os) s e) ∧ KeepsHandshake s (step os s e).2) := by
  have unserved : ∀ {s' : ClientState ω}, (step os s e).2 = s' →
      ¬ CapsServed (Runs.take (step os) s e) → KeepsHandshake s s' →
      ¬ CapsServed (Runs.take (step os) s e) ∧ KeepsHandshake s (step os s e).2 := by
    rintro s' rfl other kept
    exact ⟨other, kept⟩
  cases e with
  | world w => exact Or.inr (unserved rfl nofun fun complete => ⟨complete, rfl⟩)
  | close => exact Or.inr (unserved rfl nofun keepsHandshake_onClose)
  | pdu cmdId c =>
      cases closed : s.cb.channelClosed with
      | true =>
          refine Or.inr (unserved (congrArg Prod.snd (step_of_closed closed))
            (fun served => ?_) fun complete => ⟨complete, rfl⟩)
          exact absurd (closed.symm.trans served.1.isOpen) (by decide)
      | false =>
          cases run : dispatch os cmdId c s.start with
          | ok c' m =>
              have stepped := step_of_ok closed run
              by_cases caps : cmdId = cmdIdCaps
              · subst caps
                rw [dispatch, if_pos rfl] at run
                refine Or.inl ⟨⟨⟨closed, ?_⟩, c, rfl⟩, ?_⟩
                · exact congrArg (·.1.failure) stepped
                · rw [stepped]
                  exact providerInstalled_of_onCaps run
              · refine Or.inr (unserved (congrArg Prod.snd stepped) (fun served => ?_)
                  (keepsHandshake_of_provider ((keepsProvider_dispatch os caps c).of_ok run)))
                obtain ⟨-, c', input⟩ := served
                cases input
                exact caps rfl
          | error e m =>
              have stepped := step_of_error closed run
              refine Or.inr (unserved (congrArg Prod.snd stepped) (fun served => ?_) ?_)
              · have ok : (step os s (.pdu cmdId c)).1.failure = none := served.1.ok
                rw [stepped] at ok
                cases ok
              · by_cases caps : cmdId = cmdIdCaps
                · subst caps
                  rw [dispatch, if_pos rfl] at run
                  exact keepsHandshake_of_caps_error run (condition c rfl closed)
                · exact keepsHandshake_of_provider ((keepsProvider_dispatch os caps c).of_error run)

/-- In a run whose later CAPS are all fully checked or too short to write, a client
with a complete handshake has the members its last successful CAPS installed. -/
theorem installed_of_last_caps (os : Os ω) (w : ω) (es : List (Event ω))
    (condition : ∀ t ∈ Runs.transitions (step os) (.fresh w) es, CapsCondition os t)
    (complete : (Runs.finish (step os) (.fresh w) es).cb.handShakeComplated = true) :
    ∃ ts t ts', Runs.transitions (step os) (.fresh w) es = ts ++ t :: ts' ∧ CapsServed t ∧
      (∀ t' ∈ ts', ¬ CapsServed t') ∧
      (Runs.finish (step os) (.fresh w) es).cb.installed = t.after.cb.installed ∧
      ProviderInstalled os t.before.world (Runs.finish (step os) (.fresh w) es).cb := by
  induction es using List.reverseRecOn with
  | nil => cases complete
  | append_singleton es e ih =>
      set s := Runs.finish (step os) (.fresh w) es
      have run : Runs.transitions (step os) (.fresh w) (es ++ [e]) =
          Runs.transitions (step os) (.fresh w) es ++ [Runs.take (step os) s e] :=
        Runs.transitions_append _ es [e]
      have finish : Runs.finish (step os) (.fresh w) (es ++ [e]) = (step os s e).2 :=
        Runs.finish_append _ es [e]
      rw [run] at condition
      rw [finish] at complete ⊢
      rcases handshake_step (condition _ (List.mem_append_right _ List.mem_cons_self)) with
        ⟨served, installed⟩ | ⟨other, kept⟩
      · refine ⟨Runs.transitions (step os) (.fresh w) es, Runs.take (step os) s e, [], run, served,
          ?_, rfl, installed⟩
        intro t' mem
        cases mem
      · obtain ⟨before, same⟩ := kept complete
        obtain ⟨ts, t, ts', earlier, served, none_, installed, provider⟩ :=
          ih (fun t mem => condition t (List.mem_append_left _ mem)) before
        refine ⟨ts, t, ts' ++ [Runs.take (step os) s e], ?_, served, ?_, same.trans installed,
          provider.of_installed same⟩
        · rw [run, earlier, List.append_assoc, List.cons_append]
        · intro t' mem
          rcases List.mem_append.mp mem with old | new
          · exact none_ t' old
          · rw [List.mem_singleton.mp new]
            exact other

/-- A second CAPS is served, and a third has one byte. -/
def renamed : List (Event Disk) := [caps "U", caps "V", .pdu cmdIdCaps (.of [4])]

/-- The client before the second CAPS, and before the third. -/
def introducedU : ClientState Disk := Runs.finish (step diskOs) (.fresh {}) [caps "U"]

def introducedV : ClientState Disk := Runs.finish (step diskOs) (.fresh {}) [caps "U", caps "V"]

theorem capsChecked_second : CapsChecked diskOs introducedU.cb introducedU.world (capsBody "V") := by
  have served : isOk (onCaps diskOs (capsBody "V") introducedU.start) = true := by decide +kernel
  obtain ⟨c, m, run⟩ := exists_of_isOk served
  exact capsChecked_of_onCaps run

theorem installed_of_last_caps_renamed :
    introducedU.cb.handShakeComplated = true ∧ introducedV.cb.handShakeComplated = true ∧
      (Runs.finish (step diskOs) (.fresh {}) renamed).cb.appProvider.str = wide "V" ∧
      ∃ ts t ts', Runs.transitions (step diskOs) (.fresh {}) renamed = ts ++ t :: ts' ∧
        CapsServed t ∧ (∀ t' ∈ ts', ¬ CapsServed t') ∧
        (Runs.finish (step diskOs) (.fresh {}) renamed).cb.installed = t.after.cb.installed ∧
        ProviderInstalled diskOs t.before.world
          (Runs.finish (step diskOs) (.fresh {}) renamed).cb := by
  have transitions : Runs.transitions (step diskOs) (.fresh {}) renamed =
      [Runs.take (step diskOs) (.fresh {}) (caps "U"),
        Runs.take (step diskOs) introducedU (caps "V"),
        Runs.take (step diskOs) introducedV (.pdu cmdIdCaps (.of [4]))] := rfl
  refine ⟨by decide +kernel, by decide +kernel, by decide +kernel,
    installed_of_last_caps diskOs {} renamed ?_ (by decide +kernel)⟩
  rw [transitions]
  simp only [List.forall_mem_cons]
  refine ⟨?_, ?_, ?_, List.forall_mem_nil _⟩
  · intro c _ _ complete
    cases complete
  · rintro c ⟨⟩ _ _
    exact Or.inl capsChecked_second
  · rintro c ⟨⟩ _ _
    exact Or.inr (by decide)

/-- A second CAPS with a forbidden name fails, and the handshake stays complete over
the name it was rejected for. -/
theorem rejectedCaps_keeps_handshake :
    let s := Runs.finish (step diskOs) (.fresh {}) [caps "U"]
    let s' := Runs.finish (step diskOs) (.fresh {}) [caps "U", caps ".."]
    (step diskOs s (caps "..")).1.failure = some (.hresult E_FAIL) ∧
      s'.cb.handShakeComplated = true ∧ ¬ PlainProvider s'.cb.appProvider.str ∧
      s'.cb.installed ≠ s.cb.installed := by
  decide +kernel

end Wslg.Client
