/-
What the taskbar keeps of a window.

`OnAssociateWindowId` hands the strings of a window to `FindWslgWindow`, which writes them
into the property store of the first window with that id: all three, or that the window
is not to be pinned. `withDesktop` puts the windows next to Windows, so that a run of the
client is also one of the desktop.

A window that is pinned is started again by the command in its store, long after the
request. In every run that command is the one of an application that was registered when
a request for the window named it (`pinned_registered`): the command line of the PDU is
only used for an application that is not registered, and such a one has no icon.
-/

import Wslg.Client.IconBlocks
import Wslg.Client.Relaunch
import Wslg.Client.Replies

namespace Wslg.Client

open Wslg.LittleEndian Wslg.Protocol Wslg.StateExcept

/-! ### The property store of a window -/

/-- The keys that `UpdateTaskBarInfo` sets, `PKEY_AppUserModel_…`. -/
inductive PropertyKey where
  | relaunchDisplayNameResource
  | relaunchIconResource
  | relaunchCommand
  | preventPinning
deriving DecidableEq

/-- `PROPVARIANT`, with a string or a boolean. -/
inductive PropVariant where
  | string (s : WStr)
  | boolean (b : Bool)
deriving DecidableEq

abbrev HWND := UInt64

/-- `IPropertyStore`. -/
abbrev PropertyStore := PropertyKey → Option PropVariant

/-- The calls on a window's store, with how each of them ends. -/
structure Shell (ω : Type) where
  getPropertyStoreForWindow : ω → HWND → Except HRESULT Unit
  initPropVariant : ω → PropVariant → Except HRESULT Unit
  setValue : ω → HWND → PropertyKey → PropVariant → Except HRESULT Unit

variable {ω : Type}

/-- `if (FAILED(hr)) return hr;` -/
def checkStore (r : Except HRESULT Unit) : EStateM HRESULT PropertyStore Unit :=
  match r with
  | .ok _ => pure ()
  | .error hr => throw hr

/-- `InitPropVariantFrom…`, `SetValue` and `PropVariantClear`. -/
def setProperty (shell : Shell ω) (w : ω) (hwnd : HWND) (key : PropertyKey) (value : PropVariant) :
    EStateM HRESULT PropertyStore Unit :=
  checkStore (shell.initPropVariant w value) >>= fun _ =>
  checkStore (shell.setValue w hwnd key value) >>= fun _ =>
  modify fun store => Function.update store key (some value)

/-- `UpdateTaskBarInfo`. -/
def updateTaskBarInfo (shell : Shell ω) (w : ω) (hwnd : HWND)
    (relaunchCmdline displayName iconPath : Option WStr) : EStateM HRESULT PropertyStore Unit :=
  checkStore (shell.getPropertyStoreForWindow w hwnd) >>= fun _ =>
  match relaunchCmdline, displayName, iconPath with
  | some command, some name, some icon =>
      setProperty shell w hwnd .relaunchDisplayNameResource (.string name) >>= fun _ =>
      setProperty shell w hwnd .relaunchIconResource (.string icon) >>= fun _ =>
      setProperty shell w hwnd .relaunchCommand (.string command)
  | _, _, _ => setProperty shell w hwnd .preventPinning (.boolean true)

/-! ### The windows -/

/-- A window, with the property `c_WSLg_window_id`, null where it is not set. -/
structure Window where
  hwnd : HWND
  windowId : UInt64
  store : PropertyStore

/-- `EnumWindows`, which goes on as long as the callback returns `TRUE`. -/
def enumWindows (callback : Window → Bool × Window) : List Window → List Window
  | [] => []
  | window :: rest =>
      (callback window).2 :: if (callback window).1 then enumWindows callback rest else rest

/-- `FindWslgWindow`; the result of `UpdateTaskBarInfo` is dropped. -/
def findWslgWindow (shell : Shell ω) (w : ω) (data : WslgWindowData) (window : Window) :
    Bool × Window :=
  if window.windowId = data.windowId then
    (false,
      { window with
        store := final (updateTaskBarInfo shell w window.hwnd data.relaunchCommandline
          data.displayName data.iconPath window.store) })
  else (true, window)

/-- Windows and the windows on its desktop. -/
abbrev Desktop (ω : Type) := ω × List Window

/-- The calls of the client on a desktop: only `EnumWindows` gets to the windows. -/
def withDesktop (os : Os ω) (shell : Shell ω) : Os (Desktop ω) :=
  { os.beside (List Window) with
    enumWindows := fun data w =>
      (os.enumWindows data w.1, enumWindows (findWslgWindow shell w.1 data) w.2) }

/-! ### What is written into a store -/

/-- What a request asks for, in the order it is written. -/
def WslgWindowData.properties (data : WslgWindowData) : List (PropertyKey × PropVariant) :=
  match data.relaunchCommandline, data.displayName, data.iconPath with
  | some command, some name, some icon =>
      [(.relaunchDisplayNameResource, .string name), (.relaunchIconResource, .string icon),
        (.relaunchCommand, .string command)]
  | _, _, _ => [(.preventPinning, .boolean true)]

namespace PropertyStore

/-- The store with some properties written into it. -/
def write (store : PropertyStore) (ps : List (PropertyKey × PropVariant)) : PropertyStore :=
  ps.foldl (fun store p => Function.update store p.1 (some p.2)) store

theorem write_cons (store : PropertyStore) (p : PropertyKey × PropVariant)
    (ps : List (PropertyKey × PropVariant)) :
    store.write (p :: ps) = write (Function.update store p.1 (some p.2)) ps := rfl

/-- A value in it was there before or is one of those written. -/
theorem write_eq_some {store : PropertyStore} {ps : List (PropertyKey × PropVariant)}
    {key : PropertyKey} {value : PropVariant} (found : store.write ps key = some value) :
    store key = some value ∨ (key, value) ∈ ps := by
  induction ps generalizing store with
  | nil => exact Or.inl found
  | cons p ps ih =>
      rw [write_cons] at found
      rcases ih found with before | later
      · by_cases same : key = p.1
        · subst same
          rw [Function.update_self] at before
          cases before
          exact Or.inr List.mem_cons_self
        · rw [Function.update_of_ne same] at before
          exact Or.inl before
      · exact Or.inr (List.mem_cons_of_mem _ later)

/-- A key that has a value keeps one, and one that is written has one. -/
theorem isSome_write {store : PropertyStore} {ps : List (PropertyKey × PropVariant)}
    {key : PropertyKey} (set : (store key).isSome = true ∨ key ∈ ps.map (·.1)) :
    (store.write ps key).isSome = true := by
  induction ps generalizing store with
  | nil => exact set.resolve_right List.not_mem_nil
  | cons p ps ih =>
      rw [write_cons]
      refine ih ?_
      by_cases same : key = p.1
      · subst same
        exact Or.inl (by rw [Function.update_self]; rfl)
      · rw [Function.update_of_ne same]
        rcases set with before | written
        · exact Or.inl before
        · exact Or.inr ((List.mem_cons.mp written).resolve_left same)

end PropertyStore

theorem final_setProperty (shell : Shell ω) (w : ω) (hwnd : HWND) (key : PropertyKey)
    (value : PropVariant) (store : PropertyStore) :
    setProperty shell w hwnd key value store = .ok () (store.write [(key, value)]) ∨
      ∃ hr, setProperty shell w hwnd key value store = .error hr store := by
  rw [setProperty]
  cases shell.initPropVariant w value with
  | error hr => exact Or.inr ⟨hr, rfl⟩
  | ok _ =>
      cases shell.setValue w hwnd key value with
      | error hr => exact Or.inr ⟨hr, rfl⟩
      | ok _ => exact Or.inl rfl

/-- Properties set one after the other. -/
theorem final_setProperties (shell : Shell ω) (w : ω) (hwnd : HWND)
    (ps : List (PropertyKey × PropVariant)) (store : PropertyStore) :
    ∃ qs, qs <+: ps ∧
      final ((forM ps fun p => setProperty shell w hwnd p.1 p.2) store) = store.write qs := by
  induction ps generalizing store with
  | nil => exact ⟨[], List.nil_prefix, rfl⟩
  | cons p ps ih =>
      rw [List.forM_cons]
      rcases final_setProperty shell w hwnd p.1 p.2 store with ok | ⟨hr, failed⟩
      · obtain ⟨qs, first, written⟩ := ih (store.write [p])
        refine ⟨p :: qs, List.cons_prefix_cons.mpr ⟨rfl, first⟩, ?_⟩
        rw [bind_of_ok ok, written]
        rfl
      · refine ⟨[], List.nil_prefix, ?_⟩
        rw [bind_of_error failed]
        rfl

/-- `UpdateTaskBarInfo` writes a first part of what is asked for. -/
theorem final_updateTaskBarInfo (shell : Shell ω) (w : ω) (hwnd : HWND) (data : WslgWindowData)
    (store : PropertyStore) :
    ∃ qs, qs <+: data.properties ∧
      final (updateTaskBarInfo shell w hwnd data.relaunchCommandline data.displayName
        data.iconPath store) = store.write qs := by
  have each : updateTaskBarInfo shell w hwnd data.relaunchCommandline data.displayName
      data.iconPath = checkStore (shell.getPropertyStoreForWindow w hwnd) >>= fun _ =>
        forM data.properties fun p => setProperty shell w hwnd p.1 p.2 := by
    obtain ⟨windowId, name, command, icon⟩ := data
    cases command <;> cases name <;> cases icon <;>
      simp [updateTaskBarInfo, WslgWindowData.properties, List.forM_cons, List.forM_nil]
  rw [each]
  cases shell.getPropertyStoreForWindow w hwnd with
  | error hr => exact ⟨[], List.nil_prefix, rfl⟩
  | ok _ => exact final_setProperties shell w hwnd data.properties store

/-- Only a request with all three strings sets one of them. -/
theorem strings_of_pinning {data : WslgWindowData} {key : PropertyKey} {value : PropVariant}
    (asked : (key, value) ∈ data.properties) (pins : key ≠ .preventPinning) :
    ∃ line name icon, data = ⟨data.windowId, some name, some line, some icon⟩ := by
  obtain ⟨windowId, name, line, icon⟩ := data
  cases line <;> cases name <;> cases icon <;>
    simp [WslgWindowData.properties, pins] at asked ⊢

/-- The command is the last that is written. -/
theorem whole_of_command {data : WslgWindowData} {qs : List (PropertyKey × PropVariant)}
    {value : PropVariant} (first : qs <+: data.properties)
    (command : (.relaunchCommand, value) ∈ qs) : qs = data.properties := by
  obtain ⟨line, name, icon, strings⟩ := strings_of_pinning (first.subset command) (by decide)
  have order : data.properties =
      [(.relaunchDisplayNameResource, .string name), (.relaunchIconResource, .string icon)] ++
        [(.relaunchCommand, .string line)] := by
    rw [strings]
    rfl
  obtain ⟨rest, whole⟩ := first
  rcases rest.eq_nil_or_concat with rfl | ⟨rest, last, rfl⟩
  · rw [← whole, List.append_nil]
  · rw [order, List.concat_eq_append, ← List.append_assoc] at whole
    have early : (.relaunchCommand, value) ∈ qs ++ rest := List.mem_append_left _ command
    rw [(List.append_inj' whole rfl).1] at early
    simp at early

/-! ### What a window shows for -/

/-- Everything in a window's store was asked for with its id, and a command is not
without a name and an icon. -/
structure Explained (asked : WslgWindowData → Prop) (window : Window) : Prop where
  asked : ∀ key value, window.store key = some value →
    ∃ data, asked data ∧ data.windowId = window.windowId ∧ (key, value) ∈ data.properties
  whole : (window.store .relaunchCommand).isSome = true →
    (window.store .relaunchDisplayNameResource).isSome = true ∧
      (window.store .relaunchIconResource).isSome = true

theorem Explained.of_empty {asked : WslgWindowData → Prop} {window : Window}
    (empty : ∀ key, window.store key = none) : Explained asked window where
  asked key value found := by cases (empty key).symm.trans found
  whole set := by
    rw [empty] at set
    cases set

theorem Explained.mono {asked asked' : WslgWindowData → Prop} {window : Window}
    (h : Explained asked window) (sub : ∀ data, asked data → asked' data) :
    Explained asked' window where
  asked key value found := by
    obtain ⟨data, mem, same⟩ := h.asked key value found
    exact ⟨data, sub data mem, same⟩
  whole := h.whole

theorem Explained.write {asked : WslgWindowData → Prop} {window : Window} {data : WslgWindowData}
    {qs : List (PropertyKey × PropVariant)} (h : Explained asked window) (mem : asked data)
    (same : window.windowId = data.windowId) (first : qs <+: data.properties) :
    Explained asked { window with store := window.store.write qs } where
  asked key value found := by
    rcases PropertyStore.write_eq_some found with before | written
    · exact h.asked key value before
    · exact ⟨data, mem, same.symm, first.subset written⟩
  whole set := by
    obtain ⟨value, found⟩ := Option.isSome_iff_exists.mp set
    rcases PropertyStore.write_eq_some found with before | written
    · obtain ⟨name, icon⟩ := h.whole (Option.isSome_iff_exists.mpr ⟨value, before⟩)
      exact ⟨PropertyStore.isSome_write (Or.inl name), PropertyStore.isSome_write (Or.inl icon)⟩
    · obtain ⟨line, name, icon, strings⟩ := strings_of_pinning (first.subset written) (by decide)
      have all : qs.map (·.1) =
          [.relaunchDisplayNameResource, .relaunchIconResource, .relaunchCommand] := by
        rw [whole_of_command first written, strings]
        rfl
      constructor <;> exact PropertyStore.isSome_write (Or.inr (by rw [all]; simp))

/-- A search changes at most a window with the id it looks for. -/
theorem mem_enumWindows {shell : Shell ω} {w : ω} {data : WslgWindowData} {windows : List Window}
    {window' : Window} (mem : window' ∈ enumWindows (findWslgWindow shell w data) windows) :
    window' ∈ windows ∨ ∃ window ∈ windows, window.windowId = data.windowId ∧
      ∃ qs, qs <+: data.properties ∧
        window' = { window with store := window.store.write qs } := by
  induction windows with
  | nil => cases mem
  | cons window rest ih =>
      rw [enumWindows, findWslgWindow] at mem
      split at mem
      · rename_i same
        obtain ⟨qs, first, written⟩ := final_updateTaskBarInfo shell w window.hwnd data window.store
        rcases List.mem_cons.mp mem with rfl | later
        · exact Or.inr ⟨window, List.mem_cons_self, same, qs, first, by rw [written]⟩
        · exact Or.inl (List.mem_cons_of_mem _ later)
      · rcases List.mem_cons.mp mem with rfl | later
        · exact Or.inl List.mem_cons_self
        · rcases ih later with old | ⟨window, old, changed⟩
          · exact Or.inl (List.mem_cons_of_mem _ old)
          · exact Or.inr ⟨window, List.mem_cons_of_mem _ old, changed⟩

/-! ### The step of a request -/

/-- The client asks for what is in `data`. -/
theorem looks_windowData (a : AssociateWindowIdPdu) :
    Guarantees Eq (windowData a : Handler ω WslgWindowData) :=
  guarantees_members.bind fun _ => (guarantees_require _).bind fun _ =>
    (guarantees_buildFindKey _ _).bind fun _ => guarantees_fileDB.bind fun _ =>
      (Guarantees.ite ((guarantees_require _).bind fun _ => Guarantees.pure _)
        (Guarantees.ite ((guarantees_require _).bind fun _ => Guarantees.pure _)
          (Guarantees.pure _))).bind fun _ => Guarantees.pure _

/-- A request fails and leaves everything alone, or hands over its data. -/
theorem onAssociateWindowId_cases (os : Os ω) (c : Cursor) (m : Machine ω) :
    (∃ e, onAssociateWindowId os c m = .error e m) ∨
      ∃ c' a data, readAssociateWindowId {} c = (.ok c', a) ∧ windowData a m = .ok data m ∧
        onAssociateWindowId os c m = .ok c' { m with world := os.enumWindows data m.world } := by
  rw [onAssociateWindowId, members_bind, require_bind]
  split
  · cases read : readAssociateWindowId {} c with
    | mk result a =>
    cases result with
    | error e =>
        refine Or.inl ⟨e, bind_of_error ?_⟩
        rw [readAssociate, read]
    | ok c' =>
        have readRun : (readAssociate c : Handler ω _) m = .ok (c', a) m := by
          rw [readAssociate, read]
        rw [bind_of_ok readRun, applyAssociate_eq]
        cases run : windowData a m with
        | error e m₁ =>
            cases (looks_windowData a).of_error run
            exact Or.inl ⟨e, bind_of_error (bind_of_error run)⟩
        | ok data m₁ =>
            cases (looks_windowData a).of_ok run
            refine Or.inr ⟨c', a, data, rfl, run, ?_⟩
            rw [bind_assoc, bind_of_ok run]
            rfl
  · exact Or.inl ⟨_, rfl⟩

/-- The windows of the desktop are what they were. -/
def SameWindows (w w' : Desktop ω) : Prop := w'.2 = w.2

instance : Std.Refl (SameWindows (ω := ω)) := ⟨fun _ => rfl⟩

instance : IsTrans (Desktop ω) SameWindows := ⟨fun _ _ _ h h' => h'.trans h⟩

theorem sameWindows_frame (os : Os ω) (shell : Shell ω) :
    Frame (withDesktop os shell) SameWindows :=
  { frame_beside os (List Window) with }

/-- The step is the request `a`, which returned `S_OK` and handed over `data`. -/
structure Handed (t : Step ω) (a : AssociateWindowIdPdu) (data : WslgWindowData) : Prop where
  request : ∃ c c', t.input = .pdu cmdIdAssociateWindowId c ∧
    readAssociateWindowId {} c = (.ok c', a)
  isOpen : t.before.cb.channelClosed = false
  handshake : t.before.cb.handShakeComplated = true
  ok : t.output.failure = none
  data : windowData a t.before.start = .ok data t.before.start

/-- A step changes the windows by a request, or they change by themselves. -/
theorem windows_of_taken {os : Os ω} {shell : Shell ω} {t : Step (Desktop ω)}
    (taken : Runs.Taken (step (withDesktop os shell)) t) :
    t.after.world.2 = t.before.world.2 ∨ (∃ w, t.input = .world w ∧ t.after.world = w) ∨
      ∃ a data, Handed t a data ∧ t.after.world.2 =
        enumWindows (findWslgWindow shell t.before.world.1 data) t.before.world.2 := by
  rw [taken.eq_take]
  set s := t.before
  cases t.input with
  | world w => exact Or.inr (Or.inl ⟨w, rfl, rfl⟩)
  | close => exact Or.inl (congrArg (·.world.2) (step_close (withDesktop os shell) s).2)
  | pdu cmdId c =>
      cases isOpen : s.cb.channelClosed with
      | true => exact Or.inl (congrArg (·.2.world.2) (step_of_closed isOpen))
      | false =>
          have kept : Guarantees (Through SameWindows) (dispatch (withDesktop os shell) cmdId c) →
              (Runs.take (step (withDesktop os shell)) s (.pdu cmdId c)).after.world.2 =
                s.world.2 := by
            intro keeps
            obtain ⟨-, after⟩ := runHandler_eq (dispatch (withDesktop os shell) cmdId c) c s
            rw [← step_of_open isOpen] at after
            have same : (final (dispatch (withDesktop os shell) cmdId c s.start)).world.2 =
                s.world.2 := keeps s.start
            exact (congrArg (·.world.2) after).trans same
          by_cases caps : cmdId = cmdIdCaps
          · refine Or.inl (kept ?_)
            rw [dispatch, if_pos caps]
            exact (sameWindows_frame os shell).caps.onCaps (fun _ => through_perform fun _ => rfl) c
          by_cases request : cmdId = cmdIdAssociateWindowId
          · subst request
            cases handshake : s.cb.handShakeComplated with
            | false =>
                have run : dispatch (withDesktop os shell) cmdIdAssociateWindowId c s.start =
                    .error (.hresult E_FAIL) s.start := by
                  rw [dispatch_apply caps]
                  exact if_pos handshake
                exact Or.inl (congrArg (·.2.world.2) (step_of_error isOpen run))
            | true =>
                have run : dispatch (withDesktop os shell) cmdIdAssociateWindowId c s.start =
                    onAssociateWindowId (withDesktop os shell) c s.start := by
                  rw [dispatch_handshaken caps handshake]
                  rfl
                rcases onAssociateWindowId_cases (withDesktop os shell) c s.start with
                  ⟨e, failed⟩ | ⟨c', a, data, read, asked, handed⟩
                · exact Or.inl (congrArg (·.2.world.2) (step_of_error isOpen (run.trans failed)))
                · have stepped := step_of_ok isOpen (run.trans handed)
                  refine Or.inr (Or.inr
                    ⟨a, data, ⟨⟨c, c', rfl, read⟩, isOpen, handshake, ?_, asked⟩, ?_⟩)
                  · exact congrArg (·.1.failure) stepped
                  · exact congrArg (·.2.world.2) stepped
          · exact Or.inl (kept ((sameWindows_frame os shell).dispatch caps
              (fun is => absurd is request) c))

/-! ### What is registered -/

section Registered

variable {os : Os ω}

/-- An update of one of the steps registered the entry under the key. -/
def RegisteredBy (os : Os ω) (ts : List (Step ω)) (key : WStr) (e : FileEntry) : Prop :=
  ∃ t ∈ ts, ∃ u, Applied os t u ∧ u.name.key = key ∧ e = entryOf t.before.cb u

/-- Every entry was registered under its key by one of the steps. -/
def AllRegistered (os : Os ω) (ts : List (Step ω)) (s : ClientState ω) : Prop :=
  ∀ db, s.cb.spFileDB = some db → ∀ (key : WStr) (e : FileEntry), db[key]? = some e →
    RegisteredBy os ts key e

theorem allRegistered_step (ts : List (Step ω)) (t : Step ω) (taken : Runs.Taken (step os) t)
    (all : AllRegistered os ts t.before) : AllRegistered os (ts ++ [t]) t.after := by
  intro db' there key e found
  have earlier : ∀ db, t.before.cb.spFileDB = some db → db[key]? = some e →
      RegisteredBy os (ts ++ [t]) key e := by
    intro db before old
    obtain ⟨t', mem, registered_⟩ := all db before key e old
    exact ⟨t', List.mem_append_left _ mem, registered_⟩
  cases books_of_taken taken with
  | @updated u db applied before ok after =>
      cases after.symm.trans there
      cases entry : db[(preparedOf t.before.cb u).key]? with
      | none =>
          rw [registered, FileDB.onFileAdded_new entry] at found
          split at found
          · rename_i same
            cases found
            exact ⟨t, List.mem_append_right _ List.mem_cons_self, u, applied,
              (keyOf_eq u).symm.trans same.symm, rfl⟩
          · exact earlier db before found
      | some e' =>
          rw [registered, (FileDB.onFileAdded_present entry).1] at found
          exact earlier db before found
  | @deleted d db e' isDeleted before entry after world =>
      cases after.symm.trans there
      exact earlier db before (FileDB.entry_of_onFileRemoved found)
  | kept noUpdate noDelete entries =>
      obtain ⟨db, before, same⟩ := entries db' there
      rw [same] at found
      exact earlier db before found

theorem allRegistered_finish (w : ω) (es : List (Event ω)) :
    AllRegistered os (Runs.transitions (step os) (.fresh w) es)
      (Runs.finish (step os) (.fresh w) es) := by
  refine Runs.invariant_history allRegistered_step ?_ es
  intro db empty key e found
  cases empty
  simp at found

/-- What `RegGetValueW` leaves in the array of the executable ends inside it. -/
def ValueFits (os : Os ω) : Prop :=
  ∀ w value, value.length < maxPath → (os.regGetValueW w value).2.length < maxPath

/-- The path of the executable still ends inside its array. -/
def KeepsFit (m m' : Machine ω) : Prop :=
  m.cb.expandedPathObj.length < maxPath → m'.cb.expandedPathObj.length < maxPath

instance : Std.Refl (KeepsFit (ω := ω)) := ⟨fun _ => id⟩

instance : IsTrans (Machine ω) KeepsFit := ⟨fun _ _ _ h h' => h' ∘ h⟩

instance : Blind (KeepsFit (ω := ω)) := ⟨fun _ _ => id, fun _ _ => id⟩

theorem keepsFit_installExpandedPath (value : ValueFits os) :
    Guarantees KeepsFit (installExpandedPath os) := by
  refine (guarantees_query _).bind fun _ => (guarantees_check _).bind fun _ m fits => ?_
  rw [members_bind, query_bind, setMembers_bind, check_bind]
  split
  · rw [setMembers_bind]
    have kept := @guarantees_require ω KeepsFit _ (decide ((os.regGetValueW m.world
      m.cb.expandedPathObj).2.length + exeName.length < maxPath) = true) _
    refine kept _ ?_
    show (if decide _ = true then _ else [] : WStr).length < maxPath
    split
    · rename_i short
      rw [List.length_append]
      exact of_decide_eq_true short
    · decide
  · exact value m.world m.cb.expandedPathObj fits

theorem keepsFit_caps (value : ValueFits os) : CapsFrame os KeepsFit where
  setMembers g ignored m fits := by
    show (g m.cb).expandedPathObj.length < maxPath
    rwa [ignored]
  readServerCaps c m := by
    rw [readServerCaps]
    split <;> exact id
  createDirectory path := guarantees_of_quiet (quiet_createDirectory os path)
  installExpandedPath := keepsFit_installExpandedPath value

/-- No step lets the path of the executable out of its array. -/
theorem fits_of_taken (value : ValueFits os) {t : Step ω} (taken : Runs.Taken (step os) t)
    (fits : t.before.cb.expandedPathObj.length < maxPath) :
    t.after.cb.expandedPathObj.length < maxPath := by
  rw [taken.eq_take]
  set s := t.before
  cases t.input with
  | world w => exact fits
  | close =>
      rw [Runs.take, (step_close os s).2]
      exact fits
  | pdu cmdId c =>
      cases isOpen : s.cb.channelClosed with
      | true =>
          rw [Runs.take, step_of_closed isOpen]
          exact fits
      | false =>
          have keeps : Guarantees KeepsFit (dispatch os cmdId c) := by
            by_cases caps : cmdId = cmdIdCaps
            · rw [dispatch, if_pos caps]
              exact (keepsFit_caps value).onCaps (fun _ => guarantees_perform _) c
            · refine (keepsProvider_dispatch os caps c).weaken fun m m' same fits => ?_
              have path : m'.cb.provider.expandedPathObj = m.cb.provider.expandedPathObj :=
                congrArg Callback.expandedPathObj same
              exact path.symm ▸ fits
          obtain ⟨-, after⟩ := runHandler_eq (dispatch os cmdId c) c s
          rw [Runs.take, step_of_open isOpen, after]
          exact keeps s.start fits

theorem prepare_exeArgs_fit {u : UpdateAppListPdu} {p : Prepared} {m m' : Machine ω}
    (run : prepare os u m = .ok p m') : p.exeArgs.length < maxPath := by
  obtain ⟨_, m₁, -, run⟩ := bind_eq_ok.mp run
  obtain ⟨_, m₂, -, run⟩ := bind_eq_ok.mp run
  obtain ⟨icon, m₃, -, run⟩ := bind_eq_ok.mp run
  obtain ⟨link, m₄, -, run⟩ := bind_eq_ok.mp run
  obtain ⟨args, m₅, built, run⟩ := bind_eq_ok.mp run
  obtain ⟨key, m₆, -, result⟩ := bind_eq_ok.mp run
  cases result
  rw [buildExeArgs, members_bind, require_bind] at built
  split at built <;> cases built
  assumption

theorem exeArgs_fit_of_applied {t : Step ω} {u : UpdateAppListPdu}
    (taken : Runs.Taken (step os) t) (applied : Applied os t u) :
    (exeArgsOf t.before.cb u).length < maxPath := by
  obtain ⟨⟨r, m⟩, arrived_, rfl⟩ := Option.map_eq_some_iff.mp applied.2
  have takes : TakesUpdate os t r m := ⟨taken, arrived_⟩
  obtain ⟨_, m', run⟩ := exists_of_isOk (takes.failure_eq_none.mp applied.1)
  obtain ⟨_, m₁, start, run⟩ := bind_eq_ok.mp run
  rcases startSync_cases os r.update.flags m with ⟨-, -, e, failed⟩ | ⟨-, ok⟩
  · cases failed.symm.trans start
  cases ok.symm.trans start
  obtain ⟨p, m₂, prepared, -⟩ := bind_eq_ok.mp run
  obtain ⟨rfl, -, -⟩ := prepare_eq_ok prepared
  rw [← takes.cb]
  exact prepare_exeArgs_fit prepared

/-- In every run, the strings of a registered entry fit the arrays of a request. -/
theorem fits_of_registered (value : ValueFits os) {w : ω} {es : List (Event ω)} {key : WStr}
    {e : FileEntry}
    (registered_ : RegisteredBy os (Runs.transitions (step os) (.fresh w) es) key e) :
    e.iconFilePath.length < maxPath ∧ e.exeFilePath.length < maxPath ∧
      e.exeFileArgs.length < maxPath := by
  obtain ⟨t, mem, u, applied, -, rfl⟩ := registered_
  have taken := Runs.taken_of_mem mem
  have exe : t.before.cb.expandedPathObj.length < maxPath :=
    (Runs.invariant_transitions (C := fun _ => True) (I := fun s : ClientState ω =>
      s.cb.expandedPathObj.length < maxPath) (s := .fresh w)
      (fun _ taken _ => fits_of_taken value taken) (by decide : 0 < maxPath)
      (fun _ _ => trivial) t mem).1
  exact ⟨(prepared_fits_of_applied taken applied).2, exe, exeArgs_fit_of_applied taken applied⟩

end Registered

/-! ### Only the commands of registered applications -/

/-- The entry of the application that `a` names, while the step is taken. -/
def EntryAt (t : Step ω) (a : AssociateWindowIdPdu) (e : FileEntry) : Prop :=
  ∃ db, t.before.cb.spFileDB = some db ∧ db[(AppName.of a.appGroup a.appId).key]? = some e

theorem fileDB_eq_ok {m m' : Machine ω} {db : FileDB} (run : fileDB m = .ok db m') :
    m.cb.spFileDB = some db := by
  rw [fileDB, members_bind] at run
  cases there : m.cb.spFileDB with
  | none =>
      rw [there] at run
      cases run
  | some db' =>
      rw [there] at run
      cases run
      rfl

/-- With an icon goes the command of an entry. -/
theorem entry_of_icon {t : Step ω} {a : AssociateWindowIdPdu} {data : WslgWindowData}
    {icon line : WStr} (handed : Handed t a data) (hasIcon : data.iconPath = some icon)
    (command : data.relaunchCommandline = some line)
    (fits : ∀ e, EntryAt t a e → e.iconFilePath.length < maxPath ∧
      e.exeFilePath.length < maxPath ∧ e.exeFileArgs.length < maxPath) :
    ∃ e, EntryAt t a e ∧ icon = e.iconFilePath ∧ line = e.command := by
  have run := handed.data
  rw [windowData, members_bind, require_bind] at run
  split at run
  case isFalse => cases run
  obtain ⟨key, m₁, keyRun, run⟩ := bind_eq_ok.mp run
  cases ((guarantees_buildFindKey (R := Eq) _ _).of_ok keyRun)
  cases buildFindKey_eq_ok keyRun
  obtain ⟨db, m₂, dbRun, run⟩ := bind_eq_ok.mp run
  obtain ⟨exePath, m₃, built, run⟩ := bind_eq_ok.mp run
  cases run
  have there : t.before.cb.spFileDB = some db := fileDB_eq_ok dbRun
  cases entry : db[(AppName.of a.appGroup a.appId).key]? with
  | none =>
      have empty : (db.findFiles (AppName.of a.appGroup a.appId).key
          associateBuffers).2.iconFilePath = [] := by
        simp only [FileDB.findFiles, entry]
      rw [empty] at hasIcon
      cases hasIcon
  | some e =>
      obtain ⟨iconFits, exeFits, argsFit⟩ := fits e ⟨db, there, entry⟩
      rw [findFiles_associate entry iconFits exeFits argsFit] at built hasIcon
      refine ⟨e, ⟨db, there, entry⟩, (eq_of_nonEmpty hasIcon).symm, ?_⟩
      rw [← eq_of_nonEmpty command]
      rw [buildExePath, if_pos (show succeeded S_OK = true by decide)] at built
      rw [require_bind] at built
      split at built <;> cases built
      rfl

/-- The windows with an id are what they were, or have nothing in their stores yet. -/
def Untouched (windows windows' : List Window) : Prop :=
  ∀ window ∈ windows', window.windowId ≠ 0 → window ∈ windows ∨ ∀ key, window.store key = none

/-- Windows come and go in the step, and get their ids, but nobody else writes into the
stores of those with one. -/
def LeavesStores (t : Step (Desktop ω)) : Prop :=
  ∀ w, t.input = .world w → Untouched t.before.world.2 w.2

section Run

variable {os : Os ω} {shell : Shell ω}

/-- What was handed over by one of the steps. -/
def HandedBy (ts : List (Step ω)) (data : WslgWindowData) : Prop :=
  ∃ t ∈ ts, ∃ a, Handed t a data

/-- While nobody else writes into the stores, those of the windows with an id show what the
steps handed over. -/
def AllExplained (ts : List (Step (Desktop ω))) (s : ClientState (Desktop ω)) : Prop :=
  (∀ t ∈ ts, LeavesStores t) → ∀ window ∈ s.world.2, window.windowId ≠ 0 →
    Explained (HandedBy ts) window

theorem allExplained_step (ts : List (Step (Desktop ω))) (t : Step (Desktop ω))
    (taken : Runs.Taken (step (withDesktop os shell)) t) (all : AllExplained ts t.before) :
    AllExplained (ts ++ [t]) t.after := by
  intro leaves window' mem named
  have before : ∀ window ∈ t.before.world.2, window.windowId ≠ 0 →
      Explained (HandedBy (ts ++ [t])) window := by
    intro window old named
    refine (all (fun t mem => leaves t (List.mem_append_left _ mem)) window old named).mono ?_
    rintro data ⟨t', mem, handed⟩
    exact ⟨t', List.mem_append_left _ mem, handed⟩
  rcases windows_of_taken taken with same | ⟨w, input, after⟩ | ⟨a, data, handed, after⟩
  · rw [same] at mem
    exact before window' mem named
  · rw [after] at mem
    rcases leaves t (List.mem_append_right _ List.mem_cons_self) w input window' mem named with
      old | empty
    · exact before window' old named
    · exact Explained.of_empty empty
  · rw [after] at mem
    rcases mem_enumWindows mem with old | ⟨window, old, same, qs, first, rfl⟩
    · exact before window' old named
    · exact (before window old named).write
        ⟨t, List.mem_append_right _ List.mem_cons_self, a, handed⟩ same first

theorem allExplained_finish (w : ω) (es : List (Event (Desktop ω))) :
    AllExplained (Runs.transitions (step (withDesktop os shell)) (.fresh (w, [])) es)
      (Runs.finish (step (withDesktop os shell)) (.fresh (w, [])) es) :=
  Runs.invariant_history allExplained_step (fun _ _ mem => absurd mem List.not_mem_nil) es

/-- In every run, what a window with an id is pinned with, its name, its icon and its
command, is what a request for that id asked for while the application it named was
registered, the icon and the command being those of that application; and the command is not
there without the other two. -/
theorem pinned_registered (value : ValueFits os) (w : ω) (es : List (Event (Desktop ω)))
    (leaves : ∀ t ∈ Runs.transitions (step (withDesktop os shell)) (.fresh (w, [])) es,
      LeavesStores t)
    {window : Window} {key : PropertyKey} {v : PropVariant}
    (mem : window ∈ (Runs.finish (step (withDesktop os shell)) (.fresh (w, [])) es).world.2)
    (named : window.windowId ≠ 0) (found : window.store key = some v)
    (pins : key ≠ .preventPinning) :
    (key = .relaunchCommand → (window.store .relaunchDisplayNameResource).isSome = true ∧
      (window.store .relaunchIconResource).isSome = true) ∧
    ∃ ts t ts' a name e, Runs.transitions (step (withDesktop os shell)) (.fresh (w, [])) es =
        ts ++ t :: ts' ∧
      Handed t a ⟨window.windowId, some name, some e.command, some e.iconFilePath⟩ ∧
      EntryAt t a e ∧
      RegisteredBy (withDesktop os shell) ts (AppName.of a.appGroup a.appId).key e ∧
      (key, v) ∈ [(.relaunchDisplayNameResource, .string name),
        (.relaunchIconResource, .string e.iconFilePath),
        (.relaunchCommand, .string e.command)] := by
  have explained := allExplained_finish w es leaves window mem named
  refine ⟨fun command => explained.whole (Option.isSome_iff_exists.mpr ⟨v, command ▸ found⟩), ?_⟩
  obtain ⟨data, ⟨t, inRun, a, handed⟩, same, asked⟩ := explained.asked _ v found
  obtain ⟨line, name, icon, strings⟩ := strings_of_pinning asked pins
  -- the steps before the request have registered every entry it finds
  obtain ⟨ts, ts', split⟩ := List.append_of_mem inRun
  obtain ⟨es₁, es₂, -, rfl, here⟩ := Runs.split_transitions split
  have registered_ : ∀ e, EntryAt t a e → RegisteredBy (withDesktop os shell)
      (Runs.transitions (step (withDesktop os shell)) (.fresh (w, [])) es₁)
      (AppName.of a.appGroup a.appId).key e := by
    rintro e ⟨db, there, entry⟩
    rw [here] at there
    exact allRegistered_finish (w, []) es₁ db there _ e entry
  obtain ⟨e, entry, rfl, rfl⟩ := entry_of_icon handed (congrArg (·.iconPath) strings)
    (congrArg (·.relaunchCommandline) strings)
    fun e entry => fits_of_registered (fun w => value w.1) (registered_ e entry)
  rw [strings] at asked
  rw [strings, same] at handed
  exact ⟨_, t, ts', a, name, e, split, handed, entry, registered_ e entry, asked⟩

end Run

/-! ### A pinned window -/

/-- A shell whose calls all succeed. -/
def openShell : Shell Disk where
  getPropertyStoreForWindow _ _ := .ok ()
  initPropVariant _ _ := .ok ()
  setValue _ _ _ _ := .ok ()

/-- The window 1 of the provider, as it opens. -/
def openedWindow : Window := ⟨0, fullWindowId { data1 := 1 } 1, fun _ => none⟩

/-- A request for the window 1 of `a`, with a name. -/
def namedRequest : Cursor :=
  .of (word32 (fieldId ||| fieldWindowId ||| fieldDesc) ++
    (word32 1 ++ (pduText "a" ++ pduText "A")))

/-- `a` is registered with an icon, its window opens, and the request arrives. -/
def pinningEvents : List (Event (Desktop Disk)) :=
  [.pdu cmdIdCaps (capsBody "U"), .pdu cmdIdUpdateAppList (.of iconBody),
    .world ({}, [openedWindow]), .pdu cmdIdAssociateWindowId namedRequest]

theorem leavesStores_pinning : ∀ t ∈ Runs.transitions (step (withDesktop diskOs openShell))
    (.fresh ({}, [])) pinningEvents, LeavesStores t := by
  intro t mem w input window here _
  have event := Runs.input_of_mem mem
  rw [input, pinningEvents] at event
  simp only [List.mem_cons, reduceCtorEq, false_or, List.not_mem_nil, or_false,
    Event.world.injEq] at event
  subst event
  rw [List.mem_singleton.mp here]
  exact Or.inr fun _ => rfl

theorem pinned_registered_pinning :
    ∃ (window : Window) (a : AssociateWindowIdPdu) (name : WStr) (e : FileEntry),
      (∃ t ∈ Runs.transitions (step (withDesktop diskOs openShell)) (.fresh ({}, []))
          pinningEvents,
        Handed t a ⟨window.windowId, some name, some e.command, some e.iconFilePath⟩) ∧
      window.store .relaunchCommand = some (.string e.command) := by
  have pinned : ∃ window ∈ (Runs.finish (step (withDesktop diskOs openShell)) (.fresh ({}, []))
      pinningEvents).world.2,
      window.windowId ≠ 0 ∧ (window.store .relaunchCommand).isSome = true := by
    decide +kernel
  obtain ⟨window, mem, named, set⟩ := pinned
  obtain ⟨command, found⟩ := Option.isSome_iff_exists.mp set
  have value : ValueFits diskOs := fun _ _ _ => (by decide : (wide "W").length < maxPath)
  obtain ⟨-, ts, t, ts', a, name, e, split, handed, -, -, asked⟩ :=
    pinned_registered value {} pinningEvents leavesStores_pinning mem named found (by decide)
  have same : command = .string e.command := by simpa using asked
  exact ⟨window, a, name, e, ⟨t, split ▸ List.mem_append_right _ List.mem_cons_self, handed⟩,
    same ▸ found⟩

end Wslg.Client
