/-
The client a handler runs on, and the calls its results are about.

A handler is a program over the members of `WSLDVCCallback`, the process heap and
the state of Windows; it may return early with a failure, keeping what it has
written. `log` is not part of the source: it lists the calls that create, read
and delete files, each with the state of Windows it was made in, so that a result
can speak about every path handed to them.

`Quiet` is the frame of the many steps that only look, check or create folders.
-/

import Wslg.Client.Icon
import Wslg.Client.Os
import Wslg.Logic.StateExcept

namespace Wslg.Client

open Wslg.Protocol Wslg.StateExcept

/-! ### State -/

/-- The members of `WSLDVCCallback`. A null `ComPtr` is `none`. -/
structure Callback where
  spFileDB : Option FileDB := some ∅
  spFileDBSync : Option FileDB := none
  channelClosed : Bool := false
  handShakeComplated : Bool := false
  serverCaps : ServerCapsPdu := {}
  appProviderGUID : GUID := {}
  appProvider : WBuf maxPath := .zero _
  appMenuPath : WStr := []
  iconPath : WStr := []
  expandedPathObj : WStr := []
  expandedWorkingDir : WStr := []
  clientLanguageId : List BYTE := []

/-- All members but the two databases. -/
def Callback.provider (cb : Callback) : Callback :=
  { cb with spFileDB := none, spFileDBSync := none }

/-- The functions of the source that call `DeleteFileW` and `RemoveDirectory`. -/
inductive Caller where
  | onDeleteAppList
  | deleteAllFileIdFiles
  | addAllSubFolderFiles
deriving DecidableEq

/-- A call that creates, reads or deletes a file, with how it ended where a result
depends on it. -/
inductive Action where
  | createIconFile (path : WStr) (done : Bool)
  | createShellLink (path : WStr) (done : Bool)
  | getIconFile (link : WStr) (icon : Option WStr)
  | deleteFile (caller : Caller) (path : WStr)
  | removeDirectory (caller : Caller) (path : WStr)
deriving DecidableEq

/-- A call and the state of Windows it was made in. -/
structure Call (ω : Type) where
  action : Action
  world : ω

/-- The client between two PDUs. -/
structure ClientState (ω : Type) where
  cb : Callback
  heap : Heap
  world : ω

/-- The client while a handler runs, with the calls made so far. -/
structure Machine (ω : Type) where
  cb : Callback
  heap : Heap
  world : ω
  log : List (Call ω)

def ClientState.start {ω : Type} (s : ClientState ω) : Machine ω := ⟨s.cb, s.heap, s.world, []⟩

def Machine.state {ω : Type} (m : Machine ω) : ClientState ω := ⟨m.cb, m.heap, m.world⟩

/-- A piece of a handler. -/
abbrev Handler (ω : Type) := EStateM Failure (Machine ω)

variable {ω α : Type}

/-! ### Steps -/

/-- `return hr`, `hr` being a failure. -/
def fail (hr : HRESULT) : Handler ω α := throw (.hresult hr)

/-- A dereference of a null pointer or a write outside an array. -/
def violate : Handler ω α := throw .accessViolation

/-- `if (!p) return E_FAIL;` -/
def require (p : Prop) [Decidable p] : Handler ω Unit := if p then pure () else fail E_FAIL

/-- `if (FAILED(hr)) return hr;` -/
def check (r : Except HRESULT α) : Handler ω α :=
  match r with
  | .ok a => pure a
  | .error hr => fail hr

def members : Handler ω Callback := fun m => .ok m.cb m

def setMembers (f : Callback → Callback) : Handler ω Unit := fun m =>
  .ok () { m with cb := f m.cb }

/-- A question to Windows. -/
def query (q : ω → α) : Handler ω α := fun m => .ok (q m.world) m

/-- A call that changes Windows. -/
def perform (op : ω → α × ω) : Handler ω α := fun m =>
  .ok (op m.world).1 { m with world := (op m.world).2 }

def record (action : Action) : Handler ω Unit := fun m =>
  .ok () { m with log := m.log ++ [⟨action, m.world⟩] }

/-- `wcscat_s` into an array of `MAX_PATH` wide characters, whose failure the
callers return as `E_FAIL`. -/
def wcscat (dest src : WStr) : Handler ω WStr :=
  if dest.length + src.length < maxPath then pure (dest ++ src) else fail E_FAIL

/-- `CreateDirectoryW`, where an existing folder is as good as a new one. -/
def createDirectory (os : Os ω) (path : WStr) : Handler ω Unit :=
  perform (os.createDirectoryW path) >>= fun r => require (r ≠ .failed)

/-! ### `utils.cpp` on files -/

/-- `CreateIconFile`. -/
def createIconFile (os : Os ω) (buffer : List BYTE) (path : WStr) : Handler ω Bool :=
  perform (os.createFileW path) >>= fun opened =>
  (if opened then perform (os.writeFile path buffer) else pure false) >>= fun done =>
  record (.createIconFile path done) >>= fun _ => pure done

/-- `CreateShellLink`; an empty icon path counts as none. -/
def createShellLink (os : Os ω) (path : WStr) (link : ShellLink) : Handler ω Unit :=
  perform (os.saveShellLink path
    { link with iconLocation := link.iconLocation.filter (· ≠ []) }) >>= fun r =>
  record (.createShellLink path r.isOk)

/-- `GetIconFileFromShellLink`. -/
def getIconFileFromShellLink (os : Os ω) (path : WStr) : Handler ω (Option WStr) :=
  query (fun w => (os.loadIconLocation w path).toOption) >>= fun icon =>
  record (.getIconFile path icon) >>= fun _ => pure icon

/-! ### Quiet steps -/

/-- Only Windows may have changed. -/
structure Quiet (m m' : Machine ω) : Prop where
  cb : m'.cb = m.cb
  heap : m'.heap = m.heap
  log : m'.log = m.log

instance : Std.Refl (Quiet (ω := ω)) := ⟨fun _ => ⟨rfl, rfl, rfl⟩⟩

instance : IsTrans (Machine ω) Quiet :=
  ⟨fun _ _ _ h h' => ⟨h'.cb.trans h.cb, h'.heap.trans h.heap, h'.log.trans h.log⟩⟩

theorem Quiet.eq {m m' : Machine ω} (h : Quiet m m') : m' = { m with world := m'.world } := by
  obtain ⟨cb, heap, world, log⟩ := m'
  obtain ⟨rfl, rfl, rfl⟩ := h
  rfl

section Quiet

variable {R : Machine ω → Machine ω → Prop} [Std.Refl R]

theorem guarantees_fail (hr : HRESULT) : Guarantees R (fail hr : Handler ω α) :=
  Guarantees.throw _

theorem guarantees_require (p : Prop) [Decidable p] : Guarantees R (require p : Handler ω Unit) :=
  Guarantees.ite (Guarantees.pure _) (guarantees_fail _)

theorem guarantees_check (r : Except HRESULT α) : Guarantees R (check r : Handler ω α) := by
  cases r with
  | ok a => exact Guarantees.pure a
  | error hr => exact guarantees_fail hr

theorem guarantees_members : Guarantees R (members : Handler ω Callback) :=
  fun m => Std.Refl.refl m

theorem guarantees_query (q : ω → α) : Guarantees R (query q : Handler ω α) :=
  fun m => Std.Refl.refl m

theorem guarantees_wcscat (dest src : WStr) : Guarantees R (wcscat dest src : Handler ω WStr) :=
  Guarantees.ite (Guarantees.pure _) (guarantees_fail _)

end Quiet

theorem quiet_perform (op : ω → α × ω) : Guarantees Quiet (perform op) :=
  fun _ => ⟨rfl, rfl, rfl⟩

theorem quiet_createDirectory (os : Os ω) (path : WStr) :
    Guarantees Quiet (createDirectory os path) :=
  (quiet_perform _).bind fun _ => guarantees_require _

/-! ### What a piece keeps -/

/-- A relation that looks neither at Windows nor at the calls made. -/
class Blind (R : Machine ω → Machine ω → Prop) : Prop where
  world : ∀ m w, R m { m with world := w }
  log : ∀ m calls, R m { m with log := calls }

section Blind

variable {R : Machine ω → Machine ω → Prop} [Blind R]

theorem guarantees_perform (op : ω → α × ω) : Guarantees R (perform op) :=
  fun m => Blind.world m _

theorem guarantees_record (action : Action) : Guarantees R (record action) :=
  fun m => Blind.log m _

/-- A quiet piece only changes Windows. -/
theorem guarantees_of_quiet {x : Handler ω α} (quiet : Guarantees Quiet x) : Guarantees R x := by
  intro m
  rw [(quiet m).eq]
  exact Blind.world m _

variable [IsTrans (Machine ω) R]

theorem guarantees_createShellLink (os : Os ω) (path : WStr) (link : ShellLink) :
    Guarantees R (createShellLink os path link) :=
  (guarantees_perform _).bind fun _ => guarantees_record _

variable [Std.Refl R]

theorem guarantees_createIconFile (os : Os ω) (buffer : List BYTE) (path : WStr) :
    Guarantees R (createIconFile os buffer path) :=
  (guarantees_perform _).bind fun _ =>
    (Guarantees.ite (guarantees_perform _) (Guarantees.pure _)).bind fun _ =>
      (guarantees_record _).bind fun _ => Guarantees.pure _

theorem guarantees_getIconFileFromShellLink (os : Os ω) (path : WStr) :
    Guarantees R (getIconFileFromShellLink os path) :=
  (guarantees_query _).bind fun _ => (guarantees_record _).bind fun _ => Guarantees.pure _

end Blind

section Keeps

variable {β : Type} {f : Callback → β}

/-- What `f` sees of the members is what it was. -/
def Keeps (f : Callback → β) (m m' : Machine ω) : Prop := f m'.cb = f m.cb

instance : Std.Refl (Keeps (ω := ω) f) := ⟨fun _ => rfl⟩

instance : IsTrans (Machine ω) (Keeps f) := ⟨fun _ _ _ h h' => h'.trans h⟩

instance : Blind (Keeps (ω := ω) f) := ⟨fun _ _ => rfl, fun _ _ => rfl⟩

theorem keeps_setMembers {g : Callback → Callback}
    (ignored : ∀ cb, f (g cb) = f cb := by intro cb; rfl) :
    Guarantees (Keeps (ω := ω) f) (setMembers g) :=
  fun m => ignored m.cb

end Keeps

/-! ### Running a step -/

section Run

variable {β : Type} (m : Machine ω)

@[simp] theorem members_bind (f : Callback → Handler ω β) : (members >>= f) m = f m.cb m := rfl

@[simp] theorem query_bind (q : ω → α) (f : α → Handler ω β) :
    (query q >>= f) m = f (q m.world) m := rfl

@[simp] theorem setMembers_bind (g : Callback → Callback) (f : Unit → Handler ω β) :
    (setMembers g >>= f) m = f () { m with cb := g m.cb } := rfl

@[simp] theorem perform_bind (op : ω → α × ω) (f : α → Handler ω β) :
    (perform op >>= f) m = f (op m.world).1 { m with world := (op m.world).2 } := rfl

@[simp] theorem pure_bind_apply (a : α) (f : α → Handler ω β) :
    ((pure a : Handler ω α) >>= f) m = f a m := rfl

@[simp] theorem require_bind (p : Prop) [Decidable p] (f : Unit → Handler ω β) :
    (require p >>= f) m = if p then f () m else .error (.hresult E_FAIL) m := by
  by_cases holds : p
  · rw [require, if_pos holds, if_pos holds]; rfl
  · rw [require, if_neg holds, if_neg holds]; rfl

@[simp] theorem check_bind (r : Except HRESULT α) (f : α → Handler ω β) :
    (check r >>= f) m =
      match r with
      | .ok a => f a m
      | .error hr => .error (.hresult hr) m := by
  cases r <;> rfl

end Run

/-! ### Steps that succeed -/

theorem require_eq_ok {p : Prop} [Decidable p] {m m' : Machine ω} {u : Unit} :
    require p m = .ok u m' ↔ p ∧ m' = m := by
  by_cases holds : p
  · rw [require, if_pos holds]
    exact ⟨fun h => by cases h; exact ⟨holds, rfl⟩, fun h => by rw [h.2]; rfl⟩
  · rw [require, if_neg holds]
    exact ⟨nofun, fun h => absurd h.1 holds⟩

theorem check_eq_ok {r : Except HRESULT α} {m m' : Machine ω} {a : α} :
    check r m = .ok a m' ↔ r = .ok a ∧ m' = m := by
  cases r with
  | ok b => exact ⟨fun h => by cases h; exact ⟨rfl, rfl⟩, fun h => by cases h.1; rw [h.2]; rfl⟩
  | error hr => exact ⟨nofun, fun h => nomatch h.1⟩

/-- A folder that is there after `CreateDirectoryW`, and the world then. -/
def MadeFolder (os : Os ω) (path : WStr) (w w' : ω) : Prop :=
  (os.createDirectoryW path w).1 ≠ .failed ∧ (os.createDirectoryW path w).2 = w'

theorem createDirectory_eq_ok {os : Os ω} {path : WStr} {m m' : Machine ω} {u : Unit} :
    createDirectory os path m = .ok u m' ↔
      ∃ w', MadeFolder os path m.world w' ∧ m' = { m with world := w' } := by
  rw [createDirectory, perform_bind, require_eq_ok]
  constructor
  · rintro ⟨made, rfl⟩
    exact ⟨_, ⟨made, rfl⟩, rfl⟩
  · rintro ⟨w', ⟨made, rfl⟩, rfl⟩
    exact ⟨made, rfl⟩

theorem wcscat_eq_ok {dest src : WStr} {m m' : Machine ω} {s : WStr} :
    wcscat dest src m = .ok s m' ↔
      dest.length + src.length < maxPath ∧ s = dest ++ src ∧ m' = m := by
  by_cases fits : dest.length + src.length < maxPath
  · rw [wcscat, if_pos fits]
    exact ⟨fun h => by cases h; exact ⟨fits, rfl, rfl⟩, fun h => by rw [h.2.1, h.2.2]; rfl⟩
  · rw [wcscat, if_neg fits]
    exact ⟨nofun, fun h => absurd h.1 fits⟩

end Wslg.Client
