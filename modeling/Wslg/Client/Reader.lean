/-
The client's PDU readers: `rdpapplist.h` (the `Read…` macros) and the five
`Read…` functions of `WSLDVCCallback.cpp`.

A reader walks a pointer and a count of remaining bytes, fills a destination
struct member by member, and jumps to `Error_Read` when a check fails. It is a
program over the struct and the cursor here: an early exit keeps the members
already written, which matters for `m_serverCaps`, the one destination that
outlives a failed read. The cursor keeps the memory from the pointer on apart
from the count, so that reading past the end of the buffer is an outcome of its
own (`accessViolation`) and not excluded by the types.
-/

import Wslg.Client.Memory
import Wslg.Logic.StateExcept

namespace Wslg.Client

open Wslg.LittleEndian Wslg.Protocol Wslg.StateExcept

abbrev HRESULT := UInt32

def E_FAIL : HRESULT := 0x80004005
def E_OUTOFMEMORY : HRESULT := 0x8007000E

/-- `INTSAFE_E_ARITHMETIC_OVERFLOW`, the failure of `UIntAdd`. -/
def arithmeticOverflow : HRESULT := 0x80070216

/-- How a call ends when it does not succeed: with a failure code, or with an
access outside the memory it names. -/
inductive Failure where
  | hresult (hr : HRESULT)
  | accessViolation
deriving DecidableEq

/-- A `cur`/`len` pair: the memory from the pointer to the end of the received
buffer, and the number of bytes the code believes remain. -/
structure Cursor where
  rest : List BYTE
  len : Nat
deriving DecidableEq

/-- The cursor at the start of a buffer. -/
def Cursor.of (bs : List BYTE) : Cursor := ⟨bs, bs.length⟩

structure ReadState (δ : Type) where
  dest : δ
  cur : Cursor

/-- A reader that fills a struct `δ`. -/
abbrev Read (δ : Type) := EStateM Failure (ReadState δ)

variable {δ : Type}

/-! ### The macros -/

/-- `goto Error_Read`. -/
def errorRead {α : Type} : Read δ α := throw (.hresult E_FAIL)

/-- The check, the copy and the two updates every read macro makes. -/
def fetch (n : Nat) : Read δ (List BYTE) := fun s =>
  if s.cur.len < n then .error (.hresult E_FAIL) s
  else if s.cur.rest.length < n then .error .accessViolation s
  else .ok (s.cur.rest.take n) { s with cur := ⟨s.cur.rest.drop n, s.cur.len - n⟩ }

/-- An assignment to the struct. -/
def assign (f : δ → δ) : Read δ Unit := fun s => .ok () { s with dest := f s.dest }

theorem assign_apply (f : δ → δ) (s : ReadState δ) :
    assign f s = .ok () { s with dest := f s.dest } := rfl

/-- A write into an array; one outside it is an access violation. -/
def writeArray {n : Nat} (b : Option (WBuf n)) : Read δ (WBuf n) := fun s =>
  match b with
  | some b => .ok b s
  | none => .error .accessViolation s

def readUINT16 (o : UInt16 → δ → δ) : Read δ Unit := do
  let bs ← fetch 2
  assign (o (UInt16.ofNat (decode bs)))

def readUINT32 (o : UInt32 → δ → δ) : Read δ Unit := do
  let bs ← fetch 4
  assign (o (UInt32.ofNat (decode bs)))

/-- The pair of members `oLength` and `o` of a PDU struct. -/
structure PduString where
  length : UInt16 := 0
  buf : WBuf maxStringSizeInWchar := .zero _
deriving DecidableEq

/-- The characters of the array up to its first NUL. -/
def PduString.str (f : PduString) : WStr := f.buf.str

/-- A string member of a struct: where `ReadSTRING` finds and puts it. -/
structure Member (δ : Type) where
  get : δ → PduString
  set : PduString → δ → δ
  get_set : ∀ f d, get (set f d) = f := by intros; rfl
  set_set : ∀ f g d, set g (set f d) = set g d := by intros; rfl
  set_get : ∀ d, set (get d) d = d := by intros; rfl

/-- The tail of `ReadSTRING` once the length is known to fit and not to be zero:
copy that many bytes and put a NUL at `Length / sizeof(WCHAR)`. -/
def readChars (o : Member δ) (n : UInt16) : Read δ Unit := do
  let bytes ← fetch n.toNat
  let s ← get
  let buf ← writeArray ((o.get s.dest).buf.copyBytes bytes)
  assign (o.set ⟨n, buf⟩)
  let buf ← writeArray (buf.put (n.toNat / 2) 0)
  assign (o.set ⟨n, buf⟩)

def readSTRING (o : Member δ) (required : Bool) : Read δ Unit := do
  readUINT16 fun n d => o.set { o.get d with length := n } d
  let s ← get
  let n := (o.get s.dest).length
  if n.toNat + 2 > maxStringSize then errorRead
  else if n ≠ 0 then readChars o n
  else if required then errorRead
  else pure ()

def checkRequiredFlags (flags : δ → UInt32) (required : UInt32) : Read δ Unit := do
  let s ← get
  if hasAll (flags s.dest) required then pure () else errorRead

/-- `if (pdu->flags & bit) { … }`. -/
def whenFlag (flags : δ → UInt32) (bit : UInt32) (body : Read δ Unit) : Read δ Unit := do
  let s ← get
  if has (flags s.dest) bit then body else pure ()

/-- What a caller sees of a reader: the cursor moves only on success, the struct
keeps what was written. -/
def runReader (body : Read δ Unit) (d : δ) (c : Cursor) : Except Failure Cursor × δ :=
  match body ⟨d, c⟩ with
  | .ok _ s => (.ok s.cur, s.dest)
  | .error e s => (.error e, s.dest)

/-! ### The cursor moves on -/

/-- The count of remaining bytes has not grown. -/
def Forward (s s' : ReadState δ) : Prop := s'.cur.len ≤ s.cur.len

instance : Std.Refl (Forward (δ := δ)) := ⟨fun _ => Nat.le_refl _⟩

instance : IsTrans (ReadState δ) Forward := ⟨fun _ _ _ h h' => Nat.le_trans h' h⟩

/-- A successful fetch takes exactly its bytes off the count. -/
theorem fetch_eq_ok {n : Nat} {s s' : ReadState δ} {bs : List BYTE}
    (h : fetch n s = .ok bs s') :
    n ≤ s.cur.len ∧ s'.cur.len = s.cur.len - n := by
  rw [fetch] at h
  split at h
  · cases h
  rename_i enough
  split at h
  · cases h
  · cases h
    exact ⟨Nat.not_lt.mp enough, rfl⟩

theorem forward_fetch (n : Nat) : Guarantees Forward (fetch n : Read δ (List BYTE)) := by
  intro s
  cases h : fetch n s with
  | ok bs s' => exact (fetch_eq_ok h).2.trans_le (Nat.sub_le ..)
  | error e s' =>
      rw [fetch] at h
      split at h
      · cases h; exact Nat.le_refl _
      · split at h <;> cases h
        exact Nat.le_refl _

theorem forward_assign (f : δ → δ) : Guarantees Forward (assign f) := fun _ => Nat.le_refl _

theorem forward_writeArray {n : Nat} (b : Option (WBuf n)) :
    Guarantees Forward (writeArray b : Read δ (WBuf n)) := by
  intro s
  cases b <;> exact Nat.le_refl _

theorem forward_readUINT16 (o : UInt16 → δ → δ) : Guarantees Forward (readUINT16 o) :=
  (forward_fetch 2).bind fun _ => forward_assign _

theorem forward_readUINT32 (o : UInt32 → δ → δ) : Guarantees Forward (readUINT32 o) :=
  (forward_fetch 4).bind fun _ => forward_assign _

theorem forward_readSTRING (o : Member δ) (required : Bool) :
    Guarantees Forward (readSTRING o required) := by
  have chars : ∀ n, Guarantees Forward (readChars o n) := fun n =>
    (forward_fetch _).bind fun _ => Guarantees.get.bind fun _ =>
      (forward_writeArray _).bind fun _ => (forward_assign _).bind fun _ =>
        (forward_writeArray _).bind fun _ => forward_assign _
  exact (forward_readUINT16 _).bind fun _ => Guarantees.get.bind fun _ =>
    Guarantees.ite (Guarantees.throw _)
      (Guarantees.ite (chars _) (Guarantees.ite (Guarantees.throw _) (Guarantees.pure ())))

theorem forward_checkRequiredFlags (flags : δ → UInt32) (required : UInt32) :
    Guarantees Forward (checkRequiredFlags flags required) :=
  Guarantees.get.bind fun _ => Guarantees.ite (Guarantees.pure ()) (Guarantees.throw _)

theorem forward_whenFlag (flags : δ → UInt32) (bit : UInt32) {body : Read δ Unit}
    (h : Guarantees Forward body) : Guarantees Forward (whenFlag flags bit body) :=
  Guarantees.get.bind fun _ => Guarantees.ite h (Guarantees.pure ())

theorem len_le_of_runReader {body : Read δ Unit} (forward : Guarantees Forward body) {d d' : δ}
    {c c' : Cursor} (h : runReader body d c = (.ok c', d')) : c'.len ≤ c.len := by
  rw [runReader] at h
  cases run : body ⟨d, c⟩ with
  | ok u s =>
      rw [run] at h
      cases h
      exact forward.of_ok run
  | error e s => rw [run] at h; cases h

/-! ### Header -/

structure Header where
  cmdId : UInt32 := 0
  length : UInt32 := 0
deriving DecidableEq

def readAppListHeader (c : Cursor) : Except Failure Cursor × Header :=
  runReader (do
    readUINT32 fun v d => { d with cmdId := v }
    readUINT32 fun v d => { d with length := v }) {} c

/-- A header takes eight bytes. -/
theorem len_of_readAppListHeader {c c' : Cursor} {h : Header}
    (read : readAppListHeader c = (.ok c', h)) : c'.len + 8 ≤ c.len := by
  have word : ∀ {o : UInt32 → Header → Header} {s s' : ReadState Header} {u : Unit},
      readUINT32 o s = .ok u s' → s'.cur.len + 4 ≤ s.cur.len := by
    intro o s s' u run
    obtain ⟨bs, mid, fetched, assigned⟩ := bind_eq_ok.mp run
    obtain ⟨enough, taken⟩ := fetch_eq_ok fetched
    cases assigned
    show mid.cur.len + 4 ≤ _
    omega
  rw [readAppListHeader, runReader] at read
  split at read
  · rename_i u s run
    obtain ⟨_, mid, first, second⟩ := bind_eq_ok.mp run
    have := word first
    have := word second
    cases read
    simp only at *
    omega
  · cases read

/-! ### CAPS -/

structure ServerCapsPdu where
  version : UInt16 := 0
  appListProviderName : PduString := {}
  appListProviderUniqueId : PduString := {}
deriving DecidableEq

namespace ServerCapsPdu

def nameMember : Member ServerCapsPdu :=
  { get := (·.appListProviderName), set := fun f d => { d with appListProviderName := f } }

def uniqueIdMember : Member ServerCapsPdu :=
  { get := (·.appListProviderUniqueId), set := fun f d => { d with appListProviderUniqueId := f } }

end ServerCapsPdu

def readAppListServerCapsBody : Read ServerCapsPdu Unit := do
  readUINT16 fun v d => { d with version := v }
  readSTRING ServerCapsPdu.nameMember true
  let s ← get
  if s.dest.version ≥ 4 then readSTRING ServerCapsPdu.uniqueIdMember true else pure ()

theorem forward_readAppListServerCapsBody : Guarantees Forward readAppListServerCapsBody :=
  (forward_readUINT16 _).bind fun _ => (forward_readSTRING _ _).bind fun _ =>
    Guarantees.get.bind fun _ => Guarantees.ite (forward_readSTRING _ _) (Guarantees.pure ())

def readAppListServerCaps (d : ServerCapsPdu) (c : Cursor) :
    Except Failure Cursor × ServerCapsPdu :=
  runReader readAppListServerCapsBody d c

/-! ### UPDATE_APPLIST -/

structure UpdateAppListPdu where
  flags : UInt32 := 0
  appId : PduString := {}
  appGroup : PduString := {}
  appExecPath : PduString := {}
  appWorkingDir : PduString := {}
  appDesc : PduString := {}
deriving DecidableEq

namespace UpdateAppListPdu

def idMember : Member UpdateAppListPdu :=
  { get := (·.appId), set := fun f d => { d with appId := f } }

def groupMember : Member UpdateAppListPdu :=
  { get := (·.appGroup), set := fun f d => { d with appGroup := f } }

def execPathMember : Member UpdateAppListPdu :=
  { get := (·.appExecPath), set := fun f d => { d with appExecPath := f } }

def workingDirMember : Member UpdateAppListPdu :=
  { get := (·.appWorkingDir), set := fun f d => { d with appWorkingDir := f } }

def descMember : Member UpdateAppListPdu :=
  { get := (·.appDesc), set := fun f d => { d with appDesc := f } }

end UpdateAppListPdu

def readAppListUpdateBody : Read UpdateAppListPdu Unit := do
  readUINT32 fun v d => { d with flags := v }
  checkRequiredFlags (·.flags) (fieldId ||| fieldExecPath ||| fieldDesc)
  whenFlag (·.flags) fieldId (readSTRING UpdateAppListPdu.idMember true)
  whenFlag (·.flags) fieldGroup (readSTRING UpdateAppListPdu.groupMember false)
  whenFlag (·.flags) fieldExecPath (readSTRING UpdateAppListPdu.execPathMember true)
  whenFlag (·.flags) fieldWorkingDir (readSTRING UpdateAppListPdu.workingDirMember false)
  whenFlag (·.flags) fieldDesc (readSTRING UpdateAppListPdu.descMember true)

theorem forward_readAppListUpdateBody : Guarantees Forward readAppListUpdateBody :=
  (forward_readUINT32 _).bind fun _ => (forward_checkRequiredFlags _ _).bind fun _ =>
    (forward_whenFlag _ _ (forward_readSTRING _ _)).bind fun _ =>
      (forward_whenFlag _ _ (forward_readSTRING _ _)).bind fun _ =>
        (forward_whenFlag _ _ (forward_readSTRING _ _)).bind fun _ =>
          (forward_whenFlag _ _ (forward_readSTRING _ _)).bind fun _ =>
            forward_whenFlag _ _ (forward_readSTRING _ _)

def readAppListUpdate (d : UpdateAppListPdu) (c : Cursor) :
    Except Failure Cursor × UpdateAppListPdu :=
  runReader readAppListUpdateBody d c

/-! ### DELETE_APPLIST -/

structure DeleteAppListPdu where
  flags : UInt32 := 0
  appId : PduString := {}
  appGroup : PduString := {}
deriving DecidableEq

namespace DeleteAppListPdu

def idMember : Member DeleteAppListPdu :=
  { get := (·.appId), set := fun f d => { d with appId := f } }

def groupMember : Member DeleteAppListPdu :=
  { get := (·.appGroup), set := fun f d => { d with appGroup := f } }

end DeleteAppListPdu

def readAppListDeleteBody : Read DeleteAppListPdu Unit := do
  readUINT32 fun v d => { d with flags := v }
  checkRequiredFlags (·.flags) fieldId
  whenFlag (·.flags) fieldId (readSTRING DeleteAppListPdu.idMember true)
  whenFlag (·.flags) fieldGroup (readSTRING DeleteAppListPdu.groupMember false)

theorem forward_readAppListDeleteBody : Guarantees Forward readAppListDeleteBody :=
  (forward_readUINT32 _).bind fun _ => (forward_checkRequiredFlags _ _).bind fun _ =>
    (forward_whenFlag _ _ (forward_readSTRING _ _)).bind fun _ =>
      forward_whenFlag _ _ (forward_readSTRING _ _)

def readAppListDelete (d : DeleteAppListPdu) (c : Cursor) :
    Except Failure Cursor × DeleteAppListPdu :=
  runReader readAppListDeleteBody d c

/-! ### ASSOCIATE_WINDOW_ID -/

structure AssociateWindowIdPdu where
  flags : UInt32 := 0
  appWindowId : UInt32 := 0
  appId : PduString := {}
  appGroup : PduString := {}
  appExecPath : PduString := {}
  appDesc : PduString := {}
deriving DecidableEq

namespace AssociateWindowIdPdu

def idMember : Member AssociateWindowIdPdu :=
  { get := (·.appId), set := fun f d => { d with appId := f } }

def groupMember : Member AssociateWindowIdPdu :=
  { get := (·.appGroup), set := fun f d => { d with appGroup := f } }

def execPathMember : Member AssociateWindowIdPdu :=
  { get := (·.appExecPath), set := fun f d => { d with appExecPath := f } }

def descMember : Member AssociateWindowIdPdu :=
  { get := (·.appDesc), set := fun f d => { d with appDesc := f } }

end AssociateWindowIdPdu

def readAssociateWindowIdBody : Read AssociateWindowIdPdu Unit := do
  readUINT32 fun v d => { d with flags := v }
  checkRequiredFlags (·.flags) (fieldId ||| fieldWindowId)
  readUINT32 fun v d => { d with appWindowId := v }
  whenFlag (·.flags) fieldId (readSTRING AssociateWindowIdPdu.idMember true)
  whenFlag (·.flags) fieldGroup (readSTRING AssociateWindowIdPdu.groupMember false)
  whenFlag (·.flags) fieldExecPath (readSTRING AssociateWindowIdPdu.execPathMember true)
  whenFlag (·.flags) fieldDesc (readSTRING AssociateWindowIdPdu.descMember true)

theorem forward_readAssociateWindowIdBody : Guarantees Forward readAssociateWindowIdBody :=
  (forward_readUINT32 _).bind fun _ => (forward_checkRequiredFlags _ _).bind fun _ =>
    (forward_readUINT32 _).bind fun _ =>
      (forward_whenFlag _ _ (forward_readSTRING _ _)).bind fun _ =>
        (forward_whenFlag _ _ (forward_readSTRING _ _)).bind fun _ =>
          (forward_whenFlag _ _ (forward_readSTRING _ _)).bind fun _ =>
            forward_whenFlag _ _ (forward_readSTRING _ _)

def readAssociateWindowId (d : AssociateWindowIdPdu) (c : Cursor) :
    Except Failure Cursor × AssociateWindowIdPdu :=
  runReader readAssociateWindowIdBody d c

end Wslg.Client
