/-
No handler touches memory that is not its own.

`Safe P x Q` is a triple about a piece of a handler: from members with `P` it ends in
`Q` or returns a failure code, never in an access violation, and while the channel is
open the database stays (`Intact`). The only places that could go wrong are the calls on
the two databases, the copy of the provider's name and the readers; the sync database is
there in a walk, in a sweep and wherever the sync flags of a PDU have been checked.

`parser_safe` puts this together for a buffer: whatever its bytes, the state it meets
and the answers of Windows.
-/

import Wslg.Client.Provider
import Wslg.Client.ReadSafety

namespace Wslg.Client

open Wslg.LittleEndian Wslg.Protocol Wslg.StateExcept Wslg.Runs

variable {ω α β : Type}

/-! ### What safety rests on -/

/-- The members that decide whether a handler is safe. -/
structure Vital where
  session : Session
  serverCaps : ServerCapsPdu

def Callback.vital (cb : Callback) : Vital := ⟨cb.session, cb.serverCaps⟩

/-- There is a database, and the strings of `m_serverCaps` end. -/
structure Intact (v : Vital) : Prop where
  fileDB : v.session.spFileDB.isSome = true
  serverCaps : v.serverCaps.NulInside

/-- And a sync is going on. -/
structure Syncing (v : Vital) : Prop extends Intact v where
  fileDBSync : v.session.spFileDBSync.isSome = true

/-- From members with `P` the piece ends in `Q` or returns a failure. -/
def Safe (P : Vital → Prop) (x : Handler ω α) (Q : α → Vital → Prop) : Prop :=
  Triple (fun m => P m.cb.vital) x (fun a m => Q a m.cb.vital)
    fun e m => e ≠ .accessViolation ∧ Intact m.cb.vital

theorem Safe.bind {P : Vital → Prop} {Q : α → Vital → Prop} {R : β → Vital → Prop}
    {x : Handler ω α} {f : α → Handler ω β} (hx : Safe P x Q) (hf : ∀ a, Safe (Q a) (f a) R) :
    Safe P (x >>= f) R :=
  Triple.bind hx hf

theorem Safe.pure {P : Vital → Prop} {Q : α → Vital → Prop} {a : α} (post : ∀ v, P v → Q a v) :
    Safe P (Pure.pure a : Handler ω α) Q :=
  Triple.pure fun m => post m.cb.vital

theorem Safe.weaken {P P' : Vital → Prop} {Q Q' : α → Vital → Prop} {x : Handler ω α}
    (hx : Safe P x Q) (pre : ∀ v, P' v → P v) (post : ∀ a v, Q a v → Q' a v) : Safe P' x Q' :=
  Triple.weaken hx (fun m => pre m.cb.vital) fun a m => post a m.cb.vital

theorem Safe.ite {P : Vital → Prop} {Q : α → Vital → Prop} {p : Prop} [Decidable p]
    {x y : Handler ω α} (hx : p → Safe P x Q) (hy : ¬ p → Safe P y Q) :
    Safe P (if p then x else y) Q :=
  Triple.ite hx hy

/-- The members read are the ones at hand. -/
theorem safe_members {P : Vital → Prop} :
    Safe P (members : Handler ω Callback) fun cb v => cb.vital = v ∧ P v := by
  intro m pre
  constructor
  · intro cb m' run
    cases run
    exact ⟨rfl, pre⟩
  · intro e m' run
    cases run

theorem safe_look {P : Vital → Prop} : Safe P (members : Handler ω Callback) fun _ => P :=
  safe_members.weaken (fun _ => id) fun _ _ => And.right

section Pieces

variable {P : Vital → Prop} (intact : ∀ v, P v → Intact v)

/-- A step that always succeeds and leaves the members. -/
theorem safe_steady {x : Handler ω α} (steady : ∀ m, ∃ a m', x m = .ok a m' ∧ m'.cb = m.cb) :
    Safe P x fun _ => P := by
  intro m pre
  obtain ⟨a, m', run, same⟩ := steady m
  rw [run]
  constructor
  · intro a' m'' done
    cases done
    rw [same]
    exact pre
  · intro e m'' failed
    cases failed

theorem safe_query (q : ω → α) : Safe P (query q) fun _ => P :=
  safe_steady fun _ => ⟨_, _, rfl, rfl⟩

theorem safe_perform (op : ω → α × ω) : Safe P (perform op) fun _ => P :=
  safe_steady fun _ => ⟨_, _, rfl, rfl⟩

theorem safe_record (action : Action) : Safe P (record action : Handler ω Unit) fun _ => P :=
  safe_steady fun _ => ⟨_, _, rfl, rfl⟩

theorem safe_setMembers {Q : Vital → Prop} {g : Callback → Callback}
    (post : ∀ cb, P cb.vital → Q (g cb).vital) :
    Safe P (setMembers g : Handler ω Unit) fun _ => Q := by
  intro m pre
  constructor
  · intro a m' run
    cases run
    exact post m.cb pre
  · intro e m' run
    cases run

/-- A change of members that safety does not rest on. -/
theorem safe_setMembers_other {g : Callback → Callback}
    (other : ∀ cb, (g cb).vital = cb.vital := by intro cb; rfl) :
    Safe P (setMembers g : Handler ω Unit) fun _ => P :=
  safe_setMembers fun cb pre => (other cb).symm ▸ pre

include intact

theorem safe_fail (hr : HRESULT) {Q : α → Vital → Prop} : Safe P (fail hr : Handler ω α) Q :=
  Triple.throw fun m pre => ⟨hresult_ne hr, intact m.cb.vital pre⟩

theorem safe_require (p : Prop) [Decidable p] :
    Safe P (require p : Handler ω Unit) fun _ v => p ∧ P v :=
  Safe.ite (fun holds => Safe.pure fun _ pre => ⟨holds, pre⟩) fun _ => safe_fail intact E_FAIL

theorem safe_require' (p : Prop) [Decidable p] : Safe P (require p : Handler ω Unit) fun _ => P :=
  (safe_require intact p).weaken (fun _ => id) fun _ _ => And.right

theorem safe_check (r : Except HRESULT α) : Safe P (check r : Handler ω α) fun _ => P := by
  cases r with
  | ok a => exact Safe.pure fun _ => id
  | error hr => exact safe_fail intact hr

theorem safe_wcscat (dest src : WStr) : Safe P (wcscat dest src : Handler ω WStr) fun _ => P :=
  Safe.ite (fun _ => Safe.pure fun _ => id) fun _ => safe_fail intact E_FAIL

theorem safe_createDirectory (os : Os ω) (path : WStr) :
    Safe P (createDirectory os path) fun _ => P :=
  (safe_perform _).bind fun _ => safe_require' intact _

omit intact

theorem safe_createIconFile (os : Os ω) (buffer : List BYTE) (path : WStr) :
    Safe P (createIconFile os buffer path) fun _ => P := by
  have write : ∀ opened : Bool,
      Safe P (if opened then perform (os.writeFile path buffer) else pure false) fun _ => P :=
    fun _ => Safe.ite (fun _ => safe_perform _) fun _ => Safe.pure fun _ => id
  exact (safe_perform _).bind fun opened => (write opened).bind fun _ =>
    (safe_record _).bind fun _ => Safe.pure fun _ => id

theorem safe_createShellLink (os : Os ω) (path : WStr) (link : ShellLink) :
    Safe P (createShellLink os path link) fun _ => P :=
  (safe_perform _).bind fun _ => safe_record _

theorem safe_getIconFileFromShellLink (os : Os ω) (path : WStr) :
    Safe P (getIconFileFromShellLink os path) fun _ => P :=
  (safe_query _).bind fun _ => (safe_record _).bind fun _ => Safe.pure fun _ => id

theorem safe_removeDirectory (os : Os ω) (caller : Caller) (path : WStr) :
    Safe P (removeDirectory os caller path) fun _ => P :=
  (safe_record _).bind fun _ => (safe_perform _).bind fun _ => Safe.pure fun _ => id

theorem safe_deleteFile (os : Os ω) (caller : Caller) (path : WStr) :
    Safe P (deleteFile os caller path) fun _ => P :=
  (safe_record _).bind fun _ => safe_perform _

end Pieces

/-! ### CAPS -/

section Caps

variable {P : Vital → Prop} (intact : ∀ v, P v → Intact v)

include intact

theorem safe_installProviderGUID (os : Os ω) :
    Safe P (installProviderGUID os) fun _ => P := by
  refine safe_members.bind fun cb => Safe.ite (fun _ => ?_) fun _ => Safe.pure fun _ => And.right
  refine (safe_require' (fun v pre => intact v pre.2) _).bind fun _ => ?_
  refine (safe_query _).bind fun r => (safe_setMembers_other).bind fun _ => ?_
  exact (safe_check (fun v pre => intact v pre.2) _).weaken (fun _ => id) fun _ _ => And.right

theorem safe_buildMenuPath (os : Os ω) (provider : WStr) :
    Safe P (buildMenuPath os provider) fun _ => P := by
  refine (safe_query _).bind fun folder => ?_
  cases folder with
  | none => exact safe_fail intact _
  | some startMenu =>
      exact (safe_setMembers_other).bind fun _ =>
        (safe_require' intact _).bind fun _ => safe_createDirectory intact os _

theorem safe_catIconPath (src : WStr) : Safe P (catIconPath src : Handler ω Unit) fun _ => P :=
  safe_look.bind fun _ =>
    (safe_setMembers_other).bind fun _ => safe_require' intact _

theorem safe_createIconDirectory (os : Os ω) : Safe P (createIconDirectory os) fun _ => P :=
  safe_look.bind fun _ =>
    safe_createDirectory intact os _

theorem safe_buildIconPath (os : Os ω) (provider : WStr) :
    Safe P (buildIconPath os provider) fun _ => P :=
  safe_look.bind fun _ =>
    (safe_query _).bind fun _ => (safe_setMembers_other).bind fun _ =>
      (safe_require' intact _).bind fun _ => (safe_require' intact _).bind fun _ =>
        (safe_catIconPath intact _).bind fun _ => (safe_createIconDirectory intact os).bind fun _ =>
          (safe_catIconPath intact _).bind fun _ => safe_createIconDirectory intact os

theorem safe_installExpandedPath (os : Os ω) : Safe P (installExpandedPath os) fun _ => P :=
  (safe_query _).bind fun _ => (safe_check intact _).bind fun _ =>
    safe_look.bind fun _ =>
      (safe_query _).bind fun _ => (safe_setMembers_other).bind fun _ =>
        (safe_check intact _).bind fun _ => (safe_setMembers_other).bind fun _ =>
          safe_require' intact _

theorem safe_sendReply (os : Os ω) : Safe P (sendReply os) fun _ => P := by
  refine safe_look.bind fun cb => ?_
  exact Safe.ite (fun _ => (safe_require' intact _).bind fun _ => safe_perform _) fun _ =>
    Safe.pure fun _ => id

theorem safe_finishHandshake (hr : Except HRESULT Unit) :
    Safe P (finishHandshake hr : Handler ω Unit) fun _ => P :=
  (safe_setMembers_other).bind fun _ => safe_check intact hr

end Caps

/-- `m_serverCaps` after a successful read: its name is shorter than the array. -/
structure CapsRead (v : Vital) : Prop extends Intact v where
  short : v.serverCaps.appListProviderName.length.toNat + 2 ≤ maxStringSize

theorem safe_readServerCaps {c : Cursor} (start : Exact c) :
    Safe Intact (readServerCaps c : Handler ω Cursor) fun c' v => Moved c c' ∧ CapsRead v := by
  intro m pre
  have reader := readerSafe_serverCaps
  have kept := reader.keeps m.cb.serverCaps c start pre.serverCaps
  unfold readServerCaps
  cases read : readAppListServerCaps m.cb.serverCaps c with
  | mk result caps =>
      rw [read] at kept
      cases result with
      | ok c' =>
          have short := (terminated_of_readAppListServerCaps read).short
          constructor
          · intro c'' m' run
            cases run
            exact ⟨reader.moved m.cb.serverCaps c _ start pre.serverCaps (by rw [read]),
              ⟨pre.fileDB, kept⟩, short⟩
          · intro e m' run
            cases run
      | error e =>
          constructor
          · intro c'' m' run
            cases run
          · intro e' m' run
            cases run
            refine ⟨fun violation => ?_, pre.fileDB, kept⟩
            exact reader.noViolation m.cb.serverCaps c start pre.serverCaps
              (by rw [read, violation])

/-- The bytes of a name that was read fit into `m_appProvider`. -/
theorem nameBytes_fit {caps : ServerCapsPdu}
    (short : caps.appListProviderName.length.toNat + 2 ≤ maxStringSize) :
    caps.nameBytes.length ≤ 2 * maxPath := by
  have array : maxStringSize = 512 := rfl
  have path : maxPath = 260 := rfl
  have taken : caps.nameBytes.length ≤ caps.appListProviderName.length.toNat :=
    List.length_take_le ..
  omega

theorem safe_copyProviderName :
    Safe CapsRead (copyProviderName : Handler ω Unit) fun _ => CapsRead := by
  refine safe_members.bind fun cb => ?_
  rintro m ⟨same, pre⟩
  have caps : cb.serverCaps = m.cb.serverCaps := congrArg Vital.serverCaps same
  have short : cb.serverCaps.appListProviderName.length.toNat + 2 ≤ maxStringSize := by
    rw [caps]
    exact pre.short
  obtain ⟨name, copied⟩ : ∃ name, cb.appProvider.copyBytes cb.serverCaps.nameBytes = some name :=
    ⟨_, WBuf.copyBytes_eq_some (nameBytes_fit short)⟩
  rw [copied]
  exact safe_setMembers_other (P := CapsRead) (g := fun cb => { cb with appProvider := name })
    (fun _ => rfl) m pre

theorem safe_applyCaps (os : Os ω) : Safe CapsRead (applyCaps os) fun _ => Intact := by
  have intact : ∀ v, CapsRead v → Intact v := fun _ h => h.toIntact
  have install : Safe CapsRead (installProvider os) fun _ => CapsRead :=
    safe_copyProviderName.bind fun _ =>
      (safe_look.bind fun _ => safe_require' intact _).bind fun _ =>
        (safe_installProviderGUID intact os).bind fun _ => safe_look.bind fun _ =>
          (safe_buildMenuPath intact os _).bind fun _ => safe_buildIconPath intact os _
  have workingDir : Safe CapsRead (expandWorkingDir os) fun _ => CapsRead :=
    safe_look.bind fun _ => (safe_query _).bind fun _ => (safe_setMembers_other).bind fun _ =>
      safe_require' intact _
  have language : Safe CapsRead (installLanguage os) fun _ => CapsRead :=
    (safe_query _).bind fun _ => safe_setMembers_other
  have prepared : Safe CapsRead (prepareHandshake os) fun _ => CapsRead :=
    install.bind fun _ => (safe_installExpandedPath intact os).bind fun _ =>
      workingDir.bind fun _ => language.bind fun _ => safe_sendReply intact os
  exact prepared.bind fun hr =>
    (safe_finishHandshake intact hr).weaken (fun _ => id) fun _ => intact

theorem safe_onCaps (os : Os ω) {c : Cursor} (start : Exact c) :
    Safe Intact (onCaps os c) fun c' v => Moved c c' ∧ Intact v := by
  refine (safe_readServerCaps start).bind fun c' => ?_
  intro m read
  have applied := ((safe_applyCaps os).bind (R := fun c'' v => c'' = c' ∧ Intact v) fun _ =>
    Safe.pure fun _ pre => ⟨rfl, pre⟩) m read.2
  refine ⟨fun c'' m' run => ?_, applied.2⟩
  obtain ⟨rfl, intact⟩ := applied.1 c'' m' run
  exact ⟨read.1, intact⟩

/-! ### Sync mode -/

theorem Syncing.intact (v : Vital) (h : Syncing v) : Intact v := h.toIntact

theorem safe_withSync (f : FileDB → FileDB) :
    Safe Syncing (withSync f : Handler ω Unit) fun _ => Syncing := by
  refine safe_members.bind fun cb => ?_
  rintro m ⟨same, pre⟩
  have sync : cb.spFileDBSync = m.cb.spFileDBSync := congrArg (·.session.spFileDBSync) same
  obtain ⟨db, here⟩ := Option.isSome_iff_exists.mp pre.fileDBSync
  rw [sync.trans here]
  exact safe_setMembers (Q := Syncing) (fun _ pre => ⟨⟨pre.fileDB, pre.serverCaps⟩, rfl⟩) m pre

theorem safe_onLnkFileAdded (os : Os ω) (lnkFile : WStr) :
    Safe Syncing (onLnkFileAdded os lnkFile) fun _ => Syncing := by
  refine (safe_withSync _).bind fun _ => (safe_getIconFileFromShellLink os _).bind fun icon => ?_
  cases icon with
  | none => exact Safe.pure fun _ => id
  | some iconFile => exact safe_withSync _

theorem safe_addAllSubFolderFiles (os : Os ω) (entries : Listing) (path : WStr) :
    Safe Syncing (addAllSubFolderFiles os entries path) fun _ => Syncing := by
  induction entries generalizing path with
  | done => exact Safe.pure fun _ => id
  | file name rest ih =>
      have added : Safe Syncing (if pathFindExtensionW name.chars = lnkExtension then
          onLnkFileAdded os (below path name) else pure ()) fun _ => Syncing :=
        Safe.ite (fun _ => safe_onLnkFileAdded os _) fun _ => Safe.pure fun _ => id
      exact added.bind fun _ => ih path
  | dir name sub rest ihSub ih =>
      have entered : Safe Syncing (if name.isSpecial then pure () else
          isEmptyDirectory os (below path name) >>= fun empty =>
          if empty then removeDirectory os .addAllSubFolderFiles (below path name)
          else addAllSubFolderFiles os sub (below path name)) fun _ => Syncing :=
        Safe.ite (fun _ => Safe.pure fun _ => id) fun _ => (safe_query _).bind fun _ =>
          Safe.ite (fun _ => safe_removeDirectory os _ _) fun _ => ihSub _
      exact entered.bind fun _ => ih path

theorem safe_onSyncStart (os : Os ω) : Safe Intact (onSyncStart os) fun _ => Syncing :=
  safe_look.bind fun _ => (safe_require' (fun _ => id) _).bind fun _ =>
    (safe_query _).bind fun _ => (safe_check (fun _ => id) _).bind fun _ =>
      (safe_setMembers (Q := Syncing) fun _ pre => ⟨⟨pre.fileDB, pre.serverCaps⟩, rfl⟩).bind
        fun _ => (safe_query _).bind fun _ => safe_addAllSubFolderFiles os _ _

theorem safe_deleteFileIds (os : Os ω) (fileIds : List WStr) :
    Safe Syncing (deleteFileIds os fileIds) fun _ => Syncing := by
  have parent : ∀ fileId, Safe Syncing (removeParent os fileId) fun _ => Syncing := by
    intro fileId
    unfold removeParent
    cases parentFolder fileId with
    | none => exact Safe.pure fun _ => id
    | some dir =>
        exact (safe_query _).bind fun _ =>
          Safe.ite (fun _ => safe_removeDirectory os _ _) fun _ => Safe.pure fun _ => id
  induction fileIds with
  | nil => exact Safe.pure fun _ => id
  | cons fileId rest ih =>
      have deleted : Safe Syncing (deleteFileId os fileId) fun _ => Syncing :=
        (safe_deleteFile os _ _).bind fun _ => (Safe.ite (fun _ => parent fileId) fun _ =>
          Safe.pure fun _ => id).bind fun _ => safe_withSync _
      exact deleted.bind fun _ => ih

theorem safe_deleteAllFileIdFiles (os : Os ω) :
    Safe Syncing (deleteAllFileIdFiles os) fun _ => Syncing := by
  refine safe_members.bind fun cb => ?_
  rintro m ⟨same, pre⟩
  have sync : cb.spFileDBSync = m.cb.spFileDBSync := congrArg (·.session.spFileDBSync) same
  obtain ⟨db, here⟩ := Option.isSome_iff_exists.mp pre.fileDBSync
  rw [sync.trans here]
  exact safe_deleteFileIds os _ m pre

theorem safe_onSyncEnd (os : Os ω) (cleanupFiles : Bool) :
    Safe Intact (onSyncEnd os cleanupFiles) fun _ => Intact := by
  refine safe_members.bind fun cb => Safe.ite (fun sync => ?_) fun _ =>
    Safe.pure fun _ pre => pre.2
  have sweep : Safe Syncing (if cleanupFiles then deleteAllFileIdFiles os else pure ())
      fun _ => Syncing :=
    Safe.ite (fun _ => safe_deleteAllFileIdFiles os) fun _ => Safe.pure fun _ => id
  have ended : Safe Syncing ((if cleanupFiles then deleteAllFileIdFiles os else pure ()) >>=
      fun _ => setMembers fun cb => { cb with spFileDBSync := none }) fun _ => Intact :=
    sweep.bind fun _ => safe_setMembers fun _ pre => ⟨pre.fileDB, pre.serverCaps⟩
  refine ended.weaken ?_ fun _ _ => id
  rintro v ⟨rfl, pre⟩
  exact ⟨pre, sync⟩

/-! ### UPDATE_APPLIST -/

/-- A sync is going on if the flags of the PDU say so. -/
structure SyncIfAsked (flags : UInt32) (v : Vital) : Prop extends Intact v where
  fileDBSync : has flags hintSync = true → v.session.spFileDBSync.isSome = true

section Update

variable {flags : UInt32}

theorem SyncIfAsked.intact (v : Vital) (h : SyncIfAsked flags v) : Intact v := h.toIntact

theorem safe_checkSyncMode (flags : UInt32) :
    Safe Intact (checkSyncMode flags : Handler ω Unit) fun _ => SyncIfAsked flags := by
  refine safe_members.bind fun cb => ?_
  refine (safe_require (fun v pre => pre.2) _).weaken (fun _ => id) ?_
  rintro _ v ⟨sync, rfl, pre⟩
  exact ⟨pre, fun flagged => sync (has_or_left hintSyncEnd flagged)⟩

theorem safe_enterFolders (os : Os ω) (base : WStr) (u : UpdateAppListPdu) :
    Safe (SyncIfAsked flags) (enterFolders os base u) fun _ => SyncIfAsked flags :=
  (safe_wcscat SyncIfAsked.intact _ _).bind fun _ =>
    (safe_createDirectory SyncIfAsked.intact os _).bind fun _ => Safe.ite
      (fun _ => (safe_wcscat SyncIfAsked.intact _ _).bind fun _ =>
        (safe_wcscat SyncIfAsked.intact _ _).bind fun _ =>
          (safe_createDirectory SyncIfAsked.intact os _).bind fun _ => Safe.pure fun _ => id)
      fun _ => Safe.pure fun _ => id

theorem safe_catFile (path name extension : WStr) :
    Safe (SyncIfAsked flags) (catFile path name extension : Handler ω WStr)
      fun _ => SyncIfAsked flags :=
  (safe_wcscat SyncIfAsked.intact _ _).bind fun _ =>
    (safe_wcscat SyncIfAsked.intact _ _).bind fun _ =>
    safe_wcscat SyncIfAsked.intact _ _

theorem safe_buildKey (u : UpdateAppListPdu) :
    Safe (SyncIfAsked flags) (buildKey u : Handler ω WStr) fun _ => SyncIfAsked flags :=
  Safe.ite (fun _ => (safe_wcscat SyncIfAsked.intact _ _).bind fun _ =>
    (safe_wcscat SyncIfAsked.intact _ _).bind fun _ => safe_wcscat SyncIfAsked.intact _ _)
    fun _ => safe_wcscat SyncIfAsked.intact _ _

theorem safe_prepare (os : Os ω) (u : UpdateAppListPdu) :
    Safe Intact (prepare os u) fun _ => SyncIfAsked u.flags := by
  have names : Safe (SyncIfAsked u.flags) (checkNames u : Handler ω Unit)
      fun _ => SyncIfAsked u.flags :=
    (safe_require' SyncIfAsked.intact _).bind fun _ =>
      (safe_require' SyncIfAsked.intact _).bind fun _ =>
      (safe_require' SyncIfAsked.intact _).bind fun _ => safe_require' SyncIfAsked.intact _
  have icon : Safe (SyncIfAsked u.flags) (buildIconFilePath os u) fun _ => SyncIfAsked u.flags :=
    Safe.ite (fun _ => safe_look.bind fun _ => (safe_enterFolders os _ u).bind fun _ =>
      safe_catFile _ _ _) fun _ => Safe.pure fun _ => id
  have link : Safe (SyncIfAsked u.flags) (buildLinkPath os u) fun _ => SyncIfAsked u.flags :=
    safe_look.bind fun _ => (safe_enterFolders os _ u).bind fun _ => safe_catFile _ _ _
  have args : Safe (SyncIfAsked u.flags) (buildExeArgs u : Handler ω WStr)
      fun _ => SyncIfAsked u.flags :=
    safe_look.bind fun _ => (safe_require' SyncIfAsked.intact _).bind fun _ => Safe.pure fun _ => id
  exact (safe_checkSyncMode u.flags).bind fun _ => names.bind fun _ => icon.bind fun _ =>
    link.bind fun _ => args.bind fun _ => (safe_buildKey u).bind fun _ => Safe.pure fun _ => id

theorem safe_register (p : Prepared) :
    Safe (SyncIfAsked flags) (register p : Handler ω Unit) fun _ => SyncIfAsked flags := by
  refine safe_members.bind fun cb => ?_
  rintro m ⟨same, pre⟩
  have database : cb.spFileDB = m.cb.spFileDB := congrArg (·.session.spFileDB) same
  obtain ⟨db, here⟩ := Option.isSome_iff_exists.mp pre.fileDB
  rw [database.trans here]
  have registered : ∀ db' hr, Safe (SyncIfAsked flags)
      (setMembers (fun cb => { cb with spFileDB := some db' }) >>= fun _ =>
        if succeeded hr then pure () else fail hr : Handler ω Unit) fun _ => SyncIfAsked flags := by
    intro db' hr
    refine (safe_setMembers (Q := SyncIfAsked flags)
      fun _ pre => ⟨⟨rfl, pre.serverCaps⟩, pre.fileDBSync⟩).bind fun _ => ?_
    exact Safe.ite (fun _ => Safe.pure fun _ => id) fun _ => safe_fail SyncIfAsked.intact hr
  exact registered _ _ m pre

theorem safe_keepInSync (p : Prepared) (hasIcon : Bool) :
    Safe (SyncIfAsked flags) (keepInSync flags p hasIcon : Handler ω Unit) fun _ => Intact := by
  refine Safe.ite (fun flagged => ?_) fun _ => Safe.pure fun _ pre => pre.toIntact
  have removed : Safe Syncing (removeFromSync p.linkPath >>= fun _ =>
      if hasIcon then removeFromSync p.iconPath else pure () : Handler ω Unit) fun _ => Syncing :=
    (safe_withSync _).bind fun _ =>
      Safe.ite (fun _ => safe_withSync _) fun _ => Safe.pure fun _ => id
  exact removed.weaken (fun v pre => ⟨pre.toIntact, pre.fileDBSync flagged⟩) fun _ => Syncing.intact

theorem safe_startSync (os : Os ω) (flags : UInt32) :
    Safe Intact (startSync os flags) fun _ => Intact := by
  rw [startSync_eq]
  exact Safe.ite (fun _ => (safe_onSyncStart os).weaken (fun _ => id) fun _ => Syncing.intact)
    fun _ => Safe.pure fun _ => id

theorem safe_writeIcon (os : Os ω) (u : UpdateAppListPdu) (icon : IconData) (path : WStr) :
    Safe (SyncIfAsked flags) (writeIcon os u icon path) fun _ => SyncIfAsked flags :=
  Safe.ite (fun _ => safe_createIconFile os _ _) fun _ => Safe.pure fun _ => id

theorem safe_writeLink (os : Os ω) (u : UpdateAppListPdu) (p : Prepared) (hasIcon : Bool) :
    Safe (SyncIfAsked flags) (writeLink os u p hasIcon) fun _ => SyncIfAsked flags :=
  safe_look.bind fun _ => safe_createShellLink os _ _

theorem safe_applyUpdate (os : Os ω) (u : UpdateAppListPdu) (icon : IconData) :
    Safe Intact (applyUpdate os u icon) fun _ => Intact := by
  have ended : Safe Intact (endSync os u.flags) fun _ => Intact :=
    Safe.ite (fun _ => safe_onSyncEnd os true) fun _ => Safe.pure fun _ => id
  exact (safe_startSync os u.flags).bind fun _ => (safe_prepare os u).bind fun p =>
    (safe_register p).bind fun _ => (safe_writeIcon os u icon _).bind fun hasIcon =>
      (safe_writeLink os u p hasIcon).bind fun _ => (safe_keepInSync p hasIcon).bind fun _ => ended

end Update

/-! ### The handlers -/

/-- A buffer read scope around a safe reader of a struct of the handler's own. -/
theorem safe_scope {δ : Type} {T : δ → Prop} {read : δ → Cursor → Except Failure Cursor × δ}
    (reader : ReaderSafe T read) {d : δ} (holds : T d) {c : Cursor} (start : Exact c)
    {x : Handler ω (Cursor × δ)}
    (ok : ∀ c' m, (read d c).1 = .ok c' → x m = .ok (c', (read d c).2) m)
    (error : ∀ e m, (read d c).1 = .error e → x m = .error e m) :
    Safe Intact x fun r v => Moved c r.1 ∧ Intact v := by
  intro m pre
  cases result : (read d c).1 with
  | ok c' =>
      rw [ok c' m result]
      constructor
      · intro r m' run
        cases run
        exact ⟨reader.moved d c c' start holds result, pre⟩
      · intro e m' run
        cases run
  | error e =>
      rw [error e m result]
      constructor
      · intro r m' run
        cases run
      · intro e' m' run
        cases run
        exact ⟨fun violation => reader.noViolation d c start holds (violation ▸ result), pre⟩

theorem safe_readUpdateStrings {c : Cursor} (start : Exact c) :
    Safe Intact (readUpdateStrings c : Handler ω _) fun r v => Moved c r.1 ∧ Intact v := by
  refine safe_scope readerSafe_update UpdateAppListPdu.nulInside_empty start ?_ ?_
  · intro c' m ok
    unfold readUpdateStrings
    split
    · simp_all
    · simp_all
  · intro e m error
    unfold readUpdateStrings
    split
    · simp_all
    · simp_all

theorem safe_readUpdateIcon (os : Os ω) {c : Cursor} (start : Exact c) :
    Safe Intact (readUpdateIcon os c) fun r v => Moved c r.1 ∧ Intact v := by
  intro m pre
  have reader := readerSafe_iconData (os.localAlloc m.world)
  unfold readUpdateIcon
  cases read : readAppListIconData (os.localAlloc m.world) ⟨{}, m.heap⟩ c with
  | mk result s =>
      cases result with
      | ok c' =>
          constructor
          · intro r m' run
            cases run
            exact ⟨reader.moved _ c c' start trivial (by rw [read]), pre⟩
          · intro e m' run
            cases run
      | error e =>
          constructor
          · intro r m' run
            cases run
          · intro e' m' run
            cases run
            refine ⟨fun violation => ?_, pre⟩
            exact reader.noViolation ⟨{}, m.heap⟩ c start trivial (by rw [read, violation])

theorem safe_readDelete {c : Cursor} (start : Exact c) :
    Safe Intact (readDelete c : Handler ω _) fun r v => Moved c r.1 ∧ Intact v := by
  refine safe_scope readerSafe_delete DeleteAppListPdu.nulInside_empty start ?_ ?_
  · intro c' m ok
    unfold readDelete
    split
    · simp_all
    · simp_all
  · intro e m error
    unfold readDelete
    split
    · simp_all
    · simp_all

theorem safe_readAssociate {c : Cursor} (start : Exact c) :
    Safe Intact (readAssociate c : Handler ω _) fun r v => Moved c r.1 ∧ Intact v := by
  refine safe_scope readerSafe_associate AssociateWindowIdPdu.nulInside_empty start ?_ ?_
  · intro c' m ok
    unfold readAssociate
    split
    · simp_all
    · simp_all
  · intro e m error
    unfold readAssociate
    split
    · simp_all
    · simp_all

/-- What a handler gives back: the cursor moved on, the members intact. -/
def Handled (c c' : Cursor) (v : Vital) : Prop := Moved c c' ∧ Intact v

/-- A handler is safe if it reads safely and then goes on safely. -/
theorem safe_handler {c : Cursor} {x : Handler ω α} (cursorOf : α → Cursor)
    {f : α → Handler ω Unit} (read : Safe Intact x fun r v => Moved c (cursorOf r) ∧ Intact v)
    (apply_ : ∀ r, Safe Intact (f r) fun _ => Intact) :
    Safe Intact (x >>= fun r => f r >>= fun _ => pure (cursorOf r)) (Handled c) := by
  refine read.bind fun r => ?_
  rintro m ⟨moved, pre⟩
  refine ((apply_ r).bind fun _ => Safe.pure fun v intact => ?_) m pre
  exact ⟨moved, intact⟩

theorem safe_readUpdate (os : Os ω) {c : Cursor} (start : Exact c) :
    Safe Intact (readUpdate os c) fun r v => Moved c r.cur ∧ Intact v := by
  refine (safe_readUpdateStrings start).bind fun r => Safe.ite (fun _ => ?_) fun _ =>
    Safe.pure fun _ => id
  rintro m ⟨moved, pre⟩
  have icon := (safe_readUpdateIcon os (start.moved moved)).bind
    (R := fun (i : UpdateRead) v => Moved c i.cur ∧ Intact v)
    (f := fun i => pure ⟨i.1, r.2, i.2⟩) fun i => Safe.pure fun v read =>
      ⟨moved.trans read.1, read.2⟩
  exact icon m pre

theorem safe_onUpdateAppList (os : Os ω) {c : Cursor} (start : Exact c) :
    Safe Intact (onUpdateAppList os c) (Handled c) :=
  safe_handler UpdateRead.cur (safe_readUpdate os start) fun r =>
    safe_applyUpdate os r.update r.icon

theorem safe_buildFindKey (group id_ : PduString) :
    Safe Intact (buildFindKey group id_ : Handler ω WStr) fun _ => Intact :=
  Safe.ite (fun _ => (safe_wcscat (fun _ => id) _ _).bind fun _ =>
    (safe_wcscat (fun _ => id) _ _).bind fun _ => safe_wcscat (fun _ => id) _ _)
    fun _ => safe_wcscat (fun _ => id) _ _

theorem safe_fileDB : Safe Intact (fileDB : Handler ω FileDB) fun _ => Intact := by
  refine safe_members.bind fun cb => ?_
  rintro m ⟨same, pre⟩
  have database : cb.spFileDB = m.cb.spFileDB := congrArg (·.session.spFileDB) same
  obtain ⟨db, here⟩ := Option.isSome_iff_exists.mp pre.fileDB
  rw [database.trans here]
  exact Safe.pure (P := Intact) (fun _ => id) m pre

theorem safe_onDeleteAppList (os : Os ω) {c : Cursor} (start : Exact c) :
    Safe Intact (onDeleteAppList os c) (Handled c) := by
  have file : ∀ path, Safe Intact (deleteIfAny os path) fun _ => Intact := fun _ =>
    Safe.ite (fun _ => (safe_deleteFile os _ _).bind fun _ => Safe.pure fun _ => id)
      fun _ => Safe.pure fun _ => id
  refine safe_handler Prod.fst (safe_readDelete start) fun r => ?_
  refine (safe_buildFindKey _ _).bind fun _ => safe_fileDB.bind fun _ => ?_
  refine (safe_require' (fun _ => id) _).bind fun _ =>
    (file _).bind fun _ => (file _).bind fun _ => ?_
  exact safe_setMembers fun _ pre => ⟨rfl, pre.serverCaps⟩

theorem safe_onAssociateWindowId (os : Os ω) {c : Cursor} (start : Exact c) :
    Safe Intact (onAssociateWindowId os c) (Handled c) := by
  have exePath : ∀ cb a found, Safe Intact (buildExePath cb a found : Handler ω WStr)
      fun _ => Intact := fun _ _ _ =>
    Safe.ite (fun _ => (safe_require' (fun _ => id) _).bind fun _ => Safe.pure fun _ => id)
      fun _ => Safe.ite
        (fun _ => (safe_require' (fun _ => id) _).bind fun _ => Safe.pure fun _ => id)
        fun _ => Safe.pure fun _ => id
  refine safe_look.bind fun _ => (safe_require' (fun _ => id) _).bind fun _ => ?_
  refine safe_handler Prod.fst (safe_readAssociate start) fun r => ?_
  refine safe_look.bind fun _ => (safe_require' (fun _ => id) _).bind fun _ => ?_
  refine (safe_buildFindKey _ _).bind fun _ => safe_fileDB.bind fun _ => ?_
  exact (exePath _ _ _).bind fun _ => safe_perform _

/-- Whatever the command, from a cursor that counts right. -/
theorem safe_dispatch (os : Os ω) (cmdId : UInt32) {c : Cursor} (start : Exact c) :
    Safe Intact (dispatch os cmdId c) (Handled c) := by
  refine Safe.ite (fun _ => safe_onCaps os start) fun _ => safe_look.bind fun _ => ?_
  refine Safe.ite (fun _ => safe_fail (fun _ => id) _) fun _ => ?_
  refine Safe.ite (fun _ => safe_onUpdateAppList os start) fun _ => ?_
  refine Safe.ite (fun _ => safe_onDeleteAppList os start) fun _ => ?_
  refine Safe.ite (fun _ => Safe.pure fun _ pre => ⟨Moved.refl c, pre⟩) fun _ => ?_
  exact Safe.ite (fun _ => safe_onAssociateWindowId os start) fun _ => safe_fail (fun _ => id) _

/-! ### One step -/

/-- Between two PDUs the strings of `m_serverCaps` end, and an open channel has its
database. -/
structure Sound (s : ClientState ω) : Prop where
  serverCaps : s.cb.serverCaps.NulInside
  fileDB : s.cb.channelClosed = false → s.cb.spFileDB.isSome = true

theorem sound_fresh (w : ω) : Sound (ClientState.fresh w) :=
  ⟨ServerCapsPdu.nulInside_empty, fun _ => rfl⟩

/-- A PDU behind a cursor that counts right is handled safely. -/
theorem sound_pdu (os : Os ω) {s : ClientState ω} (sound : Sound s) (cmdId : UInt32) {c : Cursor}
    (start : Exact c) :
    (step os s (.pdu cmdId c)).1.failure ≠ some .accessViolation ∧
      Moved c (step os s (.pdu cmdId c)).1.cur ∧ Sound (step os s (.pdu cmdId c)).2 := by
  cases closed : s.cb.channelClosed with
  | true =>
      rw [step_of_closed closed]
      exact ⟨(Option.some_ne_none _).symm, Moved.refl c, sound⟩
  | false =>
      have handled := safe_dispatch os cmdId start s.start ⟨sound.fileDB closed, sound.serverCaps⟩
      cases run : dispatch os cmdId c s.start with
      | ok c' m =>
          rw [step_of_ok closed run]
          obtain ⟨moved, intact⟩ := handled.1 c' m run
          exact ⟨(Option.some_ne_none _).symm, moved, intact.serverCaps, fun _ => intact.fileDB⟩
      | error e m =>
          rw [step_of_error closed run]
          obtain ⟨noViolation, intact⟩ := handled.2 e m run
          exact ⟨fun h => noViolation (Option.some.inj h), Moved.refl c, intact.serverCaps,
            fun _ => intact.fileDB⟩

theorem sound_close (os : Os ω) {s : ClientState ω} (sound : Sound s) :
    Sound (step os s .close).2 := by
  rw [(step_close os s).2]
  exact ⟨sound.serverCaps, fun isOpen => absurd isOpen Bool.noConfusion⟩

/-! ### A buffer -/

/-- What has been consumed of the buffer and what the count says remains are all of
it. -/
def PartOf (buffer : List BYTE) (c : Cursor) : Prop :=
  ∃ consumed, buffer = consumed ++ c.rest ∧ consumed.length + c.len = buffer.length

theorem partOf_of (buffer : List BYTE) : PartOf buffer (.of buffer) :=
  ⟨[], rfl, Nat.zero_add _⟩

theorem PartOf.exact {buffer : List BYTE} {c : Cursor} (part : PartOf buffer c) : Exact c := by
  obtain ⟨consumed, rfl, count⟩ := part
  rw [List.length_append] at count
  exact Nat.add_left_cancel count.symm

theorem PartOf.moved {buffer : List BYTE} {c c' : Cursor} (part : PartOf buffer c)
    (moved : Moved c c') : PartOf buffer c' := by
  have exact_ : c.rest.length = c.len := part.exact
  obtain ⟨consumed, rfl, count⟩ := part
  obtain ⟨k, inside, rfl⟩ := moved
  refine ⟨consumed ++ c.rest.take k, ?_, ?_⟩
  · rw [List.append_assoc, List.take_append_drop]
  · simp only [List.length_append, List.length_take] at count ⊢
    omega

/-- The cursors with which the loop comes to its head: at first, and after each PDU that
was served. -/
def Received.heads (r : Received ω) (buffer : List BYTE) : List Cursor :=
  .of buffer :: (r.steps.filter fun t => t.output.failure.isNone).map fun t => t.output.cur

/-- A step of the loop that does no harm, to a sound client and behind a header in the
buffer. -/
structure Harmless (buffer : List BYTE) (t : Step ω) : Prop where
  before : Sound t.before
  input : ∃ cmdId c, t.input = .pdu cmdId c ∧ PartOf buffer c
  noViolation : t.output.failure ≠ some .accessViolation
  cur : PartOf buffer t.output.cur
  after : Sound t.after

/-- The loop from a sound client and a cursor in the buffer: every step is harmless, and
each one that was served has taken eight bytes at least. -/
theorem harmless_receiveLoop {os : Os ω} {buffer : List BYTE} {fuel : Nat} {s : ClientState ω}
    {c : Cursor} {r : Received ω} (sound : Sound s) (part : PartOf buffer c)
    (received : receiveLoop os fuel s c = some r) :
    r.failure ≠ some .accessViolation ∧ (∀ t ∈ r.steps, Harmless buffer t) ∧
      8 * (r.steps.filter fun t => t.output.failure.isNone).length ≤ c.len := by
  induction fuel generalizing s c r with
  | zero =>
      rw [receiveLoop] at received
      split at received <;> cases received
      exact ⟨(Option.some_ne_none _).symm, fun _ mem => (List.not_mem_nil mem).elim, Nat.zero_le _⟩
  | succ fuel ih =>
      rw [receiveLoop] at received
      split at received
      · simp only at received
        cases read : readAppListHeader c with
        | mk result header =>
            rw [read] at received
            cases result with
            | error e =>
                cases received
                refine ⟨fun violation => ?_,
                  fun _ mem => (List.not_mem_nil mem).elim, Nat.zero_le _⟩
                refine readerSafe_header.noViolation {} c part.exact trivial ?_
                rw [read, Option.some.inj violation]
            | ok c' =>
                have header8 := len_of_readAppListHeader read
                have behind : PartOf buffer c' :=
                  part.moved (readerSafe_header.moved {} c c' part.exact trivial (by rw [read]))
                obtain ⟨noViolation, moved, after⟩ :=
                  sound_pdu os sound header.cmdId behind.exact
                have forward := len_of_step os s header.cmdId c'
                have harmless : Harmless buffer (take (step os) s (.pdu header.cmdId c')) :=
                  ⟨sound, ⟨_, c', rfl, behind⟩, noViolation, behind.moved moved, after⟩
                obtain ⟨t, isStep⟩ : ∃ t, t = take (step os) s (.pdu header.cmdId c') := ⟨_, rfl⟩
                have cur : t.output.cur.len ≤ c'.len := isStep ▸ forward
                simp only [← isStep] at received harmless
                cases failure : t.output.failure with
                | some e =>
                    rw [failure] at received
                    cases received
                    refine ⟨failure ▸ harmless.noViolation, fun t' mem => ?_, ?_⟩
                    · rw [List.mem_singleton.mp mem]
                      exact harmless
                    · simp [failure]
                | none =>
                    rw [failure] at received
                    obtain ⟨r', rest, rfl⟩ := Option.map_eq_some_iff.mp received
                    obtain ⟨ended, steps, count⟩ := ih harmless.after harmless.cur rest
                    refine ⟨ended, fun t' mem => ?_, ?_⟩
                    · rcases List.mem_cons.mp mem with rfl | later
                      · exact harmless
                      · exact steps t' later
                    · simp only [List.filter_cons, failure, Option.isNone_none, if_true,
                        List.length_cons]
                      omega
      · cases received
        exact ⟨(Option.some_ne_none _).symm,
          fun _ mem => (List.not_mem_nil mem).elim, Nat.zero_le _⟩

theorem sound_receive (os : Os ω) {s : ClientState ω} (sound : Sound s) (input : Input ω) :
    Sound (receive os s input) := by
  cases input with
  | world w => exact ⟨sound.serverCaps, sound.fileDB⟩
  | close => exact sound_close os sound
  | data buffer =>
      obtain ⟨r, received⟩ := Option.isSome_iff_exists.mp (onDataReceived_isSome os s buffer)
      obtain ⟨-, harmless, -⟩ := harmless_receiveLoop sound (partOf_of buffer) received
      simp only [receive, received, Option.bind_some]
      cases last : r.steps.getLast? with
      | none => exact sound
      | some t => exact (harmless t (List.mem_of_getLast? last)).after

/-- The client is sound whatever has come in. -/
theorem sound_reached (os : Os ω) (w : ω) (inputs : List (Input ω)) :
    Sound (inputs.foldl (receive os) (.fresh w)) := by
  induction inputs using List.reverseRecOn with
  | nil => exact sound_fresh w
  | append_singleton inputs input ih =>
      rw [List.foldl_append]
      exact sound_receive os ih input

/-- The six readers and the copy of the provider's name are safe for every cursor that
counts right. The structs the handlers read into have their NULs before and after. -/
structure ReadersSafe : Prop where
  header : ReaderSafe (fun _ : Header => True) fun _ c => readAppListHeader c
  serverCaps : ReaderSafe ServerCapsPdu.NulInside readAppListServerCaps
  update : ReaderSafe UpdateAppListPdu.NulInside readAppListUpdate
  iconData : ∀ localAlloc, ReaderSafe (fun _ => True) (readAppListIconData localAlloc)
  delete : ReaderSafe DeleteAppListPdu.NulInside readAppListDelete
  associate : ReaderSafe AssociateWindowIdPdu.NulInside readAssociateWindowId
  fresh : UpdateAppListPdu.NulInside {} ∧ DeleteAppListPdu.NulInside {} ∧
    AssociateWindowIdPdu.NulInside {}
  nameFits : ∀ d c c' caps, readAppListServerCaps d c = (.ok c', caps) →
    ∀ name : WBuf maxPath, (name.copyBytes caps.nameBytes).isSome = true

theorem readersSafe : ReadersSafe where
  header := readerSafe_header
  serverCaps := readerSafe_serverCaps
  update := readerSafe_update
  iconData := readerSafe_iconData
  delete := readerSafe_delete
  associate := readerSafe_associate
  fresh := ⟨UpdateAppListPdu.nulInside_empty, DeleteAppListPdu.nulInside_empty,
    AssociateWindowIdPdu.nulInside_empty⟩
  nameFits := by
    intro d c c' caps read name
    have fits := nameBytes_fit (terminated_of_readAppListServerCaps read).short
    rw [WBuf.copyBytes_eq_some fits]
    rfl

/-- Every buffer in every state the client can be in, whatever Windows answers: the loop
ends after at most `cbSize / 8 + 1` turns, comes to its head with a count that is right,
and neither it nor a handler it calls touches memory outside the buffer and the arrays. -/
theorem parser_safe (os : Os ω) (w : ω) (inputs : List (Input ω)) (buffer : List BYTE) :
    ReadersSafe ∧
    ∃ r, onDataReceived os (inputs.foldl (receive os) (.fresh w)) buffer = some r ∧
      r.failure ≠ some .accessViolation ∧
      (∀ c ∈ r.heads buffer, PartOf buffer c) ∧
      (r.heads buffer).length ≤ buffer.length / 8 + 1 ∧
      ∀ t ∈ r.steps, Harmless buffer t := by
  refine ⟨readersSafe, ?_⟩
  set s := inputs.foldl (receive os) (.fresh w)
  obtain ⟨r, received⟩ := Option.isSome_iff_exists.mp (onDataReceived_isSome os s buffer)
  obtain ⟨noViolation, harmless, count⟩ :=
    harmless_receiveLoop (sound_reached os w inputs) (partOf_of buffer) received
  refine ⟨r, received, noViolation, ?_, ?_, harmless⟩
  · intro c mem
    rcases List.mem_cons.mp mem with rfl | later
    · exact partOf_of buffer
    · obtain ⟨t, served, rfl⟩ := List.mem_map.mp later
      exact (harmless t (List.mem_of_mem_filter served)).cur
  · have turns : 8 * (r.steps.filter fun t => t.output.failure.isNone).length ≤ buffer.length :=
      count
    simp only [Received.heads, List.length_cons, List.length_map]
    omega

end Wslg.Client
