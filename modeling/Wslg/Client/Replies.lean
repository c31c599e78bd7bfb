/-
When the client writes to its channel.

`OnCaps` is the only function that does, and only behind everything that can fail, so the
server gets one reply for every CAPS that was served and nothing else. `withChannel` puts
the queue towards the server next to Windows; `Frame` collects what the other calls keep of
both, for any relation they all keep to, and says the same of every handler.
-/

import Wslg.Client.Disk
import Wslg.Logic.Fifo

namespace Wslg.Client

open Wslg.LittleEndian Wslg.Protocol Wslg.StateExcept

variable {ω : Type}

/-! ### What every other call keeps -/

/-- Every call but the write to the channel and the search for a window keeps to `R`. -/
structure Frame (os : Os ω) (R : ω → ω → Prop) : Prop where
  createDirectoryW : ∀ path w, R w (os.createDirectoryW path w).2
  removeDirectory : ∀ path w, R w (os.removeDirectory path w).2
  deleteFileW : ∀ path w, R w (os.deleteFileW path w).2
  createFileW : ∀ path w, R w (os.createFileW path w).2
  writeFile : ∀ path bytes w, R w (os.writeFile path bytes w).2
  saveShellLink : ∀ path link w, R w (os.saveShellLink path link w).2

/-- The states of Windows are related; nothing is said of the rest. -/
def Through (R : ω → ω → Prop) (m m' : Machine ω) : Prop := R m.world m'.world

variable {R : ω → ω → Prop}

instance [Std.Refl R] : Std.Refl (Through R) := ⟨fun m => Std.Refl.refl m.world⟩

instance [IsTrans ω R] : IsTrans (Machine ω) (Through R) :=
  ⟨fun _ _ _ h h' => IsTrans.trans (r := R) _ _ _ h h'⟩

theorem through_perform {α : Type} {op : ω → α × ω} (keeps : ∀ w, R w (op w).2) :
    Guarantees (Through R) (perform op) :=
  fun m => keeps m.world

/-- A piece that leaves Windows alone. -/
theorem through_of_same [Std.Refl R] {α : Type} {x : Handler ω α}
    (same : ∀ m, (final (x m)).world = m.world) : Guarantees (Through R) x := by
  intro m
  rw [Through, same]
  exact Std.Refl.refl m.world

section Frame

variable [Std.Refl R]

theorem through_setMembers (g : Callback → Callback) :
    Guarantees (Through R) (setMembers g) :=
  fun m => Std.Refl.refl m.world

theorem through_record (action : Action) : Guarantees (Through R) (record action) :=
  fun m => Std.Refl.refl m.world

theorem through_withSync (f : FileDB → FileDB) : Guarantees (Through R) (withSync f) :=
  guarantees_withSync fun m _ => Std.Refl.refl m.world

variable [IsTrans ω R]

theorem through_getIconFileFromShellLink (os : Os ω) (path : WStr) :
    Guarantees (Through R) (getIconFileFromShellLink os path) :=
  (guarantees_query _).bind fun _ => (through_record _).bind fun _ => Guarantees.pure _

theorem through_catFile (path name extension : WStr) :
    Guarantees (Through R) (catFile path name extension) :=
  (guarantees_wcscat _ _).bind fun _ => (guarantees_wcscat _ _).bind fun _ =>
    guarantees_wcscat _ _

theorem through_checkNames (u : UpdateAppListPdu) : Guarantees (Through R) (checkNames u) :=
  (guarantees_require _).bind fun _ => (guarantees_require _).bind fun _ =>
    (guarantees_require _).bind fun _ => guarantees_require _

theorem through_buildKey (u : UpdateAppListPdu) : Guarantees (Through R) (buildKey u) :=
  Guarantees.ite ((guarantees_wcscat _ _).bind fun _ => (guarantees_wcscat _ _).bind fun _ =>
    guarantees_wcscat _ _) (guarantees_wcscat _ _)

theorem through_onLnkFileAdded (os : Os ω) (lnkFile : WStr) :
    Guarantees (Through R) (onLnkFileAdded os lnkFile) := by
  refine (through_withSync _).bind fun _ =>
    (through_getIconFileFromShellLink os lnkFile).bind fun icon => ?_
  cases icon with
  | none => exact Guarantees.pure _
  | some iconFile => exact through_withSync _

variable {os : Os ω} (frame : Frame os R)

include frame

theorem Frame.createDirectory (path : WStr) : Guarantees (Through R) (createDirectory os path) :=
  (through_perform (frame.createDirectoryW path)).bind fun _ => guarantees_require _

theorem Frame.removeFolder (caller : Caller) (path : WStr) :
    Guarantees (Through R) (Client.removeDirectory os caller path) :=
  (through_record _).bind fun _ => (through_perform (frame.removeDirectory path)).bind fun _ =>
    Guarantees.pure _

theorem Frame.deleteFile (caller : Caller) (path : WStr) :
    Guarantees (Through R) (deleteFile os caller path) :=
  (through_record _).bind fun _ => through_perform (frame.deleteFileW path)

/-! ### A sync -/

theorem Frame.addAllSubFolderFiles (entries : Listing) (path : WStr) :
    Guarantees (Through R) (addAllSubFolderFiles os entries path) := by
  induction entries generalizing path with
  | done => exact Guarantees.pure _
  | file name rest ih =>
      exact (Guarantees.ite (through_onLnkFileAdded os _) (Guarantees.pure _)).bind fun _ =>
        ih path
  | dir name sub rest ihSub ih =>
      exact (Guarantees.ite (Guarantees.pure _)
        ((guarantees_query _).bind fun _ =>
          Guarantees.ite (frame.removeFolder _ _) (ihSub _))).bind fun _ => ih path

theorem Frame.onSyncStart : Guarantees (Through R) (onSyncStart os) :=
  guarantees_members.bind fun _ => (guarantees_require _).bind fun _ =>
    (guarantees_query _).bind fun _ => (guarantees_check _).bind fun _ =>
      (through_setMembers _).bind fun _ =>
        (guarantees_query _).bind fun _ => frame.addAllSubFolderFiles _ _

theorem Frame.deleteFileIds (fileIds : List WStr) :
    Guarantees (Through R) (deleteFileIds os fileIds) := by
  have parent : ∀ fileId, Guarantees (Through R) (removeParent os fileId) := by
    intro fileId
    rw [removeParent]
    split
    · exact Guarantees.pure _
    · exact (guarantees_query _).bind fun _ =>
        Guarantees.ite (frame.removeFolder _ _) (Guarantees.pure _)
  induction fileIds with
  | nil => exact Guarantees.pure _
  | cons fileId rest ih =>
      exact ((frame.deleteFile _ fileId).bind fun _ =>
        (Guarantees.ite (parent fileId) (Guarantees.pure _)).bind fun _ =>
          through_withSync _).bind fun _ => ih

theorem Frame.onSyncEnd (cleanupFiles : Bool) :
    Guarantees (Through R) (onSyncEnd os cleanupFiles) := by
  have sweep : Guarantees (Through R) (deleteAllFileIdFiles os) := by
    refine guarantees_members.bind fun cb => ?_
    split
    · exact frame.deleteFileIds _
    · exact Guarantees.throw _
  exact guarantees_members.bind fun _ => Guarantees.ite
    ((Guarantees.ite sweep (Guarantees.pure _)).bind fun _ => through_setMembers _)
    (Guarantees.pure _)

/-! ### The handlers behind the handshake -/

theorem Frame.enterFolders (base : WStr) (u : UpdateAppListPdu) :
    Guarantees (Through R) (enterFolders os base u) :=
  (guarantees_wcscat _ _).bind fun _ => (frame.createDirectory _).bind fun _ =>
    Guarantees.ite
      ((guarantees_wcscat _ _).bind fun _ => (guarantees_wcscat _ _).bind fun _ =>
        (frame.createDirectory _).bind fun _ => Guarantees.pure _)
      (Guarantees.pure _)

theorem Frame.prepare (u : UpdateAppListPdu) : Guarantees (Through R) (prepare os u) := by
  have iconPath : Guarantees (Through R) (buildIconFilePath os u) :=
    Guarantees.ite (guarantees_members.bind fun _ => (frame.enterFolders _ u).bind fun _ =>
      through_catFile _ _ _) (Guarantees.pure _)
  have linkPath : Guarantees (Through R) (buildLinkPath os u) :=
    guarantees_members.bind fun _ => (frame.enterFolders _ u).bind fun _ => through_catFile _ _ _
  have exeArgs : Guarantees (Through R) (buildExeArgs u : Handler ω WStr) :=
    guarantees_members.bind fun _ => (guarantees_require _).bind fun _ => Guarantees.pure _
  exact (guarantees_members.bind fun _ => guarantees_require _).bind fun _ =>
    (through_checkNames u).bind fun _ => iconPath.bind fun _ => linkPath.bind fun _ =>
      exeArgs.bind fun _ => (through_buildKey u).bind fun _ => Guarantees.pure _

theorem Frame.publish (u : UpdateAppListPdu) (icon : IconData) (p : Prepared) :
    Guarantees (Through R) (publish os u icon p) := by
  have iconFile : ∀ buffer path, Guarantees (Through R) (createIconFile os buffer path) :=
    fun buffer path => (through_perform (frame.createFileW path)).bind fun _ =>
      (Guarantees.ite (through_perform (frame.writeFile path buffer)) (Guarantees.pure _)).bind
        fun _ => (through_record _).bind fun _ => Guarantees.pure _
  have link : ∀ path link, Guarantees (Through R) (createShellLink os path link) :=
    fun path link => (through_perform (frame.saveShellLink path _)).bind fun _ => through_record _
  have kept : ∀ hasIcon, Guarantees (Through R) (keepInSync u.flags p hasIcon : Handler ω Unit) :=
    fun hasIcon => Guarantees.ite ((through_withSync _).bind fun _ =>
      Guarantees.ite (through_withSync _) (Guarantees.pure _)) (Guarantees.pure _)
  exact (Guarantees.ite (iconFile _ _) (Guarantees.pure _)).bind fun _ =>
    (guarantees_members.bind fun _ => link _ _).bind fun _ => (kept _).bind fun _ =>
      Guarantees.ite (frame.onSyncEnd true) (Guarantees.pure _)

theorem Frame.onUpdateAppList (c : Cursor) : Guarantees (Through R) (onUpdateAppList os c) := by
  have read : Guarantees (Through R) (readUpdate os c) :=
    through_of_same fun m => by rw [reads_only_heap os c m]
  have start : ∀ flags, Guarantees (Through R) (startSync os flags) := fun flags => by
    rw [startSync_eq]
    exact Guarantees.ite frame.onSyncStart (Guarantees.pure _)
  exact read.bind fun r =>
    ((start _).bind fun _ =>
      (frame.prepare r.update).bind fun _ =>
        (guarantees_register (fun m _ _ => Std.Refl.refl m.world) _).bind fun _ =>
          frame.publish _ _ _).bind fun _ => Guarantees.pure _

theorem Frame.onDeleteAppList (c : Cursor) : Guarantees (Through R) (onDeleteAppList os c) := by
  have read : Guarantees (Through R) (readDelete c : Handler ω _) :=
    through_of_same fun m => by rw [readDelete]; split <;> rfl
  have file : ∀ path, Guarantees (Through R) (deleteIfAny os path) := fun path =>
    Guarantees.ite ((frame.deleteFile _ path).bind fun _ => Guarantees.pure _) (Guarantees.pure _)
  exact read.bind fun r => ((guarantees_buildFindKey _ _).bind fun _ => guarantees_fileDB.bind
    fun _ => (guarantees_require _).bind fun _ => (file _).bind fun _ => (file _).bind fun _ =>
      through_setMembers _).bind fun _ => Guarantees.pure _

omit frame in
theorem through_onAssociateWindowId (windows : ∀ data w, R w (os.enumWindows data w))
    (c : Cursor) : Guarantees (Through R) (onAssociateWindowId os c) := by
  have read : Guarantees (Through R) (readAssociate c : Handler ω _) :=
    through_of_same fun m => by rw [readAssociate]; split <;> rfl
  have apply : ∀ a, Guarantees (Through R) (applyAssociate os a) := fun a =>
    guarantees_members.bind fun _ => (guarantees_require _).bind fun _ =>
      (guarantees_buildFindKey _ _).bind fun _ => guarantees_fileDB.bind fun _ =>
        (Guarantees.ite ((guarantees_require _).bind fun _ => Guarantees.pure _)
          (Guarantees.ite ((guarantees_require _).bind fun _ => Guarantees.pure _)
            (Guarantees.pure _))).bind fun _ => through_perform fun w => windows _ w
  exact guarantees_members.bind fun _ => (guarantees_require _).bind fun _ =>
    read.bind fun r => (apply r.2).bind fun _ => Guarantees.pure _

/-- No handler but that of CAPS writes to the channel, and none but that of
ASSOCIATE_WINDOW_ID looks for a window. -/
theorem Frame.dispatch {cmdId : UInt32} (other : cmdId ≠ cmdIdCaps)
    (windows : cmdId = cmdIdAssociateWindowId → ∀ data w, R w (os.enumWindows data w))
    (c : Cursor) : Guarantees (Through R) (dispatch os cmdId c) := by
  have associate : Guarantees (Through R)
      (if cmdId = cmdIdAssociateWindowId then onAssociateWindowId os c else fail E_FAIL) := by
    split
    · rename_i isAssociate
      exact through_onAssociateWindowId (windows isAssociate) c
    · exact guarantees_fail _
  rw [Client.dispatch, if_neg other]
  exact guarantees_members.bind fun _ => Guarantees.ite (guarantees_fail _) <|
    Guarantees.ite (frame.onUpdateAppList c) <|
    Guarantees.ite (frame.onDeleteAppList c) <|
    Guarantees.ite (Guarantees.pure _) associate

end Frame

/-! ### CAPS -/

/-- The pieces of CAPS keep to `Q`: the members but the path of the executable, the folders,
and that path. -/
structure CapsFrame (os : Os ω) (Q : Machine ω → Machine ω → Prop) : Prop where
  setMembers : ∀ g, (∀ cb, (g cb).expandedPathObj = cb.expandedPathObj) →
    Guarantees Q (setMembers g)
  readServerCaps : ∀ c, Guarantees Q (readServerCaps c)
  createDirectory : ∀ path, Guarantees Q (createDirectory os path)
  installExpandedPath : Guarantees Q (installExpandedPath os)

section CapsFrame

variable {os : Os ω} {Q : Machine ω → Machine ω → Prop} [Std.Refl Q] [IsTrans (Machine ω) Q]
  (caps : CapsFrame os Q)

include caps

omit [Std.Refl Q] [IsTrans (Machine ω) Q] in
theorem CapsFrame.set {g : Callback → Callback}
    (ignored : ∀ cb, (g cb).expandedPathObj = cb.expandedPathObj := by intro cb; rfl) :
    Guarantees Q (Client.setMembers g) :=
  caps.setMembers g ignored

theorem CapsFrame.buildIconPath (provider : WStr) : Guarantees Q (buildIconPath os provider) := by
  have cat : ∀ src, Guarantees Q (catIconPath src : Handler ω Unit) := fun src =>
    guarantees_members.bind fun _ => caps.set.bind fun _ =>
      guarantees_require _
  have create : Guarantees Q (createIconDirectory os) :=
    guarantees_members.bind fun _ => caps.createDirectory _
  exact guarantees_members.bind fun _ => (guarantees_query _).bind fun _ =>
    caps.set.bind fun _ => (guarantees_require _).bind fun _ =>
      (guarantees_require _).bind fun _ => (cat _).bind fun _ => create.bind fun _ =>
        (cat _).bind fun _ => create

theorem CapsFrame.installProvider : Guarantees Q (installProvider os) := by
  have name : Guarantees Q (copyProviderName : Handler ω Unit) := by
    refine guarantees_members.bind fun cb => ?_
    split
    · exact caps.set
    · exact Guarantees.throw _
  have guid : Guarantees Q (installProviderGUID os) := by
    refine guarantees_members.bind fun cb => ?_
    split
    · exact (guarantees_require _).bind fun _ => (guarantees_query _).bind fun _ =>
        caps.set.bind fun _ => guarantees_check _
    · exact Guarantees.pure _
  have menu : ∀ provider, Guarantees Q (buildMenuPath os provider) := by
    intro provider
    refine (guarantees_query _).bind fun folder => ?_
    cases folder with
    | none => exact guarantees_fail _
    | some startMenu =>
        exact caps.set.bind fun _ => (guarantees_require _).bind fun _ =>
          caps.createDirectory _
  exact name.bind fun _ => (guarantees_members.bind fun _ => guarantees_require _).bind fun _ =>
    guid.bind fun _ => guarantees_members.bind fun _ => (menu _).bind fun _ =>
      caps.buildIconPath _

/-- What CAPS does before its reply. -/
theorem CapsFrame.beforeReply : Guarantees Q (Client.installProvider os >>= fun _ =>
    Client.installExpandedPath os >>= fun _ => expandWorkingDir os >>= fun _ =>
      installLanguage os) := by
  have workingDir : Guarantees Q (expandWorkingDir os) :=
    guarantees_members.bind fun _ => (guarantees_query _).bind fun _ =>
      caps.set.bind fun _ => guarantees_require _
  have language : Guarantees Q (installLanguage os) :=
    (guarantees_query _).bind fun _ => caps.set
  exact caps.installProvider.bind fun _ => caps.installExpandedPath.bind fun _ =>
    workingDir.bind fun _ => language

omit [Std.Refl Q] [IsTrans (Machine ω) Q] caps in
theorem prepareHandshake_eq (os : Os ω) : prepareHandshake os =
    (Client.installProvider os >>= fun _ => Client.installExpandedPath os >>= fun _ =>
      expandWorkingDir os >>= fun _ => installLanguage os) >>= fun _ => sendReply os := by
  simp only [prepareHandshake, bind_assoc]

/-- A CAPS that does not get as far as its reply keeps to `Q`. -/
theorem CapsFrame.of_prepareHandshake_error {m m' : Machine ω} {e : Failure}
    (run : prepareHandshake os m = .error e m') : Q m m' := by
  rw [prepareHandshake_eq] at run
  rcases bind_eq_error.mp run with failed | ⟨_, m₁, first, last⟩
  · exact caps.beforeReply.of_error failed
  · rw [sendReply, members_bind] at last
    split at last
    · rw [require_bind] at last
      split at last
      · cases last
      · cases last
        exact caps.beforeReply.of_ok first
    · cases last

/-- Every CAPS does, if the write to the channel does. -/
theorem CapsFrame.onCaps (writes : ∀ bytes, Guarantees Q (perform (os.channelWrite bytes)))
    (c : Cursor) : Guarantees Q (onCaps os c) := by
  have send : Guarantees Q (sendReply os) := by
    refine guarantees_members.bind fun cb => ?_
    split
    · exact (guarantees_require _).bind fun _ => writes _
    · exact Guarantees.pure _
  have finish : ∀ hr, Guarantees Q (finishHandshake hr : Handler ω Unit) :=
    fun hr => caps.set.bind fun _ => guarantees_check _
  have prepare : Guarantees Q (prepareHandshake os) := by
    rw [prepareHandshake_eq]
    exact caps.beforeReply.bind fun _ => send
  exact (caps.readServerCaps c).bind fun _ => (prepare.bind fun hr => finish hr).bind fun _ =>
    Guarantees.pure _

end CapsFrame

theorem Frame.caps {os : Os ω} [Std.Refl R] [IsTrans ω R] (frame : Frame os R) :
    CapsFrame os (Through R) where
  setMembers g _ := through_setMembers g
  readServerCaps c := through_of_same fun m => by rw [readServerCaps]; split <;> rfl
  createDirectory := frame.createDirectory
  installExpandedPath :=
    (guarantees_query _).bind fun _ => (guarantees_check _).bind fun _ =>
      guarantees_members.bind fun _ => (guarantees_query _).bind fun _ =>
        (through_setMembers _).bind fun _ => (guarantees_check _).bind fun _ =>
          (through_setMembers _).bind fun _ => guarantees_require _

/-- What is next to Windows stays as it is. -/
theorem frame_beside (os : Os ω) (β : Type) :
    Frame (os.beside β) fun w w' => w'.2 = w.2 where
  createDirectoryW _ _ := rfl
  removeDirectory _ _ := rfl
  deleteFileW _ _ := rfl
  createFileW _ _ := rfl
  writeFile _ _ _ := rfl
  saveShellLink _ _ _ := rfl

/-! ### The queue to the server -/

/-- Windows and what the client has written to its channel. -/
abbrev Online (ω : Type) := ω × Fifo (List BYTE)

/-- The calls of the client with its channel: a write that Windows takes is sent. -/
def withChannel (os : Os ω) : Os (Online ω) :=
  { os.beside (Fifo (List BYTE)) with
    channelWrite := fun bytes w =>
      ((os.channelWrite bytes w.1).1, (os.channelWrite bytes w.1).2,
        if (os.channelWrite bytes w.1).1.isOk then w.2.send bytes else w.2) }

/-- Nothing was written to the channel. -/
def Silent (w w' : Online ω) : Prop := w'.2 = w.2

instance : Std.Refl (Silent (ω := ω)) := ⟨fun _ => rfl⟩

instance : IsTrans (Online ω) Silent := ⟨fun _ _ _ h h' => h'.trans h⟩

theorem silent_frame (os : Os ω) : Frame (withChannel os) Silent :=
  { frame_beside os (Fifo (List BYTE)) with }

/-- The reply is written exactly by a CAPS that succeeds. -/
theorem queue_of_applyCaps (os : Os ω) (m : Machine (Online ω)) :
    (∀ u m', applyCaps (withChannel os) m = .ok u m' →
      m'.world.2 = m.world.2.send (reply m'.cb.clientLanguageId) ∧
        m'.cb.clientLanguageId.length < langSize) ∧
    ∀ e m', applyCaps (withChannel os) m = .error e m' → m'.world.2 = m.world.2 := by
  have prepared : ∀ hr m₁, prepareHandshake (withChannel os) m = .ok hr m₁ →
      m₁.cb.clientLanguageId.length < langSize ∧
        m₁.world.2 = if hr.isOk then m.world.2.send (reply m₁.cb.clientLanguageId)
          else m.world.2 := by
    intro hr m₁ run
    obtain ⟨p, c, rfl, rfl⟩ := prepareHandshake_eq_ok.mp run
    have silent : p.world.2 = m.world.2 :=
      (silent_frame os).caps.installProvider.of_ok ((installProvider_eq_ok (u := ())).mpr ⟨p, rfl⟩)
    refine ⟨length_localeName, ?_⟩
    show (replied (withChannel os) c.install p.world).2.2 = _
    rw [replied]
    split
    · show (if _ then p.world.2.send _ else p.world.2) = _
      rw [silent]
      rfl
    · exact silent
  constructor
  · intro u m' run
    obtain ⟨hr, m₁, first, last⟩ := bind_eq_ok.mp run
    obtain ⟨short, queue⟩ := prepared hr m₁ first
    rw [finishHandshake_apply] at last
    cases hr with
    | error e => cases last
    | ok _ =>
        cases last
        exact ⟨queue, short⟩
  · intro e m' run
    rcases bind_eq_error.mp run with failed | ⟨hr, m₁, first, last⟩
    · exact (silent_frame os).caps.of_prepareHandshake_error failed
    · obtain ⟨-, queue⟩ := prepared hr m₁ first
      rw [finishHandshake_apply] at last
      cases hr with
      | ok _ => cases last
      | error e =>
          cases last
          exact queue

theorem queue_of_onCaps (os : Os ω) (c : Cursor) (m : Machine (Online ω)) :
    (∀ c' m', onCaps (withChannel os) c m = .ok c' m' →
      m'.world.2 = m.world.2.send (reply m'.cb.clientLanguageId) ∧
        m'.cb.clientLanguageId.length < langSize) ∧
    ∀ e m', onCaps (withChannel os) c m = .error e m' → m'.world.2 = m.world.2 := by
  have read := (silent_frame os).caps.readServerCaps c
  constructor
  · intro c' m' run
    obtain ⟨c₁, m₁, first, rest⟩ := bind_eq_ok.mp run
    obtain ⟨u, m₂, applied, last⟩ := bind_eq_ok.mp rest
    cases last
    have silent : m₁.world.2 = m.world.2 := read.of_ok first
    rw [← silent]
    exact (queue_of_applyCaps os m₁).1 u m' applied
  · intro e m' run
    rcases bind_eq_error.mp run with failed | ⟨c₁, m₁, first, rest⟩
    · exact read.of_error failed
    · have silent : m₁.world.2 = m.world.2 := read.of_ok first
      rcases bind_eq_error.mp rest with failed | ⟨_, _, _, last⟩
      · exact ((queue_of_applyCaps os m₁).2 e m' failed).trans silent
      · cases last

/-- The language a step replied with, if it served a CAPS. -/
def Step.replied (t : Step ω) : Option (List BYTE) :=
  match t.input with
  | .pdu cmdId _ =>
      if cmdId = cmdIdCaps ∧ t.before.cb.channelClosed = false ∧ t.output.failure = none then
        some t.after.cb.clientLanguageId
      else none
  | _ => none

/-- A step of the client puts its reply into the queue, if it has one. -/
theorem queue_of_taken {os : Os ω} {t : Step (Online ω)}
    (taken : Runs.Taken (step (withChannel os)) t)
    (same : ∀ w, t.input = .world w → w.2 = t.before.world.2) :
    t.after.world.2.sent = t.before.world.2.sent ++ t.replied.toList.map reply ∧
      t.after.world.2.delivered = t.before.world.2.delivered ∧
      ∀ language ∈ t.replied, language.length < langSize := by
  obtain ⟨s, e, o, s'⟩ := t
  have silent : s'.world.2 = s.world.2 → Step.replied ⟨s, e, o, s'⟩ = none →
      s'.world.2.sent = s.world.2.sent ++ (Step.replied ⟨s, e, o, s'⟩).toList.map reply ∧
        s'.world.2.delivered = s.world.2.delivered ∧
        ∀ language ∈ Step.replied ⟨s, e, o, s'⟩, language.length < langSize := by
    intro queue none_
    rw [none_, queue]
    exact ⟨(List.append_nil _).symm, rfl, nofun⟩
  have stepped : step (withChannel os) s e = (o, s') := taken
  cases e with
  | world w =>
      cases stepped
      exact silent (same w rfl) rfl
  | close =>
      have closed := (step_close (withChannel os) s).2
      rw [stepped] at closed
      have world : s'.world = s.world := by
        rw [show s' = _ from closed]
      exact silent (congrArg Prod.snd world) rfl
  | pdu cmdId c =>
      cases isOpen : s.cb.channelClosed with
      | true =>
          rw [step_of_closed isOpen] at stepped
          cases stepped
          exact silent rfl (if_neg fun h => by rw [isOpen] at h; cases h.2.1)
      | false =>
          by_cases caps : cmdId = cmdIdCaps
          · subst caps
            have handler : dispatch (withChannel os) cmdIdCaps c = onCaps (withChannel os) c :=
              if_pos rfl
            cases run : dispatch (withChannel os) cmdIdCaps c s.start with
            | ok c' m =>
                rw [step_of_ok isOpen run] at stepped
                cases stepped
                have replied : Step.replied ⟨s, .pdu cmdIdCaps c, ⟨none, c', m.log⟩, m.state⟩ =
                    some m.cb.clientLanguageId := if_pos ⟨rfl, isOpen, rfl⟩
                obtain ⟨queue, short⟩ := (queue_of_onCaps os c s.start).1 c' m (handler ▸ run)
                rw [replied]
                refine ⟨?_, ?_, ?_⟩
                · exact (congrArg Fifo.sent queue).trans (Fifo.sent_send _ _)
                · show m.world.2.delivered = s.world.2.delivered
                  rw [queue]
                  rfl
                · rintro language ⟨⟩
                  exact short
            | error e m =>
                rw [step_of_error isOpen run] at stepped
                cases stepped
                exact silent ((queue_of_onCaps os c s.start).2 e m (handler ▸ run)) (if_neg nofun)
          · have keeps := (silent_frame os).dispatch caps (fun _ _ _ => rfl) c
            cases run : dispatch (withChannel os) cmdId c s.start with
            | ok c' m =>
                rw [step_of_ok isOpen run] at stepped
                cases stepped
                exact silent (keeps.of_ok run) (if_neg fun h => caps h.1)
            | error f m =>
                rw [step_of_error isOpen run] at stepped
                cases stepped
                exact silent (keeps.of_error run) (if_neg fun h => caps h.1)

/-! ### A buffer -/

/-- What happened to the queue: these languages were replied with, and nothing was taken. -/
structure Replied (languages : List (List BYTE)) (q q' : Fifo (List BYTE)) : Prop where
  sent : q'.sent = q.sent ++ languages.map reply
  delivered : q'.delivered = q.delivered
  short : ∀ language ∈ languages, language.length < langSize

theorem Replied.nothing (q : Fifo (List BYTE)) : Replied [] q q :=
  ⟨(List.append_nil _).symm, rfl, nofun⟩

theorem Replied.append {first second : List (List BYTE)} {q q' q'' : Fifo (List BYTE)}
    (h : Replied first q q') (h' : Replied second q' q'') : Replied (first ++ second) q q'' where
  sent := by rw [h'.sent, h.sent, List.map_append, List.append_assoc]
  delivered := h'.delivered.trans h.delivered
  short language mem := (List.mem_append.mp mem).elim (h.short language) (h'.short language)

/-- A buffer brings nothing but PDUs. -/
theorem pdu_of_mem_steps {os : Os ω} {fuel : Nat} {s : ClientState ω} {c : Cursor}
    {r : Received ω} (received : receiveLoop os fuel s c = some r) :
    ∀ t ∈ r.steps, ∃ cmdId c, t.input = .pdu cmdId c := by
  induction fuel generalizing s c r with
  | zero =>
      rw [receiveLoop] at received
      split at received <;> cases received
      exact List.forall_mem_nil _
  | succ fuel ih =>
      rw [receiveLoop] at received
      split at received
      · simp only at received
        split at received
        · cases received
          exact List.forall_mem_nil _
        · split at received
          · cases received
            exact List.forall_mem_singleton.mpr ⟨_, _, rfl⟩
          · obtain ⟨r', rest, rfl⟩ := Option.map_eq_some_iff.mp received
            exact List.forall_mem_cons.mpr ⟨⟨_, _, rfl⟩, ih rest⟩
      · cases received
        exact List.forall_mem_nil _

/-- The languages some steps replied with. -/
def repliedBy (ts : List (Step ω)) : List (List BYTE) := ts.flatMap (·.replied.toList)

theorem replied_of_run (os : Os ω) (s : ClientState (Online ω)) (es : List (Event (Online ω)))
    (pdus : ∀ t ∈ Runs.transitions (step (withChannel os)) s es,
      ∃ cmdId c, t.input = .pdu cmdId c) :
    Replied (repliedBy (Runs.transitions (step (withChannel os)) s es)) s.world.2
      (Runs.finish (step (withChannel os)) s es).world.2 := by
  induction es generalizing s with
  | nil => exact .nothing _
  | cons e es ih =>
      obtain ⟨⟨cmdId, c, pdu⟩, rest⟩ := List.forall_mem_cons.mp pdus
      obtain ⟨sent, delivered, short⟩ :=
        queue_of_taken (t := Runs.take (step (withChannel os)) s e) rfl fun w world =>
          nomatch pdu.symm.trans world
      have one : Replied (Step.replied (Runs.take (step (withChannel os)) s e)).toList s.world.2
          (step (withChannel os) s e).2.world.2 :=
        ⟨sent, delivered, fun l mem => short l (Option.mem_toList.mp mem)⟩
      exact one.append (ih _ rest)

theorem replied_of_received {os : Os ω} {s : ClientState (Online ω)} {buffer : List BYTE}
    {r : Received (Online ω)} (received : onDataReceived (withChannel os) s buffer = some r) :
    Replied (repliedBy r.steps) s.world.2
      (receive (withChannel os) s (.data buffer)).world.2 := by
  have run := steps_of_receiveLoop received
  have finish : receive (withChannel os) s (.data buffer) =
      Runs.finish (step (withChannel os)) s (r.steps.map (·.input)) := by
    rw [receive, received, Runs.finish_eq_getLast, ← run, Option.bind_some]
  have replied := replied_of_run os s (r.steps.map (·.input)) (run ▸ pdu_of_mem_steps received)
  rw [← run] at replied
  rwa [finish]

end Wslg.Client
