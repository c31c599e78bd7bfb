/-
What the client accepts, the server can have written.

`Takes x d post` is the inverse of `Reads`: a run of the reader `x` that succeeds has
taken some bytes from the front of its buffer, and `post` says which and what they made of
the struct. The bytes of a string determine the `RailUnicodeString` they encode, so every
accepted buffer begins with the body of a PDU (`readPdu_takes`), and the round trip says
what is then in the struct.

`ClientPdu.toServer` is the PDU that a server would send to say what the struct says. Its
body is the bytes that were taken, provided no string has an odd length: there
`ReadSTRING` puts its NUL over the last byte.
-/

import Wslg.Channel.RoundTrip

namespace Wslg.Channel

open Wslg.LittleEndian Wslg.Protocol Wslg.StateExcept Wslg.Client
open Wslg.Server (RailUnicodeString fieldBytes iconBytes ServerPdu)

variable {δ : Type}

/-! ### Readers that succeeded -/

/-- A run that succeeds has taken bytes from the front of the buffer, with `post`. -/
def Takes (x : Read δ Unit) (d : δ) (post : List BYTE → δ → Prop) : Prop :=
  ∀ b u s, x ⟨d, .of b⟩ = .ok u s →
    ∃ bs rest, b = bs ++ rest ∧ s = ⟨s.dest, .of rest⟩ ∧ post bs s.dest

/-- A sequence that succeeds: the first part took its bytes, and the second ran on the
others. -/
theorem Takes.split {x y : Read δ Unit} {d : δ} {post : List BYTE → δ → Prop}
    (takes : Takes x d post) {b : List BYTE} {u : Unit} {s : ReadState δ}
    (run : (x >>= fun _ => y) ⟨d, .of b⟩ = .ok u s) :
    ∃ bs rest d', b = bs ++ rest ∧ post bs d' ∧ y ⟨d', .of rest⟩ = .ok u s := by
  obtain ⟨_, mid, first, second⟩ := bind_eq_ok.mp run
  obtain ⟨bs, rest, rfl, end_, holds⟩ := takes _ _ _ first
  rw [end_] at second
  exact ⟨bs, rest, mid.dest, rfl, holds, second⟩

/-- A run on bytes that a reader takes in full ends as that reading does. -/
theorem Reads.eq_of_run {x : Read δ Unit} {d d' : δ} {bs rest : List BYTE} {u : Unit}
    {s : ReadState δ} (reads : Reads x d bs d') (run : x ⟨d, .of (bs ++ rest)⟩ = .ok u s) :
    s = ⟨d', .of rest⟩ := by
  rw [reads rest] at run
  cases run
  rfl

theorem fetch_takes {n : Nat} {d : δ} {b bs : List BYTE} {s : ReadState δ}
    (fetched : fetch n ⟨d, .of b⟩ = .ok bs s) :
    ∃ rest, b = bs ++ rest ∧ bs.length = n ∧ s = ⟨d, .of rest⟩ := by
  rw [fetch] at fetched
  split at fetched
  · cases fetched
  · rename_i enough
    split at fetched
    · cases fetched
    · cases fetched
      refine ⟨b.drop n, (List.take_append_drop n b).symm,
        List.length_take_of_le (Nat.not_lt.mp enough), ?_⟩
      simp only [Cursor.of, List.length_drop]

theorem takes_UINT16 (o : UInt16 → δ → δ) (d : δ) :
    Takes (readUINT16 o) d fun bs d' => ∃ v, bs = word16 v ∧ d' = o v d := by
  intro b u s run
  obtain ⟨bs, mid, fetched, assigned⟩ := bind_eq_ok.mp run
  obtain ⟨rest, rfl, size, rfl⟩ := fetch_takes fetched
  cases assigned
  exact ⟨bs, rest, rfl, rfl, _, (word16_ofNat_decode size).symm, rfl⟩

theorem takes_UINT32 (o : UInt32 → δ → δ) (d : δ) :
    Takes (readUINT32 o) d fun bs d' => ∃ v, bs = word32 v ∧ d' = o v d := by
  intro b u s run
  obtain ⟨bs, mid, fetched, assigned⟩ := bind_eq_ok.mp run
  obtain ⟨rest, rfl, size, rfl⟩ := fetch_takes fetched
  cases assigned
  exact ⟨bs, rest, rfl, rfl, _, (word32_ofNat_decode size).symm, rfl⟩

theorem takes_requiredFlags (flags : δ → UInt32) (required : UInt32) (d : δ) :
    Takes (checkRequiredFlags flags required) d fun bs d' =>
      bs = [] ∧ d' = d ∧ hasAll (flags d) required = true := by
  intro b u s run
  rw [checkRequiredFlags, bind_of_ok (get_apply _)] at run
  split at run
  · rename_i all
    cases run
    exact ⟨[], b, rfl, rfl, rfl, rfl, all⟩
  · cases run

/-! ### Strings -/

/-- The bytes of an accepted string are those of a string the client takes, and the member
holds it. An empty string leaves the array, so that the member must have been fresh. -/
theorem takes_STRING (o : Member δ) {required : Bool} {d : δ}
    (fresh : required = false → o.get d = {}) :
    Takes (readSTRING o required) d fun bs d' =>
      ∃ f s, bs = RailUnicodeString.toBytes s ∧ d' = o.set f d ∧ Acceptable s required ∧
        Holds f s := by
  intro b u s run
  -- the string is named by its length and its bytes, the round trip gives the rest
  have holds : ∀ {r : RailUnicodeString} {rest : List BYTE}, b = r.toBytes ++ rest →
      Acceptable r required → (r.length ≠ 0 ∨ o.get d = {}) →
      ∃ bs rest, b = bs ++ rest ∧ s = ⟨s.dest, .of rest⟩ ∧
        ∃ f r, bs = RailUnicodeString.toBytes r ∧ s.dest = o.set f d ∧ Acceptable r required ∧
          Holds f r := by
    intro r rest same ok there
    obtain ⟨f, holds, reads⟩ := reads_STRING o d ok there
    rw [same] at run
    have ended := reads.eq_of_run run
    rw [ended]
    exact ⟨r.toBytes, rest, same, rfl, f, r, rfl, rfl, ok, holds⟩
  have peeled := run
  rw [readSTRING] at peeled
  obtain ⟨_, tail, d₁, rfl, ⟨n, rfl, rfl⟩, rest⟩ := (takes_UINT16 _ d).split peeled
  rw [bind_of_ok (get_apply _)] at rest
  simp only [o.get_set] at rest
  by_cases long : n.toNat + 2 > maxStringSize
  · rw [if_pos long] at rest
    cases rest
  · rw [if_neg long] at rest
    have room : n.toNat + 2 ≤ maxStringSize := Nat.not_lt.mp long
    by_cases empty : n = 0
    · subst empty
      cases required with
      | true =>
          rw [if_neg (not_not_intro rfl)] at rest
          cases rest
      | false =>
          exact @holds .empty tail (by simp [RailUnicodeString.toBytes, RailUnicodeString.empty])
            ⟨room, by rintro ⟨⟩⟩ (Or.inr (fresh rfl))
    · rw [if_pos empty, readChars] at rest
      obtain ⟨bytes, mid, fetched, -⟩ := bind_eq_ok.mp rest
      obtain ⟨rest', rfl, size, -⟩ := fetch_takes fetched
      exact @holds ⟨n, bytes, size⟩ rest'
        (by rw [RailUnicodeString.toBytes, List.append_assoc]) ⟨room, fun _ => empty⟩ (Or.inl empty)

/-- A field that was read: the string in it, which is empty where the field is not
flagged. -/
structure FieldTaken (flags bit : UInt32) (required : Bool) (f : PduString)
    (s : RailUnicodeString) : Prop where
  acceptable : FieldAcceptable flags bit s required
  holds : FieldHolds flags bit f s
  absent : ¬ has flags bit = true → s = .empty

theorem takes_field (flags : δ → UInt32) (bit : UInt32) (o : Member δ) (required : Bool) {d : δ}
    (fresh : o.get d = {}) :
    Takes (whenFlag flags bit (readSTRING o required)) d fun bs d' =>
      ∃ f s, bs = fieldBytes (flags d) bit s ∧ d' = o.set f d ∧
        FieldTaken (flags d) bit required f s := by
  intro b u s run
  have look : (if has (flags d) bit then readSTRING o required else pure ()) ⟨d, .of b⟩ =
      .ok u s := run
  by_cases flagged : has (flags d) bit
  · rw [if_pos flagged] at look
    obtain ⟨bs, rest, rfl, ended, f, r, rfl, set, ok, holds⟩ :=
      takes_STRING o (fun _ => fresh) _ _ _ look
    refine ⟨_, rest, rfl, ended, f, r, by rw [fieldBytes, if_pos flagged], set, fun _ => ok, ?_,
      fun h => absurd flagged h⟩
    rw [FieldHolds, if_pos flagged]
    exact holds
  · rw [if_neg flagged] at look
    cases look
    refine ⟨[], b, rfl, rfl, o.get d, .empty, by rw [fieldBytes, if_neg flagged],
      (o.set_get d).symm, fun h => absurd h flagged, ?_, fun _ => rfl⟩
    rw [FieldHolds, if_neg flagged]
    exact fresh

/-! ### The four readers -/

theorem takes_caps (d : ServerCapsPdu) :
    Takes readAppListServerCapsBody d fun bs d' => 4 ≤ d'.version →
      ∃ p, bs = Server.ServerCapsPdu.body p ∧ CapsDemands p ∧ CapsHold d' p := by
  intro b u s run
  rw [readAppListServerCapsBody] at run
  obtain ⟨_, _, _, rfl, ⟨version, rfl, rfl⟩, run⟩ := (takes_UINT16 _ _).split run
  obtain ⟨_, rest, _, rfl, ⟨name, nameSent, rfl, rfl, nameOk, nameHolds⟩, run⟩ :=
    (@takes_STRING _ ServerCapsPdu.nameMember true _ (by rintro ⟨⟩)).split run
  rw [bind_of_ok (get_apply _)] at run
  by_cases four : version ≥ 4
  · have second : readSTRING ServerCapsPdu.uniqueIdMember true
        ⟨{ d with version := version, appListProviderName := name }, .of rest⟩ = .ok u s :=
      (congrFun (if_pos four) _).symm.trans run
    obtain ⟨_, rest', rfl, ended, uniqueId, uniqueIdSent, rfl, set, uniqueIdOk, uniqueIdHolds⟩ :=
      takes_STRING ServerCapsPdu.uniqueIdMember (by rintro ⟨⟩) _ _ _ second
    refine ⟨word16 version ++ nameSent.toBytes ++ uniqueIdSent.toBytes, rest',
      by simp only [List.append_assoc], ended, fun _ => ⟨⟨version, nameSent, uniqueIdSent⟩, rfl,
        ⟨four, nameOk, uniqueIdOk⟩, ?_⟩⟩
    rw [set]
    exact ⟨rfl, nameHolds, uniqueIdHolds⟩
  · have ended := (congrFun (if_neg four) _).symm.trans run
    cases ended
    exact ⟨word16 version ++ nameSent.toBytes, rest, by simp only [List.append_assoc], rfl,
      fun newer => absurd newer four⟩

/-- The string part of an UPDATE_APPLIST PDU as it was read. -/
structure UpdateTaken (d : UpdateAppListPdu) (p : Server.UpdateAppListPdu) : Prop where
  flags : d.flags = p.flags
  required : hasAll p.flags (fieldId ||| fieldExecPath ||| fieldDesc) = true
  appId : FieldTaken p.flags fieldId true d.appId p.appId
  appGroup : FieldTaken p.flags fieldGroup false d.appGroup p.appGroup
  appExecPath : FieldTaken p.flags fieldExecPath true d.appExecPath p.appExecPath
  appWorkingDir : FieldTaken p.flags fieldWorkingDir false d.appWorkingDir p.appWorkingDir
  appDesc : FieldTaken p.flags fieldDesc true d.appDesc p.appDesc

theorem takes_update : Takes readAppListUpdateBody {} fun bs d' =>
    ∃ p, bs = updateFields p ∧ UpdateTaken d' p := by
  intro b u s run
  rw [readAppListUpdateBody] at run
  obtain ⟨_, _, _, rfl, ⟨flags, rfl, rfl⟩, run⟩ := (takes_UINT32 _ _).split run
  obtain ⟨_, _, _, rfl, ⟨rfl, rfl, required⟩, run⟩ := (takes_requiredFlags _ _ _).split run
  obtain ⟨_, _, _, rfl, ⟨appId, idSent, rfl, rfl, idTaken⟩, run⟩ :=
    (takes_field UpdateAppListPdu.flags fieldId UpdateAppListPdu.idMember true rfl).split run
  obtain ⟨_, _, _, rfl, ⟨appGroup, groupSent, rfl, rfl, groupTaken⟩, run⟩ :=
    (takes_field UpdateAppListPdu.flags fieldGroup UpdateAppListPdu.groupMember false rfl).split run
  obtain ⟨_, _, _, rfl, ⟨appExecPath, execPathSent, rfl, rfl, execPathTaken⟩, run⟩ :=
    (takes_field UpdateAppListPdu.flags fieldExecPath UpdateAppListPdu.execPathMember true
      rfl).split run
  obtain ⟨_, _, _, rfl, ⟨appWorkingDir, workingDirSent, rfl, rfl, workingDirTaken⟩, run⟩ :=
    (takes_field UpdateAppListPdu.flags fieldWorkingDir UpdateAppListPdu.workingDirMember false
      rfl).split run
  obtain ⟨_, rest, rfl, ended, appDesc, descSent, rfl, set, descTaken⟩ :=
    takes_field UpdateAppListPdu.flags fieldDesc UpdateAppListPdu.descMember true rfl _ _ _ run
  refine ⟨updateFields ⟨flags, idSent, groupSent, execPathSent, workingDirSent, descSent, none⟩,
    rest, ?_, ended, ⟨flags, idSent, groupSent, execPathSent, workingDirSent, descSent, none⟩,
    rfl, ?_⟩
  · simp only [updateFields, List.append_assoc, List.nil_append]
    rfl
  · rw [set]
    exact ⟨rfl, required, idTaken, groupTaken, execPathTaken, workingDirTaken, descTaken⟩

structure DeleteTaken (d : DeleteAppListPdu) (p : Server.DeleteAppListPdu) : Prop where
  flags : d.flags = p.flags
  required : hasAll p.flags fieldId = true
  appId : FieldTaken p.flags fieldId true d.appId p.appId
  appGroup : FieldTaken p.flags fieldGroup false d.appGroup p.appGroup

theorem takes_delete : Takes readAppListDeleteBody {} fun bs d' =>
    ∃ p, bs = Server.DeleteAppListPdu.body p ∧ DeleteTaken d' p := by
  intro b u s run
  rw [readAppListDeleteBody] at run
  obtain ⟨_, _, _, rfl, ⟨flags, rfl, rfl⟩, run⟩ := (takes_UINT32 _ _).split run
  obtain ⟨_, _, _, rfl, ⟨rfl, rfl, required⟩, run⟩ := (takes_requiredFlags _ _ _).split run
  obtain ⟨_, _, _, rfl, ⟨appId, idSent, rfl, rfl, idTaken⟩, run⟩ :=
    (takes_field DeleteAppListPdu.flags fieldId DeleteAppListPdu.idMember true rfl).split run
  obtain ⟨_, rest, rfl, ended, appGroup, groupSent, rfl, set, groupTaken⟩ :=
    takes_field DeleteAppListPdu.flags fieldGroup DeleteAppListPdu.groupMember false rfl _ _ _ run
  refine ⟨Server.DeleteAppListPdu.body ⟨flags, idSent, groupSent⟩, rest, ?_, ended,
    ⟨flags, idSent, groupSent⟩, rfl, ?_⟩
  · simp only [Server.DeleteAppListPdu.body, List.append_assoc, List.nil_append]
    rfl
  · rw [set]
    exact ⟨rfl, required, idTaken, groupTaken⟩

structure AssociateTaken (d : AssociateWindowIdPdu) (p : Server.AssociateWindowIdPdu) :
    Prop where
  flags : d.flags = p.flags
  appWindowId : d.appWindowId = p.appWindowId
  required : hasAll p.flags (fieldId ||| fieldWindowId) = true
  appId : FieldTaken p.flags fieldId true d.appId p.appId
  appGroup : FieldTaken p.flags fieldGroup false d.appGroup p.appGroup
  appExecPath : FieldTaken p.flags fieldExecPath true d.appExecPath p.appExecPath
  appDesc : FieldTaken p.flags fieldDesc true d.appDesc p.appDesc

theorem takes_associate : Takes readAssociateWindowIdBody {} fun bs d' =>
    ∃ p, bs = Server.AssociateWindowIdPdu.body p ∧ AssociateTaken d' p := by
  intro b u s run
  rw [readAssociateWindowIdBody] at run
  obtain ⟨_, _, _, rfl, ⟨flags, rfl, rfl⟩, run⟩ := (takes_UINT32 _ _).split run
  obtain ⟨_, _, _, rfl, ⟨rfl, rfl, required⟩, run⟩ := (takes_requiredFlags _ _ _).split run
  obtain ⟨_, _, _, rfl, ⟨appWindowId, rfl, rfl⟩, run⟩ := (takes_UINT32 _ _).split run
  obtain ⟨_, _, _, rfl, ⟨appId, idSent, rfl, rfl, idTaken⟩, run⟩ :=
    (takes_field AssociateWindowIdPdu.flags fieldId AssociateWindowIdPdu.idMember true
      rfl).split run
  obtain ⟨_, _, _, rfl, ⟨appGroup, groupSent, rfl, rfl, groupTaken⟩, run⟩ :=
    (takes_field AssociateWindowIdPdu.flags fieldGroup AssociateWindowIdPdu.groupMember false
      rfl).split run
  obtain ⟨_, _, _, rfl, ⟨appExecPath, execPathSent, rfl, rfl, execPathTaken⟩, run⟩ :=
    (takes_field AssociateWindowIdPdu.flags fieldExecPath AssociateWindowIdPdu.execPathMember true
      rfl).split run
  obtain ⟨_, rest, rfl, ended, appDesc, descSent, rfl, set, descTaken⟩ :=
    takes_field AssociateWindowIdPdu.flags fieldDesc AssociateWindowIdPdu.descMember true rfl _ _ _
      run
  refine ⟨Server.AssociateWindowIdPdu.body
      ⟨flags, appWindowId, idSent, groupSent, execPathSent, descSent⟩, rest, ?_, ended,
    ⟨flags, appWindowId, idSent, groupSent, execPathSent, descSent⟩, rfl, ?_⟩
  · simp only [Server.AssociateWindowIdPdu.body, List.append_assoc, List.nil_append]
    rfl
  · rw [set]
    exact ⟨rfl, rfl, required, idTaken, groupTaken, execPathTaken, descTaken⟩

/-! ### The icon -/

theorem takes_iconWords (heap : Heap) :
    Takes readIconWords ⟨{}, heap⟩ fun bs s =>
      ∃ flags width height stride bpp format bitsLength,
        bs = word32 flags ++ (word32 width ++ (word32 height ++ (word32 stride ++
          (word32 bpp ++ (word32 format ++ word32 bitsLength))))) ∧
        s = ⟨⟨flags, width, height, stride, bpp, format, bitsLength, 0, none⟩, heap⟩ := by
  intro b u s run
  rw [readIconWords] at run
  obtain ⟨_, _, _, rfl, ⟨flags, rfl, rfl⟩, run⟩ := (takes_UINT32 _ _).split run
  obtain ⟨_, _, _, rfl, ⟨width, rfl, rfl⟩, run⟩ := (takes_UINT32 _ _).split run
  obtain ⟨_, _, _, rfl, ⟨height, rfl, rfl⟩, run⟩ := (takes_UINT32 _ _).split run
  obtain ⟨_, _, _, rfl, ⟨stride, rfl, rfl⟩, run⟩ := (takes_UINT32 _ _).split run
  obtain ⟨_, _, _, rfl, ⟨bpp, rfl, rfl⟩, run⟩ := (takes_UINT32 _ _).split run
  obtain ⟨_, _, _, rfl, ⟨format, rfl, rfl⟩, run⟩ := (takes_UINT32 _ _).split run
  obtain ⟨_, rest, rfl, ended, bitsLength, rfl, set⟩ := takes_UINT32 _ _ _ _ _ run
  exact ⟨_, rest, by simp only [List.append_assoc], ended, flags, width, height, stride, bpp,
    format, bitsLength, rfl, set⟩

/-- An icon that was read: its bytes are those of one, and the struct holds it. -/
theorem takes_icon (localAlloc : UInt32 → Bool) (d : IconState) :
    Takes (readAppListIconDataBody localAlloc) d fun bs s =>
      ∃ i, bs = Server.IconData.toBytes i ∧
        sizeofIconHeader + sizeofBitmapInfoHeader + i.iconBitsLength.toNat < 2 ^ 32 ∧
        IconHolds s.icon i := by
  intro b u s run
  have parts := run
  rw [readAppListIconDataBody, bind_of_ok (assign_apply _ _)] at parts
  obtain ⟨_, afterWords, wordsRead, file⟩ := bind_eq_ok.mp parts
  obtain ⟨_, rest, rfl, ended, flags, width, height, stride, bpp, format, bitsLength, rfl, set⟩ :=
    takes_iconWords d.heap _ _ _ (ok_of_orErrorRead wordsRead)
  rw [ended, set] at file
  obtain ⟨_, afterSize, sized, file⟩ := bind_eq_ok.mp file
  obtain ⟨fits, rfl⟩ := fits_of_addIconFileSize sized
  obtain ⟨_, afterAlloc, alloc, file⟩ := bind_eq_ok.mp file
  obtain ⟨served, rfl⟩ := served_of_allocIconFile alloc
  obtain ⟨_, _, bitsRead, -⟩ := bind_eq_ok.mp file
  have bits := ok_of_orErrorRead bitsRead
  rw [readIconBits, bind_of_ok (get_apply _)] at bits
  obtain ⟨iconBits, _, fetched, -⟩ := bind_eq_ok.mp bits
  obtain ⟨rest', rfl, size, -⟩ := fetch_takes fetched
  -- the bytes are those of an icon the client can read, so that the round trip applies
  set i : Server.IconData :=
    ⟨flags, width, height, stride, bpp, format, bitsLength, iconBits, size⟩ with icon
  obtain ⟨icon', heap', holds, reads⟩ := reads_icon localAlloc i d.icon d.heap fits served
  have same : word32 flags ++ (word32 width ++ (word32 height ++ (word32 stride ++ (word32 bpp ++
      (word32 format ++ word32 bitsLength))))) ++ (iconBits ++ rest') = i.toBytes ++ rest' := by
    simp only [icon, Server.IconData.toBytes, List.append_assoc]
  rw [same] at run
  have ended := reads.eq_of_run run
  refine ⟨i.toBytes, rest', same, ?_, i, rfl, fits, ?_⟩
  · rw [ended]
  · rw [ended]
    exact holds

/-! ### What the structs say, as a server says it -/

/-- A string member as a server holds one: its byte length and that many bytes. -/
def railString (f : PduString) : RailUnicodeString :=
  if fits : f.length.toNat ≤ maxStringSize then
    ⟨f.length, (bytes f.buf.chars).take f.length.toNat, by
      rw [List.length_take_of_le]
      rw [length_bytes, f.buf.size]
      exact fits⟩
  else .empty

/-- The icon of an icon file: the words and what stands behind the headers. -/
def railIcon (d : IconData) : Option Server.IconData :=
  d.iconFileData.bind fun block =>
    let bits := block.bytes.drop (sizeofIconHeader + sizeofBitmapInfoHeader)
    if size : bits.length = d.iconBitsLength.toNat then
      some ⟨d.flags, d.iconWidth, d.iconHeight, d.iconStride, d.iconBpp, d.iconFormat,
        d.iconBitsLength, bits, size⟩
    else none

/-- A PDU as the client has it after reading. -/
inductive ClientPdu where
  | caps (d : ServerCapsPdu)
  | updateAppList (d : UpdateAppListPdu) (icon : Option IconData)
  | deleteAppList (d : DeleteAppListPdu)
  | associateWindowId (d : AssociateWindowIdPdu)
deriving DecidableEq

namespace ClientPdu

/-- The decoded fields, given to the matching sender. -/
def toServer : ClientPdu → ServerPdu
  | caps d => .caps
      ⟨d.version, railString d.appListProviderName, railString d.appListProviderUniqueId⟩
  | updateAppList d icon => .updateAppList
      ⟨d.flags, railString d.appId, railString d.appGroup, railString d.appExecPath,
        railString d.appWorkingDir, railString d.appDesc, icon.bind railIcon⟩
  | deleteAppList d => .deleteAppList ⟨d.flags, railString d.appId, railString d.appGroup⟩
  | associateWindowId d => .associateWindowId
      ⟨d.flags, d.appWindowId, railString d.appId, railString d.appGroup,
        railString d.appExecPath, railString d.appDesc⟩

/-- The string members; one that was not read has length zero. -/
def strings : ClientPdu → List PduString
  | caps d => [d.appListProviderName, d.appListProviderUniqueId]
  | updateAppList d _ => [d.appId, d.appGroup, d.appExecPath, d.appWorkingDir, d.appDesc]
  | deleteAppList d => [d.appId, d.appGroup]
  | associateWindowId d => [d.appId, d.appGroup, d.appExecPath, d.appDesc]

/-- A CAPS PDU has a version with a unique id. -/
def Versioned : ClientPdu → Prop
  | caps d => 4 ≤ d.version
  | _ => True

instance : (pdu : ClientPdu) → Decidable pdu.Versioned
  | caps d => inferInstanceAs (Decidable (4 ≤ d.version))
  | updateAppList _ _ => inferInstanceAs (Decidable True)
  | deleteAppList _ => inferInstanceAs (Decidable True)
  | associateWindowId _ => inferInstanceAs (Decidable True)

end ClientPdu

/-- The four kinds of PDU the client has a reader for. -/
inductive Kind where
  | caps
  | updateAppList
  | deleteAppList
  | associateWindowId
deriving DecidableEq

/-- The reading of a PDU of a kind from a buffer, and the cursor after it; nothing if a
reader fails. `caps` is what `m_serverCaps` holds before. -/
def readPdu (localAlloc : UInt32 → Bool) (heap : Heap) (caps : ServerCapsPdu) (b : List BYTE) :
    Kind → Option (ClientPdu × Cursor)
  | .caps =>
      match readAppListServerCaps caps (.of b) with
      | (.ok c, d) => some (.caps d, c)
      | (.error _, _) => none
  | .updateAppList =>
      match readAppListUpdate {} (.of b) with
      | (.ok c, d) =>
          if has d.flags fieldIcon then
            match readAppListIconData localAlloc ⟨{}, heap⟩ c with
            | (.ok c, s) => some (.updateAppList d (some s.icon), c)
            | (.error _, _) => none
          else some (.updateAppList d none, c)
      | (.error _, _) => none
  | .deleteAppList =>
      match readAppListDelete {} (.of b) with
      | (.ok c, d) => some (.deleteAppList d, c)
      | (.error _, _) => none
  | .associateWindowId =>
      match readAssociateWindowId {} (.of b) with
      | (.ok c, d) => some (.associateWindowId d, c)
      | (.error _, _) => none

/-- A string that arrived in whole characters is the string sent. -/
theorem railString_of_holds {f : PduString} {s : RailUnicodeString} (holds : Holds f s)
    (short : s.length.toNat ≤ maxStringSize) (even : f.length.toNat % 2 = 0) :
    railString f = s := by
  obtain ⟨length, chars, -⟩ := holds
  rw [length] at even
  have halves : 2 * (s.length.toNat / 2) = s.length.toNat := by omega
  have sent : (bytes f.buf.chars).take s.length.toNat = s.string := by
    rw [← halves, take_bytes, chars, bytes_units (by rw [s.size]; exact even)]
  rw [railString, dif_pos (by rw [length]; exact short)]
  cases s
  simp only [RailUnicodeString.mk.injEq]
  exact ⟨length, by rw [length]; exact sent⟩

theorem FieldTaken.railString_eq {flags bit : UInt32} {required : Bool} {f : PduString}
    {s : RailUnicodeString} (taken : FieldTaken flags bit required f s)
    (even : f.length.toNat % 2 = 0) : railString f = s := by
  obtain ⟨ok, holds, absent⟩ := taken
  by_cases flagged : has flags bit
  · rw [FieldHolds, if_pos flagged] at holds
    exact railString_of_holds holds (ok.short flagged) even
  · rw [FieldHolds, if_neg flagged] at holds
    rw [absent flagged, holds]
    rfl

theorem railIcon_of_holds {d : IconData} {i : Server.IconData} (holds : IconHolds d i) :
    railIcon d = some i := by
  obtain ⟨words, -, id, file⟩ := holds
  have front : ((iconWords i).header.toBytes ++ (iconWords i).bitmapInfo.toBytes).length =
      sizeofIconHeader + sizeofBitmapInfoHeader := by
    rw [List.length_append, IconHeader.length_toBytes, BitmapInfoHeader.length_toBytes]
  cases d
  cases i
  simp only [iconWords, IconData.mk.injEq] at words
  obtain ⟨rfl, rfl, rfl, rfl, rfl, rfl, rfl, -⟩ := words
  simp only at file
  rw [railIcon, file, Option.bind_some]
  simp only [List.drop_left' front]
  rw [dif_pos (by assumption)]

/-! ### Every accepted buffer -/

/-- The same of a reader as its callers see it. -/
theorem Takes.of_runReader {x : Read δ Unit} {d d' : δ} {post : List BYTE → δ → Prop}
    (takes : Takes x d post) {b : List BYTE} {c : Cursor}
    (read : runReader x d (.of b) = (.ok c, d')) :
    ∃ bs rest, b = bs ++ rest ∧ c = .of rest ∧ post bs d' := by
  unfold runReader at read
  cases run : x ⟨d, .of b⟩ with
  | ok u s =>
      obtain ⟨bs, rest, split, ended, holds⟩ := takes _ _ _ run
      rw [run] at read
      cases read
      exact ⟨bs, rest, split, congrArg ReadState.cur ended, holds⟩
  | error e s =>
      rw [run] at read
      cases read

/-- What was accepted: the buffer begins with the body of the PDU the structs say, and
that is one the client can be sent. -/
structure Accepted (b : List BYTE) (pdu : ClientPdu) (c : Cursor) : Prop where
  bytes : b = pdu.toServer.body ++ c.rest
  demands : FieldDemands pdu.toServer

section Accepted

variable {b : List BYTE} {c : Cursor}

theorem accepted_caps {d₀ d : ServerCapsPdu} (read : readAppListServerCaps d₀ (.of b) = (.ok c, d))
    (version : 4 ≤ d.version) (even : ∀ f ∈ (ClientPdu.caps d).strings, f.length.toNat % 2 = 0) :
    Accepted b (.caps d) c := by
  obtain ⟨_, rest, rfl, rfl, sent⟩ := (takes_caps d₀).of_runReader read
  obtain ⟨p, rfl, ok, holds⟩ := sent version
  have name := railString_of_holds holds.name (Nat.le_of_add_right_le ok.name.1)
    (even _ (by simp [ClientPdu.strings]))
  have uniqueId := railString_of_holds holds.uniqueId (Nat.le_of_add_right_le ok.uniqueId.1)
    (even _ (by simp [ClientPdu.strings]))
  have same : ClientPdu.toServer (.caps d) = .caps p := by
    simp only [ClientPdu.toServer, name, uniqueId, holds.version]
  exact ⟨by rw [same]; rfl, by rw [same]; exact ok⟩

theorem UpdateTaken.toServer_eq {d : UpdateAppListPdu} {p : Server.UpdateAppListPdu}
    (taken : UpdateTaken d p) (icon : Option IconData)
    (even : ∀ f ∈ (ClientPdu.updateAppList d icon).strings, f.length.toNat % 2 = 0) :
    ClientPdu.toServer (.updateAppList d icon) =
      .updateAppList { p with appIcon := icon.bind railIcon } := by
  simp only [ClientPdu.toServer, taken.flags,
    taken.appId.railString_eq (even _ (by simp [ClientPdu.strings])),
    taken.appGroup.railString_eq (even _ (by simp [ClientPdu.strings])),
    taken.appExecPath.railString_eq (even _ (by simp [ClientPdu.strings])),
    taken.appWorkingDir.railString_eq (even _ (by simp [ClientPdu.strings])),
    taken.appDesc.railString_eq (even _ (by simp [ClientPdu.strings]))]

theorem accepted_update {d : UpdateAppListPdu} {p : Server.UpdateAppListPdu}
    {icon : Option IconData} {sent : Option Server.IconData} (taken : UpdateTaken d p)
    (same : icon.bind railIcon = sent)
    (given : has p.flags fieldIcon = true → ∃ i, sent = some i ∧
      sizeofIconHeader + sizeofBitmapInfoHeader + i.iconBitsLength.toNat < 2 ^ 32)
    (even : ∀ f ∈ (ClientPdu.updateAppList d icon).strings, f.length.toNat % 2 = 0)
    (bytes : b = updateFields p ++ (iconBytes p.flags sent ++ c.rest)) :
    Accepted b (.updateAppList d icon) c := by
  have toServer := taken.toServer_eq icon even
  rw [same] at toServer
  constructor
  · rw [toServer]
    show b = Server.UpdateAppListPdu.body _ ++ _
    rw [body_eq_updateFields, List.append_assoc]
    exact bytes
  · rw [toServer]
    exact ⟨taken.required, taken.appId.acceptable, taken.appGroup.acceptable,
      taken.appExecPath.acceptable, taken.appWorkingDir.acceptable, taken.appDesc.acceptable, given⟩

theorem accepted_delete {d : DeleteAppListPdu} (read : readAppListDelete {} (.of b) = (.ok c, d))
    (even : ∀ f ∈ (ClientPdu.deleteAppList d).strings, f.length.toNat % 2 = 0) :
    Accepted b (.deleteAppList d) c := by
  obtain ⟨_, rest, rfl, rfl, p, rfl, taken⟩ := takes_delete.of_runReader read
  have same : ClientPdu.toServer (.deleteAppList d) = .deleteAppList p := by
    simp only [ClientPdu.toServer, taken.flags,
      taken.appId.railString_eq (even _ (by simp [ClientPdu.strings])),
      taken.appGroup.railString_eq (even _ (by simp [ClientPdu.strings]))]
  constructor
  · rw [same]
    rfl
  · rw [same]
    exact ⟨taken.required, taken.appId.acceptable, taken.appGroup.acceptable⟩

theorem accepted_associate {d : AssociateWindowIdPdu}
    (read : readAssociateWindowId {} (.of b) = (.ok c, d))
    (even : ∀ f ∈ (ClientPdu.associateWindowId d).strings, f.length.toNat % 2 = 0) :
    Accepted b (.associateWindowId d) c := by
  obtain ⟨_, rest, rfl, rfl, p, rfl, taken⟩ := takes_associate.of_runReader read
  have same : ClientPdu.toServer (.associateWindowId d) = .associateWindowId p := by
    simp only [ClientPdu.toServer, taken.flags, taken.appWindowId,
      taken.appId.railString_eq (even _ (by simp [ClientPdu.strings])),
      taken.appGroup.railString_eq (even _ (by simp [ClientPdu.strings])),
      taken.appExecPath.railString_eq (even _ (by simp [ClientPdu.strings])),
      taken.appDesc.railString_eq (even _ (by simp [ClientPdu.strings]))]
  constructor
  · rw [same]
    rfl
  · rw [same]
    exact ⟨taken.required, taken.appId.acceptable, taken.appGroup.acceptable,
      taken.appExecPath.acceptable, taken.appDesc.acceptable⟩

theorem accepted_of_readPdu {localAlloc : UInt32 → Bool} {heap : Heap} {caps : ServerCapsPdu}
    {kind : Kind} {pdu : ClientPdu} (read : readPdu localAlloc heap caps b kind = some (pdu, c))
    (version : pdu.Versioned) (even : ∀ f ∈ pdu.strings, f.length.toNat % 2 = 0) :
    Accepted b pdu c := by
  cases kind with
  | caps =>
      simp only [readPdu] at read
      split at read <;> cases read
      rename_i caps
      exact accepted_caps caps version even
  | updateAppList =>
      simp only [readPdu] at read
      split at read
      · rename_i c' d fields
        obtain ⟨_, rest, rfl, rfl, p, rfl, taken⟩ := takes_update.of_runReader fields
        by_cases flagged : has d.flags fieldIcon
        · rw [if_pos flagged] at read
          split at read <;> cases read
          rename_i s icon
          obtain ⟨_, rest', rfl, rfl, i, rfl, fits, holds⟩ :=
            (takes_icon localAlloc _).of_runReader icon
          refine accepted_update taken (railIcon_of_holds holds) (fun _ => ⟨i, rfl, fits⟩) even ?_
          rw [iconBytes, if_pos (taken.flags ▸ flagged)]
          rfl
        · rw [if_neg flagged] at read
          cases read
          refine accepted_update taken rfl (fun h => absurd (taken.flags ▸ h) flagged) even ?_
          rw [iconBytes, if_neg (taken.flags ▸ flagged)]
          rfl
      · cases read
  | deleteAppList =>
      simp only [readPdu] at read
      split at read <;> cases read
      rename_i delete
      exact accepted_delete delete even
  | associateWindowId =>
      simp only [readPdu] at read
      split at read <;> cases read
      rename_i associate
      exact accepted_associate associate even

/-- Whatever the client accepts from a buffer of at most `2 ^ 32 - 9` bytes is the body of
the PDU that the matching server sender writes for the decoded fields: the sender takes
them, and sends the accepted bytes behind its header. -/
theorem encode_undoes_decode {localAlloc : UInt32 → Bool} {heap : Heap} {caps : ServerCapsPdu}
    {kind : Kind} {pdu : ClientPdu} (read : readPdu localAlloc heap caps b kind = some (pdu, c))
    (short : b.length ≤ 2 ^ 32 - 9) (version : pdu.Versioned)
    (even : ∀ f ∈ pdu.strings, f.length.toNat % 2 = 0) :
    ∃ p, b = p ++ c.rest ∧ pdu.toServer.body = p ∧
      ∀ env : Server.SendEnv, env.streamNew (8 + p.length) = true →
        env.channelWrite (Server.headerBytes pdu.toServer.cmdId p.length ++ p) = true →
        pdu.toServer.send env = some ⟨Server.channelRcOk,
          some (Server.headerBytes pdu.toServer.cmdId p.length ++ p)⟩ := by
  obtain ⟨bytes, demands⟩ := accepted_of_readPdu read version even
  refine ⟨pdu.toServer.body, bytes, rfl, fun env made written => ?_⟩
  have count := congrArg List.length bytes
  rw [List.length_append] at count
  obtain ⟨ret, sent⟩ := ServerPdu.send_eq demands.sendable (by omega) made
  have accepted := Server.Packet.ret_of_send sent
  rw [ServerPdu.wire, if_pos written] at accepted
  rw [sent, accepted]
  rfl

end Accepted

/-- An UPDATE_APPLIST PDU with an empty group, a flag that nobody knows and a one-pixel
icon, and one more byte. -/
def acceptedUpdate : List BYTE :=
  word32 (fieldId ||| fieldGroup ||| fieldExecPath ||| fieldDesc ||| fieldIcon ||| 0x8000) ++
    word16 2 ++ [65, 0] ++ word16 0 ++ word16 2 ++ [66, 0] ++ word16 2 ++ [67, 0] ++
    word32 0 ++ word32 1 ++ word32 1 ++ word32 4 ++ word32 32 ++ word32 2 ++ word32 4 ++
    [1, 2, 3, 255, 42]

/-- What the client makes of it. -/
def readAcceptedUpdate : Option (ClientPdu × Cursor) :=
  readPdu (fun _ => true) {} {} acceptedUpdate .updateAppList

theorem encode_undoes_decode_acceptedUpdate :
    ∃ pdu c, readAcceptedUpdate = some (pdu, c) ∧ c.rest = [42] ∧
      ∃ p, acceptedUpdate = p ++ c.rest ∧ pdu.toServer.body = p ∧
        ∀ env : Server.SendEnv, env.streamNew (8 + p.length) = true →
          env.channelWrite (Server.headerBytes pdu.toServer.cmdId p.length ++ p) = true →
          pdu.toServer.send env = some ⟨Server.channelRcOk,
            some (Server.headerBytes pdu.toServer.cmdId p.length ++ p)⟩ := by
  have read : readAcceptedUpdate.isSome = true := by decide
  have facts : readAcceptedUpdate.all (fun (pdu, c) =>
      decide (pdu.Versioned ∧ (∀ f ∈ pdu.strings, f.length.toNat % 2 = 0) ∧ c.rest = [42])) =
        true := by decide
  obtain ⟨⟨pdu, c⟩, found⟩ := Option.isSome_iff_exists.mp read
  rw [found, Option.all_some] at facts
  obtain ⟨version, even, rest⟩ := of_decide_eq_true facts
  exact ⟨pdu, c, found, rest, encode_undoes_decode found (by decide) version even⟩

end Wslg.Channel
