/-
The name of the provider, over all the CAPS of a channel.

`OnCaps` copies the bytes of the name into `m_appProvider` and no NUL behind them,
so what stands in the array from earlier names goes on where the new one ends. The
string that is read from it, checked and put into both paths is the announced name
exactly if the name brings a NUL of its own or one stands in the array right behind
the copy (`announced_iff_nul`). The first CAPS of a channel finds an array of zeros.
-/

import Wslg.Channel.Inversion
import Wslg.Client.Handshake

namespace Wslg.Client

open Wslg.LittleEndian Wslg.Protocol Wslg.StateExcept

variable {ω : Type} {os : Os ω}

/-! ### The name in the PDU -/

/-- The byte length of the name in the body of a CAPS. -/
def nameLength (body : List BYTE) : Nat := decode ((body.drop 2).take 2)

/-- The wide characters of the name. -/
def nameChars (body : List BYTE) : List WCHAR := units ((body.drop 4).take (nameLength body))

/-- The name, up to its first NUL. -/
def announcedName (body : List BYTE) : WStr := (nameChars body).takeWhile (· ≠ 0)

/-- The front of a body that a server wrote. -/
theorem name_of_body (p : Server.ServerCapsPdu) (rest : List BYTE) :
    nameLength (p.body ++ rest) = p.appListProviderName.length.toNat ∧
      nameChars (p.body ++ rest) = units p.appListProviderName.string := by
  have front : p.body ++ rest = word16 p.version ++ (word16 p.appListProviderName.length ++
      (p.appListProviderName.string ++ (p.appListProviderUniqueId.toBytes ++ rest))) := by
    simp only [Server.ServerCapsPdu.body, Server.RailUnicodeString.toBytes, List.append_assoc]
  have behindVersion : (p.body ++ rest).drop 2 = word16 p.appListProviderName.length ++
      (p.appListProviderName.string ++ (p.appListProviderUniqueId.toBytes ++ rest)) := by
    rw [front, List.drop_left' (length_word16 _)]
  have length : nameLength (p.body ++ rest) = p.appListProviderName.length.toNat := by
    rw [nameLength, behindVersion, List.take_left' (length_word16 _), word16,
      decode_encode_of_lt p.appListProviderName.length.toNat_lt]
  refine ⟨length, ?_⟩
  have behindLength : (p.body ++ rest).drop 4 =
      p.appListProviderName.string ++ (p.appListProviderUniqueId.toBytes ++ rest) := by
    rw [show 4 = 2 + 2 from rfl, ← List.drop_drop, behindVersion,
      List.drop_left' (length_word16 _)]
  rw [nameChars, length, behindLength, List.take_left' p.appListProviderName.size]

/-! ### The copy -/

/-- The name holds a NUL, or one stands right behind its place in the array. -/
def NulBehind (old : WBuf maxPath) (body : List BYTE) : Prop :=
  0 ∈ nameChars body ∨ old.chars[(nameChars body).length]? = some 0

/-- Characters with others behind them read as they do alone exactly if a NUL comes in
time. -/
theorem takeWhile_append_eq_iff {us ws : List WCHAR} (more : ws ≠ []) :
    (us ++ ws).takeWhile (· ≠ 0) = us.takeWhile (· ≠ 0) ↔ 0 ∈ us ∨ ws[0]? = some 0 := by
  induction us with
  | nil =>
      obtain ⟨w, ws, rfl⟩ := List.exists_cons_of_ne_nil more
      simp [List.takeWhile_cons]
  | cons u us ih =>
      by_cases nul : u = 0
      · simp [nul]
      · have on : decide (u ≠ 0) = true := decide_eq_true nul
        rw [List.cons_append, List.takeWhile_cons, List.takeWhile_cons, if_pos on, if_pos on,
          List.cons.injEq, List.mem_cons, ih]
        simp [Ne.symm nul]

/-- The copy of a name of whole characters that leaves room reads as the name exactly if
a NUL comes in time. -/
theorem str_copyBytes_iff {old new : WBuf maxPath} {us : List WCHAR}
    (room : us.length < maxPath) (copied : old.copyBytes (bytes us) = some new) :
    new.str = us.takeWhile (· ≠ 0) ↔ 0 ∈ us ∨ old.chars[us.length]? = some 0 := by
  have size : old.chars.length = maxPath := old.size
  rw [WBuf.copyBytes_eq_some (by rw [length_bytes]; omega)] at copied
  cases copied
  show (overlay old.chars (bytes us)).takeWhile _ = _ ↔ _
  rw [overlay_bytes (by omega), takeWhile_append_eq_iff, List.getElem?_drop, Nat.add_zero]
  apply List.ne_nil_of_length_pos
  rw [List.length_drop]
  omega

/-- What `OnCaps` copies is the name of the PDU. -/
theorem nameBytes_of_read {d caps : ServerCapsPdu} {body : List BYTE} {c' : Cursor}
    (read : readAppListServerCaps d (.of body) = (.ok c', caps)) (version : 4 ≤ caps.version)
    (even : nameLength body % 2 = 0) :
    caps.nameBytes = bytes (nameChars body) ∧ (nameChars body).length < maxPath := by
  rw [readAppListServerCaps, runReader] at read
  split at read
  · rename_i u s run
    cases read
    obtain ⟨bs, rest, rfl, ended, sent⟩ := Channel.takes_caps d _ _ _ run
    obtain ⟨p, rfl, demands, hold⟩ := sent version
    obtain ⟨length, chars⟩ := name_of_body p rest
    have short : p.appListProviderName.length.toNat + 2 ≤ maxStringSize := demands.name.1
    have sizes : maxStringSize = 512 ∧ maxPath = 260 := ⟨rfl, rfl⟩
    rw [length] at even
    have double : p.appListProviderName.length.toNat =
        2 * (p.appListProviderName.length.toNat / 2) := by omega
    constructor
    · rw [ServerCapsPdu.nameBytes, hold.name.length, double, take_bytes, hold.name.chars, chars]
    · rw [chars, length_units, p.appListProviderName.size]
      omega
  · cases read

/-! ### A CAPS that succeeds -/

/-- What a successful CAPS read and installed. -/
theorem installs_of_served {t : Step ω} {c : Cursor} (taken : Runs.Taken (step os) t)
    (input : t.input = .pdu cmdIdCaps c) (served : Served t) :
    ∃ cur caps, readAppListServerCaps t.before.cb.serverCaps c = (.ok cur, caps) ∧
      4 ≤ caps.version ∧ ∃ p : Provider os { t.before.cb with serverCaps := caps } t.before.world,
        t.after.cb.appProvider = p.name ∧
        t.after.cb.appMenuPath = menuPath p.startMenu p.name.str ∧
        t.after.cb.iconPath = p.temp ++ iconPrefix ++ p.name.str := by
  obtain ⟨isOpen, ok⟩ := served
  rw [taken.eq_take, input] at ok ⊢
  set s := t.before
  cases run : onCaps os c s.start with
  | error e m =>
      have stepped := step_of_error isOpen ((congrFun (if_pos rfl) _).trans run)
      cases (congrArg (·.1.failure) stepped).symm.trans ok
  | ok c' m =>
      have after : (Runs.take (step os) s (.pdu cmdIdCaps c)).after = m.state :=
        congrArg Prod.snd (step_of_ok isOpen ((congrFun (if_pos rfl) _).trans run))
      rw [after]
      obtain ⟨_, m₁, read, run⟩ := bind_eq_ok.mp run
      obtain ⟨_, m₂, applied, last⟩ := bind_eq_ok.mp run
      cases last
      obtain ⟨hr, m₃, prepared, finish⟩ := bind_eq_ok.mp applied
      rw [readServerCaps] at read
      split at read
      · rename_i caps body
        cases read
        obtain ⟨p, cmd, rfl, rfl⟩ := prepareHandshake_eq_ok.mp prepared
        rw [finishHandshake_apply] at finish
        split at finish
        · rename_i done
          cases finish
          refine ⟨_, _, body, ?_, p, rfl, rfl, rfl⟩
          rw [replied] at done
          split at done
          · assumption
          · cases done
        · cases finish
      · cases read

/-- The channel is the one the PDU announced: its name is in `m_appProvider`, and both
paths end in it. -/
structure Announced (os : Os ω) (t : Step ω) (name : WStr) : Prop where
  appProvider : t.after.cb.appProvider.str = name
  appMenuPath : ∃ startMenu, os.knownFolderStartMenu t.before.world = some startMenu ∧
    t.after.cb.appMenuPath = menuPath startMenu name
  iconPath : ∃ temp w n, os.getTempPathW w maxPath t.before.cb.iconPath = (n, temp) ∧
    t.after.cb.iconPath = temp ++ iconPrefix ++ name

/-- In every run, a CAPS that succeeds leaves the name it announced exactly if that name
brings a NUL or finds one behind its place. -/
theorem announced_iff_nul (os : Os ω) (w : ω) (es : List (Event ω)) {t : Step ω}
    (mem : t ∈ Runs.transitions (step os) (.fresh w) es) {body : List BYTE}
    (input : t.input = .pdu cmdIdCaps (.of body)) (served : Served t)
    (even : nameLength body % 2 = 0) :
    Announced os t (announcedName body) ↔ NulBehind t.before.cb.appProvider body := by
  obtain ⟨cur, caps, read, version, p, name, menu, icon⟩ :=
    installs_of_served (Runs.taken_of_mem mem) input served
  obtain ⟨bytes_, room⟩ := nameBytes_of_read read version even
  have copied : t.before.cb.appProvider.copyBytes (bytes (nameChars body)) = some p.name :=
    bytes_ ▸ p.copied
  rw [NulBehind, ← str_copyBytes_iff room copied, ← announcedName]
  constructor
  · intro announced
    rw [← name, announced.appProvider]
  · intro same
    obtain ⟨n, got, -, -⟩ := p.iconFolder.tempPath
    exact ⟨by rw [name, same], ⟨p.startMenu, p.folder, by rw [menu, same]⟩,
      ⟨p.temp, p.menuWorld, n, got, by rw [icon, same]⟩⟩

/-- `Ubuntu` is announced behind `U`. -/
def longerName : Step Disk :=
  Runs.take (step diskOs) (Runs.finish (step diskOs) (.fresh {}) [caps "U"]) (caps "Ubuntu")

/-- It is longer, so its place ends in a NUL of the array. -/
theorem announced_iff_nul_longer :
    longerName.before.cb.appProvider.str = wide "U" ∧
      announcedName (capsBody "Ubuntu").rest = wide "Ubuntu" ∧
      Announced diskOs longerName (announcedName (capsBody "Ubuntu").rest) := by
  have mem : longerName ∈ Runs.transitions (step diskOs) (.fresh {}) [caps "U", caps "Ubuntu"] :=
    List.mem_cons_of_mem _ List.mem_cons_self
  refine ⟨by decide +kernel, by decide +kernel,
    (announced_iff_nul diskOs {} [caps "U", caps "Ubuntu"] mem rfl
      ⟨by decide +kernel, by decide +kernel⟩ (by decide +kernel)).mpr (Or.inr (by decide +kernel))⟩

/-- `U` is announced behind `Ubuntu`. -/
def shorterName : Step Disk :=
  Runs.take (step diskOs) (Runs.finish (step diskOs) (.fresh {}) [caps "Ubuntu"]) (caps "U")

/-- It is accepted, and the provider goes on being `Ubuntu`. -/
theorem shorterName_unannounced :
    shorterName ∈ Runs.transitions (step diskOs) (.fresh {}) [caps "Ubuntu", caps "U"] ∧
      Served shorterName ∧ announcedName (capsBody "U").rest = wide "U" ∧
      shorterName.after.cb.appProvider.str = wide "Ubuntu" ∧
      shorterName.after.cb.appMenuPath = wide "M\\Programs\\Ubuntu" ∧
      ¬ Announced diskOs shorterName (announcedName (capsBody "U").rest) := by
  have name : shorterName.after.cb.appProvider.str = wide "Ubuntu" := by decide +kernel
  have announced : announcedName (capsBody "U").rest = wide "U" := by decide +kernel
  refine ⟨List.mem_cons_of_mem _ List.mem_cons_self, ⟨by decide +kernel, by decide +kernel⟩,
    announced, name, by decide +kernel, fun kept => ?_⟩
  have same := kept.appProvider
  rw [name, announced] at same
  exact absurd same (by decide)

end Wslg.Client
