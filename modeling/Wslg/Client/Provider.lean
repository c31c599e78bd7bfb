/-
The provider's own folders.

`OnCaps` joins the name of an accepted provider to the Programs folder and to the
plug-in's folder in the temp path. Its filters keep `..` out, so the result never
leaves those two. Whether it is a folder of its own there is another matter: a
name that is empty before its first NUL, or made of dots and separators only,
names nothing, and the provider's folder is then the Programs folder itself
(`ownFolders_iff_named`).
-/

import Wslg.Client.Disk

namespace Wslg.Client

open Wslg.LittleEndian Wslg.Protocol Wslg.StateExcept Wslg.Lexical

variable {ω δ : Type}

/-! ### The name that is read -/

/-- The reader leaves what `f` sees of the struct. -/
def KeepsDest {β : Type} (f : δ → β) (s s' : ReadState δ) : Prop := f s'.dest = f s.dest

instance {β : Type} (f : δ → β) : Std.Refl (KeepsDest f) := ⟨fun _ => rfl⟩

instance {β : Type} (f : δ → β) : IsTrans (ReadState δ) (KeepsDest f) :=
  ⟨fun _ _ _ h h' => h'.trans h⟩

theorem keepsDest_readSTRING {β : Type} {f : δ → β} (o : Member δ) (required : Bool)
    (ignored : ∀ s d, f (o.set s d) = f d) :
    Guarantees (KeepsDest f) (readSTRING o required) := by
  have fetched : ∀ n, Guarantees (KeepsDest f) (fetch n) := fun n s => by
    rw [fetch]
    split
    · exact rfl
    · split <;> exact rfl
  have written : ∀ {n} (b : Option (WBuf n)), Guarantees (KeepsDest f) (writeArray b) :=
    fun b s => by cases b <;> exact rfl
  have assigned : ∀ s, Guarantees (KeepsDest f) (assign (o.set s)) := fun s s' => ignored s s'.dest
  have length : Guarantees (KeepsDest f)
      (readUINT16 fun n d => o.set { o.get d with length := n } d) :=
    (fetched 2).bind fun _ s => ignored _ s.dest
  have chars : ∀ n, Guarantees (KeepsDest f) (readChars o n) := fun n =>
    (fetched _).bind fun _ => Guarantees.get.bind fun _ => (written _).bind fun _ =>
      (assigned _).bind fun _ => (written _).bind fun _ => assigned _
  exact length.bind fun _ => Guarantees.get.bind fun _ => Guarantees.ite (Guarantees.throw _)
    (Guarantees.ite (chars _) (Guarantees.ite (Guarantees.throw _) (Guarantees.pure ())))

/-- A string with its NUL behind the bytes its length counts. -/
structure Terminated (f : PduString) : Prop where
  short : f.length.toNat + 2 ≤ maxStringSize
  nul : f.buf.chars[f.length.toNat / 2]? = some 0

theorem terminated_of_readSTRING {o : Member δ} {s s' : ReadState δ} {u : Unit}
    (run : readSTRING o true s = .ok u s') : Terminated (o.get s'.dest) := by
  obtain ⟨_, s₁, -, run⟩ := bind_eq_ok.mp run
  rw [bind_of_ok (get_apply _)] at run
  simp only at run
  split at run
  · cases run
  rename_i room
  split at run
  · obtain ⟨bs, s₂, -, run⟩ := bind_eq_ok.mp run
    rw [bind_of_ok (get_apply _)] at run
    obtain ⟨buf, s₃, -, run⟩ := bind_eq_ok.mp run
    obtain ⟨_, s₄, -, run⟩ := bind_eq_ok.mp run
    obtain ⟨buf', s₅, put, run⟩ := bind_eq_ok.mp run
    cases run
    have inside : (o.get s₁.dest).length.toNat / 2 < maxStringSizeInWchar := by
      have : maxStringSize = 2 * maxStringSizeInWchar := rfl
      omega
    rw [WBuf.put_eq_some inside] at put
    cases put
    show Terminated (o.get (o.set _ _))
    rw [o.get_set]
    exact ⟨Nat.not_lt.mp room, List.getElem?_set_self (by rw [buf.size]; exact inside)⟩
  · split at run
    · cases run
    · rename_i optional
      exact absurd trivial optional

/-- The name of an accepted CAPS is terminated. -/
theorem terminated_of_readAppListServerCaps {d caps : ServerCapsPdu} {c c' : Cursor}
    (read : readAppListServerCaps d c = (.ok c', caps)) :
    Terminated caps.appListProviderName := by
  rw [readAppListServerCaps, runReader] at read
  split at read
  · rename_i u s run
    cases read
    obtain ⟨_, s₁, -, run⟩ := bind_eq_ok.mp run
    obtain ⟨_, s₂, name, run⟩ := bind_eq_ok.mp run
    rw [bind_of_ok (get_apply _)] at run
    have terminated := terminated_of_readSTRING name
    split at run
    · have same := (keepsDest_readSTRING (f := ServerCapsPdu.appListProviderName)
        ServerCapsPdu.uniqueIdMember true fun _ _ => rfl).of_ok run
      rw [show s.dest.appListProviderName = s₂.dest.appListProviderName from same]
      exact terminated
    · cases run
      exact terminated
  · cases read

/-- A copy of the bytes up to a NUL into a zeroed array reads as the same string. -/
theorem takeWhile_overlay_zeros {ws : List WCHAR} {len n : Nat} (fits : len / 2 < n)
    (nul : ws[len / 2]? = some 0) :
    (overlay (List.replicate n 0) ((bytes ws).take len)).takeWhile (· ≠ 0) =
      ws.takeWhile (· ≠ 0) := by
  induction ws generalizing len n with
  | nil => cases nul
  | cons w ws ih =>
      obtain ⟨n, rfl⟩ : ∃ k, n = k + 1 := ⟨n - 1, by omega⟩
      have low : bytes (w :: ws) =
          UInt8.ofNat w.toNat :: UInt8.ofNat (w.toNat / 256) :: bytes ws := rfl
      rw [List.replicate_succ, low]
      match len with
      | 0 =>
          obtain rfl : w = 0 := Option.some.inj nul
          rfl
      | 1 =>
          obtain rfl : w = 0 := Option.some.inj nul
          rfl
      | len + 2 =>
          have half : (len + 2) / 2 = len / 2 + 1 := by omega
          rw [half, List.getElem?_cons_succ] at nul
          have whole : unit (UInt8.ofNat w.toNat) (UInt8.ofNat (w.toNat / 256)) = w := by
            have := units_unitBytes_append w []
            exact (List.cons.inj this).1
          simp only [List.take_succ_cons, overlay, whole, List.takeWhile_cons]
          rw [ih (by omega) nul]

theorem str_of_fresh_copy {caps : ServerCapsPdu} {name : WBuf maxPath}
    (terminated : Terminated caps.appListProviderName)
    (copied : (WBuf.zero maxPath).copyBytes caps.nameBytes = some name) :
    name.str = caps.appListProviderName.str := by
  have sizes : maxStringSize = 512 ∧ maxPath = 260 := ⟨rfl, rfl⟩
  have short := terminated.short
  have fits : caps.nameBytes.length ≤ 2 * maxPath := by
    rw [ServerCapsPdu.nameBytes, List.length_take]
    omega
  rw [WBuf.copyBytes_eq_some fits] at copied
  cases copied
  exact takeWhile_overlay_zeros (by omega) terminated.nul

/-! ### The folders -/

/-- `GetTempPathW` fills the buffer with a path that ends in a backslash, unless it
asks for a larger one. -/
def TempPathEnds (os : Os ω) : Prop :=
  ∀ w size old, (os.getTempPathW w size old).1 ≠ 0 → (os.getTempPathW w size old).1 < size →
    ∃ temp, (os.getTempPathW w size old).2 = temp ++ [backslash]

/-- The provider has a folder of its own below Programs and one below the plug-in's
folder in the temp path. -/
structure OwnFolders (startMenu temp : WStr) (cb : Callback) : Prop where
  menu : StrictlyInside windowsPath (startMenu ++ wide "\\Programs") cb.appMenuPath
  icon : StrictlyInside windowsPath (temp ++ wide "\\WSLDVCPlugin") cb.iconPath

/-- A name without `..` joined to a folder gives a folder of its own when it names
something. -/
theorem strictlyInside_provider_iff {name : WStr} (plain : PlainProvider name) (folder : WStr) :
    StrictlyInside windowsPath folder (folder ++ backslash :: name) ↔
      ∃ part ∈ components windowsPath name, Named windowsPath part :=
  strictlyInside_join_iff (by decide)
    (no_up_of_no_dots fun dots => of_decide_eq_false plain.1 dots)

/-- On a fresh channel an accepted provider gets folders of its own exactly when its
name has a component that is neither empty nor a single dot. -/
theorem ownFolders_iff_named (os : Os ω) (tempPath : TempPathEnds os) (w : ω) (c c' : Cursor)
    (m m' : Machine ω) (read : readServerCaps c (ClientState.fresh w).start = .ok c' m)
    (accepted : installProvider os m = .ok () m') :
    ∃ startMenu temp, os.knownFolderStartMenu w = some startMenu ∧
      (∃ w' n, os.getTempPathW w' maxPath [] = (n, temp ++ [backslash])) ∧
      (OwnFolders startMenu temp m'.cb ↔
        ∃ part ∈ components windowsPath m.cb.serverCaps.appListProviderName.str,
          Named windowsPath part) := by
  obtain ⟨p, rfl⟩ := installProvider_eq_ok.mp accepted
  rw [readServerCaps] at read
  split at read
  · rename_i caps body
    cases read
    have name : p.name.str = caps.appListProviderName.str :=
      str_of_fresh_copy (terminated_of_readAppListServerCaps body) p.copied
    obtain ⟨n, got, there, fits⟩ := p.iconFolder.tempPath
    have call : os.getTempPathW p.menuWorld maxPath [] = (n, p.temp) := got
    obtain ⟨temp, ends⟩ := tempPath p.menuWorld maxPath [] (by rw [call]; exact there) (by
      rw [call]
      show n < maxPath
      omega)
    rw [call] at ends
    have menu : p.install.appMenuPath =
        (p.startMenu ++ wide "\\Programs") ++ backslash :: p.name.str := by
      show menuPath p.startMenu p.name.str = _
      rw [menuPath, List.append_assoc, List.append_cancel_left_eq]
      rfl
    have icon : p.install.iconPath =
        (temp ++ wide "\\WSLDVCPlugin") ++ backslash :: p.name.str := by
      show p.temp ++ iconPrefix ++ p.name.str = _
      rw [show p.temp = temp ++ [backslash] from ends, List.append_assoc, List.append_assoc,
        List.append_assoc, List.append_cancel_left_eq]
      rfl
    refine ⟨p.startMenu, temp, p.folder, ⟨p.menuWorld, n, call.trans (congrArg _ ends)⟩, ?_⟩
    rw [show caps.appListProviderName.str = p.name.str from name.symm]
    constructor
    · rintro ⟨inMenu, -⟩
      rw [menu] at inMenu
      exact (strictlyInside_provider_iff p.plain _).mp inMenu
    · intro named
      constructor
      · rw [menu]
        exact (strictlyInside_provider_iff p.plain _).mpr named
      · rw [icon]
        exact (strictlyInside_provider_iff p.plain _).mpr named
  · cases read

theorem tempPathEnds_diskOs : TempPathEnds diskOs := fun _ _ _ _ _ => ⟨wide "T", rfl⟩

/-- The provider `U` has folders of its own. -/
theorem ownFolders_iff_named_single :
    ∃ c' m m', readServerCaps (capsBody "U") (ClientState.fresh (ω := Disk) {}).start = .ok c' m ∧
      installProvider diskOs m = .ok () m' ∧
      ∃ startMenu temp, diskOs.knownFolderStartMenu {} = some startMenu ∧
        OwnFolders startMenu temp m'.cb := by
  obtain ⟨_, m', run⟩ := exists_of_isOk (r := (readServerCaps (capsBody "U") >>= fun _ =>
    installProvider diskOs) (ClientState.fresh {}).start) (by decide +kernel)
  obtain ⟨c', m, read, accepted⟩ := bind_eq_ok.mp run
  have name : (final (readServerCaps (capsBody "U")
      (ClientState.fresh (ω := Disk) {}).start)).cb.serverCaps.appListProviderName.str =
      wide "U" := by decide +kernel
  rw [read] at name
  obtain ⟨startMenu, temp, folder, -, iff⟩ :=
    ownFolders_iff_named diskOs tempPathEnds_diskOs {} (capsBody "U") c' m m' read accepted
  refine ⟨c', m, m', read, accepted, startMenu, temp, folder, iff.mpr ⟨wide "U", ?_, by decide⟩⟩
  rw [show m.cb.serverCaps.appListProviderName.str = wide "U" from name]
  decide

/-- The provider `.` is accepted, and its menu folder is the Programs folder. -/
theorem dotProvider_without_folder :
    let s := (step diskOs (.fresh {}) (caps ".")).2
    (step diskOs (.fresh {}) (caps ".")).1.failure = none ∧
      ¬ OwnFolders (wide "M") (wide "T") s.cb := by
  refine ⟨by decide +kernel, fun own => ?_⟩
  have whole : ¬ StrictlyInside windowsPath (wide "M" ++ wide "\\Programs")
      (step diskOs (.fresh {}) (caps ".")).2.cb.appMenuPath := by decide +kernel
  exact whole own.menu

end Wslg.Client
