/-
Where the files of an application are.

The names of an update may hold separators, and only `..` is kept out of them. That
is enough: each path ends in an extension, so it names a file below the folder it is
joined to. A delete request is not checked at all; it is confined because it only
deletes what an entry of the database names, and every entry comes from an update
that was checked (`paths_confined`).
-/

import Wslg.Client.Steps

namespace Wslg.Client

open Wslg.Protocol Wslg.StateExcept Wslg.Lexical

variable {ω : Type} {os : Os ω}

/-! ### The paths of an update -/

/-- A name that passes the filter has no `..` component. -/
theorem PlainName.no_up {name : WStr} (plain : PlainName name) :
    ∀ c ∈ components windowsPath name, c ≠ [dot, dot] :=
  no_up_of_no_dots fun dots => of_decide_eq_false plain.1 dots

/-- Nor does it with the group in front. -/
theorem no_up_groupPrefix {u : UpdateAppListPdu} (plain : u.PlainNames) {name : WStr}
    (plainName : PlainName name) :
    ∀ c ∈ components windowsPath (u.groupPrefix ++ name), c ≠ [dot, dot] := by
  intro c mem
  rw [UpdateAppListPdu.groupPrefix] at mem
  split at mem
  · rename_i group
    rw [List.append_assoc, List.singleton_append,
      components_append_sep _ _ (by decide)] at mem
    rcases List.mem_append.mp mem with inGroup | inName
    · exact (plain.appGroup group).no_up c inGroup
    · exact plainName.no_up c inName
  · exact plainName.no_up c mem

theorem strictlyInside_linkPathOf (cb : Callback) {u : UpdateAppListPdu} (plain : u.PlainNames) :
    StrictlyInside windowsPath cb.appMenuPath (linkPathOf cb u) :=
  strictlyInside_join_extension (by decide) (no_up_groupPrefix plain plain.appDesc)
    (noSep_of_all (by decide)) (by decide)

theorem strictlyInside_iconPathOf (cb : Callback) {u : UpdateAppListPdu} (plain : u.PlainNames)
    (icon : has u.flags fieldIcon = true) :
    StrictlyInside windowsPath cb.iconPath (iconPathOf cb u) := by
  rw [iconPathOf, if_pos icon]
  exact strictlyInside_join_extension (by decide) (no_up_groupPrefix plain plain.appId)
    (noSep_of_all (by decide)) (by decide)

theorem iconPathOf_cases (cb : Callback) {u : UpdateAppListPdu} (plain : u.PlainNames) :
    iconPathOf cb u = [] ∨ StrictlyInside windowsPath cb.iconPath (iconPathOf cb u) := by
  by_cases icon : has u.flags fieldIcon = true
  · exact Or.inr (strictlyInside_iconPathOf cb plain icon)
  · exact Or.inl (if_neg icon)

/-! ### Entries and calls -/

/-- An entry that the update of a step put into the database, with its files strictly
inside the folders of that moment. -/
def EntryOf (os : Os ω) (e : FileEntry) (t : Step ω) : Prop :=
  ∃ u, Applied os t u ∧ e.linkFilePath = linkPathOf t.before.cb u ∧
    StrictlyInside windowsPath t.before.cb.appMenuPath e.linkFilePath ∧
    e.iconFilePath = iconPathOf t.before.cb u ∧
    (e.iconFilePath = [] ∨ StrictlyInside windowsPath t.before.cb.iconPath e.iconFilePath)

/-- A call writes a file of the update of its step, strictly inside the folder of that
moment, or deletes a file an update of one of the steps before was accepted with,
strictly inside the folder of that step. -/
def Confined (os : Os ω) (ts : List (Step ω)) (t : Step ω) : Action → Prop
  | .createShellLink path _ =>
      ∃ u, Applied os t u ∧ path = linkPathOf t.before.cb u ∧
        StrictlyInside windowsPath t.before.cb.appMenuPath path
  | .createIconFile path _ =>
      ∃ u, Applied os t u ∧ path = iconPathOf t.before.cb u ∧
        StrictlyInside windowsPath t.before.cb.iconPath path
  | .deleteFile .onDeleteAppList path =>
      ∃ t' ∈ ts, ∃ u, Applied os t' u ∧
        (path = linkPathOf t'.before.cb u ∧
            StrictlyInside windowsPath t'.before.cb.appMenuPath path ∨
          path = iconPathOf t'.before.cb u ∧
            StrictlyInside windowsPath t'.before.cb.iconPath path)
  | _ => True

/-- Every entry of the database was put there by one of the steps. -/
def EntriesOf (os : Os ω) (ts : List (Step ω)) (s : ClientState ω) : Prop :=
  ∀ db, s.cb.spFileDB = some db → ∀ (k : WStr) (e : FileEntry), db[k]? = some e →
    ∃ t ∈ ts, EntryOf os e t

theorem EntriesOf.of_noNewEntries {ts : List (Step ω)} {t : Step ω}
    (entries : EntriesOf os ts t.before)
    (noNew : NoNewEntries t.before.cb.spFileDB t.after.cb.spFileDB) :
    EntriesOf os (ts ++ [t]) t.after := by
  intro db' fileDB k e found
  obtain ⟨db, before, old⟩ := noNew db' fileDB
  obtain ⟨t', mem, entry⟩ := entries db before k e (old k e found)
  exact ⟨t', List.mem_append_left _ mem, entry⟩

/-- A step keeps the entries and adds the one of its update. -/
theorem entriesOf_step (ts : List (Step ω)) (t : Step ω) (taken : Runs.Taken (step os) t)
    (entries : EntriesOf os ts t.before) : EntriesOf os (ts ++ [t]) t.after := by
  cases did_of_taken taken with
  | rejected failed update did calls after =>
      refine entries.of_noNewEntries ?_
      rw [after]
      exact did.noNewEntries
  | closed input calls sync noNewEntries => exact entries.of_noNewEntries noNewEntries
  | spared input noUpdate did calls after =>
      refine entries.of_noNewEntries ?_
      rw [after]
      exact did.noNewEntries
  | published ok update did calls after =>
      intro db' fileDB k e found
      obtain ⟨db, hasIcon, files, w, before, -, rfl⟩ := did.left
      rw [after, Machine.state, spFileDB_settled] at fileDB
      cases fileDB
      rcases FileDB.entry_of_onFileAdded found with old | rfl
      · obtain ⟨t', mem, entry⟩ := entries db before k e old
        exact ⟨t', List.mem_append_left _ mem, entry⟩
      · have applied : Applied os t _ := ⟨ok, by rw [updateOf, update]; rfl⟩
        refine ⟨t, List.mem_append_right _ List.mem_cons_self, _, applied, rfl,
          strictlyInside_linkPathOf _ did.plain, rfl, ?_⟩
        exact iconPathOf_cases _ did.plain

/-- The calls of a step are confined when the entries it finds are. -/
theorem confined_step {ts : List (Step ω)} {t : Step ω} (taken : Runs.Taken (step os) t)
    (entries : EntriesOf os ts t.before) :
    ∀ call ∈ t.output.calls, Confined os ts t call.action := by
  intro call mem
  cases callOf_of_mem taken mem with
  | walk made =>
      rcases made with ⟨link, -, action⟩ | ⟨dir, action, -⟩
      · rw [action]
        trivial
      · rw [action]
        trivial
  | icon applied plain flagged action =>
      rw [action]
      exact ⟨_, applied, rfl, strictlyInside_iconPathOf _ plain flagged⟩
  | link applied plain action =>
      rw [action]
      exact ⟨_, applied, rfl, strictlyInside_linkPathOf _ plain⟩
  | entry ofEntry =>
      obtain ⟨db, fileDB, k, e, found, path, isFile, any, action⟩ := ofEntry
      obtain ⟨t', earlier, u, applied, link, inMenu, icon, inIcon⟩ := entries db fileDB k e found
      rw [action]
      refine ⟨t', earlier, u, applied, ?_⟩
      rcases List.mem_cons.mp isFile with rfl | isIcon
      · exact Or.inl ⟨link, inMenu⟩
      · rw [List.mem_singleton.mp isIcon] at any ⊢
        exact Or.inr ⟨icon, inIcon.resolve_left any⟩
  | sweep made whole =>
      obtain ⟨fileId, -, action | ⟨dir, -, action, -⟩⟩ := mem_sweep made
      · rw [action]
        trivial
      · rw [action]
        trivial

/-- In every run, the links and icons an update writes are strictly inside the menu and
icon folders of that moment, a delete request deletes only files an earlier update of
the run was accepted with, and every entry of the database names such files. -/
theorem paths_confined (os : Os ω) (w : ω) (es : List (Event ω)) :
    (∀ ts t ts', Runs.transitions (step os) (.fresh w) es = ts ++ t :: ts' →
      ∀ call ∈ t.output.calls, Confined os ts t call.action) ∧
    EntriesOf os (Runs.transitions (step os) (.fresh w) es)
      (Runs.finish (step os) (.fresh w) es) := by
  have entries : ∀ es, EntriesOf os (Runs.transitions (step os) (.fresh w) es)
      (Runs.finish (step os) (.fresh w) es) := by
    refine Runs.invariant_history entriesOf_step ?_
    rintro db ⟨⟩ k e found
    rw [Std.TreeMap.getElem?_emptyc] at found
    cases found
  refine ⟨fun ts t ts' split => ?_, entries es⟩
  obtain ⟨es₁, es₂, rfl, rfl, last⟩ := Runs.split_transitions split
  rw [last]
  exact confined_step rfl (entries es₁)

end Wslg.Client
