import Aimx.Daemon.Rollback

/-!
# What a failing deletion leaves behind

A deletion with `force` removes the messages first, one after the other, and does not take that back.

* `Skipped`, `Removable`, `Stuck` — what the wipe does with an entry;
* `wipeEntries_ok_iff`, `wipeEntries_same_iff` — when a wipe goes through, and when it changes nothing;
* `WipesClean`, `WipesNothing`, `CountsZero` — the same for a folder, and the count behind it;
* `DeleteSucceeds`, `DeleteRestores` — the calls with which a deletion is carried out, and those behind which
  a refused one leaves folders and messages as they were;
* `handleDelete_outcome` — both are exact.
-/

namespace Aimx
namespace Daemon

open Text Protocol

/-! ## Entries -/

section Entries

variable {faults : Faults} {side : Side}

/-- The entry cannot be read by the wipe, which goes on to the next one. -/
def Skipped (faults : Faults) (side : Side) (e : Str × Item) : Prop :=
  faults (.readEntry side .wipe e.1) ≠ none

instance Skipped.decidable (faults : Faults) (side : Side) : DecidablePred (Skipped faults side) := fun e =>
  inferInstanceAs (Decidable (faults (.readEntry side .wipe e.1) ≠ none))

/-- No call of the entry's removal fails. -/
def Removable (faults : Faults) (side : Side) : Str × Item → Prop
  | (entry, .file _) => faults (.unlink side entry) = none
  | (entry, .bundle files) => faults (.statEntry side entry) = none ∧
      (∀ file ∈ files, faults (.unlinkInner side entry file.1) = none) ∧
      faults (.rmdirEntry side entry) = none

/-- The first call of the entry's removal that would change something fails. -/
def Stuck (faults : Faults) (side : Side) : Str × Item → Prop
  | (entry, .file _) => faults (.unlink side entry) ≠ none
  | (entry, .bundle []) => faults (.statEntry side entry) ≠ none ∨ faults (.rmdirEntry side entry) ≠ none
  | (entry, .bundle (file :: _)) =>
      faults (.statEntry side entry) ≠ none ∨ faults (.unlinkInner side entry file.1) ≠ none

/-- The files of a bundle are all removed, or a part of them is left. -/
theorem removeFiles_cases (faults : Faults) (side : Side) (entry : Str) (files : List (Str × Bytes)) :
    (removeFiles faults side entry files = ([], .ok ()) ∧
      ∀ file ∈ files, faults (.unlinkInner side entry file.1) = none) ∨
    ∃ left e, removeFiles faults side entry files = (left, .error e) ∧
      left ≠ [] ∧ left.length ≤ files.length ∧
      (∃ file ∈ files, faults (.unlinkInner side entry file.1) ≠ none) ∧
      (left = files ↔
        ∃ file rest, files = file :: rest ∧ faults (.unlinkInner side entry file.1) ≠ none) := by
  induction files with
  | nil => exact Or.inl ⟨rfl, by simp⟩
  | cons file files ih =>
      rw [removeFiles]
      cases hfault : faults (.unlinkInner side entry file.1) with
      | some e =>
          have hne : faults (.unlinkInner side entry file.1) ≠ none := by simp [hfault]
          exact Or.inr ⟨_, e, rfl, by simp, le_refl _, ⟨file, by simp, hne⟩,
            iff_of_true rfl ⟨file, files, rfl, hne⟩⟩
      | none =>
          dsimp only
          rcases ih with ⟨heq, hall⟩ | ⟨left, e, heq, hleft, hlength, ⟨bad, hbad, hfail⟩, -⟩
          · exact Or.inl ⟨heq, by simpa [hfault] using hall⟩
          · refine Or.inr ⟨left, e, heq, hleft, by simp; omega, ⟨bad, by simp [hbad], hfail⟩, ?_⟩
            refine iff_of_false (fun h => ?_) ?_
            · rw [h, List.length_cons] at hlength
              omega
            · rintro ⟨file', rest, hcons, hne⟩
              cases hcons
              exact hne hfault

/-- An entry is removed, or something of it is left. -/
theorem removeEntry_cases (faults : Faults) (side : Side) (e : Str × Item) :
    (removeEntry faults side e.1 e.2 = (none, .ok ()) ∧ Removable faults side e ∧ ¬ Stuck faults side e) ∨
    ∃ item reason, removeEntry faults side e.1 e.2 = (some item, .error reason) ∧ ¬ Removable faults side e ∧
      (item = e.2 ↔ Stuck faults side e) := by
  obtain ⟨entry, item⟩ := e
  cases item with
  | file content =>
      unfold removeEntry Removable Stuck
      cases hunlink : faults (.unlink side entry) with
      | some reason => exact Or.inr ⟨_, _, rfl, by simp [hunlink], iff_of_true rfl (by simp [hunlink])⟩
      | none => exact Or.inl ⟨rfl, hunlink, by simp [hunlink]⟩
  | bundle files =>
      unfold removeEntry
      cases hstat : faults (.statEntry side entry) with
      | some reason =>
          refine Or.inr ⟨_, _, rfl, fun h => (by simp [Removable, hstat] at h), iff_of_true rfl ?_⟩
          cases files <;> exact Or.inl (by simp [hstat])
      | none =>
          dsimp only
          rcases removeFiles_cases faults side entry files with
            ⟨heq, hall⟩ | ⟨left, e, heq, hleft, hlength, ⟨bad, hbad, hfail⟩, hsame⟩
          · rw [heq]
            dsimp only
            cases hrmdir : faults (.rmdirEntry side entry) with
            | none =>
                refine Or.inl ⟨rfl, ⟨hstat, hall, hrmdir⟩, ?_⟩
                cases files with
                | nil => simp [Stuck, hstat, hrmdir]
                | cons file files => simp [Stuck, hstat, hall file (by simp)]
            | some reason =>
                refine Or.inr ⟨_, _, rfl, fun h => (by simp [Removable, hrmdir] at h), ?_⟩
                cases files with
                | nil => simp [Stuck, hrmdir]
                | cons file files => simp [Stuck, hstat, hall file (by simp)]
          · rw [heq]
            refine Or.inr ⟨_, _, rfl, fun h => hfail (h.2.1 bad hbad), ?_⟩
            rw [Item.bundle.injEq, hsame]
            cases files with
            | nil => exact absurd hbad (by simp)
            | cons file files => simp [Stuck, hstat]

/-- A wipe goes through exactly if every entry is skipped or removed, and leaves the skipped ones. -/
theorem wipeEntries_ok_iff (faults : Faults) (side : Side) (entries : List (Str × Item)) :
    ((wipeEntries faults side entries).2 = .ok () ↔
      ∀ e ∈ entries, Skipped faults side e ∨ Removable faults side e) ∧
    ((wipeEntries faults side entries).2 = .ok () →
      (wipeEntries faults side entries).1 = entries.filter (Skipped faults side ·)) := by
  induction entries with
  | nil => exact ⟨iff_of_true rfl (by simp), fun _ => rfl⟩
  | cons e rest ih =>
      obtain ⟨entry, item⟩ := e
      rw [wipeEntries, List.forall_mem_cons]
      by_cases hskip : Skipped faults side (entry, item)
      · rw [if_pos (Option.isSome_iff_ne_none.mpr hskip)]
        dsimp only
        rw [ih.1, List.filter_cons_of_pos (by simpa using hskip)]
        refine ⟨⟨fun h => ⟨Or.inl hskip, h⟩, fun h => h.2⟩, fun h => ?_⟩
        rw [ih.2 (ih.1.mpr h)]
      · rw [if_neg (fun h => hskip (Option.isSome_iff_ne_none.mp h)),
          List.filter_cons_of_neg (by simpa using hskip)]
        rcases removeEntry_cases faults side (entry, item) with
          ⟨heq, hremovable, -⟩ | ⟨left, reason, heq, hnot, -⟩
        · rw [heq]
          dsimp only
          exact ⟨ih.1.trans ⟨fun h => ⟨Or.inr hremovable, h⟩, fun h => h.2⟩, ih.2⟩
        · rw [heq]
          refine ⟨iff_of_false (fun h => by cases h) (fun h => ?_), fun h => by cases h⟩
          rcases h.1 with h | h
          · exact hskip h
          · exact hnot h

theorem wipeEntries_length (faults : Faults) (side : Side) (entries : List (Str × Item)) :
    (wipeEntries faults side entries).1.length ≤ entries.length := by
  induction entries with
  | nil => exact le_refl _
  | cons e rest ih =>
      obtain ⟨entry, item⟩ := e
      rw [wipeEntries]
      split
      · exact Nat.succ_le_succ ih
      · rcases removeEntry_cases faults side (entry, item) with ⟨heq, -, -⟩ | ⟨left, reason, heq, -, -⟩
        · rw [heq]
          exact Nat.le_succ_of_le ih
        · rw [heq]
          simp

/-- A wipe changes nothing exactly if it gets stuck on the first entry that it does not skip. -/
theorem wipeEntries_same_iff (faults : Faults) (side : Side) (entries : List (Str × Item)) :
    (wipeEntries faults side entries).1 = entries ↔
      ∀ e, entries.find? (fun e => ¬ Skipped faults side e) = some e → Stuck faults side e := by
  induction entries with
  | nil => exact iff_of_true rfl (by simp)
  | cons e rest ih =>
      obtain ⟨entry, item⟩ := e
      rw [wipeEntries]
      by_cases hskip : Skipped faults side (entry, item)
      · rw [if_pos (Option.isSome_iff_ne_none.mpr hskip), List.find?_cons_of_neg (by simpa using hskip), ← ih]
        dsimp only
        rw [List.cons_inj_right]
      · rw [if_neg (fun h => hskip (Option.isSome_iff_ne_none.mp h)),
          List.find?_cons_of_pos (by simpa using hskip)]
        simp only [Option.some.injEq, forall_eq']
        rcases removeEntry_cases faults side (entry, item) with
          ⟨heq, -, hnot⟩ | ⟨left, reason, heq, -, hsame⟩
        · rw [heq]
          dsimp only
          refine iff_of_false (fun h => ?_) hnot
          have hlength := wipeEntries_length faults side rest
          rw [h, List.length_cons] at hlength
          omega
        · rw [heq, ← hsame]
          simp

end Entries

/-! ## Folders and requests -/

section Deletion

variable {env : HandlerEnv} {faults : Faults} {side : Side} {name : Str} {config : Config} {disk : Disk}

/-- The wipe of a folder goes through: it can be listed, and every entry is skipped or removed. -/
def WipesClean (faults : Faults) (name : Str) (disk : Disk) (side : Side) : Prop :=
  faults (.readDir side .wipe) = none ∧ disk.nodes side name ≠ some .other ∧
    ∀ entries, disk.messages side name = some entries →
      ∀ e ∈ entries, Skipped faults side e ∨ Removable faults side e

/-- The wipe of a folder changes nothing: it is not listed, or gets stuck on the first entry. -/
def WipesNothing (faults : Faults) (name : Str) (disk : Disk) (side : Side) : Prop :=
  faults (.readDir side .wipe) = none → ∀ entries, disk.messages side name = some entries →
    ∀ e, entries.find? (fun e => ¬ Skipped faults side e) = some e → Stuck faults side e

/-- No entry that the wipe leaves is counted. -/
def CountsZero (faults : Faults) (name : Str) (force : Bool) (disk : Disk) (side : Side) : Prop :=
  faults (.readDir side .count) = none → ∀ entries, disk.messages side name = some entries →
    ∀ e ∈ entries, (force = true → Skipped faults side e) → faults (.readEntry side .count e.1) ≠ none

theorem wipeMailboxContents_ok_iff :
    (wipeMailboxContents faults side name disk).2 = .ok () ↔ WipesClean faults name disk side := by
  unfold wipeMailboxContents WipesClean
  rw [Disk.messages_eq]
  cases faults (.readDir side .wipe) with
  | some e => exact iff_of_false (fun h => by cases h) (fun h => by cases h.1)
  | none =>
      cases disk.nodes side name with
      | none => exact iff_of_true rfl ⟨rfl, by simp, fun entries h => by cases h⟩
      | some node =>
          cases node with
          | other => exact iff_of_false (fun h => by cases h) (fun h => h.2.1 rfl)
          | folder f =>
              refine (wipeEntries_ok_iff faults side f.entries).1.trans
                ⟨fun h => ⟨rfl, by simp, ?_⟩, fun h => ?_⟩
              · intro entries hentries
                cases hentries
                exact h
              · exact h.2.2 f.entries rfl

theorem wipeMailboxContents_messages_other {s : Side} {n : Str} (hother : ¬ (s = side ∧ n = name)) :
    (wipeMailboxContents faults side name disk).1.messages s n = disk.messages s n := by
  unfold wipeMailboxContents
  split
  · rfl
  · split
    · rfl
    · rfl
    · exact (Disk.messages_set _ s n).trans (if_neg hother)

/-- What a wipe that goes through leaves. -/
theorem WipesClean.messages (h : WipesClean faults name disk side) :
    (wipeMailboxContents faults side name disk).1.messages side name =
      (disk.messages side name).map fun entries => entries.filter (Skipped faults side ·) := by
  have hok := wipeMailboxContents_ok_iff.mpr h
  unfold wipeMailboxContents at hok ⊢
  rw [h.1] at hok ⊢
  cases hnode : disk.nodes side name with
  | none =>
      dsimp only
      rw [Disk.messages_eq, hnode]
      rfl
  | some node =>
      cases node with
      | other => exact absurd hnode h.2.1
      | folder f =>
          rw [hnode] at hok
          dsimp only at hok ⊢
          rw [Disk.messages_set, if_pos ⟨rfl, rfl⟩, Disk.messages_eq, hnode]
          exact congrArg some ((wipeEntries_ok_iff faults side f.entries).2 hok)

theorem wipeMailboxContents_same_iff :
    (wipeMailboxContents faults side name disk).1.messages side name = disk.messages side name ↔
      WipesNothing faults name disk side := by
  unfold wipeMailboxContents WipesNothing
  cases faults (.readDir side .wipe) with
  | some e => exact iff_of_true rfl (fun h => by cases h)
  | none =>
      cases hnode : disk.nodes side name with
      | none =>
          refine iff_of_true rfl fun _ entries h => ?_
          rw [Disk.messages_eq, hnode] at h
          cases h
      | some node =>
          cases node with
          | other =>
              refine iff_of_true rfl fun _ entries h => ?_
              rw [Disk.messages_eq, hnode] at h
              cases h
          | folder f =>
              have hbefore : disk.messages side name = some f.entries := by
                rw [Disk.messages_eq, hnode]
                rfl
              dsimp only
              rw [Disk.messages_set, if_pos ⟨rfl, rfl⟩, hbefore]
              show some (wipeEntries faults side f.entries).1 = _ ↔ _
              rw [Option.some_inj, wipeEntries_same_iff]
              simp

theorem wipeMailboxDirs_ok_iff :
    (wipeMailboxDirs faults name disk).2 = .ok () ↔ ∀ side, WipesClean faults name disk side := by
  have hinbox := @wipeMailboxContents_ok_iff faults .inbox name disk
  have hsent : ∀ disk', (wipeMailboxContents faults .inbox name disk).1 = disk' →
      (WipesClean faults name disk' .sent ↔ WipesClean faults name disk .sent) := by
    rintro disk' rfl
    have hnodes : (wipeMailboxContents faults .inbox name disk).1.nodes .sent name =
        disk.nodes .sent name := by
      unfold wipeMailboxContents
      split
      · rfl
      · split <;> rfl
    unfold WipesClean
    rw [hnodes, wipeMailboxContents_messages_other (by simp)]
  unfold wipeMailboxDirs
  split
  next disk' e h =>
      rw [h] at hinbox
      refine iff_of_false (fun hok => by cases hok) (fun hall => ?_)
      cases hinbox.mpr (hall .inbox)
  next disk' h =>
      rw [h] at hinbox hsent
      rw [wipeMailboxContents_ok_iff, hsent disk' rfl]
      constructor
      · intro h side
        cases side with
        | inbox => exact hinbox.mp rfl
        | sent => exact h
      · exact fun h => h .sent

/-- What a wipe of both folders that goes through leaves. -/
theorem wipeMailboxDirs_messages (h : ∀ side, WipesClean faults name disk side) :
    (wipeMailboxDirs faults name disk).1.messages side name =
      (disk.messages side name).map fun entries => entries.filter (Skipped faults side ·) := by
  have hok := wipeMailboxDirs_ok_iff.mpr h
  have hinbox := (h .inbox).messages
  have hother := @wipeMailboxContents_messages_other faults .inbox name disk .sent name (by simp)
  unfold wipeMailboxDirs at hok ⊢
  split at hok
  next => cases hok
  next disk' heq =>
      rw [heq] at hinbox hother
      have hclean := wipeMailboxContents_ok_iff.mp hok
      cases side with
      | inbox => rw [wipeMailboxContents_messages_other (by simp), hinbox]
      | sent => rw [hclean.messages, hother]

/-- A wipe of both folders changes nothing exactly if neither of the two that are made does. -/
theorem wipeMailboxDirs_sameFolders_iff :
    disk.SameFolders (wipeMailboxDirs faults name disk).1 ↔
      WipesNothing faults name disk .inbox ∧
        (WipesClean faults name disk .inbox → WipesNothing faults name disk .sent) := by
  have hok := @wipeMailboxContents_ok_iff faults .inbox name disk
  have hinbox := @wipeMailboxContents_same_iff faults .inbox name disk
  have hother := fun s n => @wipeMailboxContents_messages_other faults .inbox name disk s n
  unfold wipeMailboxDirs
  split
  next disk' e h =>
      rw [h] at hok hinbox hother
      have hnot : ¬ WipesClean faults name disk .inbox := fun hclean => by cases hok.mpr hclean
      rw [← hinbox]
      constructor
      · exact fun hsame => ⟨hsame .inbox name, fun hclean => absurd hclean hnot⟩
      · rintro ⟨hsame, -⟩ s n
        by_cases hplace : s = .inbox ∧ n = name
        · obtain ⟨rfl, rfl⟩ := hplace
          exact hsame
        · exact hother s n hplace
  next disk' h =>
      rw [h] at hok hinbox hother
      have hclean : WipesClean faults name disk .inbox := hok.mp rfl
      have hsent := @wipeMailboxContents_same_iff faults .sent name disk'
      have hsent' : WipesNothing faults name disk' .sent ↔ WipesNothing faults name disk .sent := by
        unfold WipesNothing
        rw [hother .sent name (by simp)]
      rw [hother .sent name (by simp), hsent'] at hsent
      rw [← hinbox, ← hsent]
      constructor
      · intro hsame
        refine ⟨?_, fun _ => hsame .sent name⟩
        rw [← hsame .inbox name, wipeMailboxContents_messages_other (by simp)]
      · rintro ⟨hsame, hsame'⟩ s n
        by_cases hn : n = name
        · subst hn
          cases s with
          | inbox => rw [wipeMailboxContents_messages_other (by simp), hsame]
          | sent => exact hsame' hclean
        · rw [wipeMailboxContents_messages_other fun h => hn h.2, hother s n fun h => hn h.2]

theorem countFilesIfExists_eq_zero_iff :
    countFilesIfExists faults side name disk = 0 ↔
      (faults (.readDir side .count) = none → ∀ entries, disk.messages side name = some entries →
        ∀ e ∈ entries, faults (.readEntry side .count e.1) ≠ none) := by
  rw [Disk.messages_eq]
  unfold countFilesIfExists
  cases faults (.readDir side .count) with
  | some e => exact iff_of_true rfl (fun h => by cases h)
  | none =>
      cases disk.nodes side name with
      | none => exact iff_of_true rfl (fun _ entries h => by cases h)
      | some node =>
          cases node with
          | other => exact iff_of_true rfl (fun _ entries h => by cases h)
          | folder f =>
              show (f.entries.filter _).length = 0 ↔ (_ → ∀ entries, some f.entries = some entries → _)
              simp [Option.isNone_iff_eq_none]

/-- The count of a deletion with `force` comes after the wipe. -/
theorem countsZero_iff {force : Bool} (h : force = true → ∀ side, WipesClean faults name disk side) :
    countFilesIfExists faults side name
        (if force then wipeMailboxDirs faults name disk else (disk, .ok ())).1 = 0 ↔
      CountsZero faults name force disk side := by
  rw [countFilesIfExists_eq_zero_iff]
  unfold CountsZero
  cases force with
  | false => simp
  | true =>
      rw [if_pos rfl, wipeMailboxDirs_messages (h rfl)]
      refine imp_congr_right fun _ => ?_
      cases disk.messages side name with
      | none => simp
      | some entries =>
          simp only [Option.map_some, Option.some.injEq, forall_eq', List.mem_filter, decide_eq_true_eq,
            and_imp, forall_true_left]

/-- The calls with which a deletion is carried out. -/
def DeleteSucceeds (env : HandlerEnv) (faults : Faults) (name : Str) (force : Bool) (config : Config)
    (disk : Disk) : Prop :=
  name ≠ "catchall".toList ∧ name ∈ config.mailboxes ∧
    (force = true → ∀ side, WipesClean faults name disk side) ∧
    (∀ side, CountsZero faults name force disk side) ∧ Writes env faults (config.removeMailbox name)

/-- The calls behind which a refused deletion leaves folders and messages as they were. -/
def DeleteRestores (env : HandlerEnv) (faults : Faults) (name : Str) (force : Bool) (config : Config)
    (disk : Disk) : Prop :=
  force = true → name ≠ "catchall".toList → name ∈ config.mailboxes →
    DeleteSucceeds env faults name force config disk ∨
    WipesNothing faults name disk .inbox ∧
      (WipesClean faults name disk .inbox → WipesNothing faults name disk .sent)

theorem messages_deleteWrite (s : Side) (n : Str) {disk' : Disk} {result : Except Str Unit}
    (hwrite : writeAtomic env faults config disk = (disk', result)) :
    disk'.messages s n = disk.messages s n := by
  have hmessages := @messages_writeAtomic env faults disk config s n
  rw [hwrite] at hmessages
  exact hmessages

/-- A deletion is carried out, or refused; and refused, it leaves the folders as they were exactly if the wipe
removed nothing. -/
theorem handleDelete_outcome (env : HandlerEnv) (faults : Faults) (name : Str) (force : Bool)
    (config : Config) (disk : Disk) :
    (DeleteSucceeds env faults name force config disk ∧
      DeleteRestores env faults name force config disk ∧
      (handleDelete env faults name force config disk).2 = .ok (config.removeMailbox name)) ∨
    (¬ DeleteSucceeds env faults name force config disk ∧
      (∃ reject, (handleDelete env faults name force config disk).2 = .error reject) ∧
      (disk.SameFolders (handleDelete env faults name force config disk).1 ↔
        DeleteRestores env faults name force config disk)) := by
  unfold handleDelete
  by_cases hname : name = "catchall".toList
  · rw [if_pos hname]
    exact Or.inr ⟨fun h => h.1 hname, ⟨_, rfl⟩, iff_of_true (fun s n => rfl) fun _ h => absurd hname h⟩
  rw [if_neg hname]
  by_cases hmem : name ∈ config.mailboxes
  swap
  · rw [if_pos hmem]
    exact Or.inr ⟨fun h => hmem h.2.1, ⟨_, rfl⟩, iff_of_true (fun s n => rfl) fun _ _ h => absurd h hmem⟩
  rw [if_neg (not_not_intro hmem)]
  -- What the wipe has done when the deletion is refused behind it.
  have hrefused : ¬ DeleteSucceeds env faults name force config disk →
      (disk.SameFolders (if force then wipeMailboxDirs faults name disk else (disk, .ok ())).1 ↔
        DeleteRestores env faults name force config disk) := by
    intro hfails
    cases force with
    | false => exact iff_of_true (fun s n => rfl) fun h => by cases h
    | true =>
        rw [if_pos rfl, wipeMailboxDirs_sameFolders_iff]
        exact ⟨fun h _ _ _ => Or.inr h, fun h => (h rfl hname hmem).resolve_left hfails⟩
  have hwipes : (if force then wipeMailboxDirs faults name disk else (disk, .ok ())).2 = .ok () ↔
      (force = true → ∀ side, WipesClean faults name disk side) := by
    cases force with
    | false => exact iff_of_true rfl fun h => by cases h
    | true => rw [if_pos rfl, wipeMailboxDirs_ok_iff]; simp
  have hcounts := fun side => @countsZero_iff faults side name disk force
  generalize (if force then wipeMailboxDirs faults name disk else (disk, .ok ())) = wiped at *
  obtain ⟨disk', result⟩ := wiped
  cases result with
  | error e =>
      have hfails : ¬ DeleteSucceeds env faults name force config disk := fun h => by
        cases hwipes.mpr h.2.2.1
      exact Or.inr ⟨hfails, ⟨_, rfl⟩, hrefused hfails⟩
  | ok u =>
      have hclean := hwipes.mp rfl
      dsimp only at hcounts hrefused ⊢
      by_cases hfiles : countFilesIfExists faults .inbox name disk' +
          countFilesIfExists faults .sent name disk' > 0
      · rw [if_pos hfiles]
        have hfails : ¬ DeleteSucceeds env faults name force config disk := by
          intro h
          have hinbox := (hcounts .inbox hclean).mpr (h.2.2.2.1 .inbox)
          have hsent := (hcounts .sent hclean).mpr (h.2.2.2.1 .sent)
          omega
        exact Or.inr ⟨hfails, ⟨_, rfl⟩, hrefused hfails⟩
      · rw [if_neg hfiles]
        have hzero : ∀ side, CountsZero faults name force disk side := by
          intro side
          rw [← hcounts side hclean]
          cases side <;> omega
        have hwrites := @writeAtomic_ok_iff env faults disk' (config.removeMailbox name)
        split
        next disk'' e hwrite =>
            rw [hwrite] at hwrites
            have hfails : ¬ DeleteSucceeds env faults name force config disk := fun h => by
              cases hwrites.mpr h.2.2.2.2
            refine Or.inr ⟨hfails, ⟨_, rfl⟩, ?_⟩
            rw [← hrefused hfails]
            exact forall₂_congr fun s n => by rw [messages_deleteWrite s n hwrite]
        next disk'' hwrite =>
            rw [hwrite] at hwrites
            have hall : DeleteSucceeds env faults name force config disk :=
              ⟨hname, hmem, hclean, hzero, hwrites.mp rfl⟩
            exact Or.inl ⟨hall, fun _ _ _ => Or.inl hall, rfl⟩

end Deletion

end Daemon
end Aimx
