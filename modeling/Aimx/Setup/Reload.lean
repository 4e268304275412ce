import Aimx.Setup.Steps

/-!
# A configuration that is kept

What a setup makes of a configuration, and when that is loaded again.

* `Preserves`, `preserves_settled` — everything that was configured is still there;
* `CatchallFits`, `accepted_settled_iff` — the changes of domain that the loader accepts;
* `Loads`, `loads_printed_iff` — what a load reads from a text;
* `Reloadable`, `loads_iff` — when what a run has written can be loaded.
-/

namespace Aimx
namespace Setup

open Text

/-! ## The configuration afterwards -/

section Config

variable {sha256 : Bytes → Bytes} {domain : Str} {old : Config}

/-- The mailboxes of one configuration are in another one, with all their settings, and with their addresses
up to the domain; and the trust settings are the same. -/
structure Preserves (old new : Config) : Prop where
  trust : new.trust = old.trust
  trustedSenders : new.trustedSenders = old.trustedSenders
  mailboxes : ∀ name mb, old.mailboxes.lookup name = some mb →
    ∃ address, new.mailboxes.lookup name = some { mb with address := address } ∧
      (address = mb.address ∨
        ∃ localPart, mb.address = localPart ++ '@' :: old.domain ∧ address = localPart ++ '@' :: new.domain)

/-- The address of a mailbox under another domain. -/
theorem exists_readdress (oldDomain domain : Str) (mb : MailboxConfig) :
    ∃ address, readdress oldDomain domain mb = { mb with address := address } ∧
      (address = mb.address ∨
        ∃ localPart, mb.address = localPart ++ '@' :: oldDomain ∧ address = localPart ++ '@' :: domain) := by
  unfold readdress
  cases hstrip : stripSuffix ('@' :: oldDomain) mb.address with
  | none => exact ⟨mb.address, rfl, .inl rfl⟩
  | some localPart =>
      refine ⟨_, rfl, .inr ⟨localPart, ?_, rfl⟩⟩
      exact (stripSuffix_eq_some_iff.mp hstrip)

/-- A configuration that is kept keeps all that is in it. -/
theorem preserves_settled : Preserves old (settled domain old) := by
  have hmoved : Preserves old (moved domain old) := by
    unfold moved
    split
    next => exact ⟨rfl, rfl, fun name mb hmb => ⟨mb.address, hmb, .inl rfl⟩⟩
    next =>
        refine ⟨rfl, rfl, fun name mb hmb => ?_⟩
        obtain ⟨address, hreaddress, hcase⟩ := exists_readdress old.domain domain mb
        refine ⟨address, ?_, hcase⟩
        show (Table.mapValues _ _).lookup name = _
        rw [Table.lookup_mapValues, hmb, Option.map_some, hreaddress]
  unfold settled
  split
  next => exact hmoved
  next hmem =>
      refine ⟨hmoved.trust, hmoved.trustedSenders, fun name mb hmb => ?_⟩
      obtain ⟨address, hlookup, hcase⟩ := hmoved.mailboxes name mb hmb
      refine ⟨address, ?_, hcase⟩
      have hne : name ≠ "catchall".toList := by
        rintro rfl
        exact hmem (AList.lookup_isSome.mp (by rw [hlookup]; rfl))
      exact (AList.lookup_insert_ne hne).trans hlookup

/-- Under the new domain the catchall has no hooks, and what only a catchall may have belongs to one. -/
def CatchallFits (domain : Str) (old : Config) : Prop :=
  ∀ e ∈ (moved domain old).mailboxes.entries,
    (e.2.isCatchall (moved domain old) = true → e.2.hooks = []) ∧
      (e.2.owner = reservedRunAsRoot ∨ e.2.allowRootCatchall = true →
        e.2.isCatchall (moved domain old) = true)

/-- The entries of the moved configuration are those of the old one, with other addresses. -/
theorem exists_of_mem_moved {e : Sigma fun _ : Str => MailboxConfig}
    (he : e ∈ (moved domain old).mailboxes.entries) :
    ∃ e' ∈ old.mailboxes.entries, ∃ address, e.1 = e'.1 ∧ e.2 = { e'.2 with address := address } := by
  unfold moved at he
  split at he
  next => exact ⟨e, he, e.2.address, rfl, rfl⟩
  next =>
      obtain ⟨e', he', rfl⟩ := List.mem_map.mp he
      obtain ⟨address, hreaddress, -⟩ := exists_readdress old.domain domain e'.2
      exact ⟨e', he', address, rfl, hreaddress⟩

theorem allHooks_moved : (moved domain old).allHooks = old.allHooks := by
  unfold moved
  split
  next => rfl
  next =>
      show (List.map _ old.mailboxes.entries).flatMap _ = old.mailboxes.entries.flatMap _
      rw [List.flatMap_map]
      refine List.flatMap_congr fun e he => ?_
      obtain ⟨address, hreaddress, -⟩ := exists_readdress old.domain domain e.2
      dsimp only
      rw [hreaddress]

theorem accepted_moved_iff (h : Accepted sha256 old) :
    Accepted sha256 (moved domain old) ↔ CatchallFits domain old := by
  have hsame : (moved domain old).trust = old.trust := by
    unfold moved
    split <;> rfl
  constructor
  · intro haccepted e he
    refine ⟨haccepted.catchallHooks e he, fun hroot => ?_⟩
    rcases hroot with hroot | hflag
    · exact ((haccepted.owners e he).root hroot).1
    · exact (haccepted.owners e he).flag hflag
  · intro hfits
    refine
      { trust := by rw [hsame]; exact h.trust
        mailboxTrust := fun e he => ?_
        catchallHooks := fun e he => (hfits e he).1
        owners := fun e he => ?_
        hooks := by rw [allHooks_moved]; exact h.hooks
        hookNames := by rw [allHooks_moved]; exact h.hookNames }
    · obtain ⟨e', he', address, -, heq⟩ := exists_of_mem_moved he
      rw [heq]
      exact h.mailboxTrust e' he'
    · obtain ⟨e', he', address, -, heq⟩ := exists_of_mem_moved he
      have hold := h.owners e' he'
      have howner : e.2.owner = e'.2.owner := by rw [heq]
      have hflag : e.2.allowRootCatchall = e'.2.allowRootCatchall := by rw [heq]
      exact
        { present := by rw [howner]; exact hold.present
          valid := by rw [howner]; exact hold.valid
          flag := fun hallow => (hfits e he).2 (.inr hallow)
          root := fun hroot => ⟨(hfits e he).2 (.inl hroot), by
            rw [hflag]; exact (hold.root (howner ▸ hroot)).2⟩ }

theorem catchallMailbox_isCatchall {config : Config} (hdomain : config.domain = domain) :
    (catchallMailbox domain).isCatchall config = true := by
  rw [MailboxConfig.isCatchall, hdomain]
  exact eqIgnoreAsciiCase_self _

theorem catchallMailbox_ownerOk {config : Config} (hdomain : config.domain = domain) :
    (catchallMailbox domain).OwnerOk config where
  present := by
    show (trim reservedRunAsCatchall).isEmpty = false
    decide
  valid := .inr (.inl rfl)
  flag := fun _ => catchallMailbox_isCatchall hdomain
  root := fun hroot => absurd (show reservedRunAsCatchall = reservedRunAsRoot from hroot) (by decide)

/-- A catchall that is added is always accepted. -/
theorem accepted_insert_iff {config : Config} (hnew : "catchall".toList ∉ config.mailboxes)
    (hdomain : config.domain = domain) :
    Accepted sha256 (config.insertMailbox "catchall".toList (catchallMailbox domain)) ↔
      Accepted sha256 config := by
  have hentries : (config.insertMailbox "catchall".toList (catchallMailbox domain)).mailboxes.entries =
      ⟨"catchall".toList, catchallMailbox domain⟩ :: config.mailboxes.entries :=
    AList.entries_insert_of_notMem hnew
  have hhooks := @Config.allHooks_insertMailbox config "catchall".toList (catchallMailbox domain) hnew rfl
  constructor
  · intro h
    exact
      { trust := h.trust
        mailboxTrust := fun e he => h.mailboxTrust e (by rw [hentries]; exact List.mem_cons_of_mem _ he)
        catchallHooks := fun e he => h.catchallHooks e (by rw [hentries]; exact List.mem_cons_of_mem _ he)
        owners := fun e he => by
          have hok := h.owners e (by rw [hentries]; exact List.mem_cons_of_mem _ he)
          exact ⟨hok.present, hok.valid, hok.flag, hok.root⟩
        hooks := by rw [← hhooks]; exact h.hooks
        hookNames := by rw [← hhooks]; exact h.hookNames }
  · intro h
    refine
      { trust := h.trust
        mailboxTrust := ?_
        catchallHooks := ?_
        owners := ?_
        hooks := by rw [hhooks]; exact h.hooks
        hookNames := by rw [hhooks]; exact h.hookNames }
    · rw [hentries, List.forall_mem_cons]
      exact ⟨fun t ht => (by cases ht), h.mailboxTrust⟩
    · rw [hentries, List.forall_mem_cons]
      exact ⟨fun _ => rfl, h.catchallHooks⟩
    · rw [hentries, List.forall_mem_cons]
      have hok : ∀ e ∈ config.mailboxes.entries, MailboxConfig.OwnerOk e.2
          (config.insertMailbox "catchall".toList (catchallMailbox domain)) := fun e he =>
        ⟨(h.owners e he).present, (h.owners e he).valid, (h.owners e he).flag, (h.owners e he).root⟩
      exact ⟨catchallMailbox_ownerOk hdomain, hok⟩

/-- **The configuration that is made of an accepted one is accepted exactly if the catchall fits.** -/
theorem accepted_settled_iff (h : Accepted sha256 old) :
    Accepted sha256 (settled domain old) ↔ CatchallFits domain old := by
  rw [← accepted_moved_iff h]
  unfold settled
  split
  next => exact Iff.rfl
  next hmem => exact accepted_insert_iff hmem moved_domain

/-- The configuration of a fresh installation is accepted. -/
theorem accepted_fresh {dataDir selector trust : Str} {senders : List Str}
    (htrust : trust ∈ validTrustValues) :
    Accepted sha256 (freshConfig dataDir domain selector trust senders) := by
  have hentries : (freshConfig dataDir domain selector trust senders).mailboxes.entries =
      [⟨"catchall".toList, catchallMailbox domain⟩] := rfl
  have hhooks : (freshConfig dataDir domain selector trust senders).allHooks = [] := rfl
  refine
    { trust := htrust
      mailboxTrust := ?_
      catchallHooks := ?_
      owners := ?_
      hooks := by rw [hhooks]; simp
      hookNames := by rw [hhooks]; exact List.nodup_nil }
  · rw [hentries, List.forall_mem_singleton]
    exact fun t ht => (by cases ht)
  · rw [hentries, List.forall_mem_singleton]
    exact fun _ => rfl
  · rw [hentries, List.forall_mem_singleton]
    exact catchallMailbox_ownerOk rfl

/-- The policy of a run that finds no configuration is one of the two. -/
theorem chosenTrust_valid {env : SetupEnv} {answers : Answers} {lines senders : List Str} {trust : Str}
    (h : chosenTrust env answers lines = .ok (trust, senders)) : trust ∈ validTrustValues := by
  unfold chosenTrust at h
  split at h
  next =>
      cases h
      decide
  next =>
      rcases promptTrustedSenders_policy h with rfl | rfl
      · decide
      · decide

end Config

/-! ## Loading it again -/

section Load

variable {env : SetupEnv} {args : SetupArgs} {answers : Answers} {host host' : SetupHost}
  {config old : Config} {text : Str}

/-- A load of the text gives the configuration. -/
def Loads (env : SetupEnv) (host : SetupHost) (text : Str) (config : Config) : Prop :=
  ∃ warnings, Aimx.load (env.load host) text = .ok (config, warnings)

/-- The users only matter for the warnings of a load. -/
theorem Loads.congr (h : Loads env host text config) : Loads env host' text config := by
  obtain ⟨warnings, hload⟩ := h
  unfold Aimx.load at hload
  cases hlegacy : rejectLegacySchema text with
  | error e => simp [hlegacy, bind, Except.bind] at hload
  | ok u =>
  cases hparse : (env.load host).parseToml text with
  | error e => simp [hlegacy, hparse, bind, Except.bind] at hload
  | ok value =>
  cases hstdin : rejectRemovedStdinField (env.load host).sha256 value with
  | error e => simp [hlegacy, hparse, hstdin, bind, Except.bind] at hload
  | ok u' =>
  cases hvalue : (env.load host).deserialize value with
  | error e => simp [hlegacy, hparse, hstdin, hvalue, bind, Except.bind] at hload
  | ok c =>
  cases hvalid : validateConfig (env.load host) c with
  | error e => simp [hlegacy, hparse, hstdin, hvalue, hvalid, bind, Except.bind] at hload
  | ok w =>
      simp only [hlegacy, hparse, hstdin, hvalue, hvalid, bind, Except.bind, pure, Except.pure,
        Except.ok.injEq, Prod.mk.injEq] at hload
      obtain ⟨rfl, -⟩ := hload
      have haccepted := validateConfig_isOk_iff.mp ⟨w, hvalid⟩
      obtain ⟨w', hvalid'⟩ := (@validateConfig_isOk_iff (env.load host') c).mpr haccepted
      have hparse' : (env.load host').parseToml text = .ok value := hparse
      have hstdin' : rejectRemovedStdinField (env.load host').sha256 value = .ok u' := hstdin
      have hvalue' : (env.load host').deserialize value = .ok c := hvalue
      refine ⟨w', ?_⟩
      simp only [Aimx.load, hlegacy, hparse', hstdin', hvalue', hvalid', bind, Except.bind, pure, Except.pure]

theorem Loads.unique (h : Loads env host text config) (h' : Loads env host' text old) : config = old := by
  obtain ⟨warnings, hload⟩ := h
  obtain ⟨warnings', hload'⟩ := @Loads.congr env host' host old text h'
  cases hload.symm.trans hload'
  rfl

/-- A printed configuration is loaded exactly if the scan for keys of older versions lets it pass and it is
acceptable. -/
theorem loads_printed_iff (hfails : NothingFails env) (hprint : env.print config = .ok text) :
    Loads env host text config ↔ rejectLegacySchema text = .ok () ∧ Accepted env.sha256 config :=
  (@load_printed (env.load host) _ _ _ rfl (hfails.readsBack config text hprint)).2

/-- What a run writes can be loaded again: a configuration that is changed fits the new domain, and its text
has no line that looks like one of an older version. -/
def Reloadable (env : SetupEnv) (host : SetupHost) (config : Config) (text : Str) : Prop :=
  (∀ oldText old, host.config = some oldText → Loads env host oldText old →
    config = old ∨ CatchallFits config.domain old) ∧
  (host.config ≠ some text → rejectLegacySchema text = .ok ())

theorem loads_iff (hfails : NothingFails env) (haims : Aims env args answers host config text) :
    Loads env host text config ↔ Reloadable env host config text := by
  unfold Reloadable
  cases haims with
  | @fresh domain trust _ lines senders hconfig hdomain htrust hprint =>
      rw [loads_printed_iff hfails hprint, hconfig]
      have haccepted : Accepted env.sha256 (freshConfig args.root domain "aimx".toList trust senders) :=
        accepted_fresh (chosenTrust_valid htrust)
      exact ⟨fun h => ⟨fun _ _ hold => (by cases hold), fun _ => h.1⟩,
        fun h => ⟨h.2 (fun hnone => by cases hnone), haccepted⟩⟩
  | @kept domain oldText _ lines old warnings hconfig hload hdomain htext =>
      have hold : Loads env host oldText old := ⟨warnings, hload⟩
      have haccepted : Accepted env.sha256 old := (load_eq_ok hload).2.1
      rcases htext with ⟨hsame, rfl⟩ | ⟨hother, hprint⟩
      · rw [hsame, hconfig]
        refine iff_of_true hold ⟨fun oldText' old' htext' hold' => ?_, fun hne => absurd rfl hne⟩
        cases htext'
        exact .inl (hold.unique hold')
      · rw [loads_printed_iff hfails hprint, accepted_settled_iff haccepted, hconfig, settled_domain]
        constructor
        · rintro ⟨hlegacy, hfits⟩
          refine ⟨fun oldText' old' htext' hold' => ?_, fun _ => hlegacy⟩
          cases htext'
          cases hold.unique hold'
          exact .inr hfits
        · rintro ⟨hfits, hlegacy⟩
          have hfits' := (hfits oldText old rfl hold).resolve_left hother
          refine ⟨hlegacy fun heq => hother ?_, hfits'⟩
          -- The same text would be read back as both configurations.
          cases heq
          have hread := (@load_printed (env.load host) _ _ _ rfl (hfails.readsBack _ _ hprint)).1
          obtain ⟨hread', -, -⟩ := load_eq_ok hload
          exact Except.ok.inj (hread.symm.trans hread')

/-- What is read from the text is the configuration that the run aims at. -/
theorem aims_unique (hfails : NothingFails env) (haims : Aims env args answers host config text)
    (h : Loads env host' text old) : old = config := by
  have hprinted : env.print config = .ok text → old = config := by
    intro hprint
    obtain ⟨warnings, hload⟩ := h
    obtain ⟨hread, -, -⟩ := load_eq_ok hload
    have hread' := (@load_printed (env.load host') _ _ _ rfl (hfails.readsBack _ _ hprint)).1
    exact Except.ok.inj (hread.symm.trans hread')
  cases haims with
  | fresh hconfig hdomain htrust hprint => exact hprinted hprint
  | @kept domain oldText _ lines kept warnings hconfig hload hdomain htext =>
      rcases htext with ⟨hsame, rfl⟩ | ⟨hother, hprint⟩
      · rw [hsame]
        exact h.unique (⟨warnings, hload⟩ : Loads env host text kept)
      · exact hprinted hprint

end Load

end Setup
end Aimx
