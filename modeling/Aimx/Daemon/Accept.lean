import Aimx.Daemon.Commit

/-!
# What a load makes of the configurations that requests write

The handlers check some of the rules of `Config::load`, each at another time.  A plan that was checked
on one accepted configuration and commits on another leaves an accepted one, except that a new mailbox
may be given to root.

* `Fits`, `Checked.fits`, `Fits.result` — what a checked plan promises about the catchall, and that other
  plans do not take it back;
* `Plan.SparesRoot`, `accepted_result_iff` — exactly the plans that keep the configuration acceptable.
-/

namespace Aimx
namespace Daemon

open Text Protocol

/-- A valid mailbox name is not the key of the catchall, and has no wildcard in it. -/
theorem validateMailboxName_eq_ok {name : Str} (h : validateMailboxName name = .ok ()) :
    name ≠ "catchall".toList ∧ ∀ c ∈ name, isMailboxNameChar c = true := by
  unfold validateMailboxName at h
  repeat' split at h
  all_goals try cases h
  next hreserved _ hfind =>
      refine ⟨fun heq => hreserved (Or.inl heq), fun c hc => ?_⟩
      simpa using List.find?_eq_none.mp hfind c hc

/-- A new mailbox does not have the address of the catchall. -/
theorem newMailbox_isCatchall {config : Config} {name owner : Str}
    (h : validateMailboxName name = .ok ()) :
    (newMailbox config name owner).isCatchall config = false := by
  obtain ⟨-, hchars⟩ := validateMailboxName_eq_ok h
  rw [Bool.eq_false_iff]
  intro hcatchall
  rw [MailboxConfig.isCatchall, eqIgnoreAsciiCase_iff] at hcatchall
  have happend : toAsciiLowercase name = toAsciiLowercase "*".toList := by
    have hsplit : toAsciiLowercase name ++ toAsciiLowercase ('@' :: config.domain) =
        toAsciiLowercase "*".toList ++ toAsciiLowercase ('@' :: config.domain) := by
      simpa [toAsciiLowercase, newMailbox] using hcatchall
    exact List.append_cancel_right hsplit
  obtain ⟨c, rfl⟩ : ∃ c, name = [c] := by
    apply List.length_eq_one_iff.mp
    simpa [toAsciiLowercase] using congrArg List.length happend
  have hlower : c.toLower = '*' := by simpa [toAsciiLowercase] using happend
  have hchar := hchars c (by simp)
  rw [eq_of_toLower_eq (by decide) hlower] at hchar
  revert hchar
  decide

/-- What a plan promises about the configuration it will find: a new mailbox is not the catchall, and a
hook is not for it. -/
def Fits (config : Config) : Plan → Prop
  | .mailboxCreate name _ => validateMailboxName name = .ok ()
  | .mailboxDelete _ _ => True
  | .hookCreate mailbox _ => ∀ mb, config.mailboxes.lookup mailbox = some mb → mb.isCatchall config = false
  | .hookDelete _ _ => True

section Plans

variable {env : HandlerEnv} {caller : Caller} {config : Config} {plan : Plan}

/-- The checks on the snapshot establish the promise there. -/
theorem Checked.fits {request : ConfigRequest} (h : Checked env caller config request plan) :
    Fits config plan := by
  cases h with
  | mailboxCreate hname hcreate howner => exact hname
  | mailboxDelete hname hcreate => trivial
  | @hookCreate req mb hook hmb hact hcatchall hhook =>
      intro mb' hmb'
      cases hmb.symm.trans hmb'
      exact hcatchall
  | hookDelete hfind hmb hact => trivial

/-- Whether a mailbox has the address of the catchall depends neither on its hooks nor on a plan. -/
theorem isCatchall_result {sha256 : Bytes → Bytes} {mb : MailboxConfig} {hooks : List Hook} :
    ({ mb with hooks := hooks } : MailboxConfig).isCatchall (plan.result sha256 config) =
      mb.isCatchall config := by
  have hdomain : (plan.result sha256 config).domain = config.domain :=
    (Update.sameBut_apply sha256 config (plan.update config)).domain
  rw [MailboxConfig.isCatchall_congr hdomain]
  rfl

/-- A promise outlives other plans. -/
theorem Fits.result {sha256 : Bytes → Bytes} {plan' : Plan} (hfits : Fits config plan)
    (h : Fits config plan') : Fits (plan.result sha256 config) plan' := by
  cases plan' with
  | mailboxCreate name owner => exact h
  | mailboxDelete name force => trivial
  | hookCreate mailbox hook =>
      intro mb' hmb'
      rcases Plan.lookup_result hmb' with ⟨mb, hooks, hmb, rfl⟩ | ⟨owner, rfl, rfl⟩
      · rw [isCatchall_result]
        exact h mb hmb
      · have hnew : (newMailbox config mailbox owner).isCatchall config = false :=
          newMailbox_isCatchall hfits
        rw [← @isCatchall_result _ _ sha256 _ []] at hnew
        exact hnew
  | hookDelete mailbox name => trivial

/-- A plan that commits keeps all hooks valid and their names distinct. -/
theorem Commits.hooks_result (hcommits : Commits env caller config plan)
    (hvalid : ∀ h ∈ config.allHooks, h.2.fault = none)
    (hnames : config.HookNamesDistinct env.sha256) :
    (∀ h ∈ (plan.result env.sha256 config).allHooks, h.2.fault = none) ∧
      (plan.result env.sha256 config).HookNamesDistinct env.sha256 := by
  cases hcommits with
  | @mailboxCreate name owner ids hnew hids =>
      have hsame : ((Plan.mailboxCreate name owner).result env.sha256 config).allHooks =
          config.allHooks := Config.allHooks_insertMailbox hnew rfl
      rw [Config.HookNamesDistinct, hsame]
      exact ⟨hvalid, hnames⟩
  | @mailboxDelete name force hname hmem hauth =>
      have hfilter : ((Plan.mailboxDelete name force).result env.sha256 config).allHooks =
          config.allHooks.filter fun h => h.1 ≠ name := Config.allHooks_removeMailbox config name
      rw [Config.HookNamesDistinct, hfilter]
      exact ⟨fun h hh => hvalid h (List.mem_of_mem_filter hh),
        hnames.sublist (List.filter_sublist.map _)⟩
  | @hookCreate mailbox hook mb hmb hall =>
      -- The validation under the locks sees all hooks, the new one included.
      obtain ⟨hfaults, hnodup, -⟩ := checkHooks_eq_ok_iff.mp hall
      exact ⟨hfaults, hnodup⟩
  | @hookDelete mailbox name mb hmb hfound =>
      have hfilter : ((Plan.hookDelete mailbox name).result env.sha256 config).allHooks =
          config.allHooks.filter fun h =>
            ¬ (h.1 = mailbox ∧ effectiveHookName env.sha256 h.2 = name) :=
        Config.allHooks_retainHooks env.sha256 config mailbox name
      rw [Config.HookNamesDistinct, hfilter]
      exact ⟨fun h hh => hvalid h (List.mem_of_mem_filter hh),
        hnames.sublist (List.filter_sublist.map _)⟩

/-- A plan that fits and commits leaves the catchall without hooks. -/
theorem Commits.catchallHooks_result (hcommits : Commits env caller config plan)
    (h : Accepted env.sha256 config) (hfits : Fits config plan) {name : Str} {mb' : MailboxConfig}
    (hlookup : (plan.result env.sha256 config).mailboxes.lookup name = some mb')
    (hcatchall : mb'.isCatchall (plan.result env.sha256 config) = true) : mb'.hooks = [] := by
  rw [List.eq_nil_iff_forall_not_mem]
  intro hook hhook
  rcases hcommits.mem_allHooks_result (Config.mem_allHooks.mpr ⟨mb', hlookup, hhook⟩) with hold | rfl
  · obtain ⟨mb₀, hmb₀, hhook₀⟩ := Config.mem_allHooks.mp hold
    rcases Plan.lookup_result hlookup with ⟨mb, hooks, hmb, rfl⟩ | ⟨owner, -, rfl⟩
    · cases hmb₀.symm.trans hmb
      rw [isCatchall_result] at hcatchall
      rw [h.catchallHooks ⟨name, mb₀⟩ (AList.mem_lookup_iff.mp hmb₀) hcatchall] at hhook₀
      cases hhook₀
    · cases hhook
  · rcases Plan.lookup_result hlookup with ⟨mb, hooks, hmb, rfl⟩ | ⟨owner, hother, -⟩
    · rw [isCatchall_result, hfits mb hmb] at hcatchall
      cases hcatchall
    · cases hother

/-- The plan does not give a new mailbox to root. -/
def Plan.SparesRoot : Plan → Prop
  | .mailboxCreate _ owner => owner ≠ reservedRunAsRoot
  | _ => True

/-- An owner that can be resolved has a name that the loader accepts. -/
theorem valid_of_ownerIds {resolveUser : Str → Option ResolvedUser} {owner : Str}
    {ids : UInt32 × UInt32} (h : ownerIds resolveUser owner = .ok ids) :
    owner = reservedRunAsRoot ∨ owner = reservedRunAsCatchall ∨ isValidSystemUsername owner = true := by
  by_contra hinvalid
  obtain ⟨n, hn⟩ := (@validateRunAs_invalid_iff resolveUser owner).mpr hinvalid
  rw [ownerIds, hn] at h
  cases h

/-- The loader's owner rules for a new mailbox. -/
theorem newMailbox_ownerOk_iff {name owner : Str} {ids : UInt32 × UInt32}
    (hname : validateMailboxName name = .ok ())
    (hids : ownerIds env.users.resolveUser owner = .ok ids) :
    (newMailbox config name owner).OwnerOk config ↔ owner ≠ reservedRunAsRoot := by
  have hplain : (newMailbox config name owner).isCatchall config = false :=
    newMailbox_isCatchall hname
  constructor
  · rintro hok hroot
    have hcatchall := (hok.root hroot).1
    rw [hplain] at hcatchall
    cases hcatchall
  · intro hroot
    have hvalid := valid_of_ownerIds hids
    exact
      { present := by
          change (trim owner).isEmpty = false
          rcases hvalid with rfl | rfl | hvalid
          · exact absurd rfl hroot
          · decide
          · exact isValidSystemUsername_trim hvalid
        valid := hvalid
        flag := fun hflag => by cases hflag
        root := fun heq => absurd heq hroot }

/-- **A plan that fits and commits leaves an acceptable configuration, exactly if it does not give a
new mailbox to root.** -/
theorem Commits.accepted_result_iff (hcommits : Commits env caller config plan)
    (h : Accepted env.sha256 config) (hfits : Fits config plan) :
    Accepted env.sha256 (plan.result env.sha256 config) ↔ plan.SparesRoot := by
  have hsame : config.SameBut (plan.update config).target (plan.result env.sha256 config) :=
    Update.sameBut_apply env.sha256 config (plan.update config)
  have howner : ∀ {mb : MailboxConfig} {hooks : List Hook}, mb.OwnerOk config →
      ({ mb with hooks := hooks } : MailboxConfig).OwnerOk (plan.result env.sha256 config) := by
    intro mb hooks hok
    have hcatchall := @isCatchall_result config plan env.sha256 mb hooks
    exact
      { present := hok.present
        valid := hok.valid
        flag := fun hflag => hcatchall.trans (hok.flag hflag)
        root := fun hroot => ⟨hcatchall.trans (hok.root hroot).1, (hok.root hroot).2⟩ }
  constructor
  · intro haccepted
    cases hcommits with
    | @mailboxCreate name owner ids hnew hids =>
        have hmem : (⟨name, newMailbox config name owner⟩ : Sigma fun _ : Str => MailboxConfig) ∈
            ((Plan.mailboxCreate name owner).result env.sha256 config).mailboxes.entries :=
          AList.mem_lookup_iff.mp (AList.lookup_insert _)
        have hok := haccepted.owners _ hmem
        exact (@newMailbox_ownerOk_iff env config name owner ids hfits hids).mp
          { present := hok.present
            valid := hok.valid
            flag := hok.flag
            root := hok.root }
    | mailboxDelete hname hmem hauth => trivial
    | hookCreate hmb hall => trivial
    | hookDelete hmb hfound => trivial
  · intro hroot
    obtain ⟨hvalid, hnames⟩ := hcommits.hooks_result h.hooks h.hookNames
    refine
      { trust := by rw [hsame.trust]; exact h.trust
        mailboxTrust := fun e he => ?_
        catchallHooks := fun e he hcatchall => ?_
        owners := fun e he => ?_
        hooks := hvalid
        hookNames := hnames }
    · rcases Plan.lookup_result (AList.mem_lookup_iff.mpr he) with ⟨mb, hooks, hmb, heq⟩ | ⟨owner, -, heq⟩
      · rw [heq]
        exact h.mailboxTrust ⟨e.1, mb⟩ (AList.mem_lookup_iff.mp hmb)
      · rw [heq]
        exact fun t ht => by cases ht
    · exact hcommits.catchallHooks_result h hfits (AList.mem_lookup_iff.mpr he) hcatchall
    · rcases Plan.lookup_result (AList.mem_lookup_iff.mpr he) with ⟨mb, hooks, hmb, heq⟩ | ⟨owner, rfl, heq⟩
      · rw [heq]
        exact howner (h.owners ⟨e.1, mb⟩ (AList.mem_lookup_iff.mp hmb))
      · cases hcommits with
        | mailboxCreate hnew hids =>
            rw [heq]
            exact howner ((newMailbox_ownerOk_iff hfits hids).mpr hroot)

end Plans

end Daemon
end Aimx
