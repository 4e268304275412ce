import Aimx.Config.Load
import Aimx.Text.Table

/-!
# Changes of the configuration

What the requests on mailboxes and hooks do to a configuration: a stanza is added or removed, a hook
is pushed or removed.  No other setting is touched.

* `insertMailbox`, `removeMailbox`, `pushHook`, `retainHooks` — the four changes;
* `Update`, `Update.apply` — a change as a value;
* `SameBut`, `Update.sameBut_apply` — everything outside the target is as it was;
* `allHooks_pushHook`, `allHooks_retainHooks`, `allHooks_removeMailbox`, `allHooks_insertMailbox` — all
  hooks afterwards.
-/

namespace Aimx

open Text

variable (sha256 : Bytes → Bytes)

/-! ## The changes -/

/-- A new stanza. -/
def Config.insertMailbox (config : Config) (name : Str) (mb : MailboxConfig) : Config :=
  { config with mailboxes := config.mailboxes.insert name mb }

/-- A stanza removed. -/
def Config.removeMailbox (config : Config) (name : Str) : Config :=
  { config with mailboxes := config.mailboxes.erase name }

/-- One stanza changed in place. -/
def Config.modifyMailbox (config : Config) (name : Str) (f : MailboxConfig → MailboxConfig) :
    Config :=
  { config with mailboxes := Table.modify config.mailboxes name f }

/-- A hook at the end of the list. -/
def MailboxConfig.pushHook (mb : MailboxConfig) (hook : Hook) : MailboxConfig :=
  { mb with hooks := mb.hooks ++ [hook] }

/-- The hooks whose effective name is another one. -/
def MailboxConfig.retainHooks (mb : MailboxConfig) (name : Str) : MailboxConfig :=
  { mb with hooks := mb.hooks.filter fun hook => effectiveHookName sha256 hook ≠ name }

/-- A hook pushed on a mailbox. -/
def Config.pushHook (config : Config) (mailbox : Str) (hook : Hook) : Config :=
  config.modifyMailbox mailbox fun mb => mb.pushHook hook

/-- A hook removed from a mailbox by its effective name. -/
def Config.retainHooks (config : Config) (mailbox name : Str) : Config :=
  config.modifyMailbox mailbox fun mb => mb.retainHooks sha256 name

/-- A change of the configuration. -/
inductive Update
  | insertMailbox (name : Str) (mb : MailboxConfig)
  | removeMailbox (name : Str)
  | pushHook (mailbox : Str) (hook : Hook)
  | retainHooks (mailbox name : Str)

/-- The configuration after a change. -/
def Update.apply (config : Config) : Update → Config
  | .insertMailbox name mb => config.insertMailbox name mb
  | .removeMailbox name => config.removeMailbox name
  | .pushHook mailbox hook => config.pushHook mailbox hook
  | .retainHooks mailbox name => config.retainHooks sha256 mailbox name

/-- The mailbox that a change is about. -/
def Update.target : Update → Str
  | .insertMailbox name _ => name
  | .removeMailbox name => name
  | .pushHook mailbox _ => mailbox
  | .retainHooks mailbox _ => mailbox

/-! ## What a change leaves alone -/

/-- Two configurations that agree on every setting and on every mailbox but one. -/
structure Config.SameBut (target : Str) (config config' : Config) : Prop where
  domain : config'.domain = config.domain
  dataDir : config'.dataDir = config.dataDir
  dkimSelector : config'.dkimSelector = config.dkimSelector
  trust : config'.trust = config.trust
  trustedSenders : config'.trustedSenders = config.trustedSenders
  verifyHost : config'.verifyHost = config.verifyHost
  enableIpv6 : config'.enableIpv6 = config.enableIpv6
  signature : config'.signature = config.signature
  upgrade : config'.upgrade = config.upgrade
  mailboxes : ∀ name ≠ target, config'.mailboxes.lookup name = config.mailboxes.lookup name

theorem Config.SameBut.symm {target : Str} {config config' : Config}
    (h : config.SameBut target config') : config'.SameBut target config where
  domain := h.domain.symm
  dataDir := h.dataDir.symm
  dkimSelector := h.dkimSelector.symm
  trust := h.trust.symm
  trustedSenders := h.trustedSenders.symm
  verifyHost := h.verifyHost.symm
  enableIpv6 := h.enableIpv6.symm
  signature := h.signature.symm
  upgrade := h.upgrade.symm
  mailboxes := fun name hname => (h.mailboxes name hname).symm

theorem Config.SameBut.trans {target : Str} {config config' config'' : Config}
    (h : config.SameBut target config') (h' : config'.SameBut target config'') :
    config.SameBut target config'' where
  domain := h'.domain.trans h.domain
  dataDir := h'.dataDir.trans h.dataDir
  dkimSelector := h'.dkimSelector.trans h.dkimSelector
  trust := h'.trust.trans h.trust
  trustedSenders := h'.trustedSenders.trans h.trustedSenders
  verifyHost := h'.verifyHost.trans h.verifyHost
  enableIpv6 := h'.enableIpv6.trans h.enableIpv6
  signature := h'.signature.trans h.signature
  upgrade := h'.upgrade.trans h.upgrade
  mailboxes := fun name hname => (h'.mailboxes name hname).trans (h.mailboxes name hname)

/-- A change of the mailbox table that only matters at one name. -/
theorem Config.sameBut_mailboxes {config : Config} {target : Str} {mailboxes : Mailboxes}
    (h : ∀ name ≠ target, mailboxes.lookup name = config.mailboxes.lookup name) :
    Config.SameBut target config { config with mailboxes := mailboxes } where
  domain := rfl
  dataDir := rfl
  dkimSelector := rfl
  trust := rfl
  trustedSenders := rfl
  verifyHost := rfl
  enableIpv6 := rfl
  signature := rfl
  upgrade := rfl
  mailboxes := h

/-- A change leaves everything outside its target alone. -/
theorem Update.sameBut_apply (config : Config) (u : Update) :
    config.SameBut u.target (u.apply sha256 config) := by
  cases u with
  | insertMailbox target mb =>
      exact Config.sameBut_mailboxes fun name hname => AList.lookup_insert_ne hname
  | removeMailbox target =>
      exact Config.sameBut_mailboxes fun name hname => AList.lookup_erase_ne hname
  | pushHook target hook =>
      refine Config.sameBut_mailboxes fun name hname => ?_
      rw [Table.lookup_modify]
      exact if_neg hname
  | retainHooks target hook =>
      refine Config.sameBut_mailboxes fun name hname => ?_
      rw [Table.lookup_modify]
      exact if_neg hname

/-- Whether a mailbox is the catchall depends on the domain only. -/
theorem MailboxConfig.isCatchall_congr {config config' : Config} (h : config'.domain = config.domain)
    (mb : MailboxConfig) : mb.isCatchall config' = mb.isCatchall config := by
  rw [MailboxConfig.isCatchall, MailboxConfig.isCatchall, h]

/-! ## All hooks after a change -/

/-- No two hooks have one effective name. -/
def Config.HookNamesDistinct (config : Config) : Prop :=
  (config.allHooks.map fun h => effectiveHookName sha256 h.2).Nodup

/-- The hooks of a configuration are the hooks of its mailboxes. -/
theorem Config.mem_allHooks {config : Config} {mailbox : Str} {hook : Hook} :
    (mailbox, hook) ∈ config.allHooks ↔
      ∃ mb, config.mailboxes.lookup mailbox = some mb ∧ hook ∈ mb.hooks := by
  rw [Config.allHooks, List.mem_flatMap]
  constructor
  · rintro ⟨⟨name, mb⟩, he, hmem⟩
    obtain ⟨hook', hhook, heq⟩ := List.mem_map.mp hmem
    cases heq
    exact ⟨mb, AList.mem_lookup_iff.mpr he, hhook⟩
  · rintro ⟨mb, hlookup, hhook⟩
    exact ⟨⟨mailbox, mb⟩, AList.mem_lookup_iff.mp hlookup, List.mem_map.mpr ⟨hook, hhook, rfl⟩⟩

/-- Where names are distinct, a name is on one mailbox only. -/
theorem Config.HookNamesDistinct.unique {sha256 : Bytes → Bytes} {config : Config}
    (h : config.HookNamesDistinct sha256) {a b : Str × Hook} (ha : a ∈ config.allHooks)
    (hb : b ∈ config.allHooks)
    (heq : effectiveHookName sha256 a.2 = effectiveHookName sha256 b.2) : a = b :=
  List.inj_on_of_nodup_map h ha hb heq

/-- The hooks of some entries of the mailbox table. -/
theorem Config.allHooks_eq_of_entries {config : Config} {pre post : List (Sigma fun _ : Str => MailboxConfig)}
    {name : Str} {mb : MailboxConfig} (h : config.mailboxes.entries = pre ++ ⟨name, mb⟩ :: post) :
    config.allHooks =
      (pre.flatMap fun e => e.2.hooks.map fun hook => (e.1, hook)) ++
        ((mb.hooks.map fun hook => (name, hook)) ++
          post.flatMap fun e => e.2.hooks.map fun hook => (e.1, hook)) := by
  rw [Config.allHooks, h, List.flatMap_append, List.flatMap_cons]

/-- A pushed hook is one hook more. -/
theorem Config.allHooks_pushHook {config : Config} {mailbox : Str} {mb : MailboxConfig}
    (hmb : config.mailboxes.lookup mailbox = some mb) (hook : Hook) :
    (config.pushHook mailbox hook).allHooks.Perm ((mailbox, hook) :: config.allHooks) := by
  obtain ⟨pre, post, hentries, -, hmodify⟩ := Table.exists_split hmb
  rw [Config.allHooks_eq_of_entries hentries,
    Config.allHooks_eq_of_entries (hmodify fun mb => mb.pushHook hook)]
  simp only [MailboxConfig.pushHook, List.map_append, List.map_cons, List.map_nil, List.append_assoc,
    List.singleton_append]
  rw [← List.append_assoc, ← List.append_assoc]
  exact List.perm_middle

/-- A removal keeps the hooks of other mailboxes and those with another name. -/
theorem Config.allHooks_retainHooks (config : Config) (mailbox name : Str) :
    (config.retainHooks sha256 mailbox name).allHooks =
      config.allHooks.filter fun h => ¬ (h.1 = mailbox ∧ effectiveHookName sha256 h.2 = name) := by
  have hentry : ∀ e : Sigma fun _ : Str => MailboxConfig,
      ((if e.1 = mailbox then e.2.retainHooks sha256 name else e.2).hooks.map fun hook =>
          (e.1, hook)) =
        (e.2.hooks.map fun hook => (e.1, hook)).filter
          fun h => ¬ (h.1 = mailbox ∧ effectiveHookName sha256 h.2 = name) := by
    intro e
    rw [List.filter_map]
    by_cases he : e.1 = mailbox
    · rw [if_pos he, MailboxConfig.retainHooks]
      apply congrArg
      apply List.filter_congr
      intro hook _
      simp [he]
    · rw [if_neg he, List.filter_eq_self.mpr]
      intro hook _
      simp [he]
  have hentries : (config.retainHooks sha256 mailbox name).mailboxes.entries =
      config.mailboxes.entries.map fun e =>
        ⟨e.1, if e.1 = mailbox then e.2.retainHooks sha256 name else e.2⟩ := rfl
  rw [Config.allHooks, Config.allHooks, hentries, List.flatMap_map, List.filter_flatMap]
  simp only [hentry]

/-- Where names are distinct, the removal of the name of a hook removes that hook and no other. -/
theorem Config.allHooks_perm_retainHooks {sha256 : Bytes → Bytes} {config : Config}
    (hnames : config.HookNamesDistinct sha256) {mailbox : Str} {hook : Hook}
    (hmem : (mailbox, hook) ∈ config.allHooks) :
    config.allHooks.Perm ((mailbox, hook) ::
      (config.retainHooks sha256 mailbox (effectiveHookName sha256 hook)).allHooks) := by
  have hnodup : config.allHooks.Nodup := hnames.of_map _
  have hrest : (config.retainHooks sha256 mailbox (effectiveHookName sha256 hook)).allHooks =
      config.allHooks.erase (mailbox, hook) := by
    rw [Config.allHooks_retainHooks, hnodup.erase_eq_filter]
    apply List.filter_congr
    intro h hh
    by_cases heq : h = (mailbox, hook)
    · simp [heq]
    · have hne : ¬ (h.1 = mailbox ∧ effectiveHookName sha256 h.2 = effectiveHookName sha256 hook) :=
        fun hboth => heq (hnames.unique hh hmem hboth.2)
      simp [hne, heq]
  rw [hrest]
  exact List.perm_cons_erase hmem

/-- The hooks of the other mailboxes stay, in their order. -/
theorem Config.allHooks_removeMailbox (config : Config) (name : Str) :
    (config.removeMailbox name).allHooks = config.allHooks.filter fun h => h.1 ≠ name := by
  have hother : ∀ l : List (Sigma fun _ : Str => MailboxConfig), (∀ e ∈ l, e.1 ≠ name) →
      ((l.flatMap fun e => e.2.hooks.map fun hook => (e.1, hook)).filter fun h => h.1 ≠ name) =
        l.flatMap fun e => e.2.hooks.map fun hook => (e.1, hook) := by
    intro l hl
    rw [List.filter_eq_self]
    intro h hh
    obtain ⟨e, he, hmem⟩ := List.mem_flatMap.mp hh
    obtain ⟨hook, -, rfl⟩ := List.mem_map.mp hmem
    simpa using hl e he
  cases hmb : config.mailboxes.lookup name with
  | none =>
      have habsent : name ∉ config.mailboxes := AList.lookup_eq_none.mp hmb
      have hsame : (config.mailboxes.erase name).entries = config.mailboxes.entries :=
        List.kerase_of_notMem_keys habsent
      rw [Config.removeMailbox, Config.allHooks, Config.allHooks, hsame, hother]
      intro e he heq
      exact habsent (List.mem_map.mpr ⟨e, he, heq⟩)
  | some mb =>
      obtain ⟨pre, post, hentries, herase, -⟩ := Table.exists_split hmb
      obtain ⟨hpre, hpost⟩ := Table.ne_of_split hentries
      have hgone : ((mb.hooks.map fun hook => (name, hook)).filter fun h => h.1 ≠ name) = [] := by
        simp
      rw [Config.allHooks_eq_of_entries hentries, List.filter_append, List.filter_append, hgone,
        hother pre hpre, hother post hpost, List.nil_append, ← List.flatMap_append]
      exact congrArg (List.flatMap _) herase

/-- A new mailbox without hooks brings none. -/
theorem Config.allHooks_insertMailbox {config : Config} {name : Str} {mb : MailboxConfig}
    (hnew : name ∉ config.mailboxes) (hhooks : mb.hooks = []) :
    (config.insertMailbox name mb).allHooks = config.allHooks := by
  rw [Config.allHooks, Config.insertMailbox]
  dsimp only
  rw [AList.entries_insert_of_notMem hnew, List.flatMap_cons, hhooks]
  rfl

end Aimx
