import Aimx.Config.Load
import Aimx.Text.Table

/-!
# The configuration as a TOML value

What the derived serializer and deserializer of `Config`, `MailboxConfig` and `Hook` make of a TOML
value: which fields are left out, which have defaults, and which keys are refused.

* `Config.toToml` — the derived serializer;
* `Config.ofToml` — the derived deserializer;
* `Config.ofToml_toToml` — the second undoes the first;
* `rejectRemovedStdinField_toToml` — no written configuration has the removed key `stdin`;
* `readBack`, `load_eq_ok`, `load_printed` — what a load reads in a file, and in a printed one.
-/

namespace Aimx

open Text

/-! ## Tables with optional fields -/

/-- The table of the fields that have a value. -/
def TomlValue.tableOf (fields : List (Str × Option TomlValue)) : TomlValue :=
  .table (fields.filterMap fun f => f.2.map fun v => (f.1, v))

/-- A field of a table with distinct keys is found under its key. -/
theorem TomlValue.get_tableOf {fields : List (Str × Option TomlValue)}
    (hdistinct : (fields.map Prod.fst).Nodup) {key : Str} {value : Option TomlValue}
    (hmem : (key, value) ∈ fields) : (TomlValue.tableOf fields).get key = value := by
  induction fields with
  | nil => cases hmem
  | cons f fields ih =>
      obtain ⟨k, v⟩ := f
      rw [List.map_cons, List.nodup_cons] at hdistinct
      obtain ⟨hnew, hdistinct⟩ := hdistinct
      simp only [TomlValue.tableOf, TomlValue.get] at ih ⊢
      rcases List.mem_cons.mp hmem with heq | hrest
      · cases heq
        cases value with
        | some v => simp
        | none =>
            have habsent : (fields.filterMap fun f => f.2.map fun v => (f.1, v)).find?
                (fun f => f.1 == key) = none := by
              rw [List.find?_eq_none]
              rintro ⟨k, v⟩ hkv heq
              obtain ⟨⟨k', v'⟩, hmem', hsome⟩ := List.mem_filterMap.mp hkv
              obtain ⟨w, -, hw⟩ := Option.map_eq_some_iff.mp hsome
              cases hw
              exact hnew (List.mem_map.mpr ⟨_, hmem', beq_iff_eq.mp heq⟩)
            simp [habsent]
      · have hne : k ≠ key := by
          rintro rfl
          exact hnew (List.mem_map.mpr ⟨_, hrest, rfl⟩)
        cases v with
        | none => simpa using ih hdistinct hrest
        | some v => simpa [hne] using ih hdistinct hrest

/-- Decoding every element of an encoded list. -/
theorem mapM_map_of_decode {α β : Type} {decode : β → Option α} {encode : α → β}
    (h : ∀ a, decode (encode a) = some a) (l : List α) : (l.map encode).mapM decode = some l := by
  induction l with
  | nil => rfl
  | cons a l ih => simp [h, ih]

/-! ## Values -/

/-- A list of strings. -/
def TomlValue.strings (items : List Str) : TomlValue := .array (items.map .string)

/-- A list of strings, decoded. -/
def TomlValue.asStrings (value : TomlValue) : Option (List Str) :=
  value.asArray.bind fun items => items.mapM TomlValue.asStr

/-- A `u32`, decoded. -/
def TomlValue.asU32 : TomlValue → Option UInt32
  | .integer n => if 0 ≤ n ∧ n < UInt32.size then some (UInt32.ofNat n.toNat) else none
  | _ => none

/-- A field with a default, decoded where it is there. -/
def TomlValue.getOr {α : Type} (value : TomlValue) (key : Str) (absent : α)
    (decode : TomlValue → Option α) : Option α :=
  match value.get key with
  | none => some absent
  | some v => decode v

theorem TomlValue.asStr_string (s : Str) : TomlValue.asStr (.string s) = some s := rfl

theorem TomlValue.asBool_boolean (b : Bool) : TomlValue.asBool (.boolean b) = some b := rfl

theorem TomlValue.asStrings_strings (items : List Str) :
    (TomlValue.strings items).asStrings = some items :=
  mapM_map_of_decode TomlValue.asStr_string items

theorem TomlValue.asU32_integer (n : UInt32) : TomlValue.asU32 (.integer n.toNat) = some n := by
  have hn : (0 : Int) ≤ n.toNat ∧ (n.toNat : Int) < UInt32.size := by
    have := n.toNat_lt_size
    omega
  rw [TomlValue.asU32, if_pos hn, Int.toNat_natCast, UInt32.ofNat_toNat]

/-- A field that is left out at its default is read back. -/
theorem TomlValue.getOr_of_get {α : Type} {value : TomlValue} {key : Str} {absent a : α}
    {decode : TomlValue → Option α} (encode : α → TomlValue) (skip : Prop) [Decidable skip]
    (hget : value.get key = if skip then none else some (encode a)) (hskip : skip → a = absent)
    (hdecode : decode (encode a) = some a) : value.getOr key absent decode = some a := by
  rw [TomlValue.getOr, hget]
  by_cases h : skip
  · rw [if_pos h]
    exact congrArg some (hskip h).symm
  · rw [if_neg h]
    exact hdecode

/-- An optional field is read back. -/
theorem TomlValue.getOr_of_get_option {α : Type} {value : TomlValue} {key : Str} {a : Option α}
    {decode : TomlValue → Option α} (encode : α → TomlValue) (hget : value.get key = a.map encode)
    (hdecode : ∀ a, decode (encode a) = some a) :
    value.getOr key none (fun v => (decode v).map some) = some a := by
  rw [TomlValue.getOr, hget]
  cases a with
  | none => rfl
  | some a => exact congrArg (Option.map some) (hdecode a)

/-! ## Hooks -/

/-- The event of a name. -/
def HookEvent.ofStr (s : Str) : Option HookEvent :=
  if s = "on_receive".toList then some .onReceive
  else if s = "after_send".toList then some .afterSend else none

/-- The fields of `Hook`, as they are written. -/
def Hook.tomlFields (hook : Hook) : List (Str × Option TomlValue) :=
  [("name".toList, hook.name.map .string), ("event".toList, some (.string hook.event.asStr)),
    ("type".toList, some (.string hook.type)), ("cmd".toList, some (.strings hook.cmd)),
    ("fire_on_untrusted".toList,
      if hook.fireOnUntrusted = false then none else some (.boolean hook.fireOnUntrusted)),
    ("timeout_secs".toList,
      if hook.timeoutSecs = 60 then none else some (.integer hook.timeoutSecs.toNat))]

/-- The derived serializer of `Hook`. -/
def Hook.toToml (hook : Hook) : TomlValue := .tableOf hook.tomlFields

/-- The keys of a hook, which refuses every other one. -/
def hookKeys : List Str :=
  ["name".toList, "event".toList, "type".toList, "cmd".toList, "fire_on_untrusted".toList,
    "timeout_secs".toList]

/-- The derived deserializer of `Hook`. -/
def Hook.ofToml (value : TomlValue) : Option Hook := do
  let fields ← value.asTable
  if fields.any fun f => !hookKeys.contains f.1 then none
  else
    let name ← value.getOr "name".toList none fun v => v.asStr.map some
    let event ← ((value.get "event".toList).bind TomlValue.asStr).bind HookEvent.ofStr
    let type ← value.getOr "type".toList "cmd".toList TomlValue.asStr
    let cmd ← (value.get "cmd".toList).bind TomlValue.asStrings
    let fireOnUntrusted ← value.getOr "fire_on_untrusted".toList false TomlValue.asBool
    let timeoutSecs ← value.getOr "timeout_secs".toList 60 TomlValue.asU32
    return ⟨name, event, type, cmd, fireOnUntrusted, timeoutSecs⟩

theorem Hook.tomlFields_keys (hook : Hook) : hook.tomlFields.map Prod.fst = hookKeys := rfl

/-- A field of a hook is found under its key. -/
theorem Hook.get_toToml {hook : Hook} {key : Str} {value : Option TomlValue}
    (hmem : (key, value) ∈ hook.tomlFields) : hook.toToml.get key = value := by
  have hdistinct : (hook.tomlFields.map Prod.fst).Nodup := by
    rw [Hook.tomlFields_keys]
    decide
  exact TomlValue.get_tableOf hdistinct hmem

/-- A written hook has no other key. -/
theorem Hook.toToml_keys (hook : Hook) {f : Str × TomlValue}
    (hf : f ∈ hook.tomlFields.filterMap fun f => f.2.map fun v => (f.1, v)) :
    hookKeys.contains f.1 = true := by
  obtain ⟨⟨k, v⟩, hmem, hsome⟩ := List.mem_filterMap.mp hf
  obtain ⟨w, -, rfl⟩ := Option.map_eq_some_iff.mp hsome
  rw [List.contains_iff_mem, ← Hook.tomlFields_keys hook]
  exact List.mem_map_of_mem hmem

theorem Hook.ofToml_toToml (hook : Hook) : Hook.ofToml hook.toToml = some hook := by
  have hname : hook.toToml.getOr "name".toList none (fun v => v.asStr.map some) = some hook.name :=
    TomlValue.getOr_of_get_option .string (Hook.get_toToml (by simp [Hook.tomlFields])) fun _ => rfl
  have hevent : hook.toToml.get "event".toList = some (.string hook.event.asStr) :=
    Hook.get_toToml (by simp [Hook.tomlFields])
  have hofStr : HookEvent.ofStr hook.event.asStr = some hook.event := by
    cases hook.event <;> rfl
  have htype : hook.toToml.getOr "type".toList "cmd".toList TomlValue.asStr = some hook.type := by
    have hget : hook.toToml.get "type".toList = some (.string hook.type) :=
      Hook.get_toToml (by simp [Hook.tomlFields])
    rw [TomlValue.getOr, hget]
    rfl
  have hcmd : hook.toToml.get "cmd".toList = some (.strings hook.cmd) :=
    Hook.get_toToml (by simp [Hook.tomlFields])
  have hfire : hook.toToml.getOr "fire_on_untrusted".toList false TomlValue.asBool =
      some hook.fireOnUntrusted :=
    TomlValue.getOr_of_get .boolean (hook.fireOnUntrusted = false)
      (Hook.get_toToml (by simp [Hook.tomlFields])) id rfl
  have htimeout : hook.toToml.getOr "timeout_secs".toList 60 TomlValue.asU32 =
      some hook.timeoutSecs :=
    TomlValue.getOr_of_get (fun n => .integer n.toNat) (hook.timeoutSecs = 60)
      (Hook.get_toToml (by simp [Hook.tomlFields])) id (TomlValue.asU32_integer _)
  have hkeys : (hook.tomlFields.filterMap fun f => f.2.map fun v => (f.1, v)).any
      (fun f => !hookKeys.contains f.1) = false := by
    rw [List.any_eq_false]
    intro f hf
    rw [Hook.toToml_keys hook hf]
    simp
  have htable : hook.toToml.asTable =
      some (hook.tomlFields.filterMap fun f => f.2.map fun v => (f.1, v)) := rfl
  unfold Hook.ofToml
  simp only [htable, hname, hevent, htype, hcmd, hfire, htimeout, hofStr, hkeys,
    TomlValue.asStr_string, TomlValue.asStrings_strings, Option.bind_eq_bind, Option.bind_some,
    Bool.false_eq_true, if_false]
  rfl

/-! ## Mailboxes -/

/-- The fields of `MailboxConfig`, as they are written. -/
def MailboxConfig.tomlFields (mb : MailboxConfig) : List (Str × Option TomlValue) :=
  [("address".toList, some (.string mb.address)), ("owner".toList, some (.string mb.owner)),
    ("hooks".toList,
      if mb.hooks = [] then none else some (.array (mb.hooks.map Hook.toToml))),
    ("trust".toList, mb.trust.map .string),
    ("trusted_senders".toList, mb.trustedSenders.map .strings),
    ("allow_root_catchall".toList,
      if mb.allowRootCatchall = false then none else some (.boolean mb.allowRootCatchall))]

/-- The derived serializer of `MailboxConfig`. -/
def MailboxConfig.toToml (mb : MailboxConfig) : TomlValue := .tableOf mb.tomlFields

/-- A list of hooks, decoded. -/
def TomlValue.asHooks (value : TomlValue) : Option (List Hook) :=
  value.asArray.bind fun items => items.mapM Hook.ofToml

/-- The derived deserializer of `MailboxConfig`. -/
def MailboxConfig.ofToml (value : TomlValue) : Option MailboxConfig := do
  let _ ← value.asTable
  let address ← (value.get "address".toList).bind TomlValue.asStr
  let owner ← (value.get "owner".toList).bind TomlValue.asStr
  let hooks ← value.getOr "hooks".toList [] TomlValue.asHooks
  let trust ← value.getOr "trust".toList none fun v => v.asStr.map some
  let trustedSenders ← value.getOr "trusted_senders".toList none fun v => v.asStrings.map some
  let allowRootCatchall ← value.getOr "allow_root_catchall".toList false TomlValue.asBool
  return ⟨address, owner, hooks, trust, trustedSenders, allowRootCatchall⟩

/-- A field of a mailbox is found under its key. -/
theorem MailboxConfig.get_toToml {mb : MailboxConfig} {key : Str} {value : Option TomlValue}
    (hmem : (key, value) ∈ mb.tomlFields) : mb.toToml.get key = value := by
  have hdistinct : (mb.tomlFields.map Prod.fst).Nodup := by
    have hkeys : mb.tomlFields.map Prod.fst = ["address".toList, "owner".toList, "hooks".toList,
        "trust".toList, "trusted_senders".toList, "allow_root_catchall".toList] := rfl
    rw [hkeys]
    decide
  exact TomlValue.get_tableOf hdistinct hmem

theorem MailboxConfig.ofToml_toToml (mb : MailboxConfig) :
    MailboxConfig.ofToml mb.toToml = some mb := by
  have haddress : mb.toToml.get "address".toList = some (.string mb.address) :=
    MailboxConfig.get_toToml (by simp [MailboxConfig.tomlFields])
  have howner : mb.toToml.get "owner".toList = some (.string mb.owner) :=
    MailboxConfig.get_toToml (by simp [MailboxConfig.tomlFields])
  have hhooks : mb.toToml.getOr "hooks".toList [] TomlValue.asHooks = some mb.hooks :=
    TomlValue.getOr_of_get (fun hooks => .array (hooks.map Hook.toToml)) (mb.hooks = [])
      (MailboxConfig.get_toToml (by simp [MailboxConfig.tomlFields])) id
      (mapM_map_of_decode Hook.ofToml_toToml mb.hooks)
  have htrust : mb.toToml.getOr "trust".toList none (fun v => v.asStr.map some) = some mb.trust :=
    TomlValue.getOr_of_get_option .string
      (MailboxConfig.get_toToml (by simp [MailboxConfig.tomlFields])) fun _ => rfl
  have hsenders : mb.toToml.getOr "trusted_senders".toList none (fun v => v.asStrings.map some) =
      some mb.trustedSenders :=
    TomlValue.getOr_of_get_option .strings
      (MailboxConfig.get_toToml (by simp [MailboxConfig.tomlFields])) TomlValue.asStrings_strings
  have hflag : mb.toToml.getOr "allow_root_catchall".toList false TomlValue.asBool =
      some mb.allowRootCatchall :=
    TomlValue.getOr_of_get .boolean (mb.allowRootCatchall = false)
      (MailboxConfig.get_toToml (by simp [MailboxConfig.tomlFields])) id rfl
  have htable : mb.toToml.asTable =
      some (mb.tomlFields.filterMap fun f => f.2.map fun v => (f.1, v)) := rfl
  unfold MailboxConfig.ofToml
  simp only [htable, haddress, howner, hhooks, htrust, hsenders, hflag, Option.bind_some,
    TomlValue.asStr_string]
  rfl

/-! ## The configuration -/

/-- The derived serializer of `UpgradeConfig`. -/
def UpgradeConfig.toToml (upgrade : UpgradeConfig) : TomlValue :=
  .tableOf [("release_manifest_url".toList, upgrade.releaseManifestUrl.map .string)]

/-- The derived deserializer of `UpgradeConfig`. -/
def UpgradeConfig.ofToml (value : TomlValue) : Option UpgradeConfig := do
  let _ ← value.asTable
  let url ← value.getOr "release_manifest_url".toList none fun v => v.asStr.map some
  return ⟨url⟩

/-- `DEFAULT_DATA_DIR`. -/
def defaultDataDir : Str := "/var/lib/aimx".toList

/-- The table of the mailboxes. -/
def Mailboxes.toToml (mailboxes : Mailboxes) : TomlValue :=
  .table (mailboxes.entries.map fun e => (e.1, e.2.toToml))

/-- The mailboxes of a table. -/
def Mailboxes.ofToml (value : TomlValue) : Option Mailboxes := do
  let fields ← value.asTable
  let entries ← fields.mapM fun f => (MailboxConfig.ofToml f.2).map fun mb =>
    (⟨f.1, mb⟩ : Sigma fun _ : Str => MailboxConfig)
  return entries.toAList

/-- The fields of `Config`, as they are written. -/
def Config.tomlFields (config : Config) : List (Str × Option TomlValue) :=
  [("domain".toList, some (.string config.domain)),
    ("data_dir".toList, some (.string config.dataDir)),
    ("dkim_selector".toList, some (.string config.dkimSelector)),
    ("trust".toList, if config.trust = "none".toList then none else some (.string config.trust)),
    ("trusted_senders".toList,
      if config.trustedSenders = [] then none else some (.strings config.trustedSenders)),
    ("mailboxes".toList, some config.mailboxes.toToml),
    ("verify_host".toList, config.verifyHost.map .string),
    ("enable_ipv6".toList, some (.boolean config.enableIpv6)),
    ("signature".toList, config.signature.map .string),
    ("upgrade".toList, config.upgrade.map UpgradeConfig.toToml)]

/-- The derived serializer of `Config`. -/
def Config.toToml (config : Config) : TomlValue := .tableOf config.tomlFields

/-- The derived deserializer of `Config`. -/
def Config.ofToml (value : TomlValue) : Option Config := do
  let _ ← value.asTable
  let domain ← (value.get "domain".toList).bind TomlValue.asStr
  let dataDir ← value.getOr "data_dir".toList defaultDataDir TomlValue.asStr
  let dkimSelector ← value.getOr "dkim_selector".toList "aimx".toList TomlValue.asStr
  let trust ← value.getOr "trust".toList "none".toList TomlValue.asStr
  let trustedSenders ← value.getOr "trusted_senders".toList [] TomlValue.asStrings
  let mailboxes ← value.getOr "mailboxes".toList ∅ Mailboxes.ofToml
  let verifyHost ← value.getOr "verify_host".toList none fun v => v.asStr.map some
  let enableIpv6 ← value.getOr "enable_ipv6".toList false TomlValue.asBool
  let signature ← value.getOr "signature".toList none fun v => v.asStr.map some
  let upgrade ← value.getOr "upgrade".toList none fun v => (UpgradeConfig.ofToml v).map some
  return ⟨domain, dataDir, dkimSelector, trust, trustedSenders, mailboxes, verifyHost, enableIpv6,
    signature, upgrade⟩

theorem Mailboxes.ofToml_toToml (mailboxes : Mailboxes) :
    Mailboxes.ofToml mailboxes.toToml = some mailboxes := by
  have hentries : (mailboxes.entries.map fun e => (e.1, e.2.toToml)).mapM (fun f =>
      (MailboxConfig.ofToml f.2).map fun mb =>
        (⟨f.1, mb⟩ : Sigma fun _ : Str => MailboxConfig)) = some mailboxes.entries := by
    apply mapM_map_of_decode
    intro e
    rw [MailboxConfig.ofToml_toToml, Option.map_some]
  unfold Mailboxes.ofToml
  simp only [Mailboxes.toToml, TomlValue.asTable, hentries, Option.bind_eq_bind, Option.bind_some]
  apply congrArg some
  apply AList.ext
  exact Table.entries_toAList mailboxes.nodupKeys

theorem UpgradeConfig.ofToml_toToml (upgrade : UpgradeConfig) :
    UpgradeConfig.ofToml upgrade.toToml = some upgrade := by
  have hurl : upgrade.toToml.getOr "release_manifest_url".toList none (fun v => v.asStr.map some) =
      some upgrade.releaseManifestUrl :=
    TomlValue.getOr_of_get_option .string
      (TomlValue.get_tableOf (by simp) (by simp)) fun _ => rfl
  have htable : upgrade.toToml.asTable =
      some ([("release_manifest_url".toList, upgrade.releaseManifestUrl.map .string)].filterMap
        fun f => f.2.map fun v => (f.1, v)) := rfl
  unfold UpgradeConfig.ofToml
  simp only [htable, hurl]
  rfl

/-- A field of the configuration is found under its key. -/
theorem Config.get_toToml {config : Config} {key : Str} {value : Option TomlValue}
    (hmem : (key, value) ∈ config.tomlFields) : config.toToml.get key = value := by
  have hdistinct : (config.tomlFields.map Prod.fst).Nodup := by
    have hkeys : config.tomlFields.map Prod.fst = ["domain".toList, "data_dir".toList,
        "dkim_selector".toList, "trust".toList, "trusted_senders".toList, "mailboxes".toList,
        "verify_host".toList, "enable_ipv6".toList, "signature".toList, "upgrade".toList] := rfl
    rw [hkeys]
    decide
  exact TomlValue.get_tableOf hdistinct hmem

/-- The deserializer undoes the serializer. -/
theorem Config.ofToml_toToml (config : Config) : Config.ofToml config.toToml = some config := by
  have hdomain : config.toToml.get "domain".toList = some (.string config.domain) :=
    Config.get_toToml (by simp [Config.tomlFields])
  have hdataDir : config.toToml.get "data_dir".toList = some (.string config.dataDir) :=
    Config.get_toToml (by simp [Config.tomlFields])
  have hselector : config.toToml.get "dkim_selector".toList = some (.string config.dkimSelector) :=
    Config.get_toToml (by simp [Config.tomlFields])
  have htrust : config.toToml.getOr "trust".toList "none".toList TomlValue.asStr =
      some config.trust :=
    TomlValue.getOr_of_get .string (config.trust = "none".toList)
      (Config.get_toToml (by simp [Config.tomlFields])) id rfl
  have hsenders : config.toToml.getOr "trusted_senders".toList [] TomlValue.asStrings =
      some config.trustedSenders :=
    TomlValue.getOr_of_get .strings (config.trustedSenders = [])
      (Config.get_toToml (by simp [Config.tomlFields])) id (TomlValue.asStrings_strings _)
  have hmailboxes : config.toToml.get "mailboxes".toList = some config.mailboxes.toToml :=
    Config.get_toToml (by simp [Config.tomlFields])
  have hverify : config.toToml.getOr "verify_host".toList none (fun v => v.asStr.map some) =
      some config.verifyHost :=
    TomlValue.getOr_of_get_option .string (Config.get_toToml (by simp [Config.tomlFields]))
      fun _ => rfl
  have hipv6 : config.toToml.get "enable_ipv6".toList = some (.boolean config.enableIpv6) :=
    Config.get_toToml (by simp [Config.tomlFields])
  have hsignature : config.toToml.getOr "signature".toList none (fun v => v.asStr.map some) =
      some config.signature :=
    TomlValue.getOr_of_get_option .string (Config.get_toToml (by simp [Config.tomlFields]))
      fun _ => rfl
  have hupgrade : config.toToml.getOr "upgrade".toList none
      (fun v => (UpgradeConfig.ofToml v).map some) = some config.upgrade :=
    TomlValue.getOr_of_get_option UpgradeConfig.toToml
      (Config.get_toToml (by simp [Config.tomlFields])) UpgradeConfig.ofToml_toToml
  have htable : config.toToml.asTable =
      some (config.tomlFields.filterMap fun f => f.2.map fun v => (f.1, v)) := rfl
  have hgetOr : ∀ {α : Type} {key : Str} {v : TomlValue} (absent : α)
      (decode : TomlValue → Option α), config.toToml.get key = some v →
        config.toToml.getOr key absent decode = decode v := by
    intro α key v absent decode h
    rw [TomlValue.getOr, h]
  unfold Config.ofToml
  simp only [htable, hdomain, hgetOr _ _ hdataDir, hgetOr _ _ hselector, htrust, hsenders,
    hgetOr _ _ hmailboxes, Mailboxes.ofToml_toToml, hverify, hgetOr _ _ hipv6, hsignature, hupgrade,
    Option.bind_some, TomlValue.asStr_string, TomlValue.asBool_boolean]
  rfl

/-- No written hook has the removed key. -/
theorem rejectRemovedStdinField_toToml (sha256 : Bytes → Bytes) (config : Config) :
    rejectRemovedStdinField sha256 config.toToml = .ok () := by
  have hmailboxes : config.toToml.get "mailboxes".toList = some config.mailboxes.toToml :=
    Config.get_toToml (by simp [Config.tomlFields])
  have hnone : config.toToml.hookTables.find? (fun hook => (hook.get "stdin".toList).isSome) =
      none := by
    rw [List.find?_eq_none]
    intro value hvalue
    unfold TomlValue.hookTables at hvalue
    rw [hmailboxes, Option.bind_some, Mailboxes.toToml, TomlValue.asTable, Option.getD_some,
      List.mem_flatMap] at hvalue
    obtain ⟨⟨name, table⟩, hentry, hvalue⟩ := hvalue
    obtain ⟨e, -, heq⟩ := List.mem_map.mp hentry
    cases heq
    have hhooks : e.2.toToml.get "hooks".toList =
        if e.2.hooks = [] then none else some (.array (e.2.hooks.map Hook.toToml)) :=
      MailboxConfig.get_toToml (by simp [MailboxConfig.tomlFields])
    dsimp only at hvalue
    rw [hhooks] at hvalue
    split at hvalue
    next => cases hvalue
    next =>
        obtain ⟨hook, -, rfl⟩ := List.mem_map.mp hvalue
        rw [Option.isSome_iff_exists]
        rintro ⟨v, hv⟩
        unfold Hook.toToml TomlValue.tableOf TomlValue.get at hv
        obtain ⟨f, hfind, -⟩ := Option.map_eq_some_iff.mp hv
        have hkey := List.find?_some hfind
        rw [beq_iff_eq] at hkey
        have hknown := Hook.toToml_keys hook (List.mem_of_find?_eq_some hfind)
        rw [hkey] at hknown
        exact absurd hknown (by decide)
  unfold rejectRemovedStdinField
  rw [hnone]

/-! ## Reading a file back -/

/-- The deserializer as a load uses it, with the texts of its errors. -/
def deserializeConfig (error : TomlValue → Str) (value : TomlValue) : Except Str Config :=
  match Config.ofToml value with
  | some config => .ok config
  | none => .error (error value)

/-- The configuration in a file, before any check. -/
def readBack (env : LoadEnv) (content : Str) : Except Str Config := do
  let value ← env.parseToml content
  env.deserialize value

/-- What a load accepts is the configuration in the file, and it is an accepted one. -/
theorem load_eq_ok {env : LoadEnv} {content : Str} {config : Config} {warnings : List LoadWarning}
    (h : load env content = .ok (config, warnings)) :
    readBack env content = .ok config ∧ Accepted env.sha256 config ∧
      rejectLegacySchema content = .ok () := by
  unfold load at h
  unfold readBack
  cases hlegacy : rejectLegacySchema content with
  | error e => simp [hlegacy, bind, Except.bind] at h
  | ok u =>
  cases hparse : env.parseToml content with
  | error e => simp [hlegacy, hparse, bind, Except.bind] at h
  | ok value =>
  cases hstdin : rejectRemovedStdinField env.sha256 value with
  | error e => simp [hlegacy, hparse, hstdin, bind, Except.bind] at h
  | ok u' =>
  cases hvalue : env.deserialize value with
  | error e => simp [hlegacy, hparse, hstdin, hvalue, bind, Except.bind] at h
  | ok c =>
  cases hvalid : validateConfig env c with
  | error e => simp [hlegacy, hparse, hstdin, hvalue, hvalid, bind, Except.bind] at h
  | ok w =>
      simp only [hlegacy, hparse, hstdin, hvalue, hvalid, bind, Except.bind, pure, Except.pure,
        Except.ok.injEq, Prod.mk.injEq] at h
      obtain ⟨rfl, rfl⟩ := h
      exact ⟨hvalue, validateConfig_isOk_iff.mp ⟨w, hvalid⟩, rfl⟩

/-- The load of a file that parses to a written configuration: the legacy check on its lines, and the
checks on the configuration. -/
theorem load_printed {env : LoadEnv} {error : TomlValue → Str} {content : Str} {config : Config}
    (hdeserialize : env.deserialize = deserializeConfig error)
    (hparse : env.parseToml content = .ok config.toToml) :
    readBack env content = .ok config ∧
      ((∃ warnings, load env content = .ok (config, warnings)) ↔
        rejectLegacySchema content = .ok () ∧ Accepted env.sha256 config) := by
  have hvalue : env.deserialize config.toToml = .ok config := by
    rw [hdeserialize, deserializeConfig, Config.ofToml_toToml]
  have hread : readBack env content = .ok config := by
    rw [readBack, hparse]
    exact hvalue
  refine ⟨hread, ?_⟩
  constructor
  · rintro ⟨warnings, h⟩
    obtain ⟨-, haccepted, hlegacy⟩ := load_eq_ok h
    exact ⟨hlegacy, haccepted⟩
  · rintro ⟨hlegacy, haccepted⟩
    obtain ⟨warnings, hvalid⟩ := validateConfig_isOk_iff.mpr haccepted
    refine ⟨warnings, ?_⟩
    simp only [load, hlegacy, hparse, rejectRemovedStdinField_toToml, hvalue, hvalid, bind,
      Except.bind, pure, Except.pure]

end Aimx
