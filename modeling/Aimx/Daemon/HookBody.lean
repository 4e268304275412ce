import Aimx.Config.Load

/-!
# The body of a HOOK-CREATE request

The JSON body is decoded by a derived deserializer that knows four keys, of which only `cmd` is
required, and that refuses every other key.  The syntax of JSON is a parameter; the value it denotes is
decoded here.

* `JsonValue` — parsed JSON;
* `HookCreateBody.ofJson` — the derived deserializer with its defaults;
* `rejectLegacyBodyFields` — the keys that are refused with a text of their own.
-/

namespace Aimx
namespace Daemon

open Text

/-- A parsed JSON value; the keys of an object come in the order of the text. -/
inductive JsonValue
  | null
  | boolean (b : Bool)
  | integer (n : Int)
  | float
  | string (s : Str)
  | array (items : List JsonValue)
  | object (fields : List (Str × JsonValue))

/-- The value of a key. -/
def JsonValue.field (fields : List (Str × JsonValue)) (key : Str) : Option JsonValue :=
  (fields.find? fun f => f.1 == key).map Prod.snd

/-- A `String`. -/
def JsonValue.asString : JsonValue → Option Str
  | .string s => some s
  | _ => none

/-- A `bool`. -/
def JsonValue.asBool : JsonValue → Option Bool
  | .boolean b => some b
  | _ => none

/-- A `Vec<String>`. -/
def JsonValue.asStrings : JsonValue → Option (List Str)
  | .array items => items.mapM JsonValue.asString
  | _ => none

/-- An `Option<u32>`. -/
def JsonValue.asOptionU32 : JsonValue → Option (Option UInt32)
  | .null => some none
  | .integer n => if 0 ≤ n ∧ n < UInt32.size then some (some (UInt32.ofNat n.toNat)) else none
  | _ => none

/-- `HookCreateBody`. -/
structure HookCreateBody where
  cmd : List Str
  fireOnUntrusted : Bool
  type : Str
  timeoutSecs : Option UInt32
  deriving DecidableEq

/-- The fields of `HookCreateBody`, in their order. -/
def hookBodyKeys : List Str :=
  ["cmd".toList, "fire_on_untrusted".toList, "type".toList, "timeout_secs".toList]

/-- A field with a default. -/
def JsonValue.fieldOr {α : Type} (fields : List (Str × JsonValue)) (key : Str) (absent : α)
    (decode : JsonValue → Option α) : Option α :=
  match JsonValue.field fields key with
  | none => some absent
  | some value => decode value

/-- The fields of the body, each decoded or given its default. -/
def HookCreateBody.ofFields (fields : List (Str × JsonValue)) : Option HookCreateBody := do
  let cmd ← (JsonValue.field fields "cmd".toList).bind JsonValue.asStrings
  let fireOnUntrusted ← JsonValue.fieldOr fields "fire_on_untrusted".toList false JsonValue.asBool
  let type ← JsonValue.fieldOr fields "type".toList "cmd".toList JsonValue.asString
  let timeoutSecs ← JsonValue.fieldOr fields "timeout_secs".toList none JsonValue.asOptionU32
  return ⟨cmd, fireOnUntrusted, type, timeoutSecs⟩

/-- The derived deserializer of `HookCreateBody`: an object without unknown or repeated keys, or an
array with the fields in their order. -/
def HookCreateBody.ofJson : JsonValue → Option HookCreateBody
  | .object fields =>
      if (fields.all fun f => hookBodyKeys.contains f.1) ∧ (fields.map Prod.fst).Nodup then
        HookCreateBody.ofFields fields
      else none
  | .array items =>
      if items.length ≤ hookBodyKeys.length then HookCreateBody.ofFields (hookBodyKeys.zip items)
      else none
  | _ => none

/-- `DEFAULT_HOOK_TIMEOUT_SECS`. -/
def defaultHookTimeoutSecs : UInt32 := 60

/-- The hook of a request, from its headers and its body. -/
def HookCreateBody.toHook (body : HookCreateBody) (name : Option Str) (event : HookEvent) : Hook where
  name := name
  event := event
  type := body.type
  cmd := body.cmd
  fireOnUntrusted := body.fireOnUntrusted
  timeoutSecs := body.timeoutSecs.getD defaultHookTimeoutSecs

/-- `reject_legacy_body_fields`, on the body as far as it is JSON. -/
def rejectLegacyBodyFields : Option JsonValue → Except Str Unit
  | some (.object fields) =>
      let has (key : Str) : Bool := (JsonValue.field fields key).isSome
      if has "template".toList ∨ has "params".toList then
        .error ("hook sets `template`/`params`; template hooks were removed. " ++
          "See book/hooks.md for the supported raw-cmd schema").toList
      else if has "run_as".toList then
        .error ("hook sets `run_as`; the field was removed — hooks now run " ++
          "as the mailbox's `owner`").toList
      else if has "origin".toList then
        .error "hook sets `origin`; the field was removed".toList
      else if has "dangerously_support_untrusted".toList then
        .error ("hook sets `dangerously_support_untrusted`; the field was " ++
          "renamed to `fire_on_untrusted`").toList
      else if has "stdin".toList then
        .error ("hook sets removed field 'stdin' — the email is always piped to hooks; " ++
          "remove this key from the request").toList
      else .ok ()
  | _ => .ok ()

/-- `parse_event`. -/
def parseEvent (s : Str) : Except Str HookEvent :=
  if s = "on_receive".toList then .ok .onReceive
  else if s = "after_send".toList then .ok .afterSend
  else .error ("invalid event '".toList ++ s ++ "': expected 'on_receive' or 'after_send'".toList)

end Daemon
end Aimx
