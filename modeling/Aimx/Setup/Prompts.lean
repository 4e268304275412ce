import Aimx.Config.Schema
import Aimx.Text.Decimal

/-!
# The questions of the setup

What the setup asks on a terminal, from the lines that are typed.  A line that is not there any more is
read as an empty one.

* `validateDomain`, `promptDomain` — the domain;
* `verifyRecords` — the wait for the DNS records;
* `promptTrustedSenders` — the trust policy of a fresh installation.
-/

namespace Aimx
namespace Setup

open Text

/-! ## The domain -/

/-- The checks of `validate_domain` on one label. -/
def labelFault (label : Str) : Option Str :=
  if label.isEmpty ∨ 63 < (utf8 label).length then
    some ("Invalid domain label: '".toList ++ label ++ "'".toList)
  else if label.head? = some '-' ∨ label.getLast? = some '-' then
    some ("Domain label must not start or end with a hyphen: '".toList ++ label ++ "'".toList)
  else if !label.all fun c => c.isAlphanum || c == '-' then
    some ("Domain label contains invalid characters: '".toList ++ label ++ "'".toList)
  else none

/-- `validate_domain`. -/
def validateDomain (domain : Str) : Except Str Unit :=
  if domain.isEmpty then .error "Domain must not be empty".toList
  else if 253 < (utf8 domain).length then
    .error "Domain exceeds maximum length of 253 characters".toList
  else
    match (domain.splitOn '.').findSome? labelFault with
    | some fault => .error fault
    | none =>
        if (domain.splitOn '.').length < 2 then
          .error "Domain must have at least two labels (e.g. example.com)".toList
        else .ok ()

/-- `parse_yn`. -/
def parseYn (input : Str) : Bool :=
  match trim input with
  | c :: _ => !(c == 'n' || c == 'N')
  | [] => true

/-- Where `prompt_domain` stands: it asks for the domain, for its confirmation, or for the operator's
access to its records. -/
inductive DomainPrompt
  | ask
  | confirm (domain : Str)
  | access (domain : Str)

/-- `prompt_domain`, with the lines that it leaves unread. -/
def promptDomain : DomainPrompt → List Str → Except Str (Str × List Str)
  | .ask, [] => .error "No domain entered. Setup cancelled.".toList
  | .confirm domain, [] => .ok (domain, [])
  | .access domain, [] => .ok (domain, [])
  | .ask, line :: rest =>
      if (trim line).isEmpty then .error "No domain entered. Setup cancelled.".toList
      else
        match validateDomain (trim line) with
        | .error _ => promptDomain .ask rest
        | .ok () => promptDomain (.confirm (trim line)) rest
  | .confirm domain, line :: rest =>
      if parseYn line then promptDomain (.access domain) rest else promptDomain .ask rest
  | .access domain, line :: rest =>
      if parseYn line then .ok (domain, rest)
      else .error "Setup cancelled. You need DNS access to proceed.".toList

/-! ## The records -/

/-- The loop around `verify_all_dns`, which finds a record missing the first `failures` times: the lines
that it leaves unread. -/
def verifyRecords : Nat → List Str → List Str
  | 0, lines => lines.tail
  | failures + 1, lines =>
      if eqIgnoreAsciiCase (trim (lines.headD [])) "q".toList then lines.tail
      else verifyRecords failures lines.tail

/-! ## The trust policy -/

/-- `validate_trusted_sender`. -/
def validateTrustedSender (entry : Str) : Except Str Unit :=
  if entry.isEmpty then .error "empty entry".toList
  else if entry.count '@' ≠ 1 then
    .error ("expected exactly one '@', got ".toList ++ decimal (entry.count '@'))
  else if entry.head? = some '@' then .error "empty local part before '@'".toList
  else if entry.getLast? = some '@' then .error "empty domain after '@'".toList
  else
    match entry.find? fun c => !(c == '@' || c.isAlphanum || ".-_+*?".toList.contains c) with
    | some c => .error ("invalid character '".toList ++ [c] ++ "'".toList)
    | none => .ok ()

/-- The loop of `parse_trusted_senders_line` over the entries of a line. -/
def checkEntries : List Str → Except (Str × Str) (List Str)
  | [] => .ok []
  | raw :: rest =>
      let entry := trim raw
      if entry.isEmpty then checkEntries rest
      else
        match validateTrustedSender entry with
        | .error reason => .error (entry, reason)
        | .ok () => (checkEntries rest).map (entry :: ·)

/-- `parse_trusted_senders_line`. -/
def parseTrustedSendersLine (line : Str) : Except (Str × Str) (List Str) :=
  checkEntries (line.splitOnP fun c => c == ',' || isWhitespace c)

/-- `MAX_TRUSTED_SENDERS_ATTEMPTS`. -/
def maxTrustedSendersAttempts : Nat := 5

/-- `prompt_trusted_senders_inner`, from the lines of senders and the lines that answer the questions
behind them; `attempt` counts the rejected lines. -/
def promptTrustedSenders : Nat → List Str → List Str → Except Str (Str × List Str)
  | _, [], _ => .error "IO error: not a terminal".toList
  | attempt, line :: more, answers =>
      match parseTrustedSendersLine line with
      | .ok [] =>
          if parseYn (answers.headD []) then .ok ("none".toList, [])
          else promptTrustedSenders 0 more answers.tail
      | .ok (sender :: senders) =>
          if parseYn (answers.headD []) then .ok ("verified".toList, sender :: senders)
          else promptTrustedSenders 0 more answers.tail
      | .error (entry, reason) =>
          if attempt + 1 = maxTrustedSendersAttempts then
            .error ("trusted-senders prompt aborted after ".toList ++
              decimal maxTrustedSendersAttempts ++ " attempts; last error: invalid sender '".toList ++
              entry ++ "': ".toList ++ reason)
          else promptTrustedSenders (attempt + 1) more answers

/-- The prompt returns one of the two policies. -/
theorem promptTrustedSenders_policy {attempt : Nat} {lines answers : List Str} {trust : Str}
    {senders : List Str} (h : promptTrustedSenders attempt lines answers = .ok (trust, senders)) :
    trust = "none".toList ∨ trust = "verified".toList := by
  induction lines generalizing attempt answers with
  | nil => cases h
  | cons line more ih =>
      rw [promptTrustedSenders] at h
      repeat' split at h
      · cases h
        exact .inl rfl
      · exact ih h
      · cases h
        exact .inr rfl
      · exact ih h
      · cases h
      · exact ih h

end Setup
end Aimx
