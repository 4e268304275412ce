import Aimx.Ingest.Trust
import Aimx.Ingest.Thread
import Aimx.Text.Brackets

/-!
# The address that a reply goes to

Ingest stores the sender of a message as one text, `name <address>`.  The trust check reads the address
back behind the last `<`, and `email_reply` reads it back behind the first one.

* `extractEmailAddress`, `emailReplyArgs` — the functions of the source;
* `SameSender` — both read the address of the sender;
* `sameSender_iff` — the display names for which they do.
-/

namespace Aimx
namespace Mcp

open Text Ingest

/-! ## Composing a reply -/

/-- `extract_email_address`; `none` is a panic. -/
def extractEmailAddress (addr : Str) : Option Str := between '<' '>' addr

/-- `EmailReplyParams`, without the path of the message. -/
structure EmailReplyParams where
  mailbox : Str
  body : Str
  textOnly : Option Bool
  htmlBody : Option Str

/-- `SendArgs`. -/
structure SendArgs where
  from_ : Str
  to_ : Str
  subject : Str
  body : Str
  replyTo : Option Str
  references : Option Str
  attachments : List Str
  textOnly : Bool
  htmlBody : Option Str
  deriving DecidableEq

/-- `email_reply` behind its reading of the parent message: `address` is that of the mailbox's row, and
`none` is a panic. -/
def emailReplyArgs (address : Option Str) (params : EmailReplyParams) (m : InboundFrontmatter) :
    Option (Except Str SendArgs) :=
  match address with
  | none => some (.error ("Mailbox '".toList ++ params.mailbox ++ "' is not registered.".toList))
  | some fromAddress =>
      if "*".toList.isPrefixOf fromAddress then
        some (.error ("Cannot reply from '".toList ++ params.mailbox ++
          "': catchall mailbox has no valid sender address. Use a named mailbox.".toList))
      else
        (extractEmailAddress m.from_).map fun replyToEmail => .ok {
          from_ := fromAddress
          to_ := replyToEmail
          subject := if "Re: ".toList.isPrefixOf m.subject then m.subject else "Re: ".toList ++ m.subject
          body := params.body
          replyTo := if m.messageId = [] then none else some m.messageId
          references :=
            if m.messageId = [] then none else some (buildReferences m.references m.messageId)
          attachments := []
          textOnly := params.textOnly.getD false
          htmlBody := params.htmlBody }

/-! ## Senders -/

/-- A parsed `From` mailbox: a display name, which may be any text, and an address without brackets. -/
structure Sender where
  name : Option Str
  address : Str
  noOpening : '<' ∉ address
  noClosing : '>' ∉ address

/-- The sender as the parser of messages gives it. -/
def Sender.toAddr (s : Sender) : Addr := ⟨s.name, some s.address⟩

/-- What stands in the first brackets of a display name is the address itself, or the name has no
brackets. -/
def Sender.NameHarmless (s : Sender) : Prop :=
  ∀ name ∈ s.name, ('<' ∉ name ∧ '>' ∉ name) ∨
    ∃ front back, name = front ++ '<' :: (s.address ++ '>' :: back) ∧ '<' ∉ front ∧ '>' ∉ front

/-- Both readers of a stored message see the sender, and a reply to it goes to the sender. -/
structure SameSender (e : SenderMatch) (s : Sender) (m : InboundFrontmatter) : Prop where
  trust : extractEmailForMatch e m.from_ = e.toLowercase s.address
  extract : extractEmailAddress m.from_ = some s.address
  reply : ∀ (own : Str) (params : EmailReplyParams), ¬ "*".toList <+: own →
    ∃ args, emailReplyArgs (some own) params m = some (.ok args) ∧ args.to_ = s.address

/-- Where the recipient of a reply comes from. -/
theorem emailReplyArgs_eq {own : Str} (hown : ¬ "*".toList <+: own) {m : InboundFrontmatter} {email : Str}
    (h : extractEmailAddress m.from_ = some email) (params : EmailReplyParams) :
    ∃ args, emailReplyArgs (some own) params m = some (.ok args) ∧ args.to_ = email := by
  have hstar : ¬ "*".toList.isPrefixOf own = true := by rwa [List.isPrefixOf_iff_prefix]
  unfold emailReplyArgs
  dsimp only
  rw [if_neg hstar, h]
  exact ⟨_, rfl, rfl⟩

/-- A bare address is read back. -/
theorem extractEmailAddress_bare (s : Sender) : extractEmailAddress s.address = some s.address :=
  between_of_missing (.inl s.noOpening)

/-- The first brackets of a displayed sender: those of the name, or those around the address. -/
theorem extractEmailAddress_named (s : Sender) (name : Str) :
    extractEmailAddress (name ++ " <".toList ++ s.address ++ ['>']) = some s.address ↔
      ('<' ∉ name ∧ '>' ∉ name) ∨
        ∃ front back, name = front ++ '<' :: (s.address ++ '>' :: back) ∧ '<' ∉ front ∧ '>' ∉ front := by
  have hne : '<' ≠ '>' := by decide
  have hshown : name ++ " <".toList ++ s.address ++ ['>'] =
      (name ++ [' ']) ++ '<' :: (s.address ++ '>' :: []) := by simp
  constructor
  · intro h
    rcases between_cases hne name with hmissing | ⟨front, mid, back, rfl, ho, hc, hmid⟩ | hfirst
    · by_cases hopen : '<' ∈ name
      · -- the name has no closing bracket, and its opening one cuts off more than the address
        have hclose : '>' ∉ name := hmissing.resolve_left (not_not_intro hopen)
        obtain ⟨front, rest, rfl, hfront⟩ := List.eq_append_cons_of_mem hopen
        have hsplit : front ++ '<' :: rest ++ " <".toList ++ s.address ++ ['>'] =
            front ++ '<' :: ((rest ++ " <".toList ++ s.address) ++ '>' :: []) := by simp
        have hrest : '>' ∉ front ∧ '>' ∉ rest := by simpa using hclose
        have hmid : '>' ∉ rest ++ " <".toList ++ s.address := by simp [hrest.2, s.noClosing]
        rw [extractEmailAddress, hsplit, between_of_pair hne [] hfront hrest.1 hmid,
          Option.some.injEq] at h
        have hlen := congrArg List.length h
        simp at hlen
        omega
      · by_cases hclose : '>' ∈ name
        · obtain ⟨front, rest, rfl, hfront⟩ := List.eq_append_cons_of_mem hclose
          have hopens : '<' ∉ front ∧ '<' ∉ rest := by simpa using hopen
          have hreversed : ClosesFirst '<' '>' (front ++ '>' :: rest ++ " <".toList ++ s.address ++ ['>']) :=
            ⟨front, rest ++ " <".toList ++ s.address ++ ['>'], by simp, hopens.1, hfront, by simp⟩
          rw [extractEmailAddress, between_of_closesFirst hne hreversed] at h
          cases h
        · exact .inl ⟨hopen, hclose⟩
    · have hsplit : front ++ '<' :: (mid ++ '>' :: back) ++ " <".toList ++ s.address ++ ['>'] =
          front ++ '<' :: (mid ++ '>' :: (back ++ " <".toList ++ s.address ++ ['>'])) := by simp
      rw [extractEmailAddress, hsplit, between_of_pair hne _ ho hc hmid, Option.some.injEq] at h
      subst h
      exact .inr ⟨front, back, rfl, ho, hc⟩
    · obtain ⟨front, rest, rfl, ho, hc, hmem⟩ := hfirst
      have hreversed : ClosesFirst '<' '>' (front ++ '>' :: rest ++ " <".toList ++ s.address ++ ['>']) :=
        ⟨front, rest ++ " <".toList ++ s.address ++ ['>'], by simp, ho, hc, by simp [hmem]⟩
      rw [extractEmailAddress, between_of_closesFirst hne hreversed] at h
      cases h
  · rintro (⟨hopen, hclose⟩ | ⟨front, back, rfl, ho, hc⟩)
    · rw [extractEmailAddress, hshown]
      exact between_of_pair hne [] (by simp [hopen]) (by simp [hclose]) s.noClosing
    · have hsplit : front ++ '<' :: (s.address ++ '>' :: back) ++ " <".toList ++ s.address ++ ['>'] =
          front ++ '<' :: (s.address ++ '>' :: (back ++ " <".toList ++ s.address ++ ['>'])) := by simp
      rw [extractEmailAddress, hsplit]
      exact between_of_pair hne _ ho hc s.noClosing

/-- The sender as it is stored is read back for exactly the harmless display names. -/
theorem extractEmailAddress_displayAddr (s : Sender) :
    extractEmailAddress (displayAddr s.toAddr) = some s.address ↔ s.NameHarmless := by
  unfold Sender.NameHarmless Sender.toAddr displayAddr
  cases s.name with
  | none => simpa using extractEmailAddress_bare s
  | some name => simpa using extractEmailAddress_named s name

/-- **Who a reply goes to.**  The trust check sees the address of the sender whatever the display name is;
a reply goes there exactly if the name does not put another text into brackets first. -/
theorem sameSender_iff (e : SenderMatch) (config : Config) (rcpt mailbox : Str) (raw : Bytes)
    (message : Message) (s : Sender) (others : List Addr) (a : Arrival) :
    SameSender e s (inboundMeta e config rcpt mailbox raw
      { message with from_ := some (s.toAddr :: others) } a) ↔ s.NameHarmless := by
  have hfrom : (inboundMeta e config rcpt mailbox raw
      { message with from_ := some (s.toAddr :: others) } a).from_ = displayAddr s.toAddr := rfl
  rw [← extractEmailAddress_displayAddr s]
  constructor
  · intro h
    rw [← hfrom]
    exact h.extract
  · intro h
    refine
      { trust := ?_
        extract := ?_
        reply := ?_ }
    · rw [hfrom]
      exact extractEmailForMatch_displayAddr e rfl s.noOpening s.noClosing
    · rw [hfrom]
      exact h
    · intro own params hown
      exact emailReplyArgs_eq hown (by rw [hfrom]; exact h) params

/-- A sender whose display name holds the address of somebody else. -/
def bracketedSender : Sender where
  name := some "Boss <eve@evil.example>".toList
  address := "boss@corp.example".toList
  noOpening := by decide
  noClosing := by decide

/-- The trust check sees the sender, and the reply goes to the other address. -/
theorem not_sameSender_bracketedSender :
    ¬ SameSender plainMatch bracketedSender (inboundMeta plainMatch verifiedConfig
      "b@example.org".toList "b".toList []
      { forgedMessage with from_ := some [bracketedSender.toAddr] } forgedArrival) := by
  intro h
  have hextract := h.extract
  revert hextract
  decide +kernel

end Mcp
end Aimx
