import Aimx.Ingest.Thread
import Aimx.Net.Spf
import Aimx.Setup.Prompts
import Aimx.Text.CaseMap
import Aimx.Text.QuotedStrings

/-!
# The DNS records of a domain

The setup prints the records that a domain needs and checks the answers of the zone against them.  The
answers come from a lookup tool, one record a line; how it prints an IPv6 address and how a failed check
prints what it found are parameters.

* `generateDnsRecords`, `verifyAllDns` — the generator and the checks of the source;
* `Dig.lines` — what is printed for the records of a `Zone`;
* `verifyAllDns_publishes` — a zone with the generated records passes every check;
* `verifyMx_pass_iff`, `verifySpf_pass_iff` — the zones that pass the check of the exchangers and of the
  sender policy;
* `checksMean_iff` — when a check that passes means what it says.
-/

namespace Aimx
namespace Setup

open Text Net Ingest

/-! ## The generated records -/

inductive RecordType
  | a
  | aaaa
  | mx
  | txt
  deriving DecidableEq

structure DnsRecord where
  recordType : RecordType
  name : Str
  value : Str
  deriving DecidableEq

/-- `dns_record_value`, over the public key. -/
def dkimRecordValue (key : Str) : Str := "v=DKIM1; k=rsa; p=".toList ++ key

def spfValue (serverIp : Str) (serverIpv6 : Option Str) : Str :=
  match serverIpv6 with
  | some ipv6 => "v=spf1 ip4:".toList ++ serverIp ++ " ip6:".toList ++ ipv6 ++ " -all".toList
  | none => "v=spf1 ip4:".toList ++ serverIp ++ " -all".toList

def dkimName (selector domain : Str) : Str := selector ++ "._domainkey.".toList ++ domain

def dmarcName (domain : Str) : Str := "_dmarc.".toList ++ domain

def dmarcValue (domain : Str) : Str := "v=DMARC1; p=reject; rua=mailto:postmaster@".toList ++ domain

/-- `generate_dns_records`. -/
def generateDnsRecords (domain serverIp : Str) (serverIpv6 : Option Str) (dkimValue dkimSelector : Str) :
    List DnsRecord :=
  [⟨.a, domain, serverIp⟩] ++ (serverIpv6.map fun ipv6 => DnsRecord.mk .aaaa domain ipv6).toList ++
    [⟨.mx, domain, "10 ".toList ++ domain ++ ['.']⟩, ⟨.txt, domain, spfValue serverIp serverIpv6⟩,
      ⟨.txt, dkimName dkimSelector domain, dkimValue⟩, ⟨.txt, dmarcName domain, dmarcValue domain⟩]

/-! ## The checks -/

/-- The lookups of `NetworkOps`. -/
structure NetworkOps where
  resolveMx : Str → Except Str (List Str)
  resolveA : Str → Except Str (List IpAddr)
  resolveAaaa : Str → Except Str (List IpAddr)
  resolveTxt : Str → Except Str (List Str)

/-- How lists of records and of addresses are printed in a message. -/
structure Debug where
  texts : List Str → Str
  addrs : List IpAddr → Str

inductive DnsVerifyResult
  | pass
  | fail (message : Str)
  | missing (message : Str)
  | warn (message : Str)
  deriving DecidableEq

section Checks

variable (debug : Debug) (net : NetworkOps)

/-- `verify_mx`. -/
def verifyMx (domain : Str) : DnsVerifyResult :=
  match net.resolveMx domain with
  | .ok records =>
      if records ≠ [] then
        if records.any fun r => toLowercase domain <:+: toLowercase r then .pass
        else .fail ("MX record found but does not point to ".toList ++ domain ++ ": ".toList ++
          debug.texts records)
      else .missing "No MX record found".toList
  | .error e => .fail ("MX lookup failed: ".toList ++ e)

/-- The check of an address, of A or AAAA records. -/
def verifyAddress (label : Str) (answer : Except Str (List IpAddr)) (expectedIp : IpAddr) :
    DnsVerifyResult :=
  match answer with
  | .ok addrs =>
      if addrs.contains expectedIp then .pass
      else if addrs ≠ [] then
        .fail (label ++ " record points to ".toList ++ debug.addrs addrs ++ ", expected ".toList ++
          expectedIp.display)
      else .missing ("No ".toList ++ label ++ " record found".toList)
  | .error e => .fail (label ++ " record lookup failed: ".toList ++ e)

/-- `verify_a`. -/
def verifyA (domain : Str) (expectedIp : IpAddr) : DnsVerifyResult :=
  verifyAddress debug "A".toList (net.resolveA domain) expectedIp

/-- `verify_aaaa`. -/
def verifyAaaa (domain : Str) (expectedIp : IpAddr) : DnsVerifyResult :=
  verifyAddress debug "AAAA".toList (net.resolveAaaa domain) expectedIp

/-- The text behind the name of an address mechanism. -/
def addressArgument (token : Str) : Option Str :=
  (stripPrefix "ip4:".toList token).or <| (stripPrefix "+ip4:".toList token).or <|
    (stripPrefix "ip6:".toList token).or <| stripPrefix "+ip6:".toList token

/-- `spf_contains_ip`. -/
def spfContainsIp (record expectedIp : Str) : Bool :=
  (words record).any fun token =>
    match addressArgument token with
    | some mechanism => mechanism.takeWhile (· ≠ '/') = expectedIp
    | none => false

/-- `verify_spf`. -/
def verifySpf (domain expectedIp : Str) : DnsVerifyResult :=
  match net.resolveTxt domain with
  | .ok records =>
      let spf := records.filter fun r => "v=spf1".toList <+: r
      if spf = [] then .missing "No SPF record found".toList
      else if spf.any fun r => spfContainsIp r expectedIp then .pass
      else .fail ("SPF record found but does not include ".toList ++ expectedIp ++ ": ".toList ++
        debug.texts spf)
  | .error e => .fail ("SPF lookup failed: ".toList ++ e)

/-- `extract_dkim_p_value`. -/
def extractDkimPValue (record : Str) : Option Str :=
  (record.splitOn ';').findSome? fun part =>
    match stripPrefix "p=".toList (trim part) with
    | some value =>
        let key := value.filter fun c => !isWhitespace c
        if key ≠ [] then some key else none
    | none => none

/-- `verify_dkim`. -/
def verifyDkim (domain selector : Str) (localPublicKey : Option Str) : DnsVerifyResult :=
  match net.resolveTxt (dkimName selector domain) with
  | .ok records =>
      let dkim := records.filter fun r => "v=DKIM1".toList <:+: r
      if dkim = [] then .missing "No DKIM record found".toList
      else
        match localPublicKey with
        | some localKey =>
            if dkim.any fun r => extractDkimPValue r = some (localKey.filter (· ≠ ' ')) then .pass
            else .fail "DKIM record found but public key does not match local key".toList
        | none => .pass
  | .error e => .fail ("DKIM lookup failed: ".toList ++ e)

/-- A record that asks for no enforcement. -/
def isPermissive (record : Str) : Bool :=
  (record.splitOn ';').any fun part => eqIgnoreAsciiCase (trim part) "p=none".toList

/-- `verify_dmarc`. -/
def verifyDmarc (domain : Str) : DnsVerifyResult :=
  match net.resolveTxt (dmarcName domain) with
  | .ok records =>
      let dmarc := records.filter fun r => "v=DMARC1".toList <:+: r
      if dmarc = [] then .missing "No DMARC record found".toList
      else if dmarc.any isPermissive then
        .warn ("DMARC record uses p=none (no enforcement). ".toList ++
          "Consider p=quarantine or p=reject for production.".toList)
      else .pass
  | .error e => .fail ("DMARC lookup failed: ".toList ++ e)

/-- `verify_all_dns`: each check with its name. -/
def verifyAllDns (domain : Str) (serverIp : IpAddr) (serverIpv6 : Option IpAddr) (dkimSelector : Str)
    (localDkimPubkey : Option Str) : List (Str × DnsVerifyResult) :=
  [("A".toList, verifyA debug net domain serverIp)] ++
  (serverIpv6.map fun ipv6 => ("AAAA".toList, verifyAaaa debug net domain ipv6)).toList ++
  [("MX".toList, verifyMx debug net domain), ("SPF".toList, verifySpf debug net domain serverIp.display)] ++
  (serverIpv6.map fun ipv6 => ("SPF (IPv6)".toList, verifySpf debug net domain ipv6.display)).toList ++
  [("DKIM".toList, verifyDkim net domain dkimSelector localDkimPubkey),
    ("DMARC".toList, verifyDmarc net domain)]

end Checks

/-! ## Zones and lookups -/

/-- A host name as it is printed: visible ASCII characters. -/
structure DnsName where
  text : Str
  ne : text ≠ []
  visible : ∀ c ∈ text, '!' ≤ c ∧ c ≤ '~'

structure MxData where
  preference : Nat
  exchange : DnsName

def MxData.text (d : MxData) : Str := decimal d.preference ++ ' ' :: d.exchange.text

/-- The records of a zone: for each name the addresses, the mail exchangers, and the TXT records with their
strings. -/
structure Zone where
  a : Str → List Ipv4Addr
  aaaa : Str → List Ipv6Addr
  mx : Str → List MxData
  txt : Str → List (List Str)

/-- The lookup tool: it prints IPv6 addresses so that they can be read back. -/
structure Dig where
  printV6 : Ipv6Addr → Str
  reads : ∀ ip, parseIpAddr (trim (printV6 ip)) = some (.v6 ip)

/-- The lines that are printed for the records of one type and name. -/
def Dig.lines (dig : Dig) (zone : Zone) : RecordType → Str → List Str
  | .a, name => (zone.a name).map Ipv4Addr.display
  | .aaaa, name => (zone.aaaa name).map dig.printV6
  | .mx, name => (zone.mx name).map MxData.text
  | .txt, name => (zone.txt name).map txtLine

/-- The lines of an answer that `dig_with_cascade` returns. -/
def answerLines (stdout : List Str) : List Str := (stdout.filter fun l => trim l ≠ []).map trim

/-- `RealNetworkOps`, over the lines that come from a lookup. -/
def realNetworkOps (stdout : RecordType → Str → Except Str (List Str)) : NetworkOps where
  resolveMx := fun domain => (stdout .mx domain).map answerLines
  resolveA := fun domain => (stdout .a domain).map fun l => (answerLines l).filterMap parseIpAddr
  resolveAaaa := fun domain => (stdout .aaaa domain).map fun l => (answerLines l).filterMap parseIpAddr
  resolveTxt := fun domain => (stdout .txt domain).map fun l => (answerLines l).map unquoteTxt

/-- The lookups of a zone. -/
def zoneOps (dig : Dig) (zone : Zone) : NetworkOps :=
  realNetworkOps fun recordType name => .ok (dig.lines zone recordType name)

/-! ## What the checks promise -/

section Promises

variable (dig : Dig) (zone : Zone) (domain : Str)

/-- The values of the TXT records of a name. -/
def Zone.txtValues (name : Str) : List Str := (zone.txt name).map List.flatten

/-- The generated records of one type and name. -/
def valuesOf (records : List DnsRecord) (recordType : RecordType) (name : Str) : List Str :=
  (records.filter fun r => r.recordType = recordType ∧ r.name = name).map DnsRecord.value

/-- A TXT value with one of the three versions in it. -/
def IsRelated (value : Str) : Prop :=
  "v=spf1".toList <:+: value ∨ "v=DKIM1".toList <:+: value ∨ "v=DMARC1".toList <:+: value

instance (value : Str) : Decidable (IsRelated value) := inferInstanceAs (Decidable (_ ∨ _ ∨ _))

/-- The zone answers with exactly these records and, beside them, unrelated TXT records. -/
structure Publishes (records : List DnsRecord) : Prop where
  a : ∀ name, ((zone.a name).map Ipv4Addr.display).Perm (valuesOf records .a name)
  aaaa : ∀ name, ((zone.aaaa name).map Ipv6Addr.display).Perm (valuesOf records .aaaa name)
  mx : ∀ name, ((zone.mx name).map MxData.text).Perm (valuesOf records .mx name)
  txt : ∀ name, ((zone.txtValues name).filter IsRelated).Perm (valuesOf records .txt name)

/-- The host is the domain, up to letter case and the dot at its end. -/
def DnsName.IsHost (name : DnsName) (domain : Str) : Prop :=
  toAsciiLowercase name.text = toAsciiLowercase domain ∨
    toAsciiLowercase name.text = toAsciiLowercase domain ++ ['.']

/-- A term of a policy that is one of the three mechanisms, with any argument. -/
def IsAddressTerm (term : Str) : Prop :=
  eqIgnoreAsciiCase (Spf.cutQualifier term).2 "all".toList = true ∨
    eqIgnoreAsciiCase ((Spf.cutQualifier term).2.take 4) "ip4:".toList = true ∨
      eqIgnoreAsciiCase ((Spf.cutQualifier term).2.take 4) "ip6:".toList = true

/-- The policies of a domain are built from the mechanisms `all`, `ip4` and `ip6`. -/
def BuiltFromAddresses (texts : List Str) : Prop :=
  ∀ text ∈ texts, eqIgnoreAsciiCase (text.take 6) "v=spf1".toList = true →
    ∀ term ∈ Spf.terms text, IsAddressTerm term

/-- A public key as it is printed in a record: base64. -/
structure DkimPublicKey where
  text : Str
  ne : text ≠ []
  base64 : ∀ c ∈ text, c.isAlphanum = true ∨ c = '+' ∨ c = '/' ∨ c = '='

/-- **What a green check says.**  A zone with the generated records passes every check; a zone that passes
the check of the exchangers has the domain among them; and one that passes the check of the policy for an
address of the server gives `pass` for that address. -/
structure ChecksMean (debug : Debug) (ipv4 : Ipv4Addr) (ipv6 : Option Ipv6Addr) (selector : Str)
    (key : DkimPublicKey) : Prop where
  complete : Publishes zone (generateDnsRecords domain ipv4.display (ipv6.map Ipv6Addr.display)
      (dkimRecordValue key.text) selector) →
    ∀ check ∈ verifyAllDns debug (zoneOps dig zone) domain (.v4 ipv4) (ipv6.map IpAddr.v6) selector
      (some key.text), check.2 = .pass
  mx : verifyMx debug (zoneOps dig zone) domain = .pass →
    ∃ d ∈ zone.mx domain, d.exchange.IsHost domain
  spf : BuiltFromAddresses (zone.txtValues domain) →
    ∀ ip : IpAddr, ip = .v4 ipv4 ∨ ip ∈ ipv6.map IpAddr.v6 →
      verifySpf debug (zoneOps dig zone) domain ip.display = .pass →
        Spf.checkHost (zone.txtValues domain) ip = .pass

/-! ## When they keep it -/

/-- Where the name of the domain stands in that of an exchanger, the domain is an exchanger itself. -/
def MxClear : Prop :=
  (∃ d ∈ zone.mx domain, toAsciiLowercase domain <:+: toAsciiLowercase d.exchange.text) →
    ∃ d ∈ zone.mx domain, d.exchange.IsHost domain

/-- A term `ip4:` or `ip6:` with the address, with or without a plus sign in front and a slash behind. -/
def NamesAddress (ip : IpAddr) (term : Str) : Prop :=
  ∃ scheme tail, (scheme = "ip4".toList ∨ scheme = "ip6".toList) ∧ (tail = [] ∨ tail.head? = some '/') ∧
    (term = scheme ++ ':' :: (ip.display ++ tail) ∨ term = '+' :: (scheme ++ ':' :: (ip.display ++ tail)))

/-- A TXT answer that begins with the version names the address. -/
def Named (ip : IpAddr) : Prop :=
  ∃ strings ∈ zone.txt domain, "v=spf1".toList <+: unquoteTxt (txtLine strings) ∧
    ∃ word ∈ words (unquoteTxt (txtLine strings)), NamesAddress ip word

/-- The ways in which a domain that names an address does not let it pass. -/
inductive Misleads (texts : List Str) (ip : IpAddr) : Prop
  /-- There is not exactly one policy. -/
  | policies (h : (texts.filter Spf.isRecord).length ≠ 1)
  /-- A term of the policy is malformed. -/
  | malformed {text term : Str} (htext : text ∈ texts) (hrecord : Spf.isRecord text = true)
      (hterm : term ∈ Spf.terms text) (h : Spf.parseDirective term = none)
  /-- A term with another qualifier matches the address before any other does. -/
  | overruled {text : Str} {ds : List Spf.Directive} {d : Spf.Directive} (htext : text ∈ texts)
      (hrecord : Spf.isRecord text = true) (hds : (Spf.terms text).mapM Spf.parseDirective = some ds)
      (hd : Spf.Decides ip ds d) (h : d.qualifier ≠ .pass)
  /-- The address is named in another record only, and no term of the policy matches it. -/
  | elsewhere {text : Str} {ds : List Spf.Directive} (htext : text ∈ texts)
      (hrecord : Spf.isRecord text = true) (hds : (Spf.terms text).mapM Spf.parseDirective = some ds)
      (hunnamed : ∀ term ∈ Spf.terms text, ¬ NamesAddress ip term)
      (h : ∀ d ∈ ds, ¬ d.mechanism.Matches ip)

/-- A named address is not misled. -/
def SpfClear (ip : IpAddr) : Prop :=
  BuiltFromAddresses (zone.txtValues domain) → Named zone domain ip →
    ¬ Misleads (zone.txtValues domain) ip

end Promises

/-! ## The policy -/

section Policy

variable {dig : Dig} {zone : Zone} {domain : Str} {debug : Debug}

theorem takeWhile_slash {v tail : Str} (hv : '/' ∉ v) (h : tail = [] ∨ tail.head? = some '/') :
    (v ++ tail).takeWhile (· ≠ '/') = v := by
  have hfront : ∀ c ∈ v, decide (c ≠ '/') = true := fun c hc => decide_eq_true fun heq => hv (heq ▸ hc)
  rw [List.takeWhile_append_of_pos hfront]
  cases tail with
  | nil => rw [List.takeWhile_nil, List.append_nil]
  | cons c tail =>
      have hc : c = '/' := by simpa using h
      rw [hc, List.takeWhile_cons_of_neg (by decide), List.append_nil]

/-- An argument that is the address up to its slash. -/
theorem takeWhile_slash_iff {mechanism : Str} {ip : IpAddr} :
    mechanism.takeWhile (· ≠ '/') = ip.display ↔
      ∃ tail, (tail = [] ∨ tail.head? = some '/') ∧ mechanism = ip.display ++ tail := by
  constructor
  · intro h
    refine ⟨mechanism.dropWhile (· ≠ '/'), ?_, by rw [← h, List.takeWhile_append_dropWhile]⟩
    cases hdrop : mechanism.dropWhile (· ≠ '/') with
    | nil => exact .inl rfl
    | cons c tail =>
        have hc := List.head?_dropWhile_not (· ≠ '/') mechanism
        rw [hdrop] at hc
        exact .inr (by simpa using hc)
  · rintro ⟨tail, htail, rfl⟩
    exact takeWhile_slash (Spf.slash_notMem_display ip) htail

/-- The four prefixes of the scan. -/
theorem addressArgument_eq_some_iff {token mechanism : Str} : addressArgument token = some mechanism ↔
    ∃ scheme, (scheme = "ip4".toList ∨ scheme = "ip6".toList) ∧
      (token = scheme ++ ':' :: mechanism ∨ token = '+' :: (scheme ++ ':' :: mechanism)) := by
  unfold addressArgument
  simp only [Option.or_eq_some_iff, stripPrefix_eq_some_iff]
  constructor
  · rintro (rfl | ⟨-, rfl | ⟨-, rfl | ⟨-, rfl⟩⟩⟩)
    · exact ⟨_, .inl rfl, .inl rfl⟩
    · exact ⟨_, .inl rfl, .inr rfl⟩
    · exact ⟨_, .inr rfl, .inl rfl⟩
    · exact ⟨_, .inr rfl, .inr rfl⟩
  · rintro ⟨scheme, rfl | rfl, rfl | rfl⟩
    · exact .inl rfl
    · exact .inr ⟨rfl, .inl rfl⟩
    · exact .inr ⟨rfl, .inr ⟨rfl, .inl rfl⟩⟩
    · exact .inr ⟨rfl, .inr ⟨rfl, .inr ⟨rfl, rfl⟩⟩⟩

/-- The token scan finds the terms that name the address. -/
theorem spfContainsIp_iff {record : Str} {ip : IpAddr} :
    spfContainsIp record ip.display = true ↔ ∃ word ∈ words record, NamesAddress ip word := by
  unfold spfContainsIp
  rw [List.any_eq_true]
  refine exists_congr fun word => and_congr_right fun _ => ?_
  cases hargument : addressArgument word with
  | none =>
      constructor
      · intro h
        cases h
      · rintro ⟨scheme, tail, hscheme, -, hword⟩
        rw [addressArgument_eq_some_iff.mpr ⟨scheme, hscheme, hword⟩] at hargument
        cases hargument
  | some mechanism =>
      dsimp only
      rw [decide_eq_true_eq, takeWhile_slash_iff]
      constructor
      · rintro ⟨tail, htail, rfl⟩
        obtain ⟨scheme, hscheme, hword⟩ := addressArgument_eq_some_iff.mp hargument
        exact ⟨scheme, tail, hscheme, htail, hword⟩
      · rintro ⟨scheme, tail, hscheme, htail, hword⟩
        rw [addressArgument_eq_some_iff.mpr ⟨scheme, hscheme, hword⟩] at hargument
        exact ⟨tail, htail, (Option.some.inj hargument).symm⟩

/-- A term that names an address matches it, when it is well formed. -/
theorem NamesAddress.matches {ip : IpAddr} {term : Str} {d : Spf.Directive} (h : NamesAddress ip term)
    (hd : Spf.parseDirective term = some d) : d.mechanism.Matches ip := by
  obtain ⟨scheme, tail, hscheme, htail, rfl | rfl⟩ := h
  · exact (Spf.matches_of_parseDirective hscheme htail hd).2
  · -- a plus sign is the default
    have hplus : Spf.parseDirective ('+' :: (scheme ++ ':' :: (ip.display ++ tail))) =
        Spf.parseDirective (scheme ++ ':' :: (ip.display ++ tail)) := by
      rcases hscheme with rfl | rfl <;> rfl
    rw [hplus] at hd
    exact (Spf.matches_of_parseDirective hscheme htail hd).2

/-- The policies of a domain with exactly one. -/
theorem eq_of_mem_filter {texts : List Str} {text text' : Str} (h : texts.filter Spf.isRecord = [text])
    (hmem : text' ∈ texts) (hrecord : Spf.isRecord text' = true) : text' = text := by
  have hfilter : text' ∈ texts.filter Spf.isRecord := List.mem_filter.mpr ⟨hmem, hrecord⟩
  rw [h] at hfilter
  exact List.mem_singleton.mp hfilter

/-- An address passes exactly when the domain does not mislead. -/
theorem checkHost_eq_pass_iff_not_misleads {texts : List Str} {ip : IpAddr} :
    Spf.checkHost texts ip = .pass ↔ ¬ Misleads texts ip := by
  rw [Spf.checkHost_eq_pass_iff]
  constructor
  · rintro ⟨text, ds, d, hfilter, hds, hdecides, hpass⟩ hmisleads
    cases hmisleads with
    | policies h => exact h (by rw [hfilter]; rfl)
    | malformed htext hrecord hterm h =>
        obtain rfl := eq_of_mem_filter hfilter htext hrecord
        rcases Spf.parse_cases (Spf.terms _) with ⟨-, hnone⟩ | ⟨ds', hds', hmap⟩
        · rw [hnone] at hds
          cases hds
        · have hmem := List.mem_map_of_mem (f := Spf.parseDirective) hterm
          rw [hmap, h] at hmem
          simp at hmem
    | overruled htext hrecord hds' hd h =>
        obtain rfl := eq_of_mem_filter hfilter htext hrecord
        rw [hds] at hds'
        cases hds'
        exact h (hd.unique hdecides ▸ hpass)
    | elsewhere htext hrecord hds' hunnamed h =>
        obtain rfl := eq_of_mem_filter hfilter htext hrecord
        rw [hds] at hds'
        cases hds'
        exact h d hdecides.mem hdecides.matches
  · intro hclear
    have hone : (texts.filter Spf.isRecord).length = 1 := by
      by_contra hne
      exact hclear (.policies hne)
    obtain ⟨text, hfilter⟩ := List.length_eq_one_iff.mp hone
    have hmem : text ∈ texts ∧ Spf.isRecord text = true := by
      rw [← List.mem_filter, hfilter]
      exact List.mem_singleton_self text
    rcases Spf.parse_cases (Spf.terms text) with ⟨⟨term, hterm, hnone⟩, -⟩ | ⟨ds, hds, hmap⟩
    · exact absurd (.malformed hmem.1 hmem.2 hterm hnone) hclear
    have hmatches : ∃ d ∈ ds, d.mechanism.Matches ip := by
      by_contra hnone
      refine hclear (.elsewhere hmem.1 hmem.2 hds (fun term hterm hnamed => ?_) ?_)
      · have hparsed := List.mem_map_of_mem (f := Spf.parseDirective) hterm
        rw [hmap] at hparsed
        obtain ⟨d, hd, heq⟩ := List.mem_map.mp hparsed
        exact hnone ⟨d, hd, hnamed.matches heq.symm⟩
      · exact fun d hd hmatches => hnone ⟨d, hd, hmatches⟩
    obtain ⟨d, hdecides⟩ := Spf.exists_decides hmatches
    refine ⟨text, ds, d, hfilter, hds, hdecides, ?_⟩
    by_contra hpass
    exact hclear (.overruled hmem.1 hmem.2 hds hdecides hpass)

/-! ## The answers of a zone -/

/-- Text between visible characters has no white space to trim. -/
theorem trim_quoted (l : Str) {a b : Char} (ha : isWhitespace a = false) (hb : isWhitespace b = false) :
    trim (a :: (l ++ [b])) = a :: (l ++ [b]) := by
  have hstart : trimStart (a :: (l ++ [b])) = a :: (l ++ [b]) :=
    List.dropWhile_cons_of_neg (by simp [ha])
  rw [trim, hstart, ← List.cons_append, trimEnd_concat_visible _ hb]

/-- An answer line is not changed. -/
theorem trim_txtLine (s : Str) (ss : List Str) : trim (txtLine (s :: ss)) = txtLine (s :: ss) := by
  have hend : ∀ (ss : List Str) (s : Str), ∃ l, withinQuotes s ss = l ++ ['"'] := by
    intro ss
    induction ss with
    | nil => exact fun s => ⟨_, rfl⟩
    | cons t ts ih =>
        intro s
        obtain ⟨l, hl⟩ := ih t
        refine ⟨s.flatMap escapeTxt ++ '"' :: ' ' :: '"' :: l, ?_⟩
        rw [withinQuotes, hl]
        simp
  obtain ⟨l, hl⟩ := hend ss s
  have hline : txtLine (s :: ss) = '"' :: (l ++ ['"']) := by
    rw [← hl]
    rfl
  rw [hline]
  exact trim_quoted l (by decide) (by decide)

theorem mem_answerLines {stdout : List Str} {l : Str} :
    l ∈ answerLines stdout ↔ ∃ line ∈ stdout, trim line ≠ [] ∧ trim line = l := by
  unfold answerLines
  simp only [List.mem_map, List.mem_filter, decide_eq_true_eq, and_assoc]

/-- The TXT answers are the unquoted lines of the records. -/
theorem mem_resolveTxt {name l : Str} : l ∈ (answerLines (dig.lines zone .txt name)).map unquoteTxt ↔
    ∃ strings ∈ zone.txt name, strings ≠ [] ∧ l = unquoteTxt (txtLine strings) := by
  rw [List.mem_map]
  constructor
  · rintro ⟨line, hline, rfl⟩
    obtain ⟨line, hmem, hne, rfl⟩ := mem_answerLines.mp hline
    obtain ⟨strings, hstrings, rfl⟩ := List.mem_map.mp hmem
    cases strings with
    | nil => exact absurd rfl hne
    | cons s ss => exact ⟨s :: ss, hstrings, by simp, by rw [trim_txtLine]⟩
  · rintro ⟨strings, hstrings, hne, rfl⟩
    obtain ⟨s, ss, rfl⟩ := List.exists_cons_of_ne_nil hne
    refine ⟨_, mem_answerLines.mpr ⟨_, List.mem_map_of_mem hstrings, ?_, trim_txtLine s ss⟩, rfl⟩
    rw [trim_txtLine]
    simp [txtLine]

theorem isWhitespace_of_visible {c : Char} (h : '!' ≤ c ∧ c ≤ '~') : isWhitespace c = false := by
  have hlow : 33 ≤ c.toNat := UInt32.le_iff_toNat_le.mp h.1
  have hhigh : c.toNat ≤ 126 := UInt32.le_iff_toNat_le.mp h.2
  unfold isWhitespace
  simp only [Bool.or_eq_false_iff, Bool.and_eq_false_iff, decide_eq_false_iff_not, beq_eq_false_iff_ne]
  omega

theorem trim_mxData (d : MxData) : trim d.text = d.text := by
  obtain ⟨digit, digits, hdecimal⟩ := List.exists_cons_of_ne_nil (decimal_ne_nil d.preference)
  have hdigit : isWhitespace digit = false := by
    apply isWhitespace_of_isDigit
    exact isDigit_of_mem_decimal (n := d.preference) (hdecimal ▸ List.mem_cons_self)
  have hlast := d.exchange.visible _ (List.getLast_mem d.exchange.ne)
  unfold MxData.text
  have hends : digit :: digits ++ ' ' :: d.exchange.text =
      digit :: (digits ++ ' ' :: d.exchange.text.dropLast ++ [d.exchange.text.getLast d.exchange.ne]) := by
    rw [List.append_assoc, List.cons_append, List.cons_append, List.dropLast_append_getLast]
  rw [hdecimal, hends]
  exact trim_quoted _ hdigit (isWhitespace_of_visible hlast)

/-- The exchanger answers are the lines of the records. -/
theorem mem_resolveMx {l : Str} :
    l ∈ answerLines (dig.lines zone .mx domain) ↔ ∃ d ∈ zone.mx domain, l = d.text := by
  rw [mem_answerLines]
  constructor
  · rintro ⟨line, hmem, -, rfl⟩
    obtain ⟨d, hd, rfl⟩ := List.mem_map.mp hmem
    exact ⟨d, hd, trim_mxData d⟩
  · rintro ⟨d, hd, rfl⟩
    refine ⟨d.text, List.mem_map_of_mem hd, ?_, trim_mxData d⟩
    rw [trim_mxData]
    unfold MxData.text
    simp

/-- The zones that pass the check of the policy. -/
theorem verifySpf_pass_iff {ip : IpAddr} :
    verifySpf debug (zoneOps dig zone) domain ip.display = .pass ↔ Named zone domain ip := by
  have hanswer : (zoneOps dig zone).resolveTxt domain =
      .ok ((answerLines (dig.lines zone .txt domain)).map unquoteTxt) := rfl
  unfold verifySpf
  rw [hanswer]
  dsimp only
  have hnamed : Named zone domain ip ↔ (((answerLines (dig.lines zone .txt domain)).map unquoteTxt).filter
      fun r => "v=spf1".toList <+: r).any (fun r => spfContainsIp r ip.display) = true := by
    rw [List.any_eq_true]
    constructor
    · rintro ⟨strings, hstrings, hversion, hword⟩
      have hne : strings ≠ [] := by
        rintro rfl
        exact absurd hversion (by decide)
      refine ⟨_, List.mem_filter.mpr ⟨mem_resolveTxt.mpr ⟨strings, hstrings, hne, rfl⟩, ?_⟩, ?_⟩
      · exact decide_eq_true hversion
      · exact spfContainsIp_iff.mpr hword
    · rintro ⟨l, hl, hcontains⟩
      obtain ⟨hl, hversion⟩ := List.mem_filter.mp hl
      obtain ⟨strings, hstrings, -, rfl⟩ := mem_resolveTxt.mp hl
      exact ⟨strings, hstrings, of_decide_eq_true hversion, spfContainsIp_iff.mp hcontains⟩
  rw [hnamed]
  split
  next hnil =>
      rw [hnil]
      simp
  next =>
      split
      next hany => exact ⟨fun _ => hany, fun _ => rfl⟩
      next hany =>
          constructor
          · intro h
            cases h
          · exact fun h => absurd h hany

end Policy

/-! ## The exchangers -/

section Exchangers

variable {dig : Dig} {zone : Zone} {domain : Str} {debug : Debug}

/-- The characters of a label that has no fault. -/
theorem labelFault_eq_none {label : Str} (h : labelFault label = none) :
    ∀ c ∈ label, c.isAlphanum = true ∨ c = '-' := by
  unfold labelFault at h
  split at h
  next => cases h
  next =>
      split at h
      next => cases h
      next =>
          split at h
          next => cases h
          next hall =>
              intro c hc
              rw [Bool.not_eq_true, Bool.not_eq_false'] at hall
              simpa using List.all_eq_true.mp hall c hc

/-- The characters of a text are those of its parts and the separator. -/
theorem mem_of_mem_splitOn {s : Str} {x c : Char} (h : c ∈ s) : c = x ∨ ∃ part ∈ s.splitOn x, c ∈ part := by
  induction s with
  | nil => cases h
  | cons d s ih =>
      rw [List.splitOn_cons_eq_if_modifyHead]
      split
      next hd =>
          rcases List.mem_cons.mp h with rfl | h
          · exact .inl (beq_iff_eq.mp hd)
          · refine (ih h).imp_right ?_
            rintro ⟨part, hpart, hc⟩
            exact ⟨part, List.mem_cons_of_mem _ hpart, hc⟩
      next hd =>
          obtain ⟨first, more, heq⟩ := List.exists_cons_of_ne_nil (List.splitOn_ne_nil x s)
          rw [heq] at ih ⊢
          rw [List.modifyHead_cons]
          rcases List.mem_cons.mp h with rfl | h
          · exact .inr ⟨_, List.mem_cons_self, List.mem_cons_self⟩
          · refine (ih h).imp_right ?_
            rintro ⟨part, hpart, hc⟩
            rcases List.mem_cons.mp hpart with rfl | hpart
            · exact ⟨_, List.mem_cons_self, List.mem_cons_of_mem _ hc⟩
            · exact ⟨part, List.mem_cons_of_mem _ hpart, hc⟩

/-- The characters of a valid domain. -/
theorem validateDomain_chars (h : validateDomain domain = .ok ()) :
    (∀ c ∈ domain, c.isAlphanum = true ∨ c = '-' ∨ c = '.') ∧ '.' ∈ domain := by
  unfold validateDomain at h
  split at h
  next => cases h
  split at h
  next => cases h
  split at h
  next => cases h
  next hfaults =>
      split at h
      next => cases h
      next hlabels =>
          constructor
          · intro c hc
            rcases @mem_of_mem_splitOn domain '.' c hc with rfl | ⟨label, hlabel, hmem⟩
            · exact .inr (.inr rfl)
            · rcases labelFault_eq_none (List.findSome?_eq_none_iff.mp hfaults label hlabel) c hmem with h | h
              · exact .inl h
              · exact .inr (.inl h)
          · by_contra hdot
            rw [List.splitOn_eq_singleton hdot] at hlabels
            exact hlabels (Nat.lt_succ_self 1)

/-- The code of a letter or a digit. -/
theorem code_of_isAlphanum {c : Char} (h : c.isAlphanum = true) :
    48 ≤ c.toNat ∧ c.toNat ≤ 57 ∨ 65 ≤ c.toNat ∧ c.toNat ≤ 90 ∨ 97 ≤ c.toNat ∧ c.toNat ≤ 122 := by
  change ((c.isUpper || c.isLower) || c.isDigit) = true at h
  rw [Bool.or_eq_true, Bool.or_eq_true] at h
  rcases h with (hupper | hlower) | hdigit
  · have hval : 'A'.val ≤ c.val ∧ c.val ≤ 'Z'.val := of_decide_eq_true hupper
    exact .inr (.inl ⟨UInt32.le_iff_toNat_le.mp hval.1, UInt32.le_iff_toNat_le.mp hval.2⟩)
  · have hval : (decide ('a'.val ≤ c.val) && decide (c.val ≤ 'z'.val)) = true := hlower
    rw [Bool.and_eq_true, decide_eq_true_eq, decide_eq_true_eq] at hval
    exact .inr (.inr ⟨UInt32.le_iff_toNat_le.mp hval.1, UInt32.le_iff_toNat_le.mp hval.2⟩)
  · have hval : (decide ('0'.val ≤ c.val) && decide (c.val ≤ '9'.val)) = true := hdigit
    rw [Bool.and_eq_true, decide_eq_true_eq, decide_eq_true_eq] at hval
    exact .inl ⟨UInt32.le_iff_toNat_le.mp hval.1, UInt32.le_iff_toNat_le.mp hval.2⟩

/-- A valid domain is visible ASCII text. -/
theorem validateDomain_visible (h : validateDomain domain = .ok ()) {c : Char} (hc : c ∈ domain) :
    (45 ≤ c.toNat ∧ c.toNat ≤ 57 ∧ c.toNat ≠ 47) ∨ 65 ≤ c.toNat ∧ c.toNat ≤ 90 ∨
      97 ≤ c.toNat ∧ c.toNat ≤ 122 := by
  rcases (validateDomain_chars h).1 c hc with h | rfl | rfl
  · have hcode := code_of_isAlphanum h
    omega
  · decide
  · decide

/-- ASCII text is lower-cased letter by letter. -/
theorem toLowercase_ascii {s : Str} (h : ∀ c ∈ s, c.toNat < 128) : toLowercase s = toAsciiLowercase s := by
  induction s with
  | nil => rfl
  | cons c s ih =>
      have hc := h c List.mem_cons_self
      have hchar : charLowercase c = [c.toLower] := by
        unfold charLowercase
        split
        next heq => omega
        next heq => omega
        next => rfl
      have hrest := ih fun c' hc' => h c' (List.mem_cons_of_mem _ hc')
      unfold toLowercase at hrest ⊢
      rw [List.flatMap_cons, hchar, hrest]
      rfl

/-- A text without a separator lies on one side of it. -/
theorem infix_append_cons {w a b : Str} {x : Char} (hx : x ∉ w) (h : w <:+: a ++ x :: b) :
    w <:+: a ∨ w <:+: b := by
  have hfront' : ∀ a : Str, w <+: a ++ x :: b → w <+: a := by
    intro a hw
    rcases List.prefix_or_prefix_of_prefix hw (List.prefix_append a (x :: b)) with hwa | ⟨t, rfl⟩
    · exact hwa
    · cases t with
      | nil => rw [List.append_nil]
      | cons c t =>
          rw [List.prefix_append_right_inj] at hw
          have hc := (List.cons_prefix_cons.mp hw).1
          exact absurd (List.mem_append_right _ (hc ▸ List.mem_cons_self)) hx
  induction a with
  | nil =>
      rcases List.infix_cons_iff.mp h with hw | hw
      · exact .inl (hfront' [] hw).isInfix
      · exact .inr hw
  | cons c a ih =>
      rcases List.infix_cons_iff.mp h with hw | hw
      · exact .inl (hfront' (c :: a) hw).isInfix
      · exact (ih hw).imp_left fun hwa => hwa.trans (List.suffix_cons c a).isInfix

/-- The name of a domain stands in the line of an exchanger when it stands in its host. -/
theorem infix_text_iff (hdomain : validateDomain domain = .ok ()) {d : MxData} :
    toLowercase domain <:+: toLowercase d.text ↔
      toAsciiLowercase domain <:+: toAsciiLowercase d.exchange.text := by
  have hascii : ∀ c ∈ domain, c.toNat < 128 := by
    intro c hc
    have hcode := validateDomain_visible hdomain hc
    omega
  have hdigit : ∀ c ∈ decimal d.preference, 48 ≤ c.toNat ∧ c.toNat ≤ 57 := by
    intro c hc
    have h := isDigit_of_mem_decimal hc
    simp only [Char.isDigit, Bool.and_eq_true, decide_eq_true_eq] at h
    exact ⟨UInt32.le_iff_toNat_le.mp h.1, UInt32.le_iff_toNat_le.mp h.2⟩
  have htext : ∀ c ∈ d.text, c.toNat < 128 := by
    intro c hc
    rcases List.mem_append.mp hc with hc | hc
    · have h := hdigit c hc
      omega
    · rcases List.mem_cons.mp hc with rfl | hc
      · decide
      · have h : c.toNat ≤ 126 := UInt32.le_iff_toNat_le.mp (d.exchange.visible c hc).2
        omega
  have hline : toAsciiLowercase d.text = toAsciiLowercase (decimal d.preference) ++
      ' ' :: toAsciiLowercase d.exchange.text := by
    unfold MxData.text toAsciiLowercase
    rw [List.map_append, List.map_cons]
    rfl
  rw [toLowercase_ascii hascii, toLowercase_ascii htext, hline]
  constructor
  · intro h
    have hspace : ' ' ∉ toAsciiLowercase domain := by
      intro hmem
      obtain ⟨c, hc, heq⟩ := List.mem_map.mp hmem
      rw [eq_of_toLower_eq (by decide) heq] at hc
      have hcode := validateDomain_visible hdomain hc
      revert hcode
      decide
    rcases infix_append_cons hspace h with hfront | hback
    · -- the number has no dot
      have hdot : '.' ∈ toAsciiLowercase domain :=
        List.mem_map.mpr ⟨'.', (validateDomain_chars hdomain).2, rfl⟩
      obtain ⟨c, hc, heq⟩ := List.mem_map.mp (hfront.subset hdot)
      have hnumber := hdigit c hc
      rw [eq_of_toLower_eq (by decide) heq] at hnumber
      exact absurd hnumber.1 (by decide)
    · exact hback
  · intro h
    exact h.trans ((List.suffix_cons ' ' _).trans (List.suffix_append _ _)).isInfix

/-- The zones that pass the check of the exchangers. -/
theorem verifyMx_pass_iff (hdomain : validateDomain domain = .ok ()) :
    verifyMx debug (zoneOps dig zone) domain = .pass ↔
      ∃ d ∈ zone.mx domain, toAsciiLowercase domain <:+: toAsciiLowercase d.exchange.text := by
  have hanswer : (zoneOps dig zone).resolveMx domain = .ok (answerLines (dig.lines zone .mx domain)) := rfl
  have hany : ((answerLines (dig.lines zone .mx domain)).any
        fun r => toLowercase domain <:+: toLowercase r) = true ↔
      ∃ d ∈ zone.mx domain, toAsciiLowercase domain <:+: toAsciiLowercase d.exchange.text := by
    rw [List.any_eq_true]
    constructor
    · rintro ⟨l, hl, hcontains⟩
      obtain ⟨d, hd, rfl⟩ := mem_resolveMx.mp hl
      exact ⟨d, hd, (infix_text_iff hdomain).mp (of_decide_eq_true hcontains)⟩
    · rintro ⟨d, hd, hcontains⟩
      exact ⟨d.text, mem_resolveMx.mpr ⟨d, hd, rfl⟩,
        decide_eq_true ((infix_text_iff hdomain).mpr hcontains)⟩
  unfold verifyMx
  rw [hanswer, ← hany]
  dsimp only
  split
  next =>
      split
      next h => exact ⟨fun _ => h, fun _ => rfl⟩
      next h =>
          constructor
          · intro hpass
            cases hpass
          · exact fun hcontains => absurd hcontains h
  next hnil =>
      rw [not_not.mp hnil]
      constructor
      · intro hpass
        cases hpass
      · intro hcontains
        cases hcontains

end Exchangers

/-! ## A zone with the generated records -/

section Complete

variable {dig : Dig} {zone : Zone} {domain : Str} {debug : Debug} {ipv4 : Ipv4Addr} {ipv6 : Option Ipv6Addr}
  {selector : Str} {key : DkimPublicKey}

theorem mem_valuesOf {records : List DnsRecord} {recordType : RecordType} {name value : Str} :
    value ∈ valuesOf records recordType name ↔ DnsRecord.mk recordType name value ∈ records := by
  unfold valuesOf
  rw [List.mem_map]
  constructor
  · rintro ⟨r, hr, rfl⟩
    obtain ⟨hmem, hsame⟩ := List.mem_filter.mp hr
    obtain ⟨rfl, rfl⟩ := of_decide_eq_true hsame
    exact hmem
  · intro h
    exact ⟨_, List.mem_filter.mpr ⟨h, decide_eq_true ⟨rfl, rfl⟩⟩, rfl⟩

/-- A character that is printed as it is, by its code. -/
theorem isPlain_of_code {c : Char} (h : 32 ≤ c.toNat ∧ c.toNat ≤ 126 ∧ c.toNat ≠ 34 ∧ c.toNat ≠ 92) :
    IsPlain c :=
  ⟨fun heq => h.2.2.1 (by rw [heq]; rfl), fun heq => h.2.2.2 (by rw [heq]; rfl),
    UInt32.le_iff_toNat_le.mpr h.1, UInt32.le_iff_toNat_le.mpr h.2.1⟩

theorem isPlain_of_all {s : Str} (h : s.all (fun c => IsPlain c) = true) : ∀ c ∈ s, IsPlain c :=
  fun c hc => of_decide_eq_true (List.all_eq_true.mp h c hc)

theorem visible_of_all {s : Str} (h : s.all (fun c => !isWhitespace c) = true) :
    ∀ c ∈ s, isWhitespace c = false :=
  fun c hc => by simpa using List.all_eq_true.mp h c hc

theorem isPlain_display (ip : IpAddr) : ∀ c ∈ ip.display, IsPlain c :=
  forall_mem_display (by decide) (by decide) (by decide) ip

theorem isPlain_domain (h : validateDomain domain = .ok ()) : ∀ c ∈ domain, IsPlain c := by
  intro c hc
  have hcode := validateDomain_visible h hc
  exact isPlain_of_code (by omega)

/-- The characters of a public key, by their codes. -/
theorem code_of_mem_key {c : Char} (h : c ∈ key.text) :
    43 ≤ c.toNat ∧ c.toNat ≤ 122 ∧ c.toNat ≠ 59 ∧ c.toNat ≠ 92 := by
  rcases key.base64 c h with h | rfl | rfl | rfl
  · have hcode := code_of_isAlphanum h
    omega
  · decide
  · decide
  · decide

theorem isWhitespace_of_plain {c : Char} (h : 33 ≤ c.toNat ∧ c.toNat ≤ 126) : isWhitespace c = false :=
  isWhitespace_of_visible ⟨UInt32.le_iff_toNat_le.mpr h.1, UInt32.le_iff_toNat_le.mpr h.2⟩

theorem isPlain_spfValue (ipv4 : Ipv4Addr) (ipv6 : Option Ipv6Addr) :
    ∀ c ∈ spfValue ipv4.display (ipv6.map Ipv6Addr.display), IsPlain c := by
  cases ipv6 with
  | none =>
      intro c hc
      rcases List.mem_append.mp hc with hc | hc
      · rcases List.mem_append.mp hc with hc | hc
        · exact isPlain_of_all (by decide) c hc
        · exact isPlain_display (.v4 ipv4) c hc
      · exact isPlain_of_all (by decide) c hc
  | some ip =>
      intro c hc
      rcases List.mem_append.mp hc with hc | hc
      · rcases List.mem_append.mp hc with hc | hc
        · rcases List.mem_append.mp hc with hc | hc
          · rcases List.mem_append.mp hc with hc | hc
            · exact isPlain_of_all (by decide) c hc
            · exact isPlain_display (.v4 ipv4) c hc
          · exact isPlain_of_all (by decide) c hc
        · exact isPlain_display (.v6 ip) c hc
      · exact isPlain_of_all (by decide) c hc

theorem isPlain_dkimValue (key : DkimPublicKey) : ∀ c ∈ dkimRecordValue key.text, IsPlain c := by
  intro c hc
  rcases List.mem_append.mp hc with hc | hc
  · exact isPlain_of_all (by decide) c hc
  · have hcode := code_of_mem_key hc
    exact isPlain_of_code (by omega)

theorem isPlain_dmarcValue (h : validateDomain domain = .ok ()) : ∀ c ∈ dmarcValue domain, IsPlain c := by
  intro c hc
  rcases List.mem_append.mp hc with hc | hc
  · exact isPlain_of_all (by decide) c hc
  · exact isPlain_domain h c hc

/-- A generated TXT record is answered with its value. -/
theorem mem_resolveTxt_of_publishes {records : List DnsRecord} (h : Publishes zone records) {name value : Str}
    (hrecord : DnsRecord.mk .txt name ('v' :: value) ∈ records) (hplain : ∀ c ∈ 'v' :: value, IsPlain c) :
    ∃ strings ∈ zone.txt name, unquoteTxt (txtLine strings) = 'v' :: value := by
  have hmem := (h.txt name).symm.subset (mem_valuesOf.mpr hrecord)
  obtain ⟨strings, hstrings, hvalue⟩ := List.mem_map.mp (List.mem_of_mem_filter hmem)
  exact ⟨strings, hstrings, unquoteTxt_txtLine hvalue (by simp) hplain (by simp)⟩

/-! ## The single checks -/

/-- A line that is printed for an address gives the address. -/
theorem verifyAddress_pass {label line : Str} {stdout : List Str} {ip : IpAddr} (hline : line ∈ stdout)
    (hreads : parseIpAddr (trim line) = some ip) :
    verifyAddress debug label (.ok ((answerLines stdout).filterMap parseIpAddr)) ip = .pass := by
  have hne : trim line ≠ [] := by
    intro hnil
    rw [hnil] at hreads
    cases hreads
  have hmem : ip ∈ (answerLines stdout).filterMap parseIpAddr :=
    List.mem_filterMap.mpr ⟨_, mem_answerLines.mpr ⟨line, hline, hne, rfl⟩, hreads⟩
  exact if_pos (List.contains_iff_mem.mpr hmem)

theorem visible_display (ip : IpAddr) : ∀ c ∈ ip.display, isWhitespace c = false :=
  forall_mem_display (by decide) (by decide) (by decide) ip

theorem trim_display (ip : IpAddr) : trim ip.display = ip.display :=
  trim_eq_self (visible_display ip)

/-- A word between spaces. -/
theorem mem_words_between {front word back : Str} (hne : word ≠ [])
    (hvisible : ∀ c ∈ word, isWhitespace c = false) :
    word ∈ words (front ++ ' ' :: (word ++ ' ' :: back)) := by
  rw [words_append_cons _ _ (by decide), words_append_cons _ _ (by decide), words_single hne hvisible]
  simp

/-- The generated policy names the address of the server. -/
theorem mem_words_spfValue_v4 : "ip4:".toList ++ ipv4.display ∈
    words (spfValue ipv4.display (ipv6.map Ipv6Addr.display)) := by
  have hvisible : ∀ c ∈ "ip4:".toList ++ ipv4.display, isWhitespace c = false := by
    exact List.forall_mem_append.mpr ⟨visible_of_all (by decide), visible_display (.v4 ipv4)⟩
  have hvalue : ∃ back, spfValue ipv4.display (ipv6.map Ipv6Addr.display) =
      "v=spf1".toList ++ ' ' :: (("ip4:".toList ++ ipv4.display) ++ ' ' :: back) := by
    cases ipv6 with
    | none =>
        refine ⟨"-all".toList, ?_⟩
        rw [List.append_assoc]
        exact List.append_assoc "v=spf1 ip4:".toList ipv4.display " -all".toList
    | some ip =>
        refine ⟨"ip6:".toList ++ ip.display ++ " -all".toList, ?_⟩
        change "v=spf1 ip4:".toList ++ ipv4.display ++ " ip6:".toList ++ ip.display ++ " -all".toList =
          "v=spf1 ip4:".toList ++ (ipv4.display ++ (" ip6:".toList ++ ip.display ++ " -all".toList))
        rw [List.append_assoc, List.append_assoc, List.append_assoc, List.append_assoc]
  obtain ⟨back, hvalue⟩ := hvalue
  rw [hvalue]
  exact mem_words_between (List.cons_ne_nil _ _) hvisible

theorem mem_words_spfValue_v6 {ip : Ipv6Addr} : "ip6:".toList ++ ip.display ∈
    words (spfValue ipv4.display (some ip.display)) := by
  have hvisible : ∀ c ∈ "ip6:".toList ++ ip.display, isWhitespace c = false := by
    exact List.forall_mem_append.mpr ⟨visible_of_all (by decide), visible_display (.v6 ip)⟩
  have hvalue : spfValue ipv4.display (some ip.display) = ("v=spf1 ip4:".toList ++ ipv4.display) ++
      ' ' :: (("ip6:".toList ++ ip.display) ++ ' ' :: "-all".toList) := by
    change "v=spf1 ip4:".toList ++ ipv4.display ++ " ip6:".toList ++ ip.display ++ " -all".toList =
      ("v=spf1 ip4:".toList ++ ipv4.display) ++ (" ip6:".toList ++ ip.display ++ " -all".toList)
    rw [List.append_assoc, List.append_assoc, List.append_assoc " ip6:".toList]
  rw [hvalue]
  exact mem_words_between (List.cons_ne_nil _ _) hvisible

/-- The key of the generated record. -/
theorem extractDkimPValue_dkimValue (key : DkimPublicKey) :
    extractDkimPValue (dkimRecordValue key.text) = some (key.text.filter (· ≠ ' ')) := by
  have hvisible : ∀ c ∈ key.text, isWhitespace c = false := fun c hc => by
    have hcode := code_of_mem_key hc
    exact isWhitespace_of_plain (by omega)
  have hspace : key.text.filter (· ≠ ' ') = key.text := by
    apply List.filter_eq_self.mpr
    intro c hc
    have hcode := code_of_mem_key hc
    apply decide_eq_true
    rintro rfl
    exact absurd hcode.1 (by decide)
  have hsemicolon : ';' ∉ " p=".toList ++ key.text := by
    rw [List.mem_append, not_or]
    refine ⟨by decide, fun hmem => ?_⟩
    exact (code_of_mem_key hmem).2.2.1 rfl
  have hparts : (dkimRecordValue key.text).splitOn ';' =
      ["v=DKIM1".toList, " k=rsa".toList, " p=".toList ++ key.text] := by
    have hvalue : dkimRecordValue key.text =
        "v=DKIM1".toList ++ ';' :: (" k=rsa".toList ++ ';' :: (" p=".toList ++ key.text)) := rfl
    rw [hvalue, List.splitOn_append_cons_self_of_not_mem (by decide),
      List.splitOn_append_cons_self_of_not_mem (by decide), List.splitOn_eq_singleton hsemicolon]
  have hall : ∀ c ∈ "p=".toList ++ key.text, isWhitespace c = false :=
    List.forall_mem_append.mpr ⟨visible_of_all (by decide), hvisible⟩
  have htrim : trim (" p=".toList ++ key.text) = "p=".toList ++ key.text := by
    have hstart : trimStart (" p=".toList ++ key.text) = trimStart ("p=".toList ++ key.text) := rfl
    rw [trim, hstart]
    exact trim_eq_self hall
  have hkey : key.text.filter (fun c => !isWhitespace c) = key.text :=
    List.filter_eq_self.mpr fun c hc => by rw [hvisible c hc]; rfl
  have hfirst : stripPrefix "p=".toList (trim "v=DKIM1".toList) = none := by decide
  have hsecond : stripPrefix "p=".toList (trim " k=rsa".toList) = none := by decide
  unfold extractDkimPValue
  rw [hparts, List.findSome?_cons, hfirst, List.findSome?_cons, hsecond, List.findSome?_cons, htrim,
    stripPrefix_append, hspace]
  dsimp only
  rw [hkey, if_pos key.ne]

/-- The generated record of the last check asks for enforcement. -/
theorem isPermissive_dmarcValue (h : validateDomain domain = .ok ()) :
    isPermissive (dmarcValue domain) = false := by
  have hsemicolon : ';' ∉ " rua=mailto:postmaster@".toList ++ domain := by
    rw [List.mem_append, not_or]
    refine ⟨by decide, fun hmem => ?_⟩
    have hcode := validateDomain_visible h hmem
    revert hcode
    decide
  have hparts : (dmarcValue domain).splitOn ';' =
      ["v=DMARC1".toList, " p=reject".toList, " rua=mailto:postmaster@".toList ++ domain] := by
    have hvalue : dmarcValue domain = "v=DMARC1".toList ++ ';' :: (" p=reject".toList ++
        ';' :: (" rua=mailto:postmaster@".toList ++ domain)) := rfl
    rw [hvalue, List.splitOn_append_cons_self_of_not_mem (by decide),
      List.splitOn_append_cons_self_of_not_mem (by decide), List.splitOn_eq_singleton hsemicolon]
  have hvisible : ∀ c ∈ "rua=mailto:postmaster@".toList ++ domain, isWhitespace c = false := by
    refine List.forall_mem_append.mpr ⟨visible_of_all (by decide), fun c hc => ?_⟩
    have hcode := validateDomain_visible h hc
    exact isWhitespace_of_plain (by omega)
  have htrim : trim (" rua=mailto:postmaster@".toList ++ domain) =
      "rua=mailto:postmaster@".toList ++ domain := by
    have hstart : trimStart (" rua=mailto:postmaster@".toList ++ domain) =
        trimStart ("rua=mailto:postmaster@".toList ++ domain) := rfl
    rw [trim, hstart]
    exact trim_eq_self hvisible
  have hfirst : eqIgnoreAsciiCase (trim "v=DMARC1".toList) "p=none".toList = false := by decide
  have hsecond : eqIgnoreAsciiCase (trim " p=reject".toList) "p=none".toList = false := by decide
  have hthird : eqIgnoreAsciiCase ("rua=mailto:postmaster@".toList ++ domain) "p=none".toList = false := rfl
  unfold isPermissive
  rw [hparts, List.any_cons, hfirst, List.any_cons, hsecond, List.any_cons, htrim, hthird]
  rfl

/-- The names of the generated TXT records differ. -/
theorem domain_ne_dmarcName (domain : Str) : domain ≠ dmarcName domain := by
  intro h
  have hlength : domain.length = 7 + domain.length := (congrArg List.length h).trans List.length_append
  omega

theorem dkimName_ne_dmarcName (selector domain : Str) : dkimName selector domain ≠ dmarcName domain := by
  intro h
  have hlength : selector.length + 12 = 7 :=
    List.length_append.symm.trans (congrArg List.length (List.append_cancel_right h))
  omega

section Published

variable (h : Publishes zone (generateDnsRecords domain ipv4.display (ipv6.map Ipv6Addr.display)
  (dkimRecordValue key.text) selector))

include h

theorem verifyA_publishes : verifyA debug (zoneOps dig zone) domain (.v4 ipv4) = .pass := by
  have hvalue : ipv4.display ∈ (zone.a domain).map Ipv4Addr.display := by
    refine (h.a domain).symm.subset (mem_valuesOf.mpr ?_)
    exact List.mem_append_left _ (List.mem_append_left _ List.mem_cons_self)
  refine verifyAddress_pass hvalue ?_
  have htrim := trim_display (.v4 ipv4)
  have hreads := parseIpAddr_displayAddr (.v4 ipv4)
  unfold IpAddr.display at htrim hreads
  rw [htrim, hreads]

theorem verifyAaaa_publishes {ip : Ipv6Addr} (hip : ipv6 = some ip) :
    verifyAaaa debug (zoneOps dig zone) domain (.v6 ip) = .pass := by
  subst hip
  have hvalue : ip.display ∈ (zone.aaaa domain).map Ipv6Addr.display := by
    refine (h.aaaa domain).symm.subset (mem_valuesOf.mpr ?_)
    exact List.mem_append_left _ (List.mem_append_right _ List.mem_cons_self)
  obtain ⟨ip', hmem, hdisplay⟩ := List.mem_map.mp hvalue
  have hsame : some (IpAddr.v6 ip') = some (.v6 ip) := by
    rw [← parseIpAddr_displayAddr (.v6 ip'), ← parseIpAddr_displayAddr (.v6 ip)]
    exact congrArg parseIpAddr hdisplay
  cases hsame
  exact verifyAddress_pass (List.mem_map_of_mem hmem) (dig.reads ip)

theorem verifyMx_publishes (hdomain : validateDomain domain = .ok ()) :
    verifyMx debug (zoneOps dig zone) domain = .pass := by
  have hvalue : "10 ".toList ++ domain ++ ['.'] ∈ (zone.mx domain).map MxData.text := by
    refine (h.mx domain).symm.subset (mem_valuesOf.mpr ?_)
    exact List.mem_append_right _ List.mem_cons_self
  obtain ⟨d, hd, htext⟩ := List.mem_map.mp hvalue
  refine (verifyMx_pass_iff hdomain).mpr ⟨d, hd, (infix_text_iff hdomain).mp ?_⟩
  rw [htext]
  unfold toLowercase
  rw [List.flatMap_append, List.flatMap_append]
  exact List.infix_append _ _ _

/-- The answer with the generated policy. -/
theorem exists_policy : ∃ strings ∈ zone.txt domain,
    unquoteTxt (txtLine strings) = spfValue ipv4.display (ipv6.map Ipv6Addr.display) := by
  have hplain := isPlain_spfValue ipv4 ipv6
  have hrecord : DnsRecord.mk .txt domain (spfValue ipv4.display (ipv6.map Ipv6Addr.display)) ∈
      generateDnsRecords domain ipv4.display (ipv6.map Ipv6Addr.display) (dkimRecordValue key.text)
        selector :=
    List.mem_append_right _ (List.mem_cons_of_mem _ List.mem_cons_self)
  obtain ⟨value, hvalue⟩ : ∃ value, spfValue ipv4.display (ipv6.map Ipv6Addr.display) = 'v' :: value := by
    cases ipv6 <;> exact ⟨_, rfl⟩
  rw [hvalue] at hplain hrecord ⊢
  exact mem_resolveTxt_of_publishes h hrecord hplain

theorem verifySpf_publishes {ip : IpAddr} (hip : ip = .v4 ipv4 ∨ ip ∈ ipv6.map IpAddr.v6) :
    verifySpf debug (zoneOps dig zone) domain ip.display = .pass := by
  obtain ⟨strings, hstrings, hvalue⟩ := exists_policy h
  refine verifySpf_pass_iff.mpr ⟨strings, hstrings, ?_, ?_⟩
  · rw [hvalue]
    cases ipv6 <;> exact ⟨_, rfl⟩
  · rw [hvalue]
    rcases hip with rfl | hip
    · refine ⟨_, mem_words_spfValue_v4, "ip4".toList, [], .inl rfl, .inl rfl, .inl ?_⟩
      rw [List.append_nil]
      rfl
    · obtain ⟨ip, rfl, rfl⟩ := Option.map_eq_some_iff.mp hip
      refine ⟨_, mem_words_spfValue_v6, "ip6".toList, [], .inr rfl, .inl rfl, .inl ?_⟩
      rw [List.append_nil]
      rfl

theorem verifyDkim_publishes :
    verifyDkim (zoneOps dig zone) domain selector (some key.text) = .pass := by
  have hrecord : DnsRecord.mk .txt (dkimName selector domain) (dkimRecordValue key.text) ∈
      generateDnsRecords domain ipv4.display (ipv6.map Ipv6Addr.display) (dkimRecordValue key.text)
        selector :=
    List.mem_append_right _ (List.mem_cons_of_mem _ (List.mem_cons_of_mem _ List.mem_cons_self))
  obtain ⟨strings, hstrings, hvalue⟩ := mem_resolveTxt_of_publishes h hrecord (isPlain_dkimValue key)
  have hanswer : (zoneOps dig zone).resolveTxt (dkimName selector domain) =
      .ok ((answerLines (dig.lines zone .txt (dkimName selector domain))).map unquoteTxt) := rfl
  have hne : strings ≠ [] := by
    rintro rfl
    cases hvalue
  have hmem : dkimRecordValue key.text ∈
      ((answerLines (dig.lines zone .txt (dkimName selector domain))).map unquoteTxt).filter
        fun r => "v=DKIM1".toList <:+: r := by
    refine List.mem_filter.mpr ⟨mem_resolveTxt.mpr ⟨strings, hstrings, hne, hvalue.symm⟩, ?_⟩
    exact decide_eq_true (List.prefix_append "v=DKIM1".toList _).isInfix
  unfold verifyDkim
  rw [hanswer]
  dsimp only
  rw [if_neg (List.ne_nil_of_mem hmem), if_pos]
  exact List.any_eq_true.mpr ⟨_, hmem, decide_eq_true (extractDkimPValue_dkimValue key)⟩

omit h in
theorem isWordChar_version : ∀ c ∈ 'v' :: "=DMARC1".toList, IsWordChar c := by
  have hall : ('v' :: "=DMARC1".toList).all (fun c => c ≠ '"' ∧ c ≠ '\\' ∧ c ≠ ' ') = true := by decide
  intro c hc
  have hchar := List.all_eq_true.mp hall c hc
  unfold IsWordChar
  exact of_decide_eq_true hchar

/-- The generated records of the name of the last check. -/
theorem eq_of_mem_dmarcName {value : Str} (hvalue : value ∈ zone.txtValues (dmarcName domain))
    (hversion : "v=DMARC1".toList <:+: value) : value = dmarcValue domain := by
  have hrelated : value ∈ (zone.txtValues (dmarcName domain)).filter IsRelated :=
    List.mem_filter.mpr ⟨hvalue, decide_eq_true (.inr (.inr hversion))⟩
  have hrecord := mem_valuesOf.mp ((h.txt _).subset hrelated)
  unfold generateDnsRecords at hrecord
  rcases List.mem_append.mp hrecord with hrecord | hrecord
  · rcases List.mem_append.mp hrecord with hrecord | hrecord
    · cases List.mem_singleton.mp hrecord
    · obtain ⟨ip, -, heq⟩ := Option.map_eq_some_iff.mp (Option.mem_toList.mp hrecord)
      cases heq
  · rcases List.mem_cons.mp hrecord with heq | hrecord
    · cases heq
    rcases List.mem_cons.mp hrecord with heq | hrecord
    · exact absurd (DnsRecord.mk.inj heq).2.1.symm (domain_ne_dmarcName domain)
    rcases List.mem_cons.mp hrecord with heq | hrecord
    · exact absurd (DnsRecord.mk.inj heq).2.1.symm (dkimName_ne_dmarcName selector domain)
    · exact (DnsRecord.mk.inj (List.mem_singleton.mp hrecord)).2.2

theorem verifyDmarc_publishes (hdomain : validateDomain domain = .ok ()) :
    verifyDmarc (zoneOps dig zone) domain = .pass := by
  have hrecord : DnsRecord.mk .txt (dmarcName domain) (dmarcValue domain) ∈
      generateDnsRecords domain ipv4.display (ipv6.map Ipv6Addr.display) (dkimRecordValue key.text)
        selector :=
    List.mem_append_right _ (List.mem_cons_of_mem _ (List.mem_cons_of_mem _ (List.mem_cons_of_mem _
      List.mem_cons_self)))
  obtain ⟨strings, hstrings, hvalue⟩ := mem_resolveTxt_of_publishes h hrecord (isPlain_dmarcValue hdomain)
  have hanswer : (zoneOps dig zone).resolveTxt (dmarcName domain) =
      .ok ((answerLines (dig.lines zone .txt (dmarcName domain))).map unquoteTxt) := rfl
  have hne : strings ≠ [] := by
    rintro rfl
    cases hvalue
  have hmem : dmarcValue domain ∈
      ((answerLines (dig.lines zone .txt (dmarcName domain))).map unquoteTxt).filter
        fun r => "v=DMARC1".toList <:+: r := by
    refine List.mem_filter.mpr ⟨mem_resolveTxt.mpr ⟨strings, hstrings, hne, hvalue.symm⟩, ?_⟩
    exact decide_eq_true (List.prefix_append "v=DMARC1".toList _).isInfix
  have hstrict : (((answerLines (dig.lines zone .txt (dmarcName domain))).map unquoteTxt).filter
      fun r => "v=DMARC1".toList <:+: r).any isPermissive = false := by
    rw [List.any_eq_false]
    intro l hl
    obtain ⟨hl, hversion⟩ := List.mem_filter.mp hl
    obtain ⟨strings', hstrings', -, rfl⟩ := mem_resolveTxt.mp hl
    -- only the generated record has the version in it
    have hplaces : "v=DMARC1".toList <:+: strings'.flatten :=
      infix_of_unquoteTxt isWordChar_version (by decide) (of_decide_eq_true hversion)
    have heq := eq_of_mem_dmarcName h (List.mem_map_of_mem hstrings') hplaces
    have hhead : (dmarcValue domain).head? ≠ some ' ' := by
      intro hspace
      exact absurd (Option.some.inj hspace) (by decide)
    rw [unquoteTxt_txtLine heq (List.cons_ne_nil _ _) (isPlain_dmarcValue hdomain) hhead,
      isPermissive_dmarcValue hdomain]
    exact Bool.false_ne_true
  unfold verifyDmarc
  rw [hanswer]
  dsimp only
  rw [if_neg (List.ne_nil_of_mem hmem), hstrict]
  rfl

/-- **Completeness.**  A zone that answers with the generated records, and with unrelated TXT records beside
them, passes every check. -/
theorem verifyAllDns_publishes (hdomain : validateDomain domain = .ok ()) :
    ∀ check ∈ verifyAllDns debug (zoneOps dig zone) domain (.v4 ipv4) (ipv6.map IpAddr.v6) selector
      (some key.text), check.2 = .pass := by
  intro check hcheck
  unfold verifyAllDns at hcheck
  simp only [List.mem_append, List.mem_cons, List.not_mem_nil, or_false, Option.mem_toList,
    Option.map_map, Option.map_eq_some_iff, Function.comp_apply] at hcheck
  rcases hcheck with (((rfl | ⟨ip, hip, rfl⟩) | rfl | rfl) | ⟨ip, hip, rfl⟩) | rfl | rfl
  · exact verifyA_publishes h
  · exact verifyAaaa_publishes h hip
  · exact verifyMx_publishes h hdomain
  · exact verifySpf_publishes h (.inl rfl)
  · exact verifySpf_publishes h (.inr (Option.mem_map_of_mem _ hip))
  · exact verifyDkim_publishes h
  · exact verifyDmarc_publishes h hdomain

end Published

end Complete

/-! ## What a green check means -/

section Meaning

variable {dig : Dig} {zone : Zone} {domain : Str} {debug : Debug} {ipv4 : Ipv4Addr} {ipv6 : Option Ipv6Addr}
  {selector : Str} {key : DkimPublicKey}

/-- **The checks mean what they say** exactly when the exchangers are clear and the policy is clear for the
addresses of the server. -/
theorem checksMean_iff (hdomain : validateDomain domain = .ok ()) :
    ChecksMean dig zone domain debug ipv4 ipv6 selector key ↔
      MxClear zone domain ∧
        ∀ ip : IpAddr, ip = .v4 ipv4 ∨ ip ∈ ipv6.map IpAddr.v6 → SpfClear zone domain ip := by
  constructor
  · intro h
    constructor
    · exact fun hcontains => h.mx ((verifyMx_pass_iff hdomain).mpr hcontains)
    · intro ip hip hbuilt hnamed
      exact checkHost_eq_pass_iff_not_misleads.mp (h.spf hbuilt ip hip (verifySpf_pass_iff.mpr hnamed))
  · rintro ⟨hmx, hspf⟩
    constructor
    case complete => exact fun hpublishes => verifyAllDns_publishes hpublishes hdomain
    case mx => exact fun hpass => hmx ((verifyMx_pass_iff hdomain).mp hpass)
    case spf =>
        intro hbuilt ip hip hpass
        exact checkHost_eq_pass_iff_not_misleads.mpr (hspf ip hip hbuilt (verifySpf_pass_iff.mp hpass))

theorem printed_of_all {s : Str} (h : s.all (fun c => '!' ≤ c ∧ c ≤ '~') = true) :
    ∀ c ∈ s, '!' ≤ c ∧ c ≤ '~' :=
  fun c hc => of_decide_eq_true (List.all_eq_true.mp h c hc)

/-- A lookup tool that prints addresses as the program does. -/
def Dig.plain : Dig where
  printV6 := Ipv6Addr.display
  reads := fun ip => by
    have htrim := trim_display (.v6 ip)
    have hreads := parseIpAddr_displayAddr (.v6 ip)
    unfold IpAddr.display at htrim hreads
    rw [htrim, hreads]

/-- A zone with one host: its address, its exchanger and its policy. -/
def Zone.ofHost (ip : Ipv4Addr) (exchange : DnsName) (policy : Str) : Zone where
  a := fun _ => [ip]
  aaaa := fun _ => []
  mx := fun _ => [⟨10, exchange⟩]
  txt := fun _ => [[policy]]

def DkimPublicKey.sample : DkimPublicKey where
  text := ['M']
  ne := List.cons_ne_nil _ _
  base64 := fun c hc => .inl (by rw [List.mem_singleton.mp hc]; rfl)

/-- At a host that is its own exchanger and whose policy names its address. -/
theorem checksMean_ownHost : ChecksMean Dig.plain
    (Zone.ofHost ⟨192, 0, 2, 1⟩ ⟨"example.com.".toList, by decide, printed_of_all (by decide)⟩
      "v=spf1 ip4:192.0.2.1 -all".toList)
    "example.com".toList ⟨fun _ => [], fun _ => []⟩ ⟨192, 0, 2, 1⟩ none "aimx".toList .sample := by
  refine (checksMean_iff (by decide)).mpr ⟨fun _ => ⟨_, List.mem_singleton_self _, ?_⟩, ?_⟩
  · exact .inr (by decide)
  · rintro ip (rfl | hip) - -
    · exact checkHost_eq_pass_iff_not_misleads.mp (by decide +kernel)
    · cases hip

/-- An exchanger of another domain, and a policy that rejects the address before it names it. -/
def Zone.otherHost : Zone :=
  .ofHost ⟨192, 0, 2, 1⟩ ⟨"notexample.com.".toList, by decide, printed_of_all (by decide)⟩
    "v=spf1 -all ip4:192.0.2.1".toList

theorem checksMean_otherHost :
    validateDomain "example.com".toList = .ok () ∧
    (verifyMx ⟨fun _ => [], fun _ => []⟩ (zoneOps .plain .otherHost) "example.com".toList = .pass ∧
      ∀ d ∈ Zone.otherHost.mx "example.com".toList, ¬ d.exchange.IsHost "example.com".toList) ∧
    (BuiltFromAddresses (Zone.otherHost.txtValues "example.com".toList) ∧
      verifySpf ⟨fun _ => [], fun _ => []⟩ (zoneOps .plain .otherHost) "example.com".toList
        (IpAddr.v4 ⟨192, 0, 2, 1⟩).display = .pass ∧
      Spf.checkHost (Zone.otherHost.txtValues "example.com".toList) (.v4 ⟨192, 0, 2, 1⟩) = .fail) ∧
    ¬ ChecksMean .plain .otherHost "example.com".toList ⟨fun _ => [], fun _ => []⟩ ⟨192, 0, 2, 1⟩ none
      "aimx".toList .sample := by
  have hdomain : validateDomain "example.com".toList = .ok () := by decide
  have hpass : verifyMx ⟨fun _ => [], fun _ => []⟩ (zoneOps .plain .otherHost) "example.com".toList =
      .pass := by
    refine (verifyMx_pass_iff hdomain).mpr ⟨_, List.mem_singleton_self _, ?_⟩
    exact (List.suffix_append "not".toList "example.com".toList).isInfix.trans
      (List.prefix_append "notexample.com".toList ['.']).isInfix
  have hother : ∀ d ∈ Zone.otherHost.mx "example.com".toList, ¬ d.exchange.IsHost "example.com".toList := by
    intro d hd
    rw [List.mem_singleton.mp hd]
    rintro (h | h)
    · exact absurd h (by decide)
    · exact absurd h (by decide)
  have hvalues : Zone.otherHost.txtValues "example.com".toList = ["v=spf1 -all ip4:192.0.2.1".toList] := rfl
  have hterms : Spf.terms "v=spf1 -all ip4:192.0.2.1".toList = ["-all".toList, "ip4:192.0.2.1".toList] := by
    decide +kernel
  have hbuilt : BuiltFromAddresses (Zone.otherHost.txtValues "example.com".toList) := by
    intro text htext _ term hterm
    rw [hvalues] at htext
    rw [List.mem_singleton.mp htext, hterms] at hterm
    rcases List.mem_cons.mp hterm with rfl | hterm
    · exact .inl (by decide)
    · rw [List.mem_singleton.mp hterm]
      exact .inr (.inl (by decide))
  refine ⟨hdomain, ⟨hpass, hother⟩, ⟨hbuilt, by decide +kernel, by decide +kernel⟩, fun h => ?_⟩
  obtain ⟨d, hd, hhost⟩ := h.mx hpass
  exact hother d hd hhost

end Meaning

end Setup
end Aimx
