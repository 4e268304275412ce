import Aimx.Net.Ipv6Text

/-!
# Sender policies

The evaluation of the Sender Policy Framework, RFC 7208, for records that are built from the mechanisms
`all`, `ip4` and `ip6`: no other mechanism and no modifier is read.

* `parseDirective` — one term of a record;
* `checkHost` — the evaluation of the TXT records of a domain for an address;
* `checkHost_eq_pass_iff` — when it gives `pass`;
* `matches_of_parseDirective` — a term that names an address matches it.
-/

namespace Aimx
namespace Net
namespace Spf

open Text

/-! ## Records -/

inductive Qualifier
  | pass
  | fail
  | softfail
  | neutral
  deriving DecidableEq

inductive Mechanism
  | all
  | ip4 (network : Ipv4Addr) (length : Nat)
  | ip6 (network : Ipv6Addr) (length : Nat)
  deriving DecidableEq

/-- A mechanism with its qualifier. -/
structure Directive where
  qualifier : Qualifier
  mechanism : Mechanism
  deriving DecidableEq

/-- An address is matched by a network of its own family. -/
def Mechanism.Matches : Mechanism → IpAddr → Prop
  | .all, _ => True
  | .ip4 network length, .v4 ip => (Block.v4 network length).Contains (IpAddr.v4 ip).number
  | .ip6 network length, .v6 ip => (Block.v6 network length).Contains (IpAddr.v6 ip).number
  | .ip4 _ _, .v6 _ => False
  | .ip6 _ _, .v4 _ => False

instance : (mechanism : Mechanism) → (ip : IpAddr) → Decidable (mechanism.Matches ip)
  | .all, _ => inferInstanceAs (Decidable True)
  | .ip4 network length, .v4 ip =>
      inferInstanceAs (Decidable ((Block.v4 network length).Contains (IpAddr.v4 ip).number))
  | .ip6 network length, .v6 ip =>
      inferInstanceAs (Decidable ((Block.v6 network length).Contains (IpAddr.v6 ip).number))
  | .ip4 _ _, .v6 _ => inferInstanceAs (Decidable False)
  | .ip6 _ _, .v4 _ => inferInstanceAs (Decidable False)

/-- A text that is an IPv4 address to its end. -/
def parseIpv4 (s : Str) : Option Ipv4Addr :=
  match readIpv4Addr s with
  | some (ip, []) => some ip
  | _ => none

/-- A text that is an IPv6 address to its end. -/
def parseIpv6 (s : Str) : Option Ipv6Addr :=
  match readIpv6Addr s with
  | some (ip, []) => some ip
  | _ => none

/-- The prefix length behind the slash: a number without leading zeros, or the full length where there is
no slash. -/
def parseLength (digits full : Nat) : Option Str → Option Nat
  | none => some full
  | some s =>
      match readNumber 10 digits (full + 1) false s with
      | some (length, []) => some length
      | _ => none

/-- An argument is cut at its slash. -/
def cutLength (arg : Str) : Str × Option Str :=
  match splitOnce '/' arg with
  | some (network, length) => (network, some length)
  | none => (arg, none)

/-- The names of mechanisms are read in either case. -/
def parseMechanism (term : Str) : Option Mechanism :=
  if eqIgnoreAsciiCase term "all".toList then some .all
  else
    match splitOnce ':' term with
    | none => none
    | some (name, arg) =>
        let (network, length) := cutLength arg
        if eqIgnoreAsciiCase name "ip4".toList then
          (parseIpv4 network).bind fun ip => (parseLength 2 32 length).map fun n => .ip4 ip n
        else if eqIgnoreAsciiCase name "ip6".toList then
          (parseIpv6 network).bind fun ip => (parseLength 3 128 length).map fun n => .ip6 ip n
        else none

/-- The qualifier of a term and the rest of it. -/
def cutQualifier : Str → Qualifier × Str
  | '+' :: term => (.pass, term)
  | '-' :: term => (.fail, term)
  | '~' :: term => (.softfail, term)
  | '?' :: term => (.neutral, term)
  | term => (.pass, term)

def parseDirective (term : Str) : Option Directive :=
  (parseMechanism (cutQualifier term).2).map fun mechanism => ⟨(cutQualifier term).1, mechanism⟩

/-- A record begins with the version, which ends at a space or with the record. -/
def isRecord (text : Str) : Bool := eqIgnoreAsciiCase (text.takeWhile (· ≠ ' ')) "v=spf1".toList

/-- The terms behind the version, with any number of spaces between them. -/
def terms (text : Str) : List Str := ((text.dropWhile (· ≠ ' ')).splitOn ' ').filter (· ≠ [])

/-! ## Evaluation -/

inductive Result
  | none
  | neutral
  | pass
  | fail
  | softfail
  | permerror
  deriving DecidableEq

def Qualifier.result : Qualifier → Result
  | .pass => .pass
  | .fail => .fail
  | .softfail => .softfail
  | .neutral => .neutral

/-- The first directive that matches decides. -/
def evaluate (ip : IpAddr) : List Directive → Result
  | [] => .neutral
  | d :: ds => if d.mechanism.Matches ip then d.qualifier.result else evaluate ip ds

/-- `check_host`: a domain has one record, and every term of it is well formed. -/
def checkHost (texts : List Str) (ip : IpAddr) : Result :=
  match texts.filter isRecord with
  | [] => .none
  | [text] =>
      match (terms text).mapM parseDirective with
      | some ds => evaluate ip ds
      | none => .permerror
  | _ :: _ :: _ => .permerror

/-! ## Passing -/

section Pass

variable {ip : IpAddr} {ds : List Directive}

/-- The directive that decides: it matches, and none in front of it does. -/
def Decides (ip : IpAddr) (ds : List Directive) (d : Directive) : Prop :=
  ∃ front back, ds = front ++ d :: back ∧ d.mechanism.Matches ip ∧
    ∀ d' ∈ front, ¬ d'.mechanism.Matches ip

theorem decides_cons_of_matches {d d' : Directive} (h : d.mechanism.Matches ip) :
    Decides ip (d :: ds) d' ↔ d' = d := by
  constructor
  · rintro ⟨front, back, heq, hmatches, hfront⟩
    cases front with
    | nil => exact (List.cons.inj heq).1.symm
    | cons e front =>
        obtain ⟨rfl, -⟩ := List.cons.inj heq
        exact absurd h (hfront d List.mem_cons_self)
  · rintro rfl
    exact ⟨[], ds, rfl, h, by simp⟩

theorem decides_cons_of_not_matches {d d' : Directive} (h : ¬ d.mechanism.Matches ip) :
    Decides ip (d :: ds) d' ↔ Decides ip ds d' := by
  constructor
  · rintro ⟨front, back, heq, hmatches, hfront⟩
    cases front with
    | nil =>
        obtain ⟨rfl, -⟩ := List.cons.inj heq
        exact absurd hmatches h
    | cons e front =>
        obtain ⟨rfl, rfl⟩ := List.cons.inj heq
        exact ⟨front, back, rfl, hmatches, fun d' hd' => hfront d' (List.mem_cons_of_mem _ hd')⟩
  · rintro ⟨front, back, rfl, hmatches, hfront⟩
    refine ⟨d :: front, back, rfl, hmatches, fun e he => ?_⟩
    rcases List.mem_cons.mp he with rfl | he
    · exact h
    · exact hfront e he

/-- Where some directive matches, one decides. -/
theorem exists_decides (h : ∃ d ∈ ds, d.mechanism.Matches ip) : ∃ d, Decides ip ds d := by
  induction ds with
  | nil =>
      obtain ⟨d, hd, -⟩ := h
      cases hd
  | cons d ds ih =>
      by_cases hmatches : d.mechanism.Matches ip
      · exact ⟨d, (decides_cons_of_matches hmatches).mpr rfl⟩
      · obtain ⟨e, he, hematches⟩ := h
        rcases List.mem_cons.mp he with rfl | he
        · exact absurd hematches hmatches
        · obtain ⟨d', hd'⟩ := ih ⟨e, he, hematches⟩
          exact ⟨d', (decides_cons_of_not_matches hmatches).mpr hd'⟩

/-- At most one directive decides. -/
theorem Decides.unique {d d' : Directive} (h : Decides ip ds d) (h' : Decides ip ds d') : d = d' := by
  induction ds with
  | nil =>
      obtain ⟨front, back, heq, -⟩ := h
      simp at heq
  | cons e ds ih =>
      by_cases hmatches : e.mechanism.Matches ip
      · rw [decides_cons_of_matches hmatches] at h h'
        rw [h, h']
      · rw [decides_cons_of_not_matches hmatches] at h h'
        exact ih h h'

theorem Decides.mem {d : Directive} (h : Decides ip ds d) : d ∈ ds := by
  obtain ⟨front, back, rfl, -⟩ := h
  exact List.mem_append_right _ List.mem_cons_self

theorem Decides.matches {d : Directive} (h : Decides ip ds d) : d.mechanism.Matches ip := by
  obtain ⟨front, back, -, hmatches, -⟩ := h
  exact hmatches

/-- The terms of a policy are read one by one: one of them is malformed, or each gives a directive. -/
theorem parse_cases (l : List Str) :
    (∃ term ∈ l, parseDirective term = none) ∧ l.mapM parseDirective = none ∨
      ∃ ds, l.mapM parseDirective = some ds ∧ l.map parseDirective = ds.map some := by
  induction l with
  | nil => exact .inr ⟨[], rfl, rfl⟩
  | cons term l ih =>
      rw [List.mapM_cons]
      cases hterm : parseDirective term with
      | none => exact .inl ⟨⟨term, List.mem_cons_self, hterm⟩, rfl⟩
      | some d =>
          rcases ih with ⟨⟨term', hmem, hnone⟩, hl⟩ | ⟨ds, hl, hmap⟩
          · rw [hl]
            exact .inl ⟨⟨term', List.mem_cons_of_mem _ hmem, hnone⟩, rfl⟩
          · rw [hl]
            exact .inr ⟨d :: ds, rfl, by rw [List.map_cons, List.map_cons, hterm, hmap]⟩

theorem Qualifier.result_eq_pass_iff {q : Qualifier} : q.result = .pass ↔ q = .pass := by
  cases q <;> decide

/-- The evaluation passes when the directive that decides has the qualifier `+`. -/
theorem evaluate_eq_pass_iff : evaluate ip ds = .pass ↔ ∃ d, Decides ip ds d ∧ d.qualifier = .pass := by
  induction ds with
  | nil =>
      constructor
      · intro h
        cases h
      · rintro ⟨d, ⟨front, back, heq, -⟩, -⟩
        simp at heq
  | cons d ds ih =>
      unfold evaluate
      by_cases hmatches : d.mechanism.Matches ip
      · rw [if_pos hmatches, Qualifier.result_eq_pass_iff]
        simp [decides_cons_of_matches hmatches]
      · rw [if_neg hmatches, ih]
        simp only [decides_cons_of_not_matches hmatches]

/-- A domain passes when it has one record, its terms are well formed, and the directive that decides has
the qualifier `+`. -/
theorem checkHost_eq_pass_iff {texts : List Str} : checkHost texts ip = .pass ↔
    ∃ text ds d, texts.filter isRecord = [text] ∧ (terms text).mapM parseDirective = some ds ∧
      Decides ip ds d ∧ d.qualifier = .pass := by
  unfold checkHost
  constructor
  · intro h
    split at h
    next => cases h
    next text htext =>
        split at h
        next ds hds =>
            obtain ⟨d, hd⟩ := evaluate_eq_pass_iff.mp h
            exact ⟨text, ds, d, htext, hds, hd⟩
        next => cases h
    next => cases h
  · rintro ⟨text, ds, d, htext, hds, hd⟩
    rw [htext]
    dsimp only
    rw [hds]
    exact evaluate_eq_pass_iff.mpr ⟨d, hd⟩

end Pass

/-! ## Terms that name an address -/

/-- A network contains its own address. -/
theorem matches_ip4_self (ip : Ipv4Addr) (n : Nat) : (Mechanism.ip4 ip n).Matches (.v4 ip) := rfl

theorem matches_ip6_self (ip : Ipv6Addr) (n : Nat) : (Mechanism.ip6 ip n).Matches (.v6 ip) := rfl

theorem slash_notMem_display (ip : IpAddr) : '/' ∉ ip.display := by
  have hdigit : ∀ d < 16, Nat.digitChar d ≠ '/' := by decide
  intro hmem
  exact forall_mem_display (p := fun c => c ≠ '/') hdigit (by decide) (by decide) ip '/' hmem rfl

theorem cutLength_display (ip : IpAddr) {tail : Str} (htail : tail = [] ∨ tail.head? = some '/') :
    (cutLength (ip.display ++ tail)).1 = ip.display := by
  unfold cutLength
  rcases htail with rfl | htail
  · have hnone := splitOnce_eq_none_iff.mpr (slash_notMem_display ip)
    rw [List.append_nil, hnone]
  · obtain ⟨rest, rfl⟩ : ∃ rest, tail = '/' :: rest := by
      cases tail with
      | nil => cases htail
      | cons c rest => exact ⟨rest, by rw [Option.some.inj htail]⟩
    rw [splitOnce_eq_some_iff.mpr ⟨rfl, slash_notMem_display ip⟩]

/-- A dotted quad is no IPv6 address. -/
theorem parseIpv6_display_v4 (ip : Ipv4Addr) : parseIpv6 ip.display = none := by
  have hgroups : readGroups 8 true ip.display =
      ([ip.a.toUInt16 <<< 8 ||| ip.b.toUInt16, ip.c.toUInt16 <<< 8 ||| ip.d.toUInt16], true, []) := by
    have hread : readSeparator ':' true readIpv4Addr ip.display = some (ip, []) := readIpv4Addr_display ip
    unfold readGroups
    rw [if_pos (by decide), hread]
  unfold parseIpv6 readIpv6Addr
  rw [hgroups]
  rfl

/-- **A named address matches.**  A term `ip4:` or `ip6:` with an address, and with a prefix length or
without, matches that address when it is well formed. -/
theorem matches_of_parseDirective {scheme : Str} (hscheme : scheme = "ip4".toList ∨ scheme = "ip6".toList)
    {ip : IpAddr} {tail : Str} (htail : tail = [] ∨ tail.head? = some '/') {d : Directive}
    (h : parseDirective (scheme ++ ':' :: (ip.display ++ tail)) = some d) :
    d.qualifier = .pass ∧ d.mechanism.Matches ip := by
  have hlength := cutLength_display ip htail
  unfold parseDirective at h
  obtain ⟨mechanism, hmechanism, rfl⟩ := Option.map_eq_some_iff.mp h
  rcases hscheme with rfl | rfl
  · have hcut : cutQualifier ("ip4".toList ++ ':' :: (ip.display ++ tail)) =
        (.pass, "ip4".toList ++ ':' :: (ip.display ++ tail)) := rfl
    have hall : eqIgnoreAsciiCase ("ip4".toList ++ ':' :: (ip.display ++ tail)) "all".toList = false := rfl
    have hsplit : splitOnce ':' ("ip4".toList ++ ':' :: (ip.display ++ tail)) =
        some ("ip4".toList, ip.display ++ tail) := splitOnce_eq_some_iff.mpr ⟨rfl, by decide⟩
    refine ⟨by rw [hcut], ?_⟩
    unfold parseMechanism at hmechanism
    rw [hcut, if_neg (by rw [hall]; decide), hsplit] at hmechanism
    dsimp only at hmechanism
    rw [if_pos (by decide), hlength] at hmechanism
    obtain ⟨network, hnetwork, hrest⟩ := Option.bind_eq_some_iff.mp hmechanism
    obtain ⟨n, -, rfl⟩ := Option.map_eq_some_iff.mp hrest
    cases ip with
    | v4 ip =>
        have hread : parseIpv4 ip.display = some ip := by
          unfold parseIpv4
          rw [readIpv4Addr_display]
        rw [show (IpAddr.v4 ip).display = ip.display from rfl, hread] at hnetwork
        cases hnetwork
        exact matches_ip4_self _ n
    | v6 ip =>
        have hread : parseIpv4 ip.display = none := by
          unfold parseIpv4
          rw [readIpv4Addr_display_v6]
        rw [show (IpAddr.v6 ip).display = ip.display from rfl, hread] at hnetwork
        cases hnetwork
  · have hcut : cutQualifier ("ip6".toList ++ ':' :: (ip.display ++ tail)) =
        (.pass, "ip6".toList ++ ':' :: (ip.display ++ tail)) := rfl
    have hall : eqIgnoreAsciiCase ("ip6".toList ++ ':' :: (ip.display ++ tail)) "all".toList = false := rfl
    have hsplit : splitOnce ':' ("ip6".toList ++ ':' :: (ip.display ++ tail)) =
        some ("ip6".toList, ip.display ++ tail) := splitOnce_eq_some_iff.mpr ⟨rfl, by decide⟩
    refine ⟨by rw [hcut], ?_⟩
    unfold parseMechanism at hmechanism
    rw [hcut, if_neg (by rw [hall]; decide), hsplit] at hmechanism
    dsimp only at hmechanism
    rw [if_neg (by decide), if_pos (by decide), hlength] at hmechanism
    obtain ⟨network, hnetwork, hrest⟩ := Option.bind_eq_some_iff.mp hmechanism
    obtain ⟨n, -, rfl⟩ := Option.map_eq_some_iff.mp hrest
    cases ip with
    | v4 ip =>
        rw [show (IpAddr.v4 ip).display = ip.display from rfl, parseIpv6_display_v4] at hnetwork
        cases hnetwork
    | v6 ip =>
        have hread : parseIpv6 ip.display = some ip := by
          unfold parseIpv6
          rw [readIpv6Addr_display]
        rw [show (IpAddr.v6 ip).display = ip.display from rfl, hread] at hnetwork
        cases hnetwork
        exact matches_ip6_self _ n

end Spf
end Net
end Aimx
