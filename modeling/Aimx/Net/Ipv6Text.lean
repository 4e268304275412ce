import Aimx.Net.IpAddr

/-!
# The text of an IPv6 address

`Display` of the standard library prints an IPv6 address with its longest run of zero segments left out, or,
when it is a mapped one, with an IPv4 address at its end.

* `longestZeros`, `Ipv6Addr.display` — the printer;
* `readGroups_groupText` — printed groups are read back;
* `readIpv6Addr_display`, `parseIpAddr_displayAddr` — so is every address;
* `forall_mem_display` — the characters of a printed address.
-/

namespace Aimx
namespace Net

open Text

/-! ## The printer -/

/-- `{:x}`. -/
def hexText (n : Nat) : Str := Nat.toDigits 16 n

/-- `fmt_subslice`: groups with colons between them. -/
def displayGroups : List UInt16 → Str
  | [] => []
  | g :: gs => hexText g.toNat ++ gs.flatMap fun g => ':' :: hexText g.toNat

/-- Some of the segments, by the index of the first and their number. -/
structure Span where
  start : Nat
  len : Nat
  deriving DecidableEq

/-- The longest run of zeros and the run that is being counted. -/
structure ZeroRuns where
  longest : Span
  current : Span

/-- One segment of the search for the longest run. -/
def ZeroRuns.step (runs : ZeroRuns) (i : Nat) (segment : UInt16) : ZeroRuns :=
  if segment = 0 then
    let current : Span := ⟨if runs.current.len = 0 then i else runs.current.start, runs.current.len + 1⟩
    ⟨if runs.longest.len < current.len then current else runs.longest, current⟩
  else ⟨runs.longest, ⟨0, 0⟩⟩

/-- The first of the longest runs of zeros. -/
def longestZeros (segments : List UInt16) : Span :=
  (segments.zipIdx.foldl (fun (runs : ZeroRuns) e => runs.step e.2 e.1) ⟨⟨0, 0⟩, ⟨0, 0⟩⟩).longest

namespace Ipv6Addr

variable (ip : Ipv6Addr)

def segments : List UInt16 := [ip.s0, ip.s1, ip.s2, ip.s3, ip.s4, ip.s5, ip.s6, ip.s7]

/-- `Display` of an IPv6 address. -/
def display : Str :=
  match ip.toIpv4Mapped with
  | some ipv4 => "::ffff:".toList ++ ipv4.display
  | none =>
      let zeroes := longestZeros ip.segments
      if 1 < zeroes.len then
        displayGroups (ip.segments.take zeroes.start) ++ ':' :: ':' ::
          displayGroups (ip.segments.drop (zeroes.start + zeroes.len))
      else displayGroups ip.segments

@[simp] theorem length_segments : ip.segments.length = 8 := rfl

@[simp] theorem ofGroups_segments : Ipv6Addr.ofGroups ip.segments = ip := rfl

end Ipv6Addr

/-- `Display` of an address. -/
def IpAddr.display : IpAddr → Str
  | .v4 ip => ip.display
  | .v6 ip => ip.display

/-! ## The run of zeros -/

/-- The segments of a span are zero. -/
def Span.Zero (span : Span) (segments : List UInt16) : Prop :=
  span.start + span.len ≤ segments.length ∧
    ∀ j, span.start ≤ j → j < span.start + span.len → segments[j]? = some 0

theorem Span.zero_empty (segments : List UInt16) : Span.Zero ⟨0, 0⟩ segments :=
  ⟨Nat.zero_le _, fun _ _ hj => absurd hj (by simp)⟩

theorem Span.Zero.append {span : Span} {segments : List UInt16} (h : span.Zero segments)
    (rest : List UInt16) : span.Zero (segments ++ rest) := by
  constructor
  · rw [List.length_append]
    exact Nat.le_add_right_of_le h.1
  · intro j hj hlt
    rw [List.getElem?_append_left (Nat.lt_of_lt_of_le hlt h.1)]
    exact h.2 j hj hlt

/-- What the search knows behind the first segments: two runs of zeros, of which the second one ends
there. -/
structure ZeroRuns.Found (runs : ZeroRuns) (segments : List UInt16) : Prop where
  longest : runs.longest.Zero segments
  current : runs.current.Zero segments
  ends : runs.current.len ≠ 0 → runs.current.start + runs.current.len = segments.length

/-- One step keeps this. -/
theorem ZeroRuns.Found.step {runs : ZeroRuns} {segments : List UInt16} (h : runs.Found segments)
    (segment : UInt16) : (runs.step segments.length segment).Found (segments ++ [segment]) := by
  unfold ZeroRuns.step
  split
  next hzero =>
      subst hzero
      have hends := h.ends
      have hcurrent : Span.Zero ⟨if runs.current.len = 0 then segments.length else runs.current.start,
          runs.current.len + 1⟩ (segments ++ [0]) := by
        split
        next hempty =>
            refine ⟨by simp [hempty], fun j hj hlt => ?_⟩
            have hlast : j = segments.length := by
              dsimp only at hj hlt
              omega
            rw [hlast, List.getElem?_concat_length]
        next hrun =>
            have hat := hends hrun
            refine ⟨by simp; omega, fun j hj hlt => ?_⟩
            dsimp only at hj hlt
            by_cases hj' : j < segments.length
            · rw [List.getElem?_append_left hj']
              exact h.current.2 j hj (by omega)
            · rw [show j = segments.length by omega, List.getElem?_concat_length]
      refine ⟨?_, hcurrent, fun _ => ?_⟩
      · dsimp only
        split
        · exact hcurrent
        · exact h.longest.append _
      · dsimp only
        rw [List.length_append, List.length_singleton]
        split
        next hempty => omega
        next hrun =>
            have hat := hends hrun
            omega
  next => exact ⟨h.longest.append _, Span.zero_empty _, fun hne => absurd rfl hne⟩

/-- The run that is found is one of zeros. -/
theorem zero_longestZeros (segments : List UInt16) : (longestZeros segments).Zero segments := by
  have hrun : ∀ (rest done : List UInt16) (runs : ZeroRuns), runs.Found done →
      ((rest.zipIdx done.length).foldl (fun (runs : ZeroRuns) e => runs.step e.2 e.1) runs).Found
        (done ++ rest) := by
    intro rest
    induction rest with
    | nil =>
        intro done runs h
        simpa using h
    | cons segment rest ih =>
        intro done runs h
        have hnext := ih (done ++ [segment]) _ (h.step segment)
        rw [List.length_append, List.length_singleton, List.append_assoc] at hnext
        exact hnext
  have hstart : ZeroRuns.Found ⟨⟨0, 0⟩, ⟨0, 0⟩⟩ [] :=
    ⟨Span.zero_empty _, Span.zero_empty _, fun hne => absurd rfl hne⟩
  exact (hrun segments [] _ hstart).longest

/-- A list around a span of zeros. -/
theorem Span.Zero.eq_append {span : Span} {segments : List UInt16} (h : span.Zero segments) :
    segments = segments.take span.start ++ List.replicate span.len 0 ++
      segments.drop (span.start + span.len) := by
  have hmid : (segments.drop span.start).take span.len = List.replicate span.len 0 := by
    apply List.ext_getElem?
    intro j
    have hle := h.1
    by_cases hj : j < span.len
    · rw [List.getElem?_take_of_lt hj, List.getElem?_drop, List.getElem?_replicate_of_lt hj]
      exact h.2 _ (Nat.le_add_right _ _) (Nat.add_lt_add_left hj _)
    · rw [List.getElem?_eq_none (by rw [List.length_take]; omega),
        List.getElem?_eq_none (by rw [List.length_replicate]; omega)]
  calc segments = segments.take span.start ++ segments.drop span.start :=
        (List.take_append_drop _ _).symm
    _ = segments.take span.start ++ ((segments.drop span.start).take span.len ++
          (segments.drop span.start).drop span.len) := by rw [List.take_append_drop span.len]
    _ = _ := by rw [hmid, List.drop_drop, List.append_assoc]

/-! ## Reading groups -/

/-- A digit is read back. -/
theorem toDigit_digitChar {d : Nat} (h : d < 16) : toDigit 16 d.digitChar = some d := by
  interval_cases d <;> decide

/-- The digits that a number is printed with. -/
theorem exists_hexDigits (n : Nat) : ∃ digits : List Nat, digits ≠ [] ∧ (∀ d ∈ digits, d < 16) ∧
    hexText n = digits.map Nat.digitChar ∧ digits.foldl (fun n d => n * 16 + d) 0 = n := by
  induction n using Nat.strongRecOn with
  | _ n ih =>
      unfold hexText
      rw [Nat.toDigits_eq_if (by decide)]
      split
      next hlt => exact ⟨[n], by simp, by simpa using hlt, rfl, by simp⟩
      next hge =>
          obtain ⟨digits, -, hdigits, htext, hvalue⟩ := ih (n / 16) (by omega)
          refine ⟨digits ++ [n % 16], by simp, ?_, ?_, ?_⟩
          · simp only [List.mem_append, List.mem_singleton]
            rintro d (hd | rfl)
            · exact hdigits d hd
            · exact Nat.mod_lt _ (by decide)
          · rw [List.map_append, ← htext]
            rfl
          · rw [List.foldl_append, hvalue, List.foldl_cons, List.foldl_nil]
            omega

theorem readDigits_digitChars {digits : List Nat} (h : ∀ d ∈ digits, d < 16) {rest : Str}
    (hrest : ∀ c ∈ rest.head?, toDigit 16 c = none) :
    readDigits 16 (digits.map Nat.digitChar ++ rest) = (digits, rest) := by
  induction digits with
  | nil =>
      cases rest with
      | nil => rfl
      | cons c rest => simp [readDigits, hrest c rfl]
  | cons d digits ih =>
      simp only [List.map_cons, List.cons_append, readDigits, toDigit_digitChar (h d List.mem_cons_self),
        ih fun d' hd' => h d' (List.mem_cons_of_mem _ hd')]

/-- A printed group is read back. -/
theorem readNumber_hexText (g : UInt16) {rest : Str} (hrest : ∀ c ∈ rest.head?, toDigit 16 c = none) :
    readNumber 16 4 65536 true (hexText g.toNat ++ rest) = some (g.toNat, rest) := by
  obtain ⟨digits, hne, hdigits, htext, hvalue⟩ := exists_hexDigits g.toNat
  have hlt : g.toNat < 65536 := g.toNat_lt
  have hlength : digits.length ≤ 4 := by
    have hcount : (hexText g.toNat).length ≤ 4 :=
      (Nat.length_toDigits_le_iff (by decide) (by decide)).mpr (by omega)
    rwa [htext, List.length_map] at hcount
  unfold readNumber
  rw [htext, readDigits_digitChars hdigits hrest]
  simp only [hvalue, hne, hlt, if_true, if_false, Bool.not_true, Bool.false_and, Bool.false_eq_true,
    if_neg (Nat.not_lt.mpr hlength)]

theorem readDigits_suffix (radix : Nat) (s : Str) : (readDigits radix s).2 <:+ s := by
  induction s with
  | nil => exact List.suffix_refl _
  | cons c s ih =>
      unfold readDigits
      split
      · exact ih.trans (List.suffix_cons c s)
      · exact List.suffix_refl _

theorem readNumber_suffix {radix maxDigits bound : Nat} {allowZeroPrefix : Bool} {s rest : Str} {n : Nat}
    (h : readNumber radix maxDigits bound allowZeroPrefix s = some (n, rest)) : rest <:+ s := by
  unfold readNumber at h
  dsimp only at h
  split at h
  · cases h
  split at h
  · cases h
  split at h
  · cases h
  split at h
  · cases h
    exact readDigits_suffix radix s
  · cases h

/-- What an IPv4 address is read from has a dot. -/
theorem readIpv4Addr_of_noDot {s : Str} (h : '.' ∉ s) : readIpv4Addr s = none := by
  unfold readIpv4Addr
  cases hfirst : readOctet true s with
  | none => rfl
  | some first =>
      obtain ⟨a, rest⟩ := first
      have hrest : rest <:+ s := readNumber_suffix hfirst
      have hnone : readOctet false rest = none := by
        cases rest with
        | nil => rfl
        | cons c rest =>
            have hc : c ≠ '.' := fun heq => h (heq ▸ hrest.subset List.mem_cons_self)
            show (if c = '.' then some rest else none).bind _ = none
            rw [if_neg hc]
            rfl
      show (readOctet false rest).bind _ = none
      rw [hnone]
      rfl

/-- The groups of a text, each behind a colon unless it is the first. -/
def groupText : Bool → List UInt16 → Str
  | _, [] => []
  | first, g :: gs => (if first then [] else [':']) ++ hexText g.toNat ++ groupText false gs

theorem displayGroups_eq (gs : List UInt16) : displayGroups gs = groupText true gs := by
  have htail : ∀ gs : List UInt16,
      (gs.flatMap fun g => ':' :: hexText g.toNat) = groupText false gs := by
    intro gs
    induction gs with
    | nil => rfl
    | cons g gs ih => rw [List.flatMap_cons, ih]; rfl
  cases gs with
  | nil => rfl
  | cons g gs =>
      show hexText g.toNat ++ _ = [] ++ hexText g.toNat ++ groupText false gs
      rw [htail, List.nil_append]

theorem dot_notMem_hexText (n : Nat) : '.' ∉ hexText n := by
  obtain ⟨digits, -, hdigits, htext, -⟩ := exists_hexDigits n
  rw [htext]
  intro hmem
  obtain ⟨d, hd, heq⟩ := List.mem_map.mp hmem
  have hlt := hdigits d hd
  revert heq
  interval_cases d <;> decide

theorem dot_notMem_groupText (first : Bool) (gs : List UInt16) : '.' ∉ groupText first gs := by
  induction gs generalizing first with
  | nil => exact List.not_mem_nil
  | cons g gs ih =>
      unfold groupText
      rw [List.mem_append, List.mem_append]
      rintro ((hmem | hmem) | hmem)
      · cases first <;> simp at hmem
      · exact dot_notMem_hexText _ hmem
      · exact ih _ hmem

/-- No group begins here: at the end of a text and at two colons. -/
def EndsGroups (rest : Str) : Prop := rest = [] ∨ ∃ s, rest = ':' :: ':' :: s

theorem EndsGroups.head {rest : Str} (h : EndsGroups rest) : ∀ c ∈ rest.head?, toDigit 16 c = none := by
  rcases h with rfl | ⟨s, rfl⟩
  · simp
  · rintro c ⟨⟩
    decide

theorem head_groupText {gs : List UInt16} {rest : Str} (h : EndsGroups rest) :
    ∀ c ∈ (groupText false gs ++ rest).head?, toDigit 16 c = none := by
  cases gs with
  | nil => exact h.head
  | cons g gs =>
      rintro c ⟨⟩
      decide

theorem readNumber_of_noDigit {radix maxDigits bound : Nat} {allowZeroPrefix : Bool} {s : Str}
    (h : ∀ c ∈ s.head?, toDigit radix c = none) :
    readNumber radix maxDigits bound allowZeroPrefix s = none := by
  have hdigits : (readDigits radix s).1 = [] := by
    cases s with
    | nil => rfl
    | cons c s => simp [readDigits, h c rfl]
  unfold readNumber
  dsimp only
  rw [if_pos hdigits]

/-- Where no group begins, none is read. -/
theorem readGroups_endsGroups (limit : Nat) (first : Bool) {rest : Str} (hrest : EndsGroups rest)
    (hdot : '.' ∉ rest) : readGroups limit first rest = ([], false, rest) := by
  have hseparator : ∀ {α : Type} (inner : Str → Option (α × Str)),
      (∀ s, (∀ c ∈ s.head?, toDigit 16 c = none) → '.' ∉ s → inner s = none) →
      readSeparator ':' first inner rest = none := by
    intro α inner hinner
    cases first with
    | true => exact hinner rest hrest.head hdot
    | false =>
        rcases hrest with rfl | ⟨s, rfl⟩
        · rfl
        · have hcolon : ∀ c ∈ (':' :: s).head?, toDigit 16 c = none := by
            rintro c ⟨⟩
            decide
          exact hinner (':' :: s) hcolon fun hmem => hdot (List.mem_cons_of_mem _ hmem)
  cases limit with
  | zero => rfl
  | succ limit =>
      unfold readGroups
      rw [hseparator readIpv4Addr fun s _ hs => readIpv4Addr_of_noDot hs,
        hseparator (readNumber 16 4 65536 true) fun s hs _ => readNumber_of_noDigit hs, ite_self]

/-- Printed groups are read back, where no other group and no dot follows. -/
theorem readGroups_groupText (gs : List UInt16) (limit : Nat) (first : Bool) {rest : Str}
    (hlimit : gs.length ≤ limit) (hrest : EndsGroups rest) (hdot : '.' ∉ rest) :
    readGroups limit first (groupText first gs ++ rest) = (gs, false, rest) := by
  induction gs generalizing limit first with
  | nil => exact readGroups_endsGroups limit first hrest hdot
  | cons g gs ih =>
      obtain ⟨limit, rfl⟩ : ∃ l, limit = l + 1 := ⟨limit - 1, by rw [List.length_cons] at hlimit; omega⟩
      have hnoDot : '.' ∉ groupText false gs ++ rest := by
        rw [List.mem_append, not_or]
        exact ⟨dot_notMem_groupText _ _, hdot⟩
      have hnoDot' : '.' ∉ hexText g.toNat ++ (groupText false gs ++ rest) := by
        rw [List.mem_append, not_or]
        exact ⟨dot_notMem_hexText _, hnoDot⟩
      have hread : ∀ {α : Type} (inner : Str → Option (α × Str)),
          readSeparator ':' first inner (groupText first (g :: gs) ++ rest) =
            inner (hexText g.toNat ++ (groupText false gs ++ rest)) := by
        intro α inner
        cases first <;> simp [groupText, readSeparator, readGivenChar]
      have hnext := ih limit false (by rw [List.length_cons] at hlimit; omega)
      unfold readGroups
      rw [hread readIpv4Addr, readIpv4Addr_of_noDot hnoDot', ite_self, hread (readNumber 16 4 65536 true),
        readNumber_hexText g (head_groupText hrest)]
      dsimp only
      rw [hnext, UInt16.ofNat_toNat]

/-! ## Reading addresses -/

/-- A dotted quad is read to its end. -/
theorem readIpv4Addr_display (ip : Ipv4Addr) : readIpv4Addr ip.display = some (ip, []) := by
  have hdot : ∀ s : Str, ∀ c ∈ ('.' :: s).head?, toDigit 10 c = none := by
    rintro s c ⟨⟩
    decide
  have hend := @readNumber_decimal ip.d [] (by simp)
  rw [List.append_nil] at hend
  simp [readIpv4Addr, readOctet, readSeparator, readGivenChar, Ipv4Addr.display,
    readNumber_decimal _ (hdot _), hend]

/-- A word from its two octets. -/
theorem word_of_octets (s : UInt16) :
    (s >>> 8).toUInt8.toUInt16 <<< 8 ||| s.toUInt8.toUInt16 = s := by
  have h := toNat_eq_octets s
  have hhigh := (s >>> 8).toUInt8.toNat_lt
  have hlow := s.toUInt8.toNat_lt
  apply UInt16.toNat_inj.mp
  rw [UInt16.toNat_or, UInt16.toNat_shiftLeft, UInt8.toNat_toUInt16, UInt8.toNat_toUInt16]
  have h8 : (8 : UInt16).toNat % 16 = 8 := by decide
  rw [h8, Nat.shiftLeft_eq, Nat.mod_eq_of_lt (by omega), ← Nat.shiftLeft_eq,
    ← Nat.shiftLeft_add_eq_or_of_lt hlow, Nat.shiftLeft_eq, ← h]

/-- An address that is printed as groups only is read back. -/
theorem readIpv6Addr_groups (ip : Ipv6Addr) :
    readIpv6Addr (displayGroups ip.segments) = some (ip, []) := by
  have hgroups := readGroups_groupText ip.segments 8 true (Nat.le_refl 8) (.inl rfl) List.not_mem_nil
  rw [List.append_nil, ← displayGroups_eq] at hgroups
  unfold readIpv6Addr
  rw [hgroups]
  exact if_pos rfl

/-- An address that is printed without a run of zeros is read back. -/
theorem readIpv6Addr_run (ip : Ipv6Addr) {span : Span} (hzero : span.Zero ip.segments) (hlen : 0 < span.len) :
    readIpv6Addr (displayGroups (ip.segments.take span.start) ++ ':' :: ':' ::
      displayGroups (ip.segments.drop (span.start + span.len))) = some (ip, []) := by
  have hle : span.start + span.len ≤ 8 := hzero.1
  have htake : (ip.segments.take span.start).length = span.start := by
    rw [List.length_take, Ipv6Addr.length_segments]
    omega
  have hdrop : (ip.segments.drop (span.start + span.len)).length = 8 - (span.start + span.len) := by
    rw [List.length_drop, Ipv6Addr.length_segments]
  have hdot : '.' ∉ ':' :: ':' :: displayGroups (ip.segments.drop (span.start + span.len)) := by
    rw [displayGroups_eq, List.mem_cons, List.mem_cons, not_or, not_or]
    exact ⟨by decide, by decide, dot_notMem_groupText _ _⟩
  have hhead := readGroups_groupText (ip.segments.take span.start) 8 true (by omega) (.inr ⟨_, rfl⟩) hdot
  have htail := readGroups_groupText (ip.segments.drop (span.start + span.len)) (8 - (span.start + 1)) true
    (by omega) (.inl rfl) List.not_mem_nil
  rw [List.append_nil, ← displayGroups_eq] at htail
  rw [← displayGroups_eq] at hhead
  have hfill : 8 - (8 - (span.start + span.len)) - span.start = span.len := by omega
  unfold readIpv6Addr
  rw [hhead]
  dsimp only
  rw [if_neg (by omega), if_neg (by decide)]
  show (fun read : List UInt16 × Bool × Str => some (Ipv6Addr.ofGroups (ip.segments.take span.start ++
      List.replicate (8 - read.1.length - (ip.segments.take span.start).length) 0 ++ read.1), read.2.2))
    (readGroups (8 - ((ip.segments.take span.start).length + 1)) true
      (displayGroups (ip.segments.drop (span.start + span.len)))) = some (ip, [])
  rw [htake, htail]
  dsimp only
  rw [hdrop, hfill, ← hzero.eq_append, Ipv6Addr.ofGroups_segments]

/-- A mapped address is read back. -/
theorem readIpv6Addr_mapped {ip : Ipv6Addr} {ipv4 : Ipv4Addr} (h : ip.toIpv4Mapped = some ipv4) :
    readIpv6Addr ("::ffff:".toList ++ ipv4.display) = some (ip, []) := by
  have hip : ip = ⟨0, 0, 0, 0, 0, 0xffff, ip.s6, ip.s7⟩ ∧
      ipv4 = ⟨(ip.s6 >>> 8).toUInt8, ip.s6.toUInt8, (ip.s7 >>> 8).toUInt8, ip.s7.toUInt8⟩ := by
    obtain ⟨s0, s1, s2, s3, s4, s5, s6, s7⟩ := ip
    unfold Ipv6Addr.toIpv4Mapped at h
    split at h
    next hzero =>
        simp only [Bool.and_eq_true, beq_iff_eq] at hzero
        obtain ⟨⟨⟨⟨⟨rfl, rfl⟩, rfl⟩, rfl⟩, rfl⟩, rfl⟩ := hzero
        cases h
        exact ⟨rfl, rfl⟩
    next => cases h
  have hfront : readGroups 8 true ("::ffff:".toList ++ ipv4.display) =
      ([], false, "::ffff:".toList ++ ipv4.display) := rfl
  have hback : readGroups 7 true ("ffff:".toList ++ ipv4.display) =
      ([0xffff, ip.s6, ip.s7], true, []) := by
    have hlast : readGroups 6 false (':' :: ipv4.display) = ([ip.s6, ip.s7], true, []) := by
      have hread : readSeparator ':' false readIpv4Addr (':' :: ipv4.display) = some (ipv4, []) :=
        readIpv4Addr_display ipv4
      unfold readGroups
      rw [if_pos (by decide), hread, hip.2]
      dsimp only
      rw [word_of_octets, word_of_octets]
    have hnone : readSeparator ':' true readIpv4Addr ("ffff:".toList ++ ipv4.display) = none := rfl
    have hgroup : readSeparator ':' true (readNumber 16 4 65536 true) ("ffff:".toList ++ ipv4.display) =
        some (65535, ':' :: ipv4.display) := rfl
    unfold readGroups
    rw [if_pos (by decide), hnone, hgroup]
    dsimp only
    rw [hlast]
    rfl
  unfold readIpv6Addr
  rw [hfront]
  show (fun read : List UInt16 × Bool × Str => some (Ipv6Addr.ofGroups ([] ++
      List.replicate (8 - read.1.length - 0) 0 ++ read.1), read.2.2))
    (readGroups 7 true ("ffff:".toList ++ ipv4.display)) = some (ip, [])
  rw [hback, hip.1]
  rfl

theorem readIpv6Addr_display (ip : Ipv6Addr) : readIpv6Addr ip.display = some (ip, []) := by
  unfold Ipv6Addr.display
  split
  next ipv4 h => exact readIpv6Addr_mapped h
  next =>
      dsimp only
      split
      next hrun => exact readIpv6Addr_run ip (zero_longestZeros _) (by omega)
      next => exact readIpv6Addr_groups ip

/-- A printed IPv6 address begins with no IPv4 address. -/
theorem readIpv4Addr_display_v6 (ip : Ipv6Addr) : readIpv4Addr ip.display = none := by
  unfold Ipv6Addr.display
  split
  next => rfl
  next =>
      apply readIpv4Addr_of_noDot
      dsimp only
      split
      · rw [displayGroups_eq, displayGroups_eq, List.mem_append, List.mem_cons, List.mem_cons]
        rintro (hmem | hmem | hmem | hmem)
        · exact dot_notMem_groupText _ _ hmem
        · cases hmem
        · cases hmem
        · exact dot_notMem_groupText _ _ hmem
      · rw [displayGroups_eq]
        exact dot_notMem_groupText _ _

/-- A printed address is read back. -/
theorem parseIpAddr_displayAddr (ip : IpAddr) : parseIpAddr ip.display = some ip := by
  cases ip with
  | v4 ip => exact parseIpAddr_display ip
  | v6 ip =>
      have hdisplay : (IpAddr.v6 ip).display = ip.display := rfl
      unfold parseIpAddr readIpAddr
      rw [hdisplay, readIpv4Addr_display_v6, readIpv6Addr_display]
      rfl

/-! ## The characters of an address -/

/-- A printed address has nothing but hexadecimal digits, colons and dots. -/
theorem forall_mem_display {p : Char → Prop} (hdigit : ∀ d < 16, p (Nat.digitChar d)) (hcolon : p ':')
    (hdot : p '.') (ip : IpAddr) : ∀ c ∈ ip.display, p c := by
  have hhex : ∀ n, ∀ c ∈ hexText n, p c := by
    intro n c hc
    obtain ⟨digits, -, hdigits, htext, -⟩ := exists_hexDigits n
    rw [htext] at hc
    obtain ⟨d, hd, rfl⟩ := List.mem_map.mp hc
    exact hdigit d (hdigits d hd)
  have hdecimal : ∀ n, ∀ c ∈ decimal n, p c := by
    intro n
    induction n using Nat.strongRecOn with
    | _ n ih =>
        unfold decimal at ih ⊢
        rw [Nat.toDigits_eq_if (by decide)]
        split
        next hlt =>
            rintro c hc
            rw [List.mem_singleton.mp hc]
            exact hdigit n (by omega)
        next hge =>
            intro c hc
            rcases List.mem_append.mp hc with hc | hc
            · exact ih (n / 10) (by omega) c hc
            · rw [List.mem_singleton.mp hc]
              exact hdigit _ (by omega)
  have hgroups : ∀ first gs, ∀ c ∈ groupText first gs, p c := by
    intro first gs
    induction gs generalizing first with
    | nil => simp [groupText]
    | cons g gs ih =>
        intro c hc
        unfold groupText at hc
        rcases List.mem_append.mp hc with hc | hc
        · rcases List.mem_append.mp hc with hc | hc
          · cases first
            · rwa [List.mem_singleton.mp hc]
            · cases hc
          · exact hhex _ c hc
        · exact ih false c hc
  have hquad : ∀ ip : Ipv4Addr, ∀ c ∈ ip.display, p c := by
    intro ip c hc
    unfold Ipv4Addr.display at hc
    simp only [List.mem_append, List.mem_cons] at hc
    rcases hc with hc | rfl | hc | rfl | hc | rfl | hc
    · exact hdecimal _ c hc
    · exact hdot
    · exact hdecimal _ c hc
    · exact hdot
    · exact hdecimal _ c hc
    · exact hdot
    · exact hdecimal _ c hc
  cases ip with
  | v4 ip => exact hquad ip
  | v6 ip =>
      intro c hc
      unfold IpAddr.display Ipv6Addr.display at hc
      dsimp only at hc
      split at hc
      next ipv4 h =>
          rcases List.mem_append.mp hc with hc | hc
          · have hf := hdigit 15 (by decide)
            have hfront : "::ffff:".toList = [':', ':', 'f', 'f', 'f', 'f', ':'] := rfl
            rw [hfront] at hc
            simp only [List.mem_cons, List.not_mem_nil, or_false] at hc
            rcases hc with rfl | rfl | rfl | rfl | rfl | rfl | rfl <;> assumption
          · exact hquad ipv4 c hc
      next =>
          split at hc
          next =>
              rw [displayGroups_eq, displayGroups_eq, List.mem_append, List.mem_cons, List.mem_cons] at hc
              rcases hc with hc | rfl | rfl | hc
              · exact hgroups _ _ c hc
              · exact hcolon
              · exact hcolon
              · exact hgroups _ _ c hc
          next =>
              rw [displayGroups_eq] at hc
              exact hgroups _ _ c hc

example : (IpAddr.v6 ⟨0x2001, 0xdb8, 0, 0, 1, 0, 0, 1⟩).display = "2001:db8::1:0:0:1".toList := by decide

end Net
end Aimx
