import Aimx.Text.Decimal
import Mathlib.Tactic.IntervalCases
import Mathlib.Tactic.Ring

/-!
# Internet addresses

The address types of the standard library and their text form, and the address blocks that the registries
set aside.

* `Ipv4Addr`, `Ipv6Addr`, `IpAddr`, `SocketAddr` — addresses as octets and segments, with the tests of the
  standard library;
* `parseIpAddr` — `str::parse::<IpAddr>`, and `parseIpAddr_show`: it reads a dotted quad back;
* `Block` — the addresses that share their first bits, as numbers;
* `IpAddr.Internal` — the blocks that no public host lies in, in plain and in IPv4-mapped form.
-/

namespace Aimx
namespace Net

open Text

/-! ## Addresses -/

/-- `std::net::Ipv4Addr`: four octets. -/
structure Ipv4Addr where
  a : UInt8
  b : UInt8
  c : UInt8
  d : UInt8
  deriving DecidableEq

/-- `std::net::Ipv6Addr`: eight segments. -/
structure Ipv6Addr where
  s0 : UInt16
  s1 : UInt16
  s2 : UInt16
  s3 : UInt16
  s4 : UInt16
  s5 : UInt16
  s6 : UInt16
  s7 : UInt16
  deriving DecidableEq

inductive IpAddr
  | v4 (ip : Ipv4Addr)
  | v6 (ip : Ipv6Addr)
  deriving DecidableEq

/-- `std::net::SocketAddr`. -/
inductive SocketAddr
  | v4 (ip : Ipv4Addr) (port : UInt16)
  | v6 (ip : Ipv6Addr) (port : UInt16) (flowinfo scopeId : UInt32)
  deriving DecidableEq

def SocketAddr.ip : SocketAddr → IpAddr
  | .v4 ip _ => .v4 ip
  | .v6 ip _ _ _ => .v6 ip

/-- `SocketAddr::new`. -/
def SocketAddr.new : IpAddr → UInt16 → SocketAddr
  | .v4 ip, port => .v4 ip port
  | .v6 ip, port => .v6 ip port 0 0

namespace Ipv4Addr

variable (ip : Ipv4Addr)

def isLoopback : Bool := ip.a == 127

def isUnspecified : Bool := ip == ⟨0, 0, 0, 0⟩

def isLinkLocal : Bool := ip.a == 169 && ip.b == 254

def isBroadcast : Bool := ip == ⟨255, 255, 255, 255⟩

def isMulticast : Bool := 224 ≤ ip.a && ip.a ≤ 239

end Ipv4Addr

namespace Ipv6Addr

variable (ip : Ipv6Addr)

def isLoopback : Bool := ip == ⟨0, 0, 0, 0, 0, 0, 0, 1⟩

def isUnspecified : Bool := ip == ⟨0, 0, 0, 0, 0, 0, 0, 0⟩

def isMulticast : Bool := ip.s0 &&& 0xff00 == 0xff00

/-- `to_ipv4_mapped`: the address behind `::ffff:a.b.c.d`. -/
def toIpv4Mapped : Option Ipv4Addr :=
  if ip.s0 == 0 && ip.s1 == 0 && ip.s2 == 0 && ip.s3 == 0 && ip.s4 == 0 && ip.s5 == 0xffff then
    some ⟨(ip.s6 >>> 8).toUInt8, ip.s6.toUInt8, (ip.s7 >>> 8).toUInt8, ip.s7.toUInt8⟩
  else none

end Ipv6Addr

namespace IpAddr

def isLoopback : IpAddr → Bool
  | .v4 ip => ip.isLoopback
  | .v6 ip => ip.isLoopback

def isUnspecified : IpAddr → Bool
  | .v4 ip => ip.isUnspecified
  | .v6 ip => ip.isUnspecified

end IpAddr

/-! ## Text -/

/-- `char::to_digit`. -/
def toDigit (radix : Nat) (c : Char) : Option Nat :=
  let value :=
    if c.isDigit then some (c.toNat - '0'.toNat)
    else if 'a' ≤ c ∧ c ≤ 'z' then some (c.toNat - 'a'.toNat + 10)
    else if 'A' ≤ c ∧ c ≤ 'Z' then some (c.toNat - 'A'.toNat + 10)
    else none
  value.filter (· < radix)

/-- The digits at the front of a text. -/
def readDigits (radix : Nat) : Str → List Nat × Str
  | [] => ([], [])
  | c :: s =>
    match toDigit radix c with
    | some digit => (digit :: (readDigits radix s).1, (readDigits radix s).2)
    | none => ([], c :: s)

/-- A number of at most `maxDigits` digits below `bound`. -/
def readNumber (radix maxDigits bound : Nat) (allowZeroPrefix : Bool) (s : Str) : Option (Nat × Str) :=
  let (digits, rest) := readDigits radix s
  let value := digits.foldl (fun n digit => n * radix + digit) 0
  if digits = [] then none
  else if maxDigits < digits.length then none
  else if !allowZeroPrefix && s.head? == some '0' && 1 < digits.length then none
  else if value < bound then some (value, rest)
  else none

def readGivenChar (target : Char) : Str → Option Str
  | [] => none
  | c :: s => if c = target then some s else none

/-- What `inner` reads, behind a separator unless it is the first of its kind. -/
def readSeparator {α : Type} (sep : Char) (first : Bool) (inner : Str → Option (α × Str)) (s : Str) :
    Option (α × Str) :=
  if first then inner s else (readGivenChar sep s).bind inner

def readOctet (first : Bool) (s : Str) : Option (Nat × Str) :=
  readSeparator '.' first (readNumber 10 3 256 false) s

def readIpv4Addr (s : Str) : Option (Ipv4Addr × Str) := do
  let (a, s) ← readOctet true s
  let (b, s) ← readOctet false s
  let (c, s) ← readOctet false s
  let (d, s) ← readOctet false s
  some (⟨.ofNat a, .ofNat b, .ofNat c, .ofNat d⟩, s)

/-- `read_groups`: up to `limit` groups of an IPv6 address, the last two of which may stand as an IPv4
address, and whether they did. -/
def readGroups : Nat → Bool → Str → List UInt16 × Bool × Str
  | 0, _, s => ([], false, s)
  | limit + 1, first, s =>
    let ipv4 := if 0 < limit then readSeparator ':' first readIpv4Addr s else none
    match ipv4 with
    | some (ip, s) =>
      ([ip.a.toUInt16 <<< 8 ||| ip.b.toUInt16, ip.c.toUInt16 <<< 8 ||| ip.d.toUInt16], true, s)
    | none =>
      match readSeparator ':' first (readNumber 16 4 65536 true) s with
      | none => ([], false, s)
      | some (group, s) =>
        let (groups, v4, s) := readGroups limit false s
        (.ofNat group :: groups, v4, s)

/-- An IPv6 address from its groups. -/
def Ipv6Addr.ofGroups (groups : List UInt16) : Ipv6Addr :=
  ⟨groups.getD 0 0, groups.getD 1 0, groups.getD 2 0, groups.getD 3 0,
    groups.getD 4 0, groups.getD 5 0, groups.getD 6 0, groups.getD 7 0⟩

def readIpv6Addr (s : Str) : Option (Ipv6Addr × Str) :=
  let (head, headIpv4, s) := readGroups 8 true s
  if head.length = 8 then some (.ofGroups head, s)
  else if headIpv4 then none
  else do
    let s ← readGivenChar ':' s
    let s ← readGivenChar ':' s
    let (tail, _, s) := readGroups (8 - (head.length + 1)) true s
    some (.ofGroups (head ++ List.replicate (8 - tail.length - head.length) 0 ++ tail), s)

def readIpAddr (s : Str) : Option (IpAddr × Str) :=
  match readIpv4Addr s with
  | some (ip, s) => some (.v4 ip, s)
  | none => (readIpv6Addr s).map fun (ip, s) => (.v6 ip, s)

/-- `str::parse::<IpAddr>`. -/
def parseIpAddr (s : Str) : Option IpAddr :=
  match readIpAddr s with
  | some (ip, []) => some ip
  | _ => none

/-- `Display` of an IPv4 address, the dotted quad. -/
def Ipv4Addr.display (ip : Ipv4Addr) : Str :=
  decimal ip.a.toNat ++ '.' :: (decimal ip.b.toNat ++ '.' :: (decimal ip.c.toNat ++
    '.' :: decimal ip.d.toNat))

theorem readDigits_append {digits rest : Str} (h : ∀ c ∈ digits, c.isDigit = true)
    (hrest : ∀ c ∈ rest.head?, toDigit 10 c = none) :
    readDigits 10 (digits ++ rest) = (digits.map fun c => c.toNat - '0'.toNat, rest) := by
  induction digits with
  | nil =>
    cases rest with
    | nil => rfl
    | cons c rest => simp [readDigits, hrest c rfl]
  | cons c digits ih =>
    have hc : c.isDigit = true := h c (List.mem_cons_self ..)
    have hvalue : toDigit 10 c = some (c.toNat - '0'.toNat) := by
      have hbound : c.toNat ≤ 57 := by
        simp only [Char.isDigit, Bool.and_eq_true, decide_eq_true_eq] at hc
        exact UInt32.le_iff_toNat_le.mp hc.2
      have hten : c.toNat - 48 < 10 := by omega
      simp [toDigit, hc, hten]
    simp only [List.cons_append, readDigits, hvalue, List.map_cons,
      ih fun c' hc' => h c' (List.mem_cons_of_mem _ hc')]

/-- Only zero is printed with a leading zero. -/
theorem decimal_head?_zero {n : Nat} (h : (decimal n).head? = some '0') : n = 0 := by
  induction n using Nat.strongRecOn with
  | _ n ih =>
    rw [decimal, Nat.toDigits_eq_if (by omega)] at h
    split at h
    next hlt =>
      interval_cases n <;> first | rfl | exact absurd h (by decide)
    next hge =>
      rw [List.head?_append_of_ne_nil _ Nat.toDigits_ne_nil] at h
      have hzero := ih (n / 10) (by omega) h
      omega

/-- A printed octet is read back. -/
theorem readNumber_decimal (n : UInt8) {rest : Str} (hrest : ∀ c ∈ rest.head?, toDigit 10 c = none) :
    readNumber 10 3 256 false (decimal n.toNat ++ rest) = some (n.toNat, rest) := by
  have hvalue : ((decimal n.toNat).map fun c => c.toNat - '0'.toNat).foldl
      (fun v digit => v * 10 + digit) 0 = n.toNat := by
    have hten : Nat.ofDigitChars 10 (decimal n.toNat) 0 = n.toNat := Nat.ofDigitChars_ten_toDigits
    rw [Nat.ofDigitChars_eq_foldl] at hten
    simpa only [List.foldl_map, Nat.mul_comm] using hten
  have hlt : n.toNat < 256 := n.toNat_lt
  have hlength : (decimal n.toNat).length ≤ 3 :=
    (Nat.length_toDigits_le_iff (by omega) (by omega)).mpr (by omega)
  have hzero : (decimal n.toNat).head? = some '0' → (decimal n.toNat).length = 1 := by
    intro h
    rw [decimal_head?_zero h]
    rfl
  have hhead : (decimal n.toNat ++ rest).head? = (decimal n.toNat).head? :=
    List.head?_append_of_ne_nil _ (decimal_ne_nil _)
  simp only [readNumber, readDigits_append (fun c hc => isDigit_of_mem_decimal hc) hrest, hvalue,
    List.map_eq_nil_iff, decimal_ne_nil, List.length_map, hhead, hlt, if_true, if_false,
    if_neg (by omega : ¬ 3 < (decimal n.toNat).length)]
  rw [if_neg]
  simp only [Bool.and_eq_true, beq_iff_eq, decide_eq_true_eq]
  rintro ⟨⟨-, h⟩, hlong⟩
  exact absurd (hzero h) (by omega)

/-- A dotted quad is read back. -/
theorem parseIpAddr_display (ip : Ipv4Addr) : parseIpAddr ip.display = some (.v4 ip) := by
  have hdot : ∀ s : Str, ∀ c ∈ ('.' :: s).head?, toDigit 10 c = none := by
    rintro s c ⟨⟩
    decide
  have hend := @readNumber_decimal ip.d [] (by simp)
  rw [List.append_nil] at hend
  simp [parseIpAddr, readIpAddr, readIpv4Addr, readOctet, readSeparator, readGivenChar,
    Ipv4Addr.display, readNumber_decimal _ (hdot _), hend]

example : parseIpAddr "::ffff:10.0.0.1".toList = some (.v6 ⟨0, 0, 0, 0, 0, 0xffff, 0x0a00, 1⟩) := by
  decide

/-! ## Addresses as numbers -/

def Ipv4Addr.toNat (ip : Ipv4Addr) : Nat :=
  ip.a.toNat * 2 ^ 24 + ip.b.toNat * 2 ^ 16 + ip.c.toNat * 2 ^ 8 + ip.d.toNat

def Ipv6Addr.toNat (ip : Ipv6Addr) : Nat :=
  ip.s0.toNat * 2 ^ 112 + ip.s1.toNat * 2 ^ 96 + ip.s2.toNat * 2 ^ 80 + ip.s3.toNat * 2 ^ 64 +
    ip.s4.toNat * 2 ^ 48 + ip.s5.toNat * 2 ^ 32 + ip.s6.toNat * 2 ^ 16 + ip.s7.toNat

/-- The number of an address among the 128-bit ones, where an IPv4 address has that of its mapped form. -/
def IpAddr.number : IpAddr → Nat
  | .v4 ip => 0xffff * 2 ^ 32 + ip.toNat
  | .v6 ip => ip.toNat

/-- The addresses whose number begins with the first `length` of the 128 bits of `base`. -/
structure Block where
  base : Nat
  length : Nat

def Block.Contains (block : Block) (n : Nat) : Prop :=
  n / 2 ^ (128 - block.length) = block.base / 2 ^ (128 - block.length)

instance (block : Block) (n : Nat) : Decidable (block.Contains n) :=
  inferInstanceAs (Decidable (_ = _))

/-- The block of an IPv4 address and its first `length` of 32 bits. -/
def Block.v4 (ip : Ipv4Addr) (length : Nat) : Block := ⟨(IpAddr.v4 ip).number, 96 + length⟩

def Block.v6 (ip : Ipv6Addr) (length : Nat) : Block := ⟨ip.toNat, length⟩

/-- What an address may be set aside for. -/
inductive Scope
  | loopback | unspecified | privateUse | shared | linkLocal | uniqueLocal | multicast | broadcast
  deriving DecidableEq

/-- The blocks of a scope. -/
def Scope.blocks : Scope → List Block
  | .loopback => [.v4 ⟨127, 0, 0, 0⟩ 8, .v6 ⟨0, 0, 0, 0, 0, 0, 0, 1⟩ 128]
  | .unspecified => [.v4 ⟨0, 0, 0, 0⟩ 32, .v6 ⟨0, 0, 0, 0, 0, 0, 0, 0⟩ 128]
  | .privateUse => [.v4 ⟨10, 0, 0, 0⟩ 8, .v4 ⟨172, 16, 0, 0⟩ 12, .v4 ⟨192, 168, 0, 0⟩ 16]
  | .shared => [.v4 ⟨100, 64, 0, 0⟩ 10]
  | .linkLocal => [.v4 ⟨169, 254, 0, 0⟩ 16, .v6 ⟨0xfe80, 0, 0, 0, 0, 0, 0, 0⟩ 10]
  | .uniqueLocal => [.v6 ⟨0xfc00, 0, 0, 0, 0, 0, 0, 0⟩ 7]
  | .multicast => [.v4 ⟨224, 0, 0, 0⟩ 4, .v6 ⟨0xff00, 0, 0, 0, 0, 0, 0, 0⟩ 8]
  | .broadcast => [.v4 ⟨255, 255, 255, 255⟩ 32]

/-- An address of the scope, in plain or in IPv4-mapped form. -/
def IpAddr.HasScope (ip : IpAddr) (scope : Scope) : Prop :=
  ∃ block ∈ scope.blocks, block.Contains ip.number

instance (ip : IpAddr) (scope : Scope) : Decidable (ip.HasScope scope) :=
  inferInstanceAs (Decidable (∃ block ∈ scope.blocks, block.Contains ip.number))

/-- An address of some scope: no host that a stranger may be. -/
def IpAddr.Internal (ip : IpAddr) : Prop := ∃ scope, ip.HasScope scope

theorem Ipv4Addr.toNat_lt (ip : Ipv4Addr) : ip.toNat < 2 ^ 32 := by
  have ha := ip.a.toNat_lt
  have hb := ip.b.toNat_lt
  have hc := ip.c.toNat_lt
  have hd := ip.d.toNat_lt
  unfold Ipv4Addr.toNat
  omega

theorem Ipv4Addr.toNat_injective : Function.Injective Ipv4Addr.toNat := by
  rintro ⟨a, b, c, d⟩ ⟨a', b', c', d'⟩ h
  have := a.toNat_lt; have := b.toNat_lt; have := c.toNat_lt; have := d.toNat_lt
  have := a'.toNat_lt; have := b'.toNat_lt; have := c'.toNat_lt; have := d'.toNat_lt
  simp only [Ipv4Addr.toNat] at h
  simp only [Ipv4Addr.mk.injEq, ← UInt8.toNat_inj]
  omega

theorem Ipv4Addr.toNat_div_first (ip : Ipv4Addr) : ip.toNat / 2 ^ 24 = ip.a.toNat := by
  have hb := ip.b.toNat_lt
  have hc := ip.c.toNat_lt
  have hd := ip.d.toNat_lt
  unfold Ipv4Addr.toNat
  omega

theorem Ipv6Addr.toNat_injective : Function.Injective Ipv6Addr.toNat := by
  rintro ⟨s0, s1, s2, s3, s4, s5, s6, s7⟩ ⟨t0, t1, t2, t3, t4, t5, t6, t7⟩ h
  have := s0.toNat_lt; have := s1.toNat_lt; have := s2.toNat_lt; have := s3.toNat_lt
  have := s4.toNat_lt; have := s5.toNat_lt; have := s6.toNat_lt; have := s7.toNat_lt
  have := t0.toNat_lt; have := t1.toNat_lt; have := t2.toNat_lt; have := t3.toNat_lt
  have := t4.toNat_lt; have := t5.toNat_lt; have := t6.toNat_lt; have := t7.toNat_lt
  simp only [Ipv6Addr.toNat] at h
  simp only [Ipv6Addr.mk.injEq, ← UInt16.toNat_inj]
  omega

theorem Ipv6Addr.isLoopback_iff (ip : Ipv6Addr) : ip.isLoopback = true ↔ ip.toNat = 1 := by
  rw [Ipv6Addr.isLoopback, beq_iff_eq, ← Ipv6Addr.toNat_injective.eq_iff]
  exact Iff.rfl

/-- The high bits of a word, kept by a mask. -/
theorem land_high_bits {n w k : Nat} (hk : k ≤ w) (h : n < 2 ^ w) :
    n &&& (2 ^ w - 2 ^ k) = n / 2 ^ k * 2 ^ k := by
  have hmask : 2 ^ w - 2 ^ k = (2 ^ (w - k) - 1) * 2 ^ k := by
    rw [Nat.sub_mul, ← pow_add, Nat.sub_add_cancel hk, one_mul]
  apply Nat.eq_of_testBit_eq
  intro i
  rw [Nat.testBit_and, hmask, ← Nat.shiftLeft_eq, ← Nat.shiftLeft_eq]
  simp only [Nat.testBit_shiftLeft, Nat.testBit_two_pow_sub_one, Nat.testBit_div_two_pow]
  by_cases hi : k ≤ i
  · have hback : i - k + k = i := Nat.sub_add_cancel hi
    have hbit : n.testBit i = true → i - k < w - k := by
      intro hset
      have hlow := Nat.ge_two_pow_of_testBit hset
      have hlt : i < w := (Nat.pow_lt_pow_iff_right (by omega)).mp (lt_of_le_of_lt hlow h)
      omega
    simp only [ge_iff_le, hi, decide_true, Bool.true_and, hback]
    cases hset : n.testBit i
    · rfl
    · simpa using hbit hset
  · simp [hi]

theorem land_mask_iff (s : UInt16) {k c : Nat} (hk : k ≤ 16) :
    s.toNat &&& (2 ^ 16 - 2 ^ k) = c * 2 ^ k ↔ s.toNat / 2 ^ k = c := by
  rw [land_high_bits hk s.toNat_lt]
  exact Nat.mul_left_inj (Nat.two_pow_pos k).ne'

theorem toNat_eq_octets (s : UInt16) :
    s.toNat = (s >>> 8).toUInt8.toNat * 2 ^ 8 + s.toUInt8.toNat := by
  have h := s.toNat_lt
  simp only [UInt16.toNat_toUInt8, UInt16.toNat_shiftRight, Nat.shiftRight_eq_div_pow]
  have h8 : (8 : UInt16).toNat % 16 = 8 := by decide
  rw [h8]
  omega

/-- The address behind a mapped one has its number, and an address of no such form lies elsewhere. -/
theorem Ipv6Addr.number_toIpv4Mapped (ip : Ipv6Addr) :
    (∀ v4, ip.toIpv4Mapped = some v4 → (IpAddr.v4 v4).number = ip.toNat) ∧
      (ip.toIpv4Mapped = none → ip.toNat / 2 ^ 32 ≠ 0xffff) := by
  obtain ⟨s0, s1, s2, s3, s4, s5, s6, s7⟩ := ip
  have := s0.toNat_lt; have := s1.toNat_lt; have := s2.toNat_lt; have := s3.toNat_lt
  have := s4.toNat_lt; have := s5.toNat_lt; have := s6.toNat_lt; have := s7.toNat_lt
  simp only [Ipv6Addr.toIpv4Mapped, Ipv6Addr.toNat, Bool.and_eq_true, beq_iff_eq, ← UInt16.toNat_inj,
    UInt16.toNat_ofNat]
  constructor
  · intro v4 h
    split at h
    · have h6 := toNat_eq_octets s6
      have h7 := toNat_eq_octets s7
      cases h
      simp only [IpAddr.number, Ipv4Addr.toNat]
      omega
    · cases h
  · intro h
    split at h
    · cases h
    · omega

theorem exists_scope {p : Scope → Prop} : (∃ scope, p scope) ↔
    p .loopback ∨ p .unspecified ∨ p .privateUse ∨ p .shared ∨ p .linkLocal ∨ p .uniqueLocal ∨
      p .multicast ∨ p .broadcast := by
  constructor
  · rintro ⟨scope, h⟩
    cases scope <;> simp [h]
  · rintro (h | h | h | h | h | h | h | h) <;> exact ⟨_, h⟩

/-- The scopes, spelled out over the number of an address. -/
theorem internal_iff (ip : IpAddr) : ip.Internal ↔
    (ip.number / 2 ^ 24 = 0xffff7f ∨ ip.number = 1) ∨ (ip.number = 0xffff00000000 ∨ ip.number = 0) ∨
    (ip.number / 2 ^ 24 = 0xffff0a ∨ ip.number / 2 ^ 20 = 0xffffac1 ∨ ip.number / 2 ^ 16 = 0xffffc0a8) ∨
    ip.number / 2 ^ 22 = 0x3fffd91 ∨ (ip.number / 2 ^ 16 = 0xffffa9fe ∨ ip.number / 2 ^ 118 = 0x3fa) ∨
    ip.number / 2 ^ 121 = 0x7e ∨ (ip.number / 2 ^ 28 = 0xffffe ∨ ip.number / 2 ^ 120 = 0xff) ∨
    ip.number = 0xffffffffffff := by
  simp [IpAddr.Internal, exists_scope, IpAddr.HasScope, Scope.blocks, Block.Contains, Block.v4, Block.v6,
    Ipv4Addr.toNat, Ipv6Addr.toNat, IpAddr.number]

theorem internal_v4_iff (ip : Ipv4Addr) : (IpAddr.v4 ip).Internal ↔
    (ip.toNat / 2 ^ 24 = 127 ∨ ip.toNat = 0) ∨
    (ip.toNat / 2 ^ 24 = 10 ∨ ip.toNat / 2 ^ 20 = 0xac1 ∨ ip.toNat / 2 ^ 16 = 0xc0a8) ∨
    ip.toNat / 2 ^ 22 = 0x191 ∨ ip.toNat / 2 ^ 16 = 0xa9fe ∨ ip.toNat / 2 ^ 28 = 0xe ∨
    ip.toNat = 0xffffffff := by
  have hlt := ip.toNat_lt
  rw [internal_iff, show (IpAddr.v4 ip).number = 0xffff * 2 ^ 32 + ip.toNat from rfl]
  omega

/-- Outside the mapped block, only the blocks of version 6 count. -/
theorem internal_v6_iff {ip : Ipv6Addr} (h : ip.toNat / 2 ^ 32 ≠ 0xffff) : (IpAddr.v6 ip).Internal ↔
    (ip.toNat = 1 ∨ ip.toNat = 0) ∨ ip.toNat / 2 ^ 118 = 0x3fa ∨ ip.toNat / 2 ^ 121 = 0x7e ∨
      ip.toNat / 2 ^ 120 = 0xff := by
  rw [internal_iff, show (IpAddr.v6 ip).number = ip.toNat from rfl]
  omega

end Net
end Aimx
