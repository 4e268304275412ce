import Aimx.Text.Str
import Mathlib.Tactic.IntervalCases

/-!
# Base64

The encoding of bytes in RFC 4648, section 4, with padding, and its canonical decoder: the length is a
multiple of four, there are at most two pads and only at the end, and the bits that they stand for are zero.

* `encode`, `decode` — three bytes in four characters, and back;
* `decode_encode` — the round trip;
* `Engine` — a library that follows the encoding;
* `isSextetOrPad_of_mem_encode` — the characters of an encoded text.
-/

namespace Aimx
namespace Text
namespace Base64

/-- The character of a number below 64. -/
def sextet (n : Nat) : Char :=
  if n < 26 then Char.ofNat (65 + n)
  else if n < 52 then Char.ofNat (71 + n)
  else if n < 62 then Char.ofNat (n - 4)
  else if n = 62 then '+'
  else '/'

/-- The number of a character of the alphabet. -/
def sextetValue (c : Char) : Option Nat :=
  if 'A' ≤ c ∧ c ≤ 'Z' then some (c.toNat - 65)
  else if 'a' ≤ c ∧ c ≤ 'z' then some (c.toNat - 71)
  else if '0' ≤ c ∧ c ≤ '9' then some (c.toNat + 4)
  else if c = '+' then some 62
  else if c = '/' then some 63
  else none

def encode : Bytes → Str
  | [] => []
  | [a] => [sextet (a.toNat / 4), sextet (a.toNat % 4 * 16), '=', '=']
  | [a, b] =>
      [sextet (a.toNat / 4), sextet (a.toNat % 4 * 16 + b.toNat / 16), sextet (b.toNat % 16 * 4), '=']
  | a :: b :: c :: rest =>
      sextet (a.toNat / 4) :: sextet (a.toNat % 4 * 16 + b.toNat / 16) ::
        sextet (b.toNat % 16 * 4 + c.toNat / 64) :: sextet (c.toNat % 64) :: encode rest

/-- The bytes of the last four characters when they end in a pad. -/
def decodePadded (w x y : Char) : Option Bytes := do
  let p ← sextetValue w
  let q ← sextetValue x
  if y = '=' then
    if q % 16 = 0 then some [UInt8.ofNat (p * 4 + q / 16)] else none
  else
    let r ← sextetValue y
    if r % 4 = 0 then some [UInt8.ofNat (p * 4 + q / 16), UInt8.ofNat (q % 16 * 16 + r / 4)] else none

def decode : Str → Option Bytes
  | [] => some []
  | w :: x :: y :: z :: rest =>
      if z = '=' ∧ rest = [] then decodePadded w x y
      else do
        let p ← sextetValue w
        let q ← sextetValue x
        let r ← sextetValue y
        let s ← sextetValue z
        let bytes ← decode rest
        return UInt8.ofNat (p * 4 + q / 16) :: UInt8.ofNat (q % 16 * 16 + r / 4) ::
          UInt8.ofNat (r % 4 * 64 + s) :: bytes
  | _ => none

/-! ## The alphabet -/

/-- The characters of an encoded text. -/
def IsSextetOrPad (c : Char) : Prop := (sextetValue c).isSome = true ∨ c = '='

instance : DecidablePred IsSextetOrPad :=
  fun c => inferInstanceAs (Decidable ((sextetValue c).isSome = true ∨ c = '='))

theorem sextetValue_sextet {n : Nat} (h : n < 64) : sextetValue (sextet n) = some n := by
  interval_cases n <;> rfl

theorem sextet_ne_pad {n : Nat} (h : n < 64) : sextet n ≠ '=' := by
  intro heq
  have hvalue := sextetValue_sextet h
  rw [heq] at hvalue
  cases hvalue

theorem isSextetOrPad_of_mem_encode {bytes : Bytes} {c : Char} (h : c ∈ encode bytes) :
    IsSextetOrPad c := by
  have hsextet : ∀ n < 64, IsSextetOrPad (sextet n) := fun n hn => .inl (by rw [sextetValue_sextet hn]; rfl)
  have hlt : ∀ a : UInt8, a.toNat < 256 := fun a => a.toNat_lt
  induction bytes using encode.induct with
  | case1 => cases h
  | case2 a =>
      have ha := hlt a
      simp only [encode, List.mem_cons, List.not_mem_nil, or_false] at h
      rcases h with rfl | rfl | rfl | rfl
      · exact hsextet _ (by omega)
      · exact hsextet _ (by omega)
      · exact .inr rfl
      · exact .inr rfl
  | case3 a b =>
      have ha := hlt a
      have hb := hlt b
      simp only [encode, List.mem_cons, List.not_mem_nil, or_false] at h
      rcases h with rfl | rfl | rfl | rfl
      · exact hsextet _ (by omega)
      · exact hsextet _ (by omega)
      · exact hsextet _ (by omega)
      · exact .inr rfl
  | case4 a b d rest ih =>
      have ha := hlt a
      have hb := hlt b
      have hd := hlt d
      simp only [encode, List.mem_cons] at h
      rcases h with rfl | rfl | rfl | rfl | h
      · exact hsextet _ (by omega)
      · exact hsextet _ (by omega)
      · exact hsextet _ (by omega)
      · exact hsextet _ (by omega)
      · exact ih h

theorem toNat_between {a b c : Char} (h : a ≤ c ∧ c ≤ b) : a.toNat ≤ c.toNat ∧ c.toNat ≤ b.toNat :=
  ⟨UInt32.le_iff_toNat_le.mp h.1, UInt32.le_iff_toNat_le.mp h.2⟩

theorem toNat_of_isSextetOrPad {c : Char} (h : IsSextetOrPad c) : 43 ≤ c.toNat ∧ c.toNat ≤ 122 := by
  rcases h with h | rfl
  · unfold sextetValue at h
    split at h
    next hrange =>
        have hbounds := toNat_between hrange
        simp only [Char.reduceToNat] at hbounds
        omega
    split at h
    next hrange =>
        have hbounds := toNat_between hrange
        simp only [Char.reduceToNat] at hbounds
        omega
    split at h
    next hrange =>
        have hbounds := toNat_between hrange
        simp only [Char.reduceToNat] at hbounds
        omega
    split at h
    next hplus =>
        subst hplus
        decide
    split at h
    next hslash =>
        subst hslash
        decide
    next => cases h
  · decide

/-- White space and dashes are none of them. -/
theorem isWhitespace_of_isSextetOrPad {c : Char} (h : IsSextetOrPad c) :
    isWhitespace c = false ∧ c ≠ '-' := by
  constructor
  · obtain ⟨hlow, hhigh⟩ := toNat_of_isSextetOrPad h
    unfold isWhitespace
    simp only [Bool.or_eq_false_iff, Bool.and_eq_false_iff, decide_eq_false_iff_not, beq_eq_false_iff_ne]
    omega
  · rintro rfl
    rcases h with h | h
    · cases h
    · cases h

theorem encode_eq_nil_iff {bytes : Bytes} : encode bytes = [] ↔ bytes = [] := by
  cases bytes using encode.induct <;> simp [encode]

/-! ## The round trip -/

/-- The numbers of the characters give the bytes back. -/
theorem bytes_of_sextets (a b d : UInt8) :
    UInt8.ofNat (a.toNat / 4 * 4 + (a.toNat % 4 * 16 + b.toNat / 16) / 16) = a ∧
      UInt8.ofNat ((a.toNat % 4 * 16 + b.toNat / 16) % 16 * 16 +
        (b.toNat % 16 * 4 + d.toNat / 64) / 4) = b ∧
      UInt8.ofNat ((b.toNat % 16 * 4 + d.toNat / 64) % 4 * 64 + d.toNat % 64) = d := by
  have hb : b.toNat < 256 := b.toNat_lt
  have hd : d.toNat < 256 := d.toNat_lt
  have hfirst : a.toNat / 4 * 4 + (a.toNat % 4 * 16 + b.toNat / 16) / 16 = a.toNat := by omega
  have hsecond : (a.toNat % 4 * 16 + b.toNat / 16) % 16 * 16 + (b.toNat % 16 * 4 + d.toNat / 64) / 4 =
      b.toNat := by omega
  have hthird : (b.toNat % 16 * 4 + d.toNat / 64) % 4 * 64 + d.toNat % 64 = d.toNat := by omega
  rw [hfirst, hsecond, hthird]
  exact ⟨UInt8.ofNat_toNat, UInt8.ofNat_toNat, UInt8.ofNat_toNat⟩

/-- **Decoding undoes encoding.** -/
theorem decode_encode (bytes : Bytes) : decode (encode bytes) = some bytes := by
  have hlt : ∀ a : UInt8, a.toNat < 256 := fun a => a.toNat_lt
  induction bytes using encode.induct with
  | case1 => rfl
  | case2 a =>
      have ha := hlt a
      have hbyte := (bytes_of_sextets a 0 0).1
      have hzero : a.toNat % 4 * 16 + (0 : UInt8).toNat / 16 = a.toNat % 4 * 16 := by
        show a.toNat % 4 * 16 + 0 / 16 = _
        omega
      rw [hzero] at hbyte
      have hpad : a.toNat % 4 * 16 % 16 = 0 := by omega
      rw [encode, decode, if_pos ⟨rfl, rfl⟩, decodePadded, sextetValue_sextet (by omega),
        sextetValue_sextet (by omega)]
      simp only [bind, Option.bind, if_true, hpad, hbyte]
  | case3 a b =>
      have ha := hlt a
      have hb := hlt b
      obtain ⟨hfirst, hsecond, -⟩ := bytes_of_sextets a b 0
      have hzero : b.toNat % 16 * 4 + (0 : UInt8).toNat / 64 = b.toNat % 16 * 4 := by
        show b.toNat % 16 * 4 + 0 / 64 = _
        omega
      rw [hzero] at hsecond
      have hpad : b.toNat % 16 * 4 % 4 = 0 := by omega
      have hne : sextet (b.toNat % 16 * 4) ≠ '=' := sextet_ne_pad (by omega)
      rw [encode, decode, if_pos ⟨rfl, rfl⟩, decodePadded, sextetValue_sextet (by omega),
        sextetValue_sextet (by omega), sextetValue_sextet (by omega)]
      simp only [bind, Option.bind, if_neg hne, if_true, hpad, hfirst, hsecond]
  | case4 a b d rest ih =>
      have ha := hlt a
      have hb := hlt b
      have hd := hlt d
      obtain ⟨hfirst, hsecond, hthird⟩ := bytes_of_sextets a b d
      have hne : sextet (d.toNat % 64) ≠ '=' := sextet_ne_pad (by omega)
      rw [encode, decode, if_neg (fun h => hne h.1), sextetValue_sextet (by omega),
        sextetValue_sextet (by omega), sextetValue_sextet (by omega), sextetValue_sextet (by omega), ih]
      simp only [bind, Option.bind, pure, hfirst, hsecond, hthird]

/-- A codec for this encoding: it writes it, and reads back what is written. -/
structure Engine where
  encode : Bytes → Str
  decode : Str → Option Bytes
  encode_eq : encode = Base64.encode
  decode_eq : ∀ bytes, decode (Base64.encode bytes) = some bytes

/-- The codec with the canonical decoder. -/
def standard : Engine := ⟨encode, decode, rfl, decode_encode⟩

end Base64

end Text
end Aimx
