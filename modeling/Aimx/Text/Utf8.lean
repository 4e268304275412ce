import Aimx.Text.Str
import Aimx.Text.Search
import Mathlib.Tactic.Cases

/-!
# UTF-8

Encoding and decoding between `Str` and `Bytes`.  The code of one scalar value is the core
library's `String.utf8EncodeChar`, and `ByteArray.utf8DecodeChar?` decides which scalar value a byte
string starts with.

* `utf8` — the encoding, with its length `byteLen` (`str::len`);
* `fromUtf8` — strict decoding (`str::from_utf8`), the inverse of `utf8`: `fromUtf8_eq_some_iff`;
* `fromUtf8Lossy` — lossy decoding (`String::from_utf8_lossy`): one replacement character for each
  maximal invalid part;
* `fromUtf8Lossy_concat_ascii` — an ASCII byte at the end is never swallowed by what precedes it;
* `dropInfix?_utf8` — searching encoded text for an ASCII needle is searching the text.
-/

namespace Aimx
namespace Text

/-- The UTF-8 encoding of a text. -/
def utf8 (s : Str) : Bytes := s.flatMap String.utf8EncodeChar

/-- `str::len`: the length of the encoding. -/
def byteLen (s : Str) : Nat := (utf8 s).length

@[simp] theorem utf8_nil : utf8 [] = [] := rfl

@[simp] theorem utf8_cons (c : Char) (s : Str) : utf8 (c :: s) = String.utf8EncodeChar c ++ utf8 s :=
  rfl

@[simp] theorem utf8_append (s t : Str) : utf8 (s ++ t) = utf8 s ++ utf8 t := by
  simp [utf8]

@[simp] theorem byteLen_nil : byteLen [] = 0 := rfl

@[simp] theorem byteLen_append (s t : Str) : byteLen (s ++ t) = byteLen s + byteLen t := by
  simp [byteLen]

theorem byteLen_cons (c : Char) (s : Str) : byteLen (c :: s) = c.utf8Size + byteLen s := by
  unfold byteLen
  rw [utf8_cons, List.length_append, String.length_utf8EncodeChar]

/-- A character takes at most four bytes. -/
theorem byteLen_le (s : Str) : byteLen s ≤ 4 * s.length := by
  induction s with
  | nil => exact Nat.zero_le _
  | cons c s ih =>
      have hsize := c.utf8Size_le_four
      rw [byteLen_cons, List.length_cons]
      omega

/-- The scalar value whose encoding a byte string starts with. -/
def decodeFirst (b : Bytes) : Option Char := b.toByteArray.utf8DecodeChar? 0

/-- `decodeFirst` finds exactly the encodings at the front. -/
theorem decodeFirst_eq_some_iff {b : Bytes} {c : Char} :
    decodeFirst b = some c ↔ ∃ rest, b = String.utf8EncodeChar c ++ rest := by
  unfold decodeFirst
  constructor
  · intro h
    obtain ⟨l, hl⟩ := ByteArray.exists_of_utf8DecodeChar?_eq_some h
    have hlist := congrArg (fun a => a.data.toList) hl
    exact ⟨l.data.toList, by simpa using hlist⟩
  · rintro ⟨rest, rfl⟩
    rw [List.toByteArray_append]
    exact ByteArray.utf8DecodeChar?_utf8EncodeChar_append

@[simp] theorem decodeFirst_encode_append (c : Char) (rest : Bytes) :
    decodeFirst (String.utf8EncodeChar c ++ rest) = some c :=
  decodeFirst_eq_some_iff.mpr ⟨rest, rfl⟩

/-- The number of bytes of the maximal invalid part at the front of a byte string that does not
start with an encoding: a lead byte together with the continuation bytes that still fit it. -/
def invalidLength : Bytes → Nat
  | b0 :: b1 :: rest =>
      let tail (b : UInt8) : Bool := 0x80 ≤ b && b ≤ 0xBF
      let second : Bool :=
        (b0 == 0xE0 && 0xA0 ≤ b1 && b1 ≤ 0xBF) ||
        (0xE1 ≤ b0 && b0 ≤ 0xEC && tail b1) ||
        (b0 == 0xED && 0x80 ≤ b1 && b1 ≤ 0x9F) ||
        (0xEE ≤ b0 && b0 ≤ 0xEF && tail b1) ||
        (b0 == 0xF0 && 0x90 ≤ b1 && b1 ≤ 0xBF) ||
        (0xF1 ≤ b0 && b0 ≤ 0xF3 && tail b1) ||
        (b0 == 0xF4 && 0x80 ≤ b1 && b1 ≤ 0x8F)
      if second then
        match rest with
        | b2 :: _ => if 0xF0 ≤ b0 && tail b2 then 3 else 2
        | [] => 2
      else 1
  | _ => 1

/-- The replacement character of lossy decoding. -/
def replacement : Char := Char.ofNat 0xFFFD

theorem invalidLength_pos (b : Bytes) : 0 < invalidLength b := by
  unfold invalidLength
  split
  · dsimp only
    split
    · split
      · split <;> omega
      · omega
    · omega
  · omega

/-- The invalid part lies within the byte string. -/
theorem invalidLength_le (x : UInt8) (xs : Bytes) : invalidLength (x :: xs) ≤ xs.length + 1 := by
  match xs with
  | [] => simp [invalidLength]
  | [y] =>
      simp only [invalidLength, List.length_cons, List.length_nil]
      split <;> omega
  | y :: z :: rest =>
      simp only [invalidLength, List.length_cons]
      split
      · split <;> omega
      · omega

/-- An invalid part is never longer than its replacement. -/
theorem invalidLength_le_three (b : Bytes) : invalidLength b ≤ 3 := by
  unfold invalidLength
  split
  · dsimp only
    split
    · split
      · split <;> omega
      · omega
    · omega
  · omega

/-- `str::from_utf8`: strict decoding. -/
def fromUtf8 : Bytes → Option Str
  | [] => some []
  | b :: bs =>
      match decodeFirst (b :: bs) with
      | none => none
      | some c => (fromUtf8 (bs.drop (c.utf8Size - 1))).map (c :: ·)
termination_by b => b.length
decreasing_by simp only [List.length_drop, List.length_cons]; omega

/-- `String::from_utf8_lossy`: lossy decoding. -/
def fromUtf8Lossy : Bytes → Str
  | [] => []
  | b :: bs =>
      match decodeFirst (b :: bs) with
      | some c => c :: fromUtf8Lossy (bs.drop (c.utf8Size - 1))
      | none => replacement :: fromUtf8Lossy (bs.drop (invalidLength (b :: bs) - 1))
termination_by b => b.length
decreasing_by all_goals simp only [List.length_drop, List.length_cons]; omega

@[simp] theorem fromUtf8_nil : fromUtf8 [] = some [] := by
  rw [fromUtf8]

@[simp] theorem fromUtf8Lossy_nil : fromUtf8Lossy [] = [] := by
  rw [fromUtf8Lossy]

/-- An encoding is never empty. -/
theorem exists_utf8EncodeChar_eq_cons (c : Char) :
    ∃ b bs, String.utf8EncodeChar c = b :: bs ∧ bs.length = c.utf8Size - 1 := by
  have hlen := String.length_utf8EncodeChar c
  have hpos := c.utf8Size_pos
  cases henc : String.utf8EncodeChar c with
  | nil =>
      rw [henc] at hlen
      simp at hlen
      omega
  | cons b bs =>
      rw [henc] at hlen
      simp only [List.length_cons] at hlen
      exact ⟨b, bs, rfl, by omega⟩

/-- Strict decoding peels one encoding off the front. -/
theorem fromUtf8_encode_append (c : Char) (rest : Bytes) :
    fromUtf8 (String.utf8EncodeChar c ++ rest) = (fromUtf8 rest).map (c :: ·) := by
  obtain ⟨b, bs, henc, hlen⟩ := exists_utf8EncodeChar_eq_cons c
  have hfirst : decodeFirst (b :: (bs ++ rest)) = some c := by
    have h := decodeFirst_encode_append c rest
    rwa [henc, List.cons_append] at h
  rw [henc, List.cons_append, fromUtf8, hfirst]
  simp only [← hlen, List.drop_left]

/-- Lossy decoding peels one encoding off the front. -/
theorem fromUtf8Lossy_encode_append (c : Char) (rest : Bytes) :
    fromUtf8Lossy (String.utf8EncodeChar c ++ rest) = c :: fromUtf8Lossy rest := by
  obtain ⟨b, bs, henc, hlen⟩ := exists_utf8EncodeChar_eq_cons c
  have hfirst : decodeFirst (b :: (bs ++ rest)) = some c := by
    have h := decodeFirst_encode_append c rest
    rwa [henc, List.cons_append] at h
  rw [henc, List.cons_append, fromUtf8Lossy, hfirst]
  simp only [← hlen, List.drop_left]

/-- Strict decoding succeeds exactly on encodings, and then inverts them. -/
theorem fromUtf8_eq_some_iff {b : Bytes} {s : Str} : fromUtf8 b = some s ↔ b = utf8 s := by
  constructor
  · intro h
    induction hn : b.length using Nat.strong_induction_on generalizing b s with
    | _ n ih =>
        cases b with
        | nil =>
            simp only [fromUtf8_nil, Option.some.injEq] at h
            subst h
            rfl
        | cons x xs =>
            cases hfirst : decodeFirst (x :: xs) with
            | none => simp [fromUtf8, hfirst] at h
            | some c =>
                obtain ⟨rest, hrest⟩ := decodeFirst_eq_some_iff.mp hfirst
                rw [hrest, fromUtf8_encode_append, Option.map_eq_some_iff] at h
                obtain ⟨t, ht, rfl⟩ := h
                have hlt : rest.length < n := by
                  have hlen := congrArg List.length hrest
                  rw [List.length_append, String.length_utf8EncodeChar] at hlen
                  have hpos := c.utf8Size_pos
                  omega
                rw [hrest, utf8_cons, ih rest.length hlt ht rfl]
  · rintro rfl
    induction s with
    | nil => simp
    | cons c s ih => rw [utf8_cons, fromUtf8_encode_append, ih]; rfl

theorem utf8_injective : Function.Injective utf8 := fun s t h => by
  have hs : fromUtf8 (utf8 s) = some s := fromUtf8_eq_some_iff.mpr rfl
  rw [h, fromUtf8_eq_some_iff.mpr rfl] at hs
  exact (Option.some.inj hs).symm

/-- Lossy decoding loses nothing of an encoded text. -/
@[simp] theorem fromUtf8Lossy_utf8 (s : Str) : fromUtf8Lossy (utf8 s) = s := by
  induction s with
  | nil => simp
  | cons c s ih => rw [utf8_cons, fromUtf8Lossy_encode_append, ih]

/-- Lossy decoding changes exactly the byte strings that are not UTF-8. -/
theorem utf8_fromUtf8Lossy_eq_iff {b : Bytes} :
    utf8 (fromUtf8Lossy b) = b ↔ (fromUtf8 b).isSome = true := by
  constructor
  · intro h
    rw [Option.isSome_iff_exists]
    exact ⟨fromUtf8Lossy b, fromUtf8_eq_some_iff.mpr h.symm⟩
  · intro h
    obtain ⟨s, hs⟩ := Option.isSome_iff_exists.mp h
    rw [fromUtf8_eq_some_iff.mp hs, fromUtf8Lossy_utf8]

/-- Lossy decoding never shortens. -/
theorem length_le_byteLen_fromUtf8Lossy (b : Bytes) : b.length ≤ byteLen (fromUtf8Lossy b) := by
  induction hn : b.length using Nat.strong_induction_on generalizing b with
  | _ n ih =>
      subst hn
      cases b with
      | nil => simp
      | cons x xs =>
          -- what is dropped behind the first byte is no longer than what is decoded for it
          have hstep : ∀ (k : Nat) (c : Char), k ≤ c.utf8Size →
              (x :: xs).length ≤ byteLen (c :: fromUtf8Lossy (xs.drop (k - 1))) := by
            intro k c hk
            have hrest := ih (xs.drop (k - 1)).length
              (by simp only [List.length_drop, List.length_cons]; omega) _ rfl
            have hpos := c.utf8Size_pos
            rw [byteLen, utf8_cons, List.length_append, String.length_utf8EncodeChar]
            unfold byteLen at hrest
            simp only [List.length_drop, List.length_cons] at hrest ⊢
            omega
          rw [fromUtf8Lossy]
          cases hfirst : decodeFirst (x :: xs) with
          | some c => exact hstep _ c le_rfl
          | none =>
              have hsize : replacement.utf8Size = 3 := by decide
              exact hstep _ replacement (hsize ▸ invalidLength_le_three (x :: xs))

/-! ## ASCII -/

/-- The character of an ASCII byte. -/
def asciiChar (b : UInt8) : Char := Char.ofNat b.toNat

/-- An ASCII character is encoded by one byte, its own code. -/
theorem utf8EncodeChar_ascii {c : Char} (h : c.toNat < 0x80) :
    String.utf8EncodeChar c = [UInt8.ofNat c.toNat] := by
  have hle : c.val.toNat ≤ 0x7F := Nat.le_of_lt_succ h
  simp only [String.utf8EncodeChar, if_pos hle]
  rfl

theorem toNat_asciiChar (b : UInt8) : (asciiChar b).toNat = b.toNat := by
  have hb : b.toNat < 256 := b.toNat_lt
  have hvalid : b.toNat.isValidChar := Or.inl (by omega)
  unfold asciiChar Char.ofNat
  rw [dif_pos hvalid]
  rfl

/-- An ASCII byte is the encoding of its character. -/
theorem utf8EncodeChar_asciiChar {b : UInt8} (h : b < 0x80) :
    String.utf8EncodeChar (asciiChar b) = [b] := by
  have hb : b.toNat < 0x80 := UInt8.lt_iff_toNat_lt.mp h
  have hnat := toNat_asciiChar b
  rw [utf8EncodeChar_ascii (by omega), hnat, UInt8.ofNat_toNat]

/-- An ASCII byte occurs in the encoding of its own character only. -/
theorem utf8EncodeChar_eq_of_mem_ascii {c : Char} {b : UInt8} (hmem : b ∈ String.utf8EncodeChar c)
    (hb : b < 0x80) : String.utf8EncodeChar c = [b] := by
  have hlt : b.toNat < 0x80 := UInt8.lt_iff_toNat_lt.mp hb
  have hhigh : ∀ n : Nat, 0x80 ≤ n % 256 → b ≠ UInt8.ofNat n := by
    rintro n hn rfl
    rw [UInt8.toNat_ofNat'] at hlt
    omega
  unfold String.utf8EncodeChar at hmem ⊢
  dsimp only at hmem ⊢
  split at hmem
  case isTrue h1 =>
      simp only [List.mem_singleton] at hmem
      rw [if_pos h1, hmem]
  case isFalse h1 =>
      exfalso
      split at hmem
      · simp only [List.mem_cons, List.not_mem_nil, or_false] at hmem
        rcases hmem with h | h <;> exact hhigh _ (by omega) h
      · split at hmem
        · simp only [List.mem_cons, List.not_mem_nil, or_false] at hmem
          rcases hmem with h | h | h <;> exact hhigh _ (by omega) h
        · simp only [List.mem_cons, List.not_mem_nil, or_false] at hmem
          rcases hmem with h | h | h | h <;> exact hhigh _ (by omega) h

/-- An ASCII byte at the front decodes to its character. -/
theorem fromUtf8Lossy_cons_ascii {b : UInt8} (hb : b < 0x80) (bs : Bytes) :
    fromUtf8Lossy (b :: bs) = asciiChar b :: fromUtf8Lossy bs := by
  have h := fromUtf8Lossy_encode_append (asciiChar b) bs
  rwa [utf8EncodeChar_asciiChar hb] at h

/-- ASCII text decodes byte by byte. -/
theorem fromUtf8Lossy_ascii {bs : Bytes} (h : ∀ b ∈ bs, b < 0x80) :
    fromUtf8Lossy bs = bs.map asciiChar := by
  induction bs with
  | nil => simp
  | cons b bs ih =>
      rw [fromUtf8Lossy_cons_ascii (h b (List.mem_cons_self ..)),
        ih fun x hx => h x (List.mem_cons_of_mem _ hx), List.map_cons]

/-- ASCII text is as long as its bytes. -/
theorem byteLen_map_asciiChar {bs : Bytes} (h : ∀ b ∈ bs, b < 0x80) :
    byteLen (bs.map asciiChar) = bs.length := by
  induction bs with
  | nil => rfl
  | cons b bs ih =>
      have hb := h b (List.mem_cons_self ..)
      have hbs := ih fun x hx => h x (List.mem_cons_of_mem _ hx)
      rw [byteLen] at hbs ⊢
      rw [List.map_cons, utf8_cons, utf8EncodeChar_asciiChar hb, List.length_append, hbs,
        List.length_singleton, List.length_cons, Nat.add_comm]

/-- An ASCII byte at the end completes no multi-byte encoding. -/
theorem decodeFirst_concat_ascii {b : UInt8} (hb : b < 0x80) (x : UInt8) (xs : Bytes) :
    decodeFirst (x :: xs ++ [b]) = decodeFirst (x :: xs) := by
  cases hfirst : decodeFirst (x :: xs) with
  | some c =>
      obtain ⟨rest, hrest⟩ := decodeFirst_eq_some_iff.mp hfirst
      rw [hrest, List.append_assoc]
      exact decodeFirst_encode_append c _
  | none =>
      by_contra hne
      obtain ⟨c, hc⟩ := Option.ne_none_iff_exists'.mp hne
      obtain ⟨rest, hrest⟩ := decodeFirst_eq_some_iff.mp hc
      rcases List.eq_nil_or_concat rest with rfl | ⟨rest', z, rfl⟩
      · -- the encoding would end in the ASCII byte, so it would be that byte alone
        rw [List.append_nil] at hrest
        have hmem : b ∈ String.utf8EncodeChar c := by
          rw [← hrest]
          exact List.mem_append_right _ (List.mem_singleton_self b)
        have hone := utf8EncodeChar_eq_of_mem_ascii hmem hb
        rw [hone] at hrest
        have hlen := congrArg List.length hrest
        simp at hlen
      · rw [List.concat_eq_append, ← List.append_assoc] at hrest
        obtain ⟨hinit, -⟩ := List.append_inj' hrest rfl
        rw [hinit, decodeFirst_encode_append] at hfirst
        cases hfirst

/-- The invalid part at the front is the same with an ASCII byte behind it. -/
theorem invalidLength_concat_ascii {b : UInt8} (hb : b < 0x80) (x : UInt8) (xs : Bytes) :
    invalidLength (x :: xs ++ [b]) = invalidLength (x :: xs) := by
  have hlow : ∀ k : UInt8, 0x80 ≤ k → decide (k ≤ b) = false := by
    intro k hk
    rw [decide_eq_false_iff_not, UInt8.not_le]
    exact UInt8.lt_of_lt_of_le hb hk
  match xs with
  | [] =>
      simp [invalidLength, hlow 0xA0 (by decide), hlow 0x80 (by decide), hlow 0x90 (by decide)]
  | [y] => simp [invalidLength, hlow 0x80 (by decide)]
  | y :: z :: rest => rfl

/-- **An ASCII byte at the end survives lossy decoding.**  Whatever precedes it, it is decoded as a
character of its own. -/
theorem fromUtf8Lossy_concat_ascii {b : UInt8} (hb : b < 0x80) (bs : Bytes) :
    fromUtf8Lossy (bs ++ [b]) = fromUtf8Lossy bs ++ [asciiChar b] := by
  induction hn : bs.length using Nat.strong_induction_on generalizing bs with
  | _ n ih =>
      cases bs with
      | nil => simp [fromUtf8Lossy_cons_ascii hb]
      | cons x xs =>
          have hstep : ∀ k, k ≤ xs.length →
              fromUtf8Lossy ((xs ++ [b]).drop k) = fromUtf8Lossy (xs.drop k) ++ [asciiChar b] := by
            intro k hk
            rw [List.drop_append_of_le_length hk]
            refine ih (xs.drop k).length ?_ _ rfl
            simp only [List.length_drop, ← hn, List.length_cons]
            omega
          rw [List.cons_append, fromUtf8Lossy, fromUtf8Lossy, ← List.cons_append,
            decodeFirst_concat_ascii hb, invalidLength_concat_ascii hb]
          cases hfirst : decodeFirst (x :: xs) with
          | some c =>
              obtain ⟨rest, hrest⟩ := decodeFirst_eq_some_iff.mp hfirst
              have hlen := congrArg List.length hrest
              rw [List.length_append, String.length_utf8EncodeChar, List.length_cons] at hlen
              have hpos := c.utf8Size_pos
              dsimp only
              rw [hstep _ (by omega), List.cons_append]
          | none =>
              dsimp only
              rw [hstep _ (by have := invalidLength_le x xs; omega), List.cons_append]

/-! ## Searching encoded text -/

/-- A decoded text keeps what stands in front of a byte string. -/
theorem fromUtf8Lossy_utf8_append (s : Str) (b : Bytes) :
    fromUtf8Lossy (utf8 s ++ b) = s ++ fromUtf8Lossy b := by
  induction s with
  | nil => rfl
  | cons c s ih =>
      rw [utf8_cons, List.append_assoc, fromUtf8Lossy_encode_append, ih, List.cons_append]

/-- No two characters begin an encoding alike. -/
theorem utf8EncodeChar_append_inj {c d : Char} {b b' : Bytes}
    (h : String.utf8EncodeChar c ++ b = String.utf8EncodeChar d ++ b') : c = d ∧ b = b' := by
  have hc := decodeFirst_encode_append c b
  rw [h, decodeFirst_encode_append, Option.some.injEq] at hc
  subst hc
  exact ⟨rfl, List.append_cancel_left h⟩

/-- An ASCII byte in the encoding of a character is its code point. -/
theorem toNat_of_mem_ascii {c : Char} {b : UInt8} (hmem : b ∈ String.utf8EncodeChar c) (hb : b < 0x80) :
    c.toNat = b.toNat := by
  have hwhole := utf8EncodeChar_eq_of_mem_ascii hmem hb
  obtain ⟨rfl, -⟩ := @utf8EncodeChar_append_inj _ _ [] []
    (congrArg (· ++ []) (hwhole.trans (utf8EncodeChar_asciiChar hb).symm))
  exact toNat_asciiChar b

/-- An encoded text that starts with the encoding of `n` is a text that starts with `n`. -/
theorem eq_append_of_utf8_eq {s n : Str} {b : Bytes} (h : utf8 s = utf8 n ++ b) :
    ∃ r, s = n ++ r ∧ utf8 r = b := by
  induction n generalizing s with
  | nil => exact ⟨s, rfl, h⟩
  | cons c n ih =>
      cases s with
      | nil =>
          obtain ⟨x, xs, henc, -⟩ := exists_utf8EncodeChar_eq_cons c
          rw [utf8_cons, henc] at h
          cases h
      | cons d s =>
          rw [utf8_cons, utf8_cons, List.append_assoc] at h
          obtain ⟨rfl, hrest⟩ := utf8EncodeChar_append_inj h
          obtain ⟨r, rfl, hr⟩ := ih hrest
          exact ⟨r, rfl, hr⟩

/-- Before an ASCII byte an encoded text can be cut. -/
theorem exists_cut_of_utf8_eq {s : Str} {p r : Bytes} {x : UInt8} (hx : x < 0x80)
    (h : utf8 s = p ++ x :: r) : ∃ s₁ s₂, s = s₁ ++ s₂ ∧ utf8 s₁ = p ∧ utf8 s₂ = x :: r := by
  induction s generalizing p with
  | nil =>
      have := congrArg List.length h
      simp at this
  | cons c s ih =>
      by_cases hp : p = []
      · exact ⟨[], c :: s, rfl, hp.symm, by rw [h, hp]; rfl⟩
      rw [utf8_cons] at h
      rcases List.append_eq_append_iff.mp h with ⟨p', rfl, hs⟩ | ⟨q, henc, hq⟩
      · obtain ⟨s₁, s₂, rfl, rfl, hs₂⟩ := ih hs
        exact ⟨c :: s₁, s₂, rfl, rfl, hs₂⟩
      · -- the byte would lie inside the encoding of `c`, which is then that one byte
        cases q with
        | nil =>
            rw [List.append_nil] at henc
            exact ⟨[c], s, rfl, by rw [← henc]; simp, hq.symm⟩
        | cons y q =>
            rw [List.cons_append, List.cons.injEq] at hq
            obtain ⟨rfl, -⟩ := hq
            have hone : String.utf8EncodeChar c = [x] :=
              utf8EncodeChar_eq_of_mem_ascii (by rw [henc]; simp) hx
            have hlen := congrArg List.length henc
            rw [hone] at hlen
            have hpos : 0 < p.length := List.length_pos_iff.mpr hp
            simp only [List.length_append, List.length_cons, List.length_nil] at hlen
            omega

/-- The occurrences of an ASCII-led needle in an encoded text are those in the text. -/
theorem exists_infix_of_utf8_eq {s n : Str} {c : Char} {p r : Bytes} (hc : c.toNat < 0x80)
    (h : utf8 s = p ++ utf8 (c :: n) ++ r) :
    ∃ s₁ s₂, s = s₁ ++ (c :: n) ++ s₂ ∧ utf8 s₁ = p ∧ utf8 s₂ = r := by
  have hx : UInt8.ofNat c.toNat < 0x80 := by
    rw [UInt8.lt_iff_toNat_lt, UInt8.toNat_ofNat']
    show c.toNat % 256 < 128
    omega
  have hcut : utf8 s = p ++ UInt8.ofNat c.toNat :: (utf8 n ++ r) := by
    rw [h, utf8_cons, utf8EncodeChar_ascii hc]
    simp
  obtain ⟨s₁, t, rfl, rfl, ht⟩ := exists_cut_of_utf8_eq hx hcut
  have hneedle : utf8 t = utf8 (c :: n) ++ r := by
    rw [ht, utf8_cons, utf8EncodeChar_ascii hc]
    rfl
  obtain ⟨s₂, rfl, hs₂⟩ := eq_append_of_utf8_eq hneedle
  exact ⟨s₁, s₂, by simp, rfl, hs₂⟩

/-- Searching encoded text for an ASCII-led needle is searching the text. -/
theorem dropInfix?_utf8 (s n : Str) {c : Char} (hc : c.toNat < 0x80) :
    (utf8 s).dropInfix? (utf8 (c :: n)) =
      (s.dropInfix? (c :: n)).map fun p => (utf8 p.1, utf8 p.2) := by
  cases hfound : s.dropInfix? (c :: n) with
  | none =>
      rw [dropInfix?_eq_none_iff] at hfound
      rw [Option.map_none, dropInfix?_eq_none_iff]
      rintro ⟨p, r, hpr⟩
      obtain ⟨s₁, s₂, rfl, -, -⟩ := exists_infix_of_utf8_eq hc hpr.symm
      exact hfound ⟨s₁, s₂, rfl⟩
  | some q =>
      obtain ⟨pre, post⟩ := q
      rw [dropInfix?_eq_some_iff'] at hfound
      obtain ⟨rfl, hmin⟩ := hfound
      rw [Option.map_some, dropInfix?_eq_some_iff']
      refine ⟨by simp, fun p r hpr => ?_⟩
      obtain ⟨s₁, s₂, hs, rfl, rfl⟩ := exists_infix_of_utf8_eq hc hpr
      -- the first occurrence in the text lies before any other one
      have hpre : pre <+: pre ++ (c :: n) ++ post := ⟨c :: n ++ post, by simp⟩
      have hs₁ : s₁ <+: pre ++ (c :: n) ++ post := ⟨c :: n ++ s₂, by rw [hs]; simp⟩
      have hfront := List.prefix_of_prefix_length_le hpre hs₁ (hmin s₁ s₂ hs)
      obtain ⟨t, rfl⟩ := hfront
      simp

end Text
end Aimx
