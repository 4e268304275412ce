import Aimx.Text.Utf8

/-!
# Lossy decoding in pieces

A text that arrives in pieces may be decoded piece by piece, and a character that is cut by a boundary
is lost then.

* `alone`, `spread` — a byte decoded on its own, and the length of what a byte string becomes so;
* `byteLen_fromUtf8Lossy_le` — nothing grows longer than that;
* `fromUtf8Lossy_eq_alone_iff` — no boundary changes the text exactly when each byte is decoded on its
  own;
* `decode_flatMap` — every way of cutting such bytes gives the same text.
-/

namespace Aimx
namespace Text

/-- A byte decoded on its own. -/
def alone (b : UInt8) : Char := if b < 0x80 then asciiChar b else replacement

/-- The number of bytes that a byte decoded on its own takes. -/
def loneLength (b : UInt8) : Nat := if b < 0x80 then 1 else 3

/-- The length of a byte string of which each byte is decoded on its own. -/
def spread : Bytes → Nat
  | [] => 0
  | b :: l => loneLength b + spread l

theorem spread_cons (b : UInt8) (l : Bytes) : spread (b :: l) = loneLength b + spread l := rfl

theorem spread_append (l l' : Bytes) : spread (l ++ l') = spread l + spread l' := by
  induction l with
  | nil => rw [List.nil_append, spread, Nat.zero_add]
  | cons b l ih => rw [List.cons_append, spread_cons, spread_cons, ih, Nat.add_assoc]

theorem one_le_loneLength (b : UInt8) : 1 ≤ loneLength b := by
  unfold loneLength
  split <;> omega

theorem length_le_spread (l : Bytes) : l.length ≤ spread l := by
  induction l with
  | nil => exact Nat.zero_le _
  | cons b l ih =>
      have hone := one_le_loneLength b
      rw [spread_cons, List.length_cons]
      omega

theorem byteLen_alone (b : UInt8) : byteLen [alone b] = loneLength b := by
  unfold alone loneLength
  split
  next hb =>
      rw [byteLen, utf8_cons, utf8EncodeChar_asciiChar hb]
      rfl
  next => decide

theorem byteLen_map_alone (l : Bytes) : byteLen (l.map alone) = spread l := by
  induction l with
  | nil => rfl
  | cons b l ih =>
      have hcons : alone b :: l.map alone = [alone b] ++ l.map alone := rfl
      rw [List.map_cons, hcons, byteLen_append, byteLen_alone, ih, spread_cons]

/-! ## One unit at a time -/

/-- A byte that starts no encoding is not ASCII. -/
theorem not_ascii_of_decodeFirst {b : UInt8} {bs : Bytes} (h : decodeFirst (b :: bs) = none) :
    ¬b < 0x80 := by
  intro hb
  have hfirst := decodeFirst_encode_append (asciiChar b) bs
  rw [utf8EncodeChar_asciiChar hb, List.singleton_append, h] at hfirst
  cases hfirst

/-- The first unit of a decoding: a character and its encoding, or a replacement of an invalid part. -/
theorem fromUtf8Lossy_cases (b : UInt8) (bs : Bytes) :
    (∃ c rest, b :: bs = String.utf8EncodeChar c ++ rest ∧
        fromUtf8Lossy (b :: bs) = c :: fromUtf8Lossy rest) ∨
      decodeFirst (b :: bs) = none ∧ ∃ part rest, part.length + 1 = invalidLength (b :: bs) ∧
        bs = part ++ rest ∧ fromUtf8Lossy (b :: bs) = replacement :: fromUtf8Lossy rest := by
  cases hfirst : decodeFirst (b :: bs) with
  | some c =>
      obtain ⟨rest, hrest⟩ := decodeFirst_eq_some_iff.mp hfirst
      exact Or.inl ⟨c, rest, hrest, by rw [hrest, fromUtf8Lossy_encode_append]⟩
  | none =>
      have hpos := invalidLength_pos (b :: bs)
      have hle := invalidLength_le b bs
      refine Or.inr ⟨rfl, bs.take (invalidLength (b :: bs) - 1), _, ?_,
        (List.take_append_drop _ _).symm, ?_⟩
      · rw [List.length_take]
        omega
      · rw [fromUtf8Lossy, hfirst]

/-- No decoding is longer than the one that takes each byte on its own. -/
theorem byteLen_fromUtf8Lossy_le (l : Bytes) : byteLen (fromUtf8Lossy l) ≤ spread l := by
  induction hn : l.length using Nat.strong_induction_on generalizing l with
  | _ n ih =>
      subst hn
      cases l with
      | nil => simp
      | cons b bs =>
          rcases fromUtf8Lossy_cases b bs with
            ⟨c, rest, hsplit, hdecode⟩ | ⟨hnone, part, rest, -, rfl, hdecode⟩
          · have hlen := congrArg List.length hsplit
            have hpos := c.utf8Size_pos
            rw [List.length_append, String.length_utf8EncodeChar] at hlen
            have hrest := ih rest.length (by omega) rest rfl
            have hchar := length_le_spread (String.utf8EncodeChar c)
            rw [hdecode, hsplit, spread_append, byteLen, utf8_cons, List.length_append]
            unfold byteLen at hrest
            omega
          · have hrest := ih rest.length
              (by simp only [List.length_cons, List.length_append]; omega) rest rfl
            have hsize : (String.utf8EncodeChar replacement).length = 3 := by decide
            have hweight : loneLength b = 3 := if_neg (not_ascii_of_decodeFirst hnone)
            rw [hdecode, spread_cons, spread_append, byteLen, utf8_cons, List.length_append, hsize, hweight]
            unfold byteLen at hrest
            omega

/-- No decoding has more characters than there are bytes. -/
theorem length_fromUtf8Lossy_le (l : Bytes) : (fromUtf8Lossy l).length ≤ l.length := by
  induction hn : l.length using Nat.strong_induction_on generalizing l with
  | _ n ih =>
      subst hn
      cases l with
      | nil => simp
      | cons b bs =>
          rcases fromUtf8Lossy_cases b bs with
            ⟨c, rest, hsplit, hdecode⟩ | ⟨-, part, rest, -, rfl, hdecode⟩
          · have hlen := congrArg List.length hsplit
            have hpos := c.utf8Size_pos
            rw [List.length_append, String.length_utf8EncodeChar] at hlen
            have hrest := ih rest.length (by omega) rest rfl
            rw [hdecode, List.length_cons]
            omega
          · have hrest := ih rest.length
              (by simp only [List.length_cons, List.length_append]; omega) rest rfl
            rw [hdecode]
            simp only [List.length_cons, List.length_append]
            omega

/-! ## Bytes that are decoded alone -/

/-- The first byte is decoded on its own. -/
def FirstAlone (b : UInt8) (bs : Bytes) : Prop :=
  b < 0x80 ∨ decodeFirst (b :: bs) = none ∧ invalidLength (b :: bs) = 1

theorem fromUtf8Lossy_of_firstAlone {b : UInt8} {bs : Bytes} (h : FirstAlone b bs) :
    fromUtf8Lossy (b :: bs) = alone b :: fromUtf8Lossy bs := by
  rcases h with hb | ⟨hnone, hone⟩
  · rw [fromUtf8Lossy_cons_ascii hb, alone, if_pos hb]
  · rw [fromUtf8Lossy, hnone, alone, if_neg (not_ascii_of_decodeFirst hnone), hone]
    rfl

/-- Where there are as many characters as bytes, the first byte is decoded on its own. -/
theorem firstAlone_of_length {b : UInt8} {bs : Bytes}
    (h : (fromUtf8Lossy (b :: bs)).length = (b :: bs).length) : FirstAlone b bs := by
  rcases fromUtf8Lossy_cases b bs with ⟨c, rest, hsplit, hdecode⟩ | ⟨hnone, part, rest, hpart, rfl, hdecode⟩
  · -- the character takes one byte, so it is ASCII
    left
    have hlen := congrArg List.length hsplit
    have hrest := length_fromUtf8Lossy_le rest
    rw [List.length_append, String.length_utf8EncodeChar] at hlen
    rw [hdecode, List.length_cons] at h
    have hsize : c.utf8Size = 1 := by
      have hpos := c.utf8Size_pos
      omega
    have hascii : c.toNat < 0x80 := by
      have := Char.utf8Size_eq_one_iff.mp hsize
      have hle : c.val.toNat ≤ 0x7F := by simpa using UInt32.le_iff_toNat_le.mp this
      exact Nat.lt_succ_of_le hle
    rw [utf8EncodeChar_ascii hascii, List.singleton_append, List.cons.injEq] at hsplit
    rw [hsplit.1, UInt8.lt_iff_toNat_lt, UInt8.toNat_ofNat']
    show c.toNat % 256 < 128
    omega
  · right
    have hrest := length_fromUtf8Lossy_le rest
    rw [hdecode] at h
    simp only [List.length_cons, List.length_append] at h
    exact ⟨hnone, by omega⟩

/-- What is decoded on its own within a byte string is so within its beginning. -/
theorem FirstAlone.of_append {b : UInt8} {bs more : Bytes} (h : FirstAlone b (bs ++ more)) :
    FirstAlone b bs := by
  rcases h with hb | ⟨hnone, hone⟩
  · exact Or.inl hb
  · refine Or.inr ⟨?_, ?_⟩
    · by_contra hsome
      obtain ⟨c, hc⟩ := Option.ne_none_iff_exists'.mp hsome
      obtain ⟨rest, hrest⟩ := decodeFirst_eq_some_iff.mp hc
      have hlonger : decodeFirst (b :: (bs ++ more)) = some c := by
        rw [← List.cons_append, hrest, List.append_assoc]
        exact decodeFirst_encode_append c _
      rw [hnone] at hlonger
      cases hlonger
    · match bs with
      | [] => rfl
      | [x] =>
          unfold invalidLength at hone ⊢
          dsimp only [List.cons_append, List.nil_append] at hone ⊢
          split
          next hsecond =>
              rw [if_pos hsecond] at hone
              split at hone
              · split at hone <;> omega
              · omega
          next => rfl
      | x :: y :: bs =>
          unfold invalidLength at hone ⊢
          exact hone

/-- A byte string whose bytes are decoded each on its own. -/
theorem fromUtf8Lossy_append_of_length {p q : Bytes}
    (h : (fromUtf8Lossy (p ++ q)).length = (p ++ q).length) :
    fromUtf8Lossy p = p.map alone ∧ (fromUtf8Lossy q).length = q.length := by
  induction p with
  | nil => exact ⟨fromUtf8Lossy_nil, h⟩
  | cons b p ih =>
      rw [List.cons_append] at h
      have hfirst := firstAlone_of_length h
      rw [fromUtf8Lossy_of_firstAlone hfirst, List.length_cons, List.length_cons] at h
      obtain ⟨hp, hq⟩ := ih (by omega)
      exact ⟨by rw [fromUtf8Lossy_of_firstAlone hfirst.of_append, hp, List.map_cons], hq⟩

/-- **There are as many characters as bytes** exactly when each byte is decoded on its own. -/
theorem fromUtf8Lossy_eq_alone_iff (l : Bytes) :
    (fromUtf8Lossy l).length = l.length ↔ fromUtf8Lossy l = l.map alone := by
  constructor
  · intro h
    have happend := @fromUtf8Lossy_append_of_length l []
    rw [List.append_nil] at happend
    exact (happend h).1
  · intro h
    rw [h, List.length_map]

/-- **No way of cutting** bytes that are decoded each on its own changes the text. -/
theorem decode_flatMap {pieces : List Bytes}
    (h : (fromUtf8Lossy pieces.flatten).length = pieces.flatten.length) :
    pieces.flatMap fromUtf8Lossy = pieces.flatten.map alone := by
  induction pieces with
  | nil => rfl
  | cons piece pieces ih =>
      rw [List.flatten_cons] at h
      obtain ⟨hpiece, hrest⟩ := fromUtf8Lossy_append_of_length h
      rw [List.flatMap_cons, List.flatten_cons, List.map_append, hpiece, ih hrest]

theorem fromUtf8Lossy_singleton (b : UInt8) : fromUtf8Lossy [b] = [alone b] := by
  have hlen : (fromUtf8Lossy [b]).length = [b].length := by
    rcases fromUtf8Lossy_cases b [] with ⟨c, rest, hsplit, hdecode⟩ | ⟨-, part, rest, -, hrest, hdecode⟩
    · have hlen := congrArg List.length hsplit
      have hpos := c.utf8Size_pos
      rw [List.length_append, String.length_utf8EncodeChar] at hlen
      have hnil : rest = [] := List.eq_nil_of_length_eq_zero (by
        simp only [List.length_cons, List.length_nil] at hlen
        omega)
      rw [hdecode, hnil]
      simp
    · obtain ⟨-, rfl⟩ := List.append_eq_nil_iff.mp hrest.symm
      rw [hdecode]
      simp
  simpa using (fromUtf8Lossy_eq_alone_iff [b]).mp hlen

end Text
end Aimx
