import Aimx.Text.Str
import Mathlib.Data.List.DropRight

/-!
# Quoted-printable text

Text in lines that end in CRLF, and the `quoted-printable` encoding as RFC 2045 reads it: white space at
the end of a line was added in transport and is dropped, an equals sign at the end of a line joins it with
the next, and an equals sign with two hexadecimal digits is a byte.

* `breakLines`, `joinLines` — the lines of a text;
* `escape`, `unescape` — bytes as escapes, and back;
* `decode` — the decoder;
* `decodeLines_withSoft` — it undoes an encoding by `escape` and soft line breaks.
-/

namespace Aimx
namespace Text
namespace Rfc2045

/-! ## Lines -/

/-- The lines of a text, without the CRLF between them. -/
def breakLines : Bytes → List Bytes
  | [] => [[]]
  | [b] => [[b]]
  | b :: c :: rest =>
      if b = 0x0D ∧ c = 0x0A then [] :: breakLines rest
      else (breakLines (c :: rest)).modifyHead (b :: ·)

/-- Lines put together with CRLF between them. -/
def joinLines : List Bytes → Bytes
  | [] => []
  | [line] => line
  | line :: lines => line ++ [0x0D, 0x0A] ++ joinLines lines

theorem joinLines_cons {lines : List Bytes} (line : Bytes) (h : lines ≠ []) :
    joinLines (line :: lines) = line ++ [0x0D, 0x0A] ++ joinLines lines := by
  cases lines with
  | nil => exact absurd rfl h
  | cons next lines => rfl

theorem joinLines_append {front back : List Bytes} (hfront : front ≠ []) (hback : back ≠ []) :
    joinLines (front ++ back) = joinLines front ++ [0x0D, 0x0A] ++ joinLines back := by
  induction front with
  | nil => exact absurd rfl hfront
  | cons line front ih =>
      cases front with
      | nil => exact joinLines_cons line hback
      | cons next front =>
          rw [List.cons_append, joinLines_cons line (by simp), joinLines_cons line (by simp),
            ih (by simp)]
          simp only [List.append_assoc]

/-- The bytes of the lines are bytes of the text. -/
theorem mem_joinLines {lines : List Bytes} {line : Bytes} (hline : line ∈ lines) {b : UInt8} (hb : b ∈ line) :
    b ∈ joinLines lines := by
  induction lines with
  | nil => cases hline
  | cons first lines ih =>
      cases lines with
      | nil =>
          obtain rfl := List.mem_singleton.mp hline
          exact hb
      | cons next lines =>
          rw [joinLines_cons first (by simp), List.mem_append, List.mem_append]
          rcases List.mem_cons.mp hline with rfl | hline
          · exact .inl (.inl hb)
          · exact .inr (ih hline)

/-- Groups of lines, each put together first. -/
theorem joinLines_flatMap {α : Type*} (group : α → List Bytes) (hgroup : ∀ a, group a ≠ []) (l : List α) :
    joinLines (l.flatMap group) = joinLines (l.map fun a => joinLines (group a)) := by
  induction l with
  | nil => rfl
  | cons a l ih =>
      cases l with
      | nil => simp [joinLines]
      | cons a' l =>
          have hne : (a' :: l).flatMap group ≠ [] := by
            rw [List.flatMap_cons]
            exact List.append_ne_nil_of_left_ne_nil (hgroup a') _
          rw [List.flatMap_cons, joinLines_append (hgroup a) hne, ih]
          exact (joinLines_cons _ (by simp)).symm

/-- A byte other than a carriage return belongs to the first line. -/
theorem breakLines_cons {b : UInt8} (h : b ≠ 0x0D) (rest : Bytes) :
    breakLines (b :: rest) = (breakLines rest).modifyHead (b :: ·) := by
  cases rest with
  | nil => rfl
  | cons c rest => rw [breakLines, if_neg (fun hbc => h hbc.1)]

/-- A line without a carriage return in front of a text. -/
theorem breakLines_append {line : Bytes} (h : 0x0D ∉ line) (rest : Bytes) :
    breakLines (line ++ 0x0D :: 0x0A :: rest) = line :: breakLines rest := by
  induction line with
  | nil =>
      rw [List.nil_append, breakLines]
      simp
  | cons b line ih =>
      rw [List.mem_cons, not_or] at h
      rw [List.cons_append, breakLines_cons (Ne.symm h.1), ih h.2, List.modifyHead_cons]

theorem breakLines_of_notMem {line : Bytes} (h : 0x0D ∉ line) : breakLines line = [line] := by
  induction line with
  | nil => rfl
  | cons b line ih =>
      rw [List.mem_cons, not_or] at h
      rw [breakLines_cons (Ne.symm h.1), ih h.2, List.modifyHead_cons]

/-- Lines without carriage returns are found again. -/
theorem breakLines_joinLines {lines : List Bytes} (hne : lines ≠ [])
    (h : ∀ line ∈ lines, 0x0D ∉ line) : breakLines (joinLines lines) = lines := by
  induction lines with
  | nil => exact absurd rfl hne
  | cons line lines ih =>
      rw [List.forall_mem_cons] at h
      cases lines with
      | nil => exact breakLines_of_notMem h.1
      | cons next lines =>
          have hrest := ih (by simp) h.2
          rw [joinLines_cons line (by simp), List.append_assoc]
          show breakLines (line ++ 0x0D :: 0x0A :: joinLines (next :: lines)) = line :: next :: lines
          rw [breakLines_append h.1, hrest]

/-! ## Escapes -/

/-- An upper-case hexadecimal digit. -/
def hexDigit (n : Nat) : UInt8 := UInt8.ofNat (if n < 10 then 0x30 + n else 0x37 + n)

/-- `char::to_digit` in base 16. -/
def hexValue (b : UInt8) : Option Nat :=
  if 0x30 ≤ b ∧ b ≤ 0x39 then some (b.toNat - 0x30)
  else if 0x41 ≤ b ∧ b ≤ 0x46 then some (b.toNat - 0x37)
  else if 0x61 ≤ b ∧ b ≤ 0x66 then some (b.toNat - 0x57)
  else none

/-- A byte as an escape. -/
def escape (b : UInt8) : Bytes := [0x3D, hexDigit (b.toNat / 16), hexDigit (b.toNat % 16)]

/-- The byte of two hexadecimal digits. -/
def hexPair (h l : UInt8) : Option UInt8 :=
  match hexValue h, hexValue l with
  | some h, some l => some (UInt8.ofNat (16 * h + l))
  | _, _ => none

/-- The escapes of a line replaced by their bytes. -/
def unescape : Bytes → Bytes
  | b :: h :: l :: rest =>
      if b = 0x3D then
        match hexPair h l with
        | some octet => octet :: unescape rest
        | none => b :: unescape (h :: l :: rest)
      else b :: unescape (h :: l :: rest)
  | [b, h] => [b, h]
  | [b] => [b]
  | [] => []

theorem hexValue_hexDigit {n : Nat} (h : n < 16) : hexValue (hexDigit n) = some n := by
  have hdigit : ∀ n : Fin 16, hexValue (hexDigit n) = some n.val := by decide
  exact hdigit ⟨n, h⟩

/-- A digit is a printable byte other than white space and the equals sign. -/
theorem hexDigit_printable {n : Nat} (h : n < 16) :
    0x21 ≤ hexDigit n ∧ hexDigit n ≤ 0x7E ∧ hexDigit n ≠ 0x3D := by
  have hdigit : ∀ n : Fin 16, 0x21 ≤ hexDigit n ∧ hexDigit n ≤ 0x7E ∧ hexDigit n ≠ 0x3D := by decide
  exact hdigit ⟨n, h⟩

theorem hexPair_escape (b : UInt8) :
    hexPair (hexDigit (b.toNat / 16)) (hexDigit (b.toNat % 16)) = some b := by
  have hb := b.toNat_lt
  unfold hexPair
  rw [hexValue_hexDigit (by omega), hexValue_hexDigit (by omega)]
  have hdivmod : 16 * (b.toNat / 16) + b.toNat % 16 = b.toNat := by omega
  simp [hdivmod]

theorem unescape_escape (b : UInt8) (rest : Bytes) :
    unescape (escape b ++ rest) = b :: unescape rest := by
  show unescape (0x3D :: hexDigit _ :: hexDigit _ :: rest) = b :: unescape rest
  rw [unescape, if_pos rfl, hexPair_escape]

/-- A byte other than the equals sign stands for itself. -/
theorem unescape_cons {b : UInt8} (h : b ≠ 0x3D) (rest : Bytes) :
    unescape (b :: rest) = b :: unescape rest := by
  match rest with
  | [] => rfl
  | [_] => rfl
  | _ :: _ :: _ => rw [unescape, if_neg h]

/-! ## The decoder -/

/-- White space at the end of a line. -/
def isBlank (b : UInt8) : Bool := b == 0x20 || b == 0x09

/-- One line decoded, and whether it is joined with the next. -/
def decodeLine (line : Bytes) : Bytes × Bool :=
  let line := line.rdropWhile isBlank
  if line.getLast? = some 0x3D then (unescape line.dropLast, true) else (unescape line, false)

/-- Lines decoded. -/
def decodeLines : List Bytes → Bytes
  | [] => []
  | [line] => (decodeLine line).1
  | line :: lines =>
      (decodeLine line).1 ++ (if (decodeLine line).2 then [] else [0x0D, 0x0A]) ++ decodeLines lines

theorem decodeLines_cons {lines : List Bytes} (line : Bytes) (h : lines ≠ []) :
    decodeLines (line :: lines) =
      (decodeLine line).1 ++ (if (decodeLine line).2 then [] else [0x0D, 0x0A]) ++
        decodeLines lines := by
  cases lines with
  | nil => exact absurd rfl h
  | cons next lines => rfl

/-- The decoder of RFC 2045. -/
def decode (encoded : Bytes) : Bytes := decodeLines (breakLines encoded)

/-- A line cut into pieces by soft line breaks. -/
def withSoft : List Bytes → List Bytes
  | [] => []
  | [piece] => [piece]
  | piece :: pieces => (piece ++ [0x3D]) :: withSoft pieces

theorem withSoft_cons {pieces : List Bytes} (piece : Bytes) (h : pieces ≠ []) :
    withSoft (piece :: pieces) = (piece ++ [0x3D]) :: withSoft pieces := by
  cases pieces with
  | nil => exact absurd rfl h
  | cons next pieces => rfl

theorem withSoft_ne_nil {pieces : List Bytes} (h : pieces ≠ []) : withSoft pieces ≠ [] := by
  match pieces with
  | [] => exact absurd rfl h
  | [_] => simp [withSoft]
  | _ :: _ :: _ => simp [withSoft]

/-- What stands in front of the first piece stands in front of them all. -/
theorem joinLines_withSoft_append (front piece : Bytes) (pieces : List Bytes) :
    joinLines (withSoft ((front ++ piece) :: pieces)) =
      front ++ joinLines (withSoft (piece :: pieces)) := by
  cases pieces with
  | nil => rfl
  | cons next pieces =>
      have hne : withSoft (next :: pieces) ≠ [] := withSoft_ne_nil (by simp)
      rw [withSoft_cons (front ++ piece) (List.cons_ne_nil next pieces),
        withSoft_cons piece (List.cons_ne_nil next pieces), joinLines_cons _ hne, joinLines_cons _ hne]
      simp only [List.append_assoc]

/-- Every line of them is a piece, possibly with an equals sign behind it. -/
theorem mem_withSoft {pieces : List Bytes} {line : Bytes} (h : line ∈ withSoft pieces) :
    ∃ piece ∈ pieces, line = piece ++ [0x3D] ∨ line = piece ∧ pieces.getLast? = some piece := by
  induction pieces with
  | nil => cases h
  | cons piece pieces ih =>
      cases pieces with
      | nil =>
          obtain rfl := List.mem_singleton.mp h
          exact ⟨line, by simp, .inr ⟨rfl, rfl⟩⟩
      | cons next pieces =>
          rcases List.mem_cons.mp h with rfl | h
          · exact ⟨piece, by simp, .inl rfl⟩
          · obtain ⟨piece', hmem, hcase⟩ := ih h
            refine ⟨piece', List.mem_cons_of_mem _ hmem, ?_⟩
            rwa [List.getLast?_cons_cons]

/-- The last piece is a line of its own. -/
theorem getLast_mem_withSoft {pieces : List Bytes} {piece : Bytes} (h : pieces.getLast? = some piece) :
    piece ∈ withSoft pieces := by
  induction pieces with
  | nil => cases h
  | cons first pieces ih =>
      cases pieces with
      | nil =>
          cases h
          exact List.mem_singleton_self _
      | cons next pieces =>
          rw [List.getLast?_cons_cons] at h
          exact List.mem_cons_of_mem _ (ih h)

theorem decodeLine_soft (piece : Bytes) : decodeLine (piece ++ [0x3D]) = (unescape piece, true) := by
  unfold decodeLine
  rw [List.rdropWhile_concat_neg _ _ _ (by decide)]
  simp

/-- A line that does not end in an equals sign, with or without white space behind it. -/
theorem decodeLine_hard {piece : Bytes} (h : (piece.rdropWhile isBlank).getLast? ≠ some 0x3D) :
    decodeLine piece = (unescape (piece.rdropWhile isBlank), false) := by
  unfold decodeLine
  rw [if_neg h]

/-- **The decoder undoes soft line breaks**, but the white space at the end of the last piece is lost. -/
theorem decodeLines_withSoft (front : List Bytes) {last : Bytes}
    (h : (last.rdropWhile isBlank).getLast? ≠ some 0x3D) (lines : List Bytes) :
    decodeLines (withSoft (front ++ [last]) ++ lines) =
      front.flatMap unescape ++ unescape (last.rdropWhile isBlank) ++
        (if lines = [] then [] else [0x0D, 0x0A] ++ decodeLines lines) := by
  induction front with
  | nil =>
      have hhard := decodeLine_hard h
      cases lines with
      | nil => simp [withSoft, decodeLines, hhard]
      | cons line lines => simp [withSoft, decodeLines, hhard]
  | cons piece front ih =>
      have hne : front ++ [last] ≠ [] := by simp
      have hcons : withSoft (front ++ [last]) ++ lines ≠ [] :=
        List.append_ne_nil_of_left_ne_nil (withSoft_ne_nil hne) lines
      rw [List.cons_append, withSoft_cons piece hne, List.cons_append, decodeLines_cons _ hcons, ih,
        decodeLine_soft]
      simp

end Rfc2045
end Text
end Aimx
