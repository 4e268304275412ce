import Aimx.Text.Rfc2045
import Mathlib.Data.List.Infix

/-!
# Multipart bodies

A body of RFC 2046: each part behind a line with the delimiter, and a last delimiter line that ends in two
dashes.  Delimiter lines may end in white space, and what stands before the first and behind the last of them
is no part.

* `write` — the body of some parts;
* `read` — the parts of a body;
* `read_write` — the round trip, for parts in which no line begins with the delimiter.
-/

namespace Aimx
namespace Text
namespace Multipart

open Rfc2045

def crlf : Bytes := [0x0D, 0x0A]

def dashes : Bytes := [0x2D, 0x2D]

/-- Parts, each behind a delimiter line. -/
def block (delimiter part : Bytes) : Bytes := delimiter ++ crlf ++ part ++ crlf

def write (delimiter : Bytes) (parts : List Bytes) : Bytes :=
  parts.flatMap (block delimiter) ++ (delimiter ++ dashes ++ crlf)

/-- The lines of the parts, from a line of the first part on; `none` without the closing line. -/
def collect (delimiter : Bytes) : List Bytes → Option (List (List Bytes))
  | [] => none
  | line :: rest =>
      if line.rdropWhile isBlank = delimiter ++ dashes then some [[]]
      else if line.rdropWhile isBlank = delimiter then (collect delimiter rest).map ([] :: ·)
      else (collect delimiter rest).map (·.modifyHead (line :: ·))

/-- The parts of a body. -/
def read (delimiter body : Bytes) : Option (List Bytes) :=
  match (breakLines body).dropWhile fun line => line.rdropWhile isBlank ≠ delimiter with
  | [] => none
  | _ :: rest => (collect delimiter rest).map (·.map joinLines)

/-- What may separate parts: a text on one line that does not end in white space. -/
structure IsDelimiter (delimiter : Bytes) : Prop where
  oneLine : 0x0D ∉ delimiter ∧ 0x0A ∉ delimiter
  visibleEnd : ∀ b ∈ delimiter.getLast?, isBlank b = false

/-- No line of the part begins with the delimiter. -/
def Fresh (delimiter part : Bytes) : Prop := ∀ line ∈ breakLines part, ¬ delimiter <+: line

/-! ## Lines -/

theorem breakLines_ne_nil (bytes : Bytes) : breakLines bytes ≠ [] := by
  induction bytes using breakLines.induct with
  | case1 => simp [breakLines]
  | case2 b => simp [breakLines]
  | case3 b c rest h ih => simp [breakLines, h]
  | case4 b c rest h ih =>
      rw [breakLines, if_neg h]
      simpa using ih

theorem breakLines_append_crlf (a b : Bytes) :
    breakLines (a ++ crlf ++ b) = breakLines a ++ breakLines b := by
  induction a using breakLines.induct with
  | case1 =>
      show breakLines (0x0D :: 0x0A :: b) = [[]] ++ breakLines b
      rw [breakLines, if_pos ⟨rfl, rfl⟩]
      rfl
  | case2 x =>
      show breakLines (x :: 0x0D :: 0x0A :: b) = [[x]] ++ breakLines b
      rw [breakLines, if_neg (by rintro ⟨-, h⟩; cases h), breakLines, if_pos ⟨rfl, rfl⟩]
      rfl
  | case3 x y rest h ih =>
      obtain ⟨rfl, rfl⟩ := h
      show breakLines (0x0D :: 0x0A :: (rest ++ crlf ++ b)) = _
      rw [breakLines, if_pos ⟨rfl, rfl⟩, ih, breakLines, if_pos ⟨rfl, rfl⟩]
      rfl
  | case4 x y rest h ih =>
      show breakLines (x :: y :: (rest ++ crlf ++ b)) = _
      have hrest : breakLines (y :: (rest ++ crlf ++ b)) = breakLines (y :: rest) ++ breakLines b := ih
      rw [breakLines, if_neg h, hrest, breakLines, if_neg h]
      obtain ⟨line, lines, hlines⟩ := List.exists_cons_of_ne_nil (breakLines_ne_nil (y :: rest))
      rw [hlines]
      rfl

theorem joinLines_breakLines (bytes : Bytes) : joinLines (breakLines bytes) = bytes := by
  induction bytes using breakLines.induct with
  | case1 => rfl
  | case2 b => rfl
  | case3 b c rest h ih =>
      obtain ⟨rfl, rfl⟩ := h
      rw [breakLines, if_pos ⟨rfl, rfl⟩, joinLines_cons _ (breakLines_ne_nil rest), ih]
      rfl
  | case4 b c rest h ih =>
      rw [breakLines, if_neg h]
      obtain ⟨line, lines, hlines⟩ := List.exists_cons_of_ne_nil (breakLines_ne_nil (c :: rest))
      rw [hlines] at ih ⊢
      rw [List.modifyHead_cons, ← ih]
      cases lines <;> rfl

/-- A line of a text is a piece of it. -/
theorem infix_of_mem_breakLines {bytes line : Bytes} (h : line ∈ breakLines bytes) : line <:+: bytes := by
  rw [← joinLines_breakLines bytes]
  generalize breakLines bytes = lines at h
  induction lines with
  | nil => cases h
  | cons first lines ih =>
      cases lines with
      | nil =>
          obtain rfl := List.mem_singleton.mp h
          exact List.infix_rfl
      | cons next lines =>
          rw [joinLines_cons first (by simp)]
          rcases List.mem_cons.mp h with rfl | hmem
          · exact (List.prefix_append _ _).isInfix.trans (List.prefix_append _ _).isInfix
          · exact (ih hmem).trans (List.suffix_append _ _).isInfix

/-- What goes over no element of a kind does not go over one. -/
theorem infix_or_infix_of_notMem {α : Type*} {needle a b : List α} {x : α} (hx : x ∉ needle)
    (h : needle <:+: a ++ x :: b) : needle <:+: a ∨ needle <:+: b := by
  obtain ⟨p, s, hps⟩ := h
  rcases List.append_eq_append_iff.mp hps with ⟨a', rfl, -⟩ | ⟨c, hpc, hcs⟩
  · exact .inl ⟨p, a', rfl⟩
  cases c with
  | nil =>
      rw [List.append_nil] at hpc
      exact .inl ⟨p, [], by rw [List.append_nil, hpc]⟩
  | cons y c =>
      obtain ⟨rfl, rfl⟩ := List.cons.inj hcs
      rcases List.append_eq_append_iff.mp hpc with ⟨a', -, hneedle⟩ | ⟨d, -, hd⟩
      · -- the element would be in the needle
        exact absurd (by rw [hneedle]; simp) hx
      · cases d with
        | nil => exact absurd (by rw [List.nil_append] at hd; rw [← hd]; simp) hx
        | cons z d =>
            obtain ⟨-, rfl⟩ := List.cons.inj hd
            exact .inr ⟨d, s, rfl⟩

theorem fresh_of_not_infix {delimiter part : Bytes} (h : ¬ delimiter <:+: part) : Fresh delimiter part :=
  fun _ hline hpre => h (hpre.isInfix.trans (infix_of_mem_breakLines hline))

/-! ## The round trip -/

section RoundTrip

variable {delimiter : Bytes}

theorem rdropWhile_prefix_of_eq {line text : Bytes} (h : line.rdropWhile isBlank = text) : text <+: line :=
  h ▸ List.rdropWhile_prefix isBlank line

/-- The lines of a part that is fresh are collected. -/
theorem collect_append {lines : List Bytes} (hfresh : ∀ line ∈ lines, ¬ delimiter <+: line)
    (rest : List Bytes) :
    collect delimiter (lines ++ rest) = (collect delimiter rest).map (·.modifyHead (lines ++ ·)) := by
  induction lines with
  | nil =>
      rw [List.nil_append]
      cases collect delimiter rest with
      | none => rfl
      | some parts => cases parts <;> rfl
  | cons line lines ih =>
      rw [List.forall_mem_cons] at hfresh
      have hclose : line.rdropWhile isBlank ≠ delimiter ++ dashes := fun h =>
        hfresh.1 ((List.prefix_append _ _).trans (rdropWhile_prefix_of_eq h))
      have hopen : line.rdropWhile isBlank ≠ delimiter := fun h => hfresh.1 (rdropWhile_prefix_of_eq h)
      rw [List.cons_append, collect, if_neg hclose, if_neg hopen, ih hfresh.2, Option.map_map]
      congr 1
      funext parts
      cases parts <;> rfl

theorem rdropWhile_delimiter (h : IsDelimiter delimiter) : delimiter.rdropWhile isBlank = delimiter := by
  rw [List.rdropWhile_eq_self_iff]
  intro hne hblank
  have hlast := h.visibleEnd _ (List.getLast?_eq_some_getLast hne)
  rw [hblank] at hlast
  cases hlast

theorem rdropWhile_dashes (text : Bytes) : (text ++ dashes).rdropWhile isBlank = text ++ dashes := by
  rw [List.rdropWhile_eq_self_iff]
  intro hne
  have hlast : (text ++ dashes).getLast hne = 0x2D := by simp [dashes]
  rw [hlast]
  decide

/-- The lines of a body. -/
theorem breakLines_write (h : IsDelimiter delimiter) (parts : List Bytes) :
    breakLines (write delimiter parts) =
      parts.flatMap (fun part => delimiter :: breakLines part) ++ [delimiter ++ dashes, []] := by
  have hcr : 0x0D ∉ delimiter ++ dashes := by
    rw [List.mem_append, not_or]
    exact ⟨h.oneLine.1, by decide⟩
  unfold write
  induction parts with
  | nil =>
      show breakLines (delimiter ++ dashes ++ 0x0D :: 0x0A :: []) = _
      rw [breakLines_append hcr]
      rfl
  | cons part parts ih =>
      have hsplit : (part :: parts).flatMap (block delimiter) ++ (delimiter ++ dashes ++ crlf) =
          delimiter ++ crlf ++ (part ++ crlf ++
            (parts.flatMap (block delimiter) ++ (delimiter ++ dashes ++ crlf))) := by
        simp only [List.flatMap_cons, block, List.append_assoc]
      rw [hsplit, breakLines_append_crlf, breakLines_append_crlf, ih, breakLines_of_notMem h.oneLine.1]
      simp only [List.flatMap_cons, List.cons_append, List.nil_append, List.append_assoc]

theorem collect_lines (h : IsDelimiter delimiter) {part : Bytes} {parts : List Bytes}
    (hfresh : ∀ p ∈ part :: parts, Fresh delimiter p) (rest : List Bytes) :
    collect delimiter (breakLines part ++ (parts.flatMap (fun part => delimiter :: breakLines part) ++
      (delimiter ++ dashes) :: rest)) = some ((part :: parts).map breakLines) := by
  induction parts generalizing part with
  | nil =>
      rw [collect_append (hfresh part (by simp)), List.flatMap_nil, List.nil_append, collect,
        if_pos (rdropWhile_dashes delimiter)]
      simp
  | cons next parts ih =>
      have hne : delimiter ≠ delimiter ++ dashes := by
        intro heq
        have hlen := congrArg List.length heq
        rw [List.length_append] at hlen
        simp [dashes] at hlen
      rw [List.forall_mem_cons] at hfresh
      rw [collect_append hfresh.1, List.flatMap_cons, List.cons_append, List.cons_append, collect,
        rdropWhile_delimiter h, if_neg hne, if_pos rfl, List.append_assoc, ih hfresh.2]
      simp

/-- **The parts of a body are the parts that were written.** -/
theorem read_write (h : IsDelimiter delimiter) {parts : List Bytes} (hne : parts ≠ [])
    (hfresh : ∀ part ∈ parts, Fresh delimiter part) :
    read delimiter (write delimiter parts) = some parts := by
  obtain ⟨part, parts, rfl⟩ := List.exists_cons_of_ne_nil hne
  unfold read
  rw [breakLines_write h, List.flatMap_cons, List.cons_append, List.cons_append, List.dropWhile_cons_of_neg
    (by simp [rdropWhile_delimiter h])]
  dsimp only
  rw [List.append_assoc, collect_lines h hfresh, Option.map_some, List.map_map]
  congr 1
  refine List.map_id'' (fun p => ?_) _
  exact joinLines_breakLines p

/-- A delimiter with another beginning is in no line of a body. -/
theorem fresh_write (h : IsDelimiter delimiter) {other : Bytes} (hne : other ≠ [])
    (hother : ¬ other <+: delimiter ++ dashes) {parts : List Bytes}
    (hfresh : ∀ part ∈ parts, Fresh other part) : Fresh other (write delimiter parts) := by
  intro line hline
  rw [breakLines_write h] at hline
  simp only [List.mem_append, List.mem_flatMap, List.mem_cons, List.not_mem_nil, or_false] at hline
  rcases hline with ⟨part, hpart, rfl | hline⟩ | rfl | rfl
  · exact fun hpre => hother (hpre.trans (List.prefix_append _ _))
  · exact hfresh part hpart line hline
  · exact hother
  · exact fun hpre => hne (List.prefix_nil.mp hpre)

end RoundTrip

end Multipart
end Text
end Aimx
