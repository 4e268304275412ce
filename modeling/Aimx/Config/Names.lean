import Aimx.Text.Utf8

/-!
# Names

The shape checks on names that requests and the configuration file carry: Linux user names, hook
names and mailbox names.

* `isValidSystemUsername`, `isValidHookName` — checks on the bytes of a name;
* `validateMailboxName` — the check on mailbox names, with its errors;
* `isValidSystemUsername_ne_nil` — a user name is never empty;
* `visible_of_isValidHookName` — a hook name has no white space.
-/

namespace Aimx

open Text

/-- `u8::is_ascii_lowercase`. -/
def isAsciiLowercase (b : UInt8) : Bool := 0x61 ≤ b && b ≤ 0x7A

/-- `u8::is_ascii_digit`. -/
def isAsciiDigit (b : UInt8) : Bool := 0x30 ≤ b && b ≤ 0x39

/-- `u8::is_ascii_alphanumeric`. -/
def isAsciiAlphanumeric (b : UInt8) : Bool :=
  isAsciiLowercase b || isAsciiDigit b || (0x41 ≤ b && b ≤ 0x5A)

/-- `USERNAME_MAX_LEN`. -/
def usernameMaxLen : Nat := 32

/-- `HOOK_NAME_MAX_LEN`. -/
def hookNameMaxLen : Nat := 128

/-- The rest of a user name without the `$` that may end it. -/
def dropDollar (rest : Bytes) : Bytes :=
  if rest.getLast? = some 0x24 then rest.dropLast else rest

/-- `is_valid_system_username`: `[a-z_][a-z0-9_-]*[$]?`. -/
def isValidSystemUsername (s : Str) : Bool :=
  match utf8 s with
  | [] => false
  | first :: rest =>
      rest.length + 1 ≤ usernameMaxLen && (isAsciiLowercase first || first == 0x5F) &&
        (dropDollar rest).all fun b =>
          isAsciiLowercase b || isAsciiDigit b || b == 0x5F || b == 0x2D

/-- `is_valid_hook_name`: `[a-zA-Z0-9_][a-zA-Z0-9_.-]{0,127}`. -/
def isValidHookName (s : Str) : Bool :=
  match utf8 s with
  | [] => false
  | first :: rest =>
      rest.length + 1 ≤ hookNameMaxLen && (isAsciiAlphanumeric first || first == 0x5F) &&
        rest.all fun b => isAsciiAlphanumeric b || b == 0x5F || b == 0x2E || b == 0x2D

/-- The errors of `validate_mailbox_name`. -/
inductive MailboxNameError
  | empty
  | dotDot
  | edgeDot
  | reserved (name : Str)
  | invalidCharacter (c : Char)
  deriving DecidableEq

/-- The texts of the errors; a character is shown as the standard library's `Debug` shows it. -/
def MailboxNameError.display (debug : Char → Str) : MailboxNameError → Str
  | .empty => "Mailbox name cannot be empty".toList
  | .dotDot => "Mailbox name cannot contain '..'".toList
  | .edgeDot => "Mailbox name cannot start or end with '.'".toList
  | .reserved name =>
      "Mailbox name '".toList ++ name ++ "' is reserved for the wildcard catchall slot".toList
  | .invalidCharacter c =>
      "Mailbox name contains invalid character ".toList ++ debug c ++ "; allowed: [a-z0-9._-]".toList

/-- The characters of a mailbox name. -/
def isMailboxNameChar (c : Char) : Bool :=
  c.isLower || c.isDigit || c == '.' || c == '_' || c == '-'

/-- `validate_mailbox_name`. -/
def validateMailboxName (name : Str) : Except MailboxNameError Unit :=
  if name = [] then .error .empty
  else if (name.dropInfix? "..".toList).isSome then .error .dotDot
  else if name.head? = some '.' ∨ name.getLast? = some '.' then .error .edgeDot
  else if name = "catchall".toList ∨ name = "aimx-catchall".toList then .error (.reserved name)
  else
    match name.find? fun c => !isMailboxNameChar c with
    | some c => .error (.invalidCharacter c)
    | none => .ok ()

/-- A user name is never empty. -/
theorem isValidSystemUsername_ne_nil {s : Str} (h : isValidSystemUsername s = true) : s ≠ [] := by
  rintro rfl
  simp [isValidSystemUsername] at h

/-- A user name is not blank. -/
theorem isValidSystemUsername_trim {s : Str} (h : isValidSystemUsername s = true) :
    (trim s).isEmpty = false := by
  cases s with
  | nil => exact absurd rfl (isValidSystemUsername_ne_nil h)
  | cons c rest =>
      have hvisible : isWhitespace c = false := by
        obtain ⟨b, bs, hencode, -⟩ := exists_utf8EncodeChar_eq_cons c
        unfold isValidSystemUsername at h
        rw [utf8_cons, hencode] at h
        have hfirst : isAsciiLowercase b = true ∨ b = 0x5F := by
          simp only [List.cons_append, Bool.and_eq_true, Bool.or_eq_true, beq_iff_eq] at h
          exact h.1.2
        have hrange : 0x5F ≤ b.toNat ∧ b.toNat ≤ 0x7A := by
          rcases hfirst with hlower | rfl
          · simp only [isAsciiLowercase, Bool.and_eq_true, decide_eq_true_eq,
              UInt8.le_iff_toNat_le] at hlower
            exact ⟨le_trans (by decide) hlower.1, hlower.2⟩
          · decide
        -- The first byte is ASCII, so it is the whole character.
        have hascii : b < 0x80 := UInt8.lt_iff_toNat_lt.mpr (lt_of_le_of_lt hrange.2 (by decide))
        have hcode : c.toNat = b.toNat := toNat_of_mem_ascii (by simp [hencode]) hascii
        simp only [isWhitespace, hcode, Bool.or_eq_false_iff, Bool.and_eq_false_iff,
          decide_eq_false_iff_not, beq_eq_false_iff_ne]
        omega
      rw [List.isEmpty_eq_false_iff]
      intro hblank
      have hspace := trim_eq_nil_iff.mp hblank c (by simp)
      rw [hvisible] at hspace
      cases hspace

/-- A hook name is a few bytes of ASCII. -/
theorem isValidHookName_bytes {s : Str} (h : isValidHookName s = true) :
    s ≠ [] ∧ byteLen s ≤ hookNameMaxLen ∧
      ∀ b ∈ utf8 s, isAsciiAlphanumeric b = true ∨ b = 0x5F ∨ b = 0x2E ∨ b = 0x2D := by
  unfold isValidHookName at h
  split at h
  next => cases h
  next first rest hbytes =>
      simp only [Bool.and_eq_true, decide_eq_true_eq, Bool.or_eq_true, beq_iff_eq,
        List.all_eq_true] at h
      obtain ⟨⟨hlen, hfirst⟩, hrest⟩ := h
      refine ⟨?_, ?_, ?_⟩
      · rintro rfl
        cases hbytes
      · rw [byteLen, hbytes, List.length_cons]
        exact hlen
      · rw [hbytes, List.forall_mem_cons]
        refine ⟨?_, fun b hb => ?_⟩
        · rcases hfirst with halnum | hunder
          · exact Or.inl halnum
          · exact Or.inr (Or.inl hunder)
        · rcases hrest b hb with (((halnum | hunder) | hdot) | hdash)
          · exact Or.inl halnum
          · exact Or.inr (Or.inl hunder)
          · exact Or.inr (Or.inr (Or.inl hdot))
          · exact Or.inr (Or.inr (Or.inr hdash))

/-- None of its characters is white space. -/
theorem visible_of_isValidHookName {s : Str} (h : isValidHookName s = true) :
    ∀ c ∈ s, isWhitespace c = false := by
  intro c hc
  obtain ⟨b, bs, hencode, -⟩ := exists_utf8EncodeChar_eq_cons c
  have hmem : b ∈ String.utf8EncodeChar c := by simp [hencode]
  have hbyte := (isValidHookName_bytes h).2.2 b (List.mem_flatMap.mpr ⟨c, hc, hmem⟩)
  have hrange : 0x2D ≤ b.toNat ∧ b.toNat ≤ 0x7A := by
    rcases hbyte with halnum | rfl | rfl | rfl
    · simp only [isAsciiAlphanumeric, isAsciiLowercase, isAsciiDigit, Bool.or_eq_true,
        Bool.and_eq_true, decide_eq_true_eq, UInt8.le_iff_toNat_le] at halnum
      rcases halnum with (hlower | hdigit) | hupper
      · exact ⟨le_trans (by decide) hlower.1, hlower.2⟩
      · exact ⟨le_trans (by decide) hdigit.1, le_trans hdigit.2 (by decide)⟩
      · exact ⟨le_trans (by decide) hupper.1, le_trans hupper.2 (by decide)⟩
    · decide
    · decide
    · decide
  have hascii : b < 0x80 := UInt8.lt_iff_toNat_lt.mpr (lt_of_le_of_lt hrange.2 (by decide))
  have hcode : c.toNat = b.toNat := toNat_of_mem_ascii hmem hascii
  simp only [isWhitespace, hcode, Bool.or_eq_false_iff, Bool.and_eq_false_iff,
    decide_eq_false_iff_not, beq_eq_false_iff_ne]
  omega

end Aimx
