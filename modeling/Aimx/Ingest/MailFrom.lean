import Aimx.Text.Brackets
import Aimx.Text.CaseMap
import Aimx.Text.Utf8

/-!
# The sender address of the SPF check

The envelope sender, or without one the address in the `From` header line of the message.

* `extractMailFrom`, `selectMailFrom` — the functions of the source;
* `selectMailFrom_eq_none_iff` — the messages that they fail on.
-/

namespace Aimx
namespace Ingest

open Text

/-- `line.to_lowercase().starts_with("from:")`. -/
def isFromLine (line : Str) : Bool := "from:".toList.isPrefixOf (toLowercase line)

/-- The loop of `extract_mail_from`; `none` is a panic. -/
def mailFromLines : List Str → Option (Option Str)
  | [] => some none
  | line :: rest =>
      if line = [] then some none
      else if isFromLine line then
        (sliceFrom 5 line).bind fun value => (between '<' '>' (trim value)).map some
      else mailFromLines rest

/-- `extract_mail_from`; `none` is a panic. -/
def extractMailFrom (raw : Bytes) : Option (Option Str) :=
  match fromUtf8 raw with
  | none => some none
  | some headerSection => mailFromLines (lines headerSection)

/-- The sender address of `select_spf_inputs`; `none` is a panic. -/
def selectMailFrom (raw : Bytes) (envelopeMailFrom : Option Str) : Option (Option Str) :=
  match envelopeMailFrom with
  | some (c :: s) => some (some (c :: s))
  | _ => extractMailFrom raw

/-- The first `From` line of the header. -/
def fromLine (raw : Bytes) : Option Str :=
  (fromUtf8 raw).bind fun text => ((lines text).takeWhile (fun line => !line.isEmpty)).find? isFromLine

/-- The keyword of a `From` line is cut off on a character boundary. -/
theorem sliceFrom_of_isFromLine {line : Str} (h : isFromLine line = true) :
    sliceFrom 5 line = some (line.drop 5) := by
  have hplain : Plain foreignLowercase "from:".toList := plain_of_isPlain (by decide)
  exact sliceFrom_of_toLowercase hplain (List.isPrefixOf_iff_prefix.mp h)

/-- The loop fails where the brackets of the first `From` line are the wrong way round. -/
theorem mailFromLines_eq_none_iff (ls : List Str) :
    mailFromLines ls = none ↔
      ∃ line, (ls.takeWhile (fun line => !line.isEmpty)).find? isFromLine = some line ∧
        ClosesFirst '<' '>' (trim (line.drop 5)) := by
  induction ls with
  | nil => simp [mailFromLines]
  | cons line rest ih =>
      rw [mailFromLines]
      by_cases hempty : line = []
      · rw [if_pos hempty, hempty]
        simp
      · have htake : (line :: rest).takeWhile (fun line => !line.isEmpty) =
            line :: rest.takeWhile (fun line => !line.isEmpty) :=
          List.takeWhile_cons_of_pos (by simpa using hempty)
        rw [if_neg hempty, htake]
        by_cases hfrom : isFromLine line = true
        · rw [if_pos hfrom, List.find?_cons_of_pos hfrom, sliceFrom_of_isFromLine hfrom, Option.bind_some,
            Option.map_eq_none_iff, between_eq_none_iff (by decide)]
          simp
        · rw [if_neg hfrom, List.find?_cons_of_neg hfrom]
          exact ih

/-- **The messages that the SPF check fails on.** -/
theorem selectMailFrom_eq_none_iff (raw : Bytes) (envelopeMailFrom : Option Str) :
    selectMailFrom raw envelopeMailFrom = none ↔
      envelopeMailFrom.getD [] = [] ∧
        ∃ line, fromLine raw = some line ∧ ClosesFirst '<' '>' (trim (line.drop 5)) := by
  have hraw : extractMailFrom raw = none ↔
      ∃ line, fromLine raw = some line ∧ ClosesFirst '<' '>' (trim (line.drop 5)) := by
    unfold extractMailFrom fromLine
    cases fromUtf8 raw with
    | none => simp
    | some text => exact mailFromLines_eq_none_iff (lines text)
  match envelopeMailFrom with
  | none => simpa [selectMailFrom] using hraw
  | some [] => simpa [selectMailFrom] using hraw
  | some (c :: s) => simp [selectMailFrom]

end Ingest
end Aimx
