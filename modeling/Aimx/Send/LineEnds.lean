import Aimx.Send.Assemble
import Mathlib.Tactic.IntervalCases

/-!
# The text of a message, up to a line terminator

A text goes from the client to the daemon in CRLF lines, loses line terminators at its end there, and gets a
signature.

* `lfText_appendSignatureToBody` — the lines of a text with its signature;
* `SameText` — the same text, up to one line terminator at the end;
* `sameText_decodedText_iff` — a text is read as another only if RFC 2045 reads it back;
* `sameText_composed`, `sameText_sent` — what is read of a text with its signature.
-/

namespace Aimx
namespace Send

open Text
open scoped Literal

/-! ## Line feeds -/

theorem crlfToLf_append {a b : Str} (h : a.getLast? ≠ some '\r' ∨ b.head? ≠ some '\n') :
    crlfToLf (a ++ b) = crlfToLf a ++ crlfToLf b := by
  fun_induction crlfToLf a with
  | case1 rest ih =>
      rw [List.cons_append, List.cons_append, crlfToLf, ih, List.cons_append]
      refine h.imp_left fun hlast hrest => hlast ?_
      cases rest with
      | nil => cases hrest
      | cons c rest => rwa [List.getLast?_cons_cons, List.getLast?_cons_cons]
  | case2 c rest hne ih =>
      have hrest : rest.getLast? ≠ some '\r' ∨ b.head? ≠ some '\n' := by
        refine h.imp_left fun hlast hrest => hlast ?_
        cases rest with
        | nil => cases hrest
        | cons d rest => rwa [List.getLast?_cons_cons]
      rw [List.cons_append, crlfToLf, ih hrest, List.cons_append]
      intro more hc hmore
      cases rest with
      | nil =>
          rw [List.nil_append] at hmore
          rcases h with h | h
          · exact h (by rw [hc]; rfl)
          · exact h (by rw [hmore]; rfl)
      | cons d rest =>
          obtain ⟨rfl, -⟩ := List.cons.inj hmore
          exact hne rest hc rfl
  | case3 => rfl

theorem lfText_append {a b : Str} (h : a.getLast? ≠ some '\r' ∨ b.head? ≠ some '\n') :
    lfText (a ++ b) = lfText a ++ lfText b := by
  rw [lfText, crlfToLf_append h, List.map_append]
  rfl

theorem lfText_of_crlfToLf {s t : Str} (h : crlfToLf t = s) (hcr : '\r' ∉ s) : lfText t = s := by
  rw [lfText, h]
  refine (List.map_congr_left fun c hc => ?_).trans (List.map_id s)
  have hne : c ≠ '\r' := fun heq => hcr (heq ▸ hc)
  exact if_neg hne

/-- A text without carriage returns is in LF lines. -/
theorem lfText_eq_self {s : Str} (h : '\r' ∉ s) : lfText s = s := by
  refine lfText_of_crlfToLf ?_ h
  induction s with
  | nil => rfl
  | cons c s ih =>
      rw [List.mem_cons, not_or] at h
      rw [crlfToLf_cons (Ne.symm h.1), ih h.2]

/-- The line terminators at the end of a text are its line feeds there. -/
theorem lfText_rdropWhile (s : Str) : lfText (s.rdropWhile isLineEnd) = sentText s := by
  unfold sentText
  induction s using List.reverseRecOn with
  | nil => rfl
  | append_singleton s c ih =>
      by_cases hc : isLineEnd c = true
      · rw [List.rdropWhile_concat_pos _ _ _ hc, ih]
        rw [isLineEnd, Bool.or_eq_true, beq_iff_eq, beq_iff_eq] at hc
        have hfeed : ∀ t : Str, (t ++ ['\n']).rdropWhile (· == '\n') = t.rdropWhile (· == '\n') := fun t =>
          List.rdropWhile_concat_pos _ _ _ (by simp)
        rcases hc with rfl | rfl
        · by_cases hcr : s.getLast? = some '\r'
          · -- the line feed belongs to a carriage return
            obtain ⟨front, rfl⟩ := List.getLast?_eq_some_iff.mp hcr
            have hone : lfText (front ++ ['\r'] ++ ['\n']) = lfText front ++ ['\n'] := by
              rw [List.append_assoc, lfText_append (.inr (by simp))]
              rfl
            have hback : lfText (front ++ ['\r']) = lfText front ++ ['\n'] := by
              rw [lfText_append (.inr (by simp))]
              rfl
            rw [hone, hback]
          · rw [lfText_append (.inl hcr)]
            exact (hfeed _).symm
        · rw [lfText_append (.inr (by simp))]
          exact (hfeed _).symm
      · rw [List.rdropWhile_concat_neg _ _ _ hc]
        rw [isLineEnd, Bool.or_eq_true, beq_iff_eq, beq_iff_eq, not_or] at hc
        have hone : lfText [c] = [c] := lfText_eq_self (by simpa using Ne.symm hc.2)
        rw [lfText_append (.inr (by simpa using hc.1)), hone,
          List.rdropWhile_concat_neg _ _ _ (by simpa using hc.1)]

/-- **The lines of a text with its signature.** -/
theorem lfText_appendSignatureToBody (body signature : Str) :
    lfText (appendSignatureToBody body signature) =
      if signature = [] then lfText body else sentText body ++ ("\n\n".toList ++ lfText signature) := by
  unfold appendSignatureToBody
  split
  next => rfl
  next =>
      have hend : (body.rdropWhile isLineEnd).getLast? ≠ some '\r' := by
        intro hlast
        have hne : body.rdropWhile isLineEnd ≠ [] := by
          intro hnil
          rw [hnil] at hlast
          cases hlast
        have hplain := List.rdropWhile_last_not isLineEnd body hne
        rw [List.getLast?_eq_some_getLast hne] at hlast
        rw [Option.some.inj hlast] at hplain
        exact hplain (by decide)
      have hsignature : '\r' ∉ "\n\n".toList ++ lfText signature := by
        rw [List.mem_append, not_or]
        exact ⟨by decide, cr_notMem_lfText signature⟩
      rw [List.append_assoc, lfText_append (.inl hend), lfText_rdropWhile, lfText_eq_self hsignature]

/-- A text of the client is in LF lines again at the daemon. -/
theorem lfText_normalizeCrlf (body : Str) : lfText (normalizeCrlf body ++ crlf) = lfText body ++ ['\n'] := by
  have hcr : '\r' ∉ lfText body ++ ['\n'] := by
    rw [List.mem_append, not_or]
    exact ⟨cr_notMem_lfText body, by decide⟩
  have htext : normalizeCrlf body ++ crlf = replaceChar '\n' crlf (lfText body ++ ['\n']) := by
    simp [normalizeCrlf, replaceChar]
  rw [htext]
  exact lfText_of_crlfToLf (crlfToLf_replaceChar hcr) hcr

theorem lfText_sentText (body : Str) : lfText (sentText body) = sentText body :=
  lfText_eq_self fun hmem => cr_notMem_lfText body ((List.rdropWhile_prefix _ _).subset hmem)

/-! ## Texts up to a line terminator -/

/-- Two texts that differ by one line terminator at the end, or not at all. -/
def SameText (a b : Bytes) : Prop := a = b ∨ a = b ++ Multipart.crlf ∨ b = a ++ Multipart.crlf

theorem SameText.count {a b : Bytes} (h : SameText a b) : a.count 0x20 = b.count 0x20 := by
  have hcrlf : Multipart.crlf.count 0x20 = 0 := by decide
  rcases h with rfl | rfl | rfl
  · rfl
  · rw [List.count_append, hcrlf]
    rfl
  · rw [List.count_append, hcrlf]
    rfl

theorem length_feeds (k : Nat) : (List.replicate k Multipart.crlf).flatten.length = 2 * k := by
  simp [Multipart.crlf, Nat.mul_comm]

/-- More than one line terminator is too much. -/
theorem sameText_feeds_iff (a : Bytes) (k : Nat) :
    SameText a (a ++ (List.replicate k Multipart.crlf).flatten) ↔ k ≤ 1 := by
  have hlength := length_feeds k
  constructor
  · have htwo : Multipart.crlf.length = 2 := rfl
    rintro (h | h | h)
    all_goals
      have h := congrArg List.length h
      simp only [List.length_append, hlength, htwo] at h
      omega
  · intro hk
    interval_cases k
    · exact .inl (by simp)
    · exact .inr (.inr (by simp))

/-- Line feeds at the end of a text, in CRLF lines. -/
theorem utf8_normalizeTextToCrlf_feeds {s t : Str} {k : Nat}
    (h : lfText t = lfText s ++ List.replicate k '\n') :
    utf8 (normalizeTextToCrlf t) =
      utf8 (normalizeTextToCrlf s) ++ (List.replicate k Multipart.crlf).flatten := by
  have hfeeds : ∀ k : Nat,
      utf8 ((List.replicate k '\n').flatMap fun c => if c = '\n' then ['\r', '\n'] else [c]) =
        (List.replicate k Multipart.crlf).flatten := by
    intro k
    induction k with
    | zero => rfl
    | succ k ih =>
        rw [List.replicate_succ, List.replicate_succ, List.flatMap_cons, utf8_append, ih, List.flatten_cons]
        rfl
  rw [normalizeTextToCrlf, h, List.flatMap_append, utf8_append, hfeeds]
  rfl

theorem hasLongLineFrom_crlf (col : Nat) (bytes : Bytes) :
    hasLongLineFrom col (bytes ++ Multipart.crlf) = hasLongLineFrom col bytes := by
  induction bytes generalizing col with
  | nil => rfl
  | cons b bytes ih =>
      rw [List.cons_append, hasLongLineFrom, hasLongLineFrom, ih, ih, ih]

theorem encodeFrom_crlf (col : Nat) (bytes : Bytes) :
    encodeFrom col (bytes ++ Multipart.crlf) = encodeFrom col bytes ++ Multipart.crlf := by
  induction bytes generalizing col with
  | nil => rfl
  | cons b bytes ih =>
      rw [List.cons_append, encodeFrom, encodeFrom]
      simp only [ih]
      split_ifs <;> simp

theorem pickTransferEncoding_crlf (bytes : Bytes) :
    pickTransferEncoding (bytes ++ Multipart.crlf) = pickTransferEncoding bytes := by
  have hascii : Multipart.crlf.all (fun b => decide (b < 0x80)) = true := by decide
  unfold pickTransferEncoding hasLongLine
  rw [List.all_append, hascii, Bool.and_true, hasLongLineFrom_crlf]

section Feed

variable {s t : Str}

theorem readsBack_congr (h : lfText t = lfText s) : ReadsBack t ↔ ReadsBack s := by
  unfold ReadsBack normalizedLines normalizeTextToCrlf
  rw [h]

theorem utf8_normalizeTextToCrlf_feed (h : lfText t = lfText s ++ ['\n']) :
    utf8 (normalizeTextToCrlf t) = utf8 (normalizeTextToCrlf s) ++ Multipart.crlf := by
  rw [utf8_normalizeTextToCrlf_feeds (k := 1) h]
  simp

/-- One more line, which is empty, makes no difference. -/
theorem readsBack_feed (h : lfText t = lfText s ++ ['\n']) : ReadsBack t ↔ ReadsBack s := by
  have hlines : ∀ l : Str, (l ++ ['\n']).splitOn '\n' = l.splitOn '\n' ++ [[]] := by
    intro l
    induction l with
    | nil => rfl
    | cons c l ih =>
        rw [List.cons_append, List.splitOn_cons_eq_if_modifyHead, ih, List.splitOn_cons_eq_if_modifyHead]
        split
        · rfl
        · obtain ⟨first, more, heq⟩ := List.exists_cons_of_ne_nil (List.splitOn_ne_nil '\n' l)
          rw [heq]
          rfl
  unfold ReadsBack normalizedLines
  rw [utf8_normalizeTextToCrlf_feed h, pickTransferEncoding_crlf, h, hlines, List.forall_mem_append]
  simp

/-- A text that ends with a line feed needs no other. -/
theorem lastBreak_feed (h : lfText t = lfText s ++ ['\n']) : lastBreak t = [] := by
  have hpick : encodeTextBody (normalizeTextToCrlf t) (pickTransferEncoding (utf8 (normalizeTextToCrlf t))) =
      encodeTextBody (normalizeTextToCrlf s) (pickTransferEncoding (utf8 (normalizeTextToCrlf s))) ++
        Multipart.crlf := by
    rw [utf8_normalizeTextToCrlf_feed h, pickTransferEncoding_crlf]
    cases pickTransferEncoding (utf8 (normalizeTextToCrlf s)) with
    | sevenBit => exact utf8_normalizeTextToCrlf_feed h
    | quotedPrintable =>
        unfold encodeTextBody quotedPrintableEncode
        dsimp only
        rw [utf8_normalizeTextToCrlf_feed h, encodeFrom_crlf]
  rw [lastBreak, hpick, if_pos]
  simp [Multipart.crlf]

/-! ### What is read of a text -/

variable {back : Str → Bytes}

theorem sameText_decodedText_iff (hback : back t = [] ∨ back t = Multipart.crlf) {meant : Bytes}
    (hcount : meant.count 0x20 = (utf8 (normalizeTextToCrlf t)).count 0x20) :
    SameText (decodedText back t) meant ↔
      ReadsBack t ∧ SameText (utf8 (normalizeTextToCrlf t) ++ back t) meant := by
  by_cases h : ReadsBack t
  · rw [decodedText_eq h hback, and_iff_right h]
  · -- it has fewer spaces then
    refine iff_of_false (fun hsame => ?_) (fun hboth => h hboth.1)
    have hlost := count_decodedText h hback
    rw [hsame.count, hcount] at hlost
    exact lt_irrefl _ hlost

/-- The same lines. -/
theorem sameText_of_lfText (h : lfText t = lfText s) (hback : back t = [] ∨ back t = Multipart.crlf) :
    SameText (decodedText back t) (utf8 (normalizeTextToCrlf s)) ↔ ReadsBack s := by
  have htext : normalizeTextToCrlf t = normalizeTextToCrlf s := by
    rw [normalizeTextToCrlf, h, normalizeTextToCrlf]
  have hsame : SameText (utf8 (normalizeTextToCrlf t) ++ back t) (utf8 (normalizeTextToCrlf s)) := by
    rw [htext]
    rcases hback with hback | hback
    · exact .inl (by rw [hback, List.append_nil])
    · exact .inr (.inl (by rw [hback]))
  rw [sameText_decodedText_iff hback (by rw [htext]), and_iff_left hsame, readsBack_congr h]

/-- One more line, which is empty. -/
theorem sameText_of_feed (h : lfText t = lfText s ++ ['\n']) (hback : back t = []) :
    SameText (decodedText back t) (utf8 (normalizeTextToCrlf s)) ↔ ReadsBack s := by
  have htext := utf8_normalizeTextToCrlf_feed h
  have hsame : SameText (utf8 (normalizeTextToCrlf t) ++ back t) (utf8 (normalizeTextToCrlf s)) :=
    .inr (.inl (by rw [hback, List.append_nil, htext]))
  rw [sameText_decodedText_iff (.inl hback) (SameText.count (.inr (.inr htext))), and_iff_left hsame,
    readsBack_feed h]

end Feed

/-- The line feeds at the end of a text. -/
theorem exists_feeds {body : Str} (h : sentText body ≠ []) :
    ∃ k, lfText body = sentText body ++ List.replicate k '\n' ∧
      (k ≤ 1 ↔ ¬ "\n\n".toList <:+ lfText body) := by
  have hlast : ∀ front : Str, sentText body ≠ front ++ ['\n'] := by
    intro front heq
    have hplain := List.rdropWhile_last_not (· == '\n') (lfText body) h
    have hends : (sentText body).getLast h = '\n' := by simp [heq]
    exact hplain (by rw [beq_iff_eq]; exact hends)
  have hfeeds : (lfText body).rtakeWhile (· == '\n') =
      List.replicate ((lfText body).rtakeWhile (· == '\n')).length '\n' :=
    List.eq_replicate_iff.mpr ⟨rfl, fun c hc => by simpa using List.mem_rtakeWhile_imp hc⟩
  have hwhole : lfText body = sentText body ++ (lfText body).rtakeWhile (· == '\n') :=
    List.rdropWhile_append_rtakeWhile.symm
  generalize ((lfText body).rtakeWhile (· == '\n')).length = k at hfeeds
  rw [hfeeds] at hwhole
  refine ⟨k, hwhole, ?_⟩
  rw [hwhole]
  match k with
  | 0 =>
      refine iff_of_true (Nat.zero_le 1) ?_
      rintro ⟨front, hfront⟩
      refine hlast (front ++ ['\n']) ?_
      rw [List.append_assoc]
      simpa using hfront.symm
  | 1 =>
      refine iff_of_true le_rfl ?_
      rintro ⟨front, hfront⟩
      refine hlast front ?_
      have hsplit : front ++ ['\n'] ++ ['\n'] = sentText body ++ ['\n'] := by
        rw [List.append_assoc]
        exact hfront
      exact (List.append_inj_left' hsplit rfl).symm
  | k + 2 =>
      refine iff_of_false (by omega) (not_not_intro ?_)
      refine List.IsSuffix.trans ?_ (List.suffix_append _ _)
      exact ⟨List.replicate k '\n', by rw [List.replicate_add]; rfl⟩

/-- A text behind which some line feeds are lost. -/
theorem sameText_of_sentText {body : Str} (h : sentText body ≠ []) :
    SameText (decodedText (fun _ => []) (sentText body)) (utf8 (normalizeTextToCrlf body)) ↔
      ReadsBack body ∧ ¬ "\n\n".toList <:+ lfText body := by
  obtain ⟨k, hfeeds, hk⟩ := exists_feeds h
  have hself := lfText_sentText body
  rw [← hself] at hfeeds
  have hwhole := utf8_normalizeTextToCrlf_feeds hfeeds
  have hcount : (utf8 (normalizeTextToCrlf body)).count 0x20 =
      (utf8 (normalizeTextToCrlf (sentText body))).count 0x20 := by
    have hzero : ∀ k : Nat, (List.replicate k Multipart.crlf).flatten.count 0x20 = 0 := by
      intro k
      induction k with
      | zero => rfl
      | succ k ih =>
          rw [List.replicate_succ, List.flatten_cons, List.count_append, ih]
          rfl
    rw [hwhole, List.count_append, hzero, Nat.add_zero]
  rw [sameText_decodedText_iff (.inl rfl) hcount, List.append_nil, hwhole, sameText_feeds_iff, ← hk]
  refine and_congr_left fun hk => ?_
  interval_cases k
  · exact (readsBack_congr (by simpa using hfeeds)).symm
  · exact (readsBack_feed hfeeds).symm

/-! ## A text with its signature -/

section Signature

variable {body signature : Str}

/-- A text without files. -/
theorem sameText_composed {back : Str → Bytes} (hback : back = (fun _ => []) ∨ back = lastBreak) :
    SameText (decodedText back (appendSignatureToBody (normalizeCrlf body ++ crlf) signature))
        (utf8 (normalizeTextToCrlf (appendSignatureToBody body signature))) ↔
      ReadsBack (appendSignatureToBody body signature) := by
  have hfeed := lfText_normalizeCrlf body
  by_cases hnone : signature = []
  · -- the line terminator of the client stays at the end of the text
    have hlines : lfText (appendSignatureToBody (normalizeCrlf body ++ crlf) signature) =
        lfText (appendSignatureToBody body signature) ++ ['\n'] := by
      rw [lfText_appendSignatureToBody, lfText_appendSignatureToBody, if_pos hnone, if_pos hnone, hfeed]
    refine sameText_of_feed hlines ?_
    rcases hback with rfl | rfl
    · rfl
    · exact lastBreak_feed hlines
  · -- the signature takes the place of all of them
    have hsent : sentText (normalizeCrlf body ++ crlf) = sentText body := by
      rw [sentText, hfeed, List.rdropWhile_concat_pos _ _ _ (by simp), sentText]
    refine sameText_of_lfText ?_ ?_
    · rw [lfText_appendSignatureToBody, lfText_appendSignatureToBody, if_neg hnone, if_neg hnone, hsent]
    · rcases hback with rfl | rfl
      · exact .inl rfl
      · exact lastBreak_cases _

/-- A text with files. -/
theorem sameText_sent (h : sentText body ≠ []) :
    SameText (decodedText (fun _ => []) (appendSignatureToBody (sentText body) signature))
        (utf8 (normalizeTextToCrlf (appendSignatureToBody body signature))) ↔
      ReadsBack (appendSignatureToBody body signature) ∧
        (signature = [] → ¬ "\n\n".toList <:+ lfText body) := by
  by_cases hnone : signature = []
  · have happend : ∀ text : Str, appendSignatureToBody text signature = text := fun text => if_pos hnone
    rw [happend, happend, sameText_of_sentText h]
    exact and_congr_right fun _ => (imp_iff_right hnone).symm
  · have hsent : sentText (sentText body) = sentText body := by
      rw [sentText, lfText_sentText, sentText, List.rdropWhile_idempotent]
    have hlines : lfText (appendSignatureToBody (sentText body) signature) =
        lfText (appendSignatureToBody body signature) := by
      rw [lfText_appendSignatureToBody, lfText_appendSignatureToBody, if_neg hnone, if_neg hnone, hsent]
    rw [sameText_of_lfText hlines (.inl rfl)]
    exact (and_iff_left fun hsig => absurd hsig hnone).symm

end Signature

end Send
end Aimx
