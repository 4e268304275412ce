import Aimx.Config.Schema

/-!
# Header blocks of submitted messages

The line walk that reads the header fields of a submitted message (`scan_headers`), the extraction of
an address from a field value, and the resolution of the sender to a mailbox, on decoded text.

* `unfoldLines`, `scanFields` — the walk: continuation lines are folded, the first empty line stops it;
* `extractBareAddress`, `resolveConcreteMailbox` — from a `From` value to a mailbox;
* `cutBlank` — the place where the walk stops: `isSome_cutBlank_iff`, and its behaviour on concatenations.
-/

namespace Aimx
namespace Send

open Text

/-! ## The walk over the header lines -/

/-- A line that continues the previous field. -/
def isContinuation (line : Str) : Bool :=
  line.head? = some ' ' || line.head? = some '\t'

/-- The loop of `scan_headers` over the lines: the unfolded fields in the order in which they are
committed.  `current` is the field under construction. -/
def unfoldLines : Option Str → List Str → List Str
  | current, [] => current.toList
  | current, line :: rest =>
      if line = [] then current.toList
      else if isContinuation line then
        unfoldLines (current.map fun cur => cur ++ ' ' :: trimStart line) rest
      else current.toList ++ unfoldLines (some line) rest

/-- `commit`: a field is its name, trimmed and in lower case, and its trimmed value; a line without a
colon is none. -/
def headerField (line : Str) : Option (Str × Str) :=
  (splitOnce ':' line).map fun p => (toAsciiLowercase (trim p.1), trim p.2)

/-- The fields that the walk over some lines commits. -/
def fieldsOfLines (ls : List Str) : List (Str × Str) :=
  (unfoldLines none ls).filterMap headerField

/-- The fields that the walk over a text commits. -/
def scanFields (text : Str) : List (Str × Str) := fieldsOfLines (lines text)

/-- `scan_headers`, looked up at one of its names: the value of the first such field.  A body that is
not UTF-8 has no fields. -/
def scanHeaders (body : Bytes) (name : Str) : Option Str :=
  match fromUtf8 body with
  | none => none
  | some text =>
      ((scanFields text).find? fun f => f.1 = toAsciiLowercase name).map Prod.snd

/-! ## The sender -/

/-- `value.split(',').next()`. -/
def firstPart (value : Str) : Str :=
  match splitOnce ',' value with
  | some (part, _) => part
  | none => value

/-- The text between the last `<` and the next `>`, or to the end; all of it without a `<`. -/
def innerAddress (first : Str) : Str :=
  match rsplitOnce '<' first with
  | none => first
  | some (_, tail) =>
      match splitOnce '>' tail with
      | some (inner, _) => inner
      | none => tail

/-- `extract_bare_address`: the first comma-separated part, reduced to the text between its last `<`
and the next `>`. -/
def extractBareAddress (value : Str) : Option Str :=
  let first := trim (firstPart value)
  if first = [] then none
  else
    let addr := trim (innerAddress first)
    if addr = [] ∨ '@' ∉ addr then none else some addr

/-- The local part of an address: the text before its last `@`, or all of it. -/
def localPart (addr : Str) : Str :=
  match rsplitOnce '@' addr with
  | some (local_, _) => local_
  | none => addr

/-- `resolve_concrete_mailbox`: a mailbox with this very address, else the one named like the local
part; wildcard addresses never count. -/
def resolveConcreteMailbox (mailboxes : Mailboxes) (bareFrom : Str) : Option Str :=
  match mailboxes.entries.find? fun e =>
      e.2.address.head? ≠ some '*' ∧ eqIgnoreAsciiCase e.2.address bareFrom with
  | some e => some e.1
  | none =>
      match mailboxes.lookup (localPart bareFrom) with
      | none => none
      | some mb => if mb.address.head? ≠ some '*' then some (localPart bareFrom) else none

/-- The sender is only ever resolved to a configured mailbox. -/
theorem mem_of_resolveConcreteMailbox {mailboxes : Mailboxes} {addr name : Str}
    (h : resolveConcreteMailbox mailboxes addr = some name) : name ∈ mailboxes := by
  unfold resolveConcreteMailbox at h
  split at h
  next e he =>
      cases h
      exact AList.mem_keys.mpr (List.mem_map_of_mem (List.mem_of_find?_eq_some he))
  next =>
      split at h
      next => cases h
      next mb hmb =>
          split at h
          next =>
              cases h
              exact AList.lookup_isSome.mp (by rw [hmb]; rfl)
          next => cases h

/-! ## Where the walk stops -/

/-- Cut a text around its first empty line: the complete lines before it and the text after it.
`atStart` says whether a line begins here. -/
def cutBlank : Bool → Str → Option (Str × Str)
  | _, [] => none
  | atStart, c :: s =>
      if atStart ∧ c = '\n' then some ([], s)
      else if atStart ∧ c = '\r' ∧ s.head? = some '\n' then some ([], s.tail)
      else (cutBlank (c = '\n') s).map fun p => (c :: p.1, p.2)

theorem cutBlank_cons (b : Bool) (c : Char) (s : Str) :
    cutBlank b (c :: s) =
      if b ∧ c = '\n' then some ([], s)
      else if b ∧ c = '\r' ∧ s.head? = some '\n' then some ([], s.tail)
      else (cutBlank (c = '\n') s).map fun p => (c :: p.1, p.2) :=
  rfl

/-- There is a cut exactly when there is an empty line. -/
theorem isSome_cutBlank_iff (s : Str) :
    ((cutBlank true s).isSome = true ↔ [] ∈ lines s) ∧
      ((cutBlank false s).isSome = true ↔ [] ∈ (lines s).tail) := by
  induction s with
  | nil => simp [cutBlank, lines]
  | cons c s ih =>
      obtain ⟨ihTrue, ihFalse⟩ := ih
      by_cases hnl : c = '\n'
      · subst hnl
        refine ⟨by simp [cutBlank, lines], ?_⟩
        rw [← show (lines s) = (lines ('\n' :: s)).tail from rfl, ← ihTrue]
        simp [cutBlank]
      by_cases hcr : c = '\r' ∧ s.head? = some '\n'
      · obtain ⟨rfl, hhead⟩ := hcr
        obtain ⟨t, rfl⟩ : ∃ t, s = '\n' :: t := by
          cases s with
          | nil => simp at hhead
          | cons d t =>
              rw [List.head?_cons, Option.some.injEq] at hhead
              exact ⟨t, by rw [hhead]⟩
        refine ⟨by simp [cutBlank, lines], ?_⟩
        rw [← show (lines ('\n' :: t)).tail = (lines ('\r' :: '\n' :: t)).tail from rfl, ← ihFalse]
        simp [cutBlank]
      · -- an ordinary character belongs to a line that is not empty
        have htail : (lines (c :: s)).tail = (lines s).tail := by
          rw [lines_cons hnl fun hc hs => hcr ⟨hc, hs⟩]
          cases lines s <;> rfl
        have hhead : [] ∈ lines (c :: s) ↔ [] ∈ (lines (c :: s)).tail := by
          rw [lines_cons hnl fun hc hs => hcr ⟨hc, hs⟩]
          cases lines s <;> simp
        have hstep : ∀ b, cutBlank b (c :: s) =
            (cutBlank false s).map fun p => (c :: p.1, p.2) := by
          intro b
          rw [cutBlank_cons, if_neg fun h => hnl h.2, if_neg fun h => hcr h.2]
          simp [hnl]
        rw [hhead, htail, ← ihFalse, hstep, hstep]
        simp

/-- What stands behind a text does not move a cut inside it. -/
theorem cutBlank_append_some {b : Bool} {u v h x : Str} (hcut : cutBlank b u = some (h, x)) :
    cutBlank b (u ++ v) = some (h, x ++ v) := by
  induction u generalizing b h with
  | nil => simp [cutBlank] at hcut
  | cons c u ih =>
      rw [cutBlank_cons] at hcut
      show cutBlank b (c :: (u ++ v)) = _
      rw [cutBlank_cons]
      split at hcut
      next hnl =>
          rw [if_pos hnl]
          cases hcut
          rfl
      next hnl =>
          rw [if_neg hnl]
          split at hcut
          next hcr =>
              cases hcut
              obtain ⟨hb, hc, hhead⟩ := hcr
              cases u with
              | nil => simp at hhead
              | cons d u =>
                  rw [if_pos ⟨hb, hc, hhead⟩]
                  rfl
          next hcr =>
              simp only [Option.map_eq_some_iff, Prod.mk.injEq, Prod.exists] at hcut
              obtain ⟨h', x', hrest, rfl, rfl⟩ := hcut
              have hcr' : ¬ (b = true ∧ c = '\r' ∧ (u ++ v).head? = some '\n') := by
                rintro ⟨hb, hc, hhead⟩
                cases u with
                | nil => simp [cutBlank] at hrest
                | cons d u => exact hcr ⟨hb, hc, hhead⟩
              rw [if_neg hcr', ih hrest]
              rfl

/-- Complete lines without an empty one are passed over. -/
theorem cutBlank_append_none {b : Bool} {u v : Str} (hcut : cutBlank b (u ++ ['\n']) = none) :
    cutBlank b (u ++ '\n' :: v) =
      (cutBlank true v).map fun p => (u ++ '\n' :: p.1, p.2) := by
  induction u generalizing b with
  | nil =>
      cases b
      · show cutBlank false ('\n' :: v) = _
        simp [cutBlank]
      · simp [cutBlank] at hcut
  | cons c u ih =>
      change cutBlank b (c :: (u ++ ['\n'])) = none at hcut
      show cutBlank b (c :: (u ++ '\n' :: v)) = _
      have hhead : (u ++ '\n' :: v).head? = (u ++ ['\n']).head? := by cases u <;> rfl
      rw [cutBlank_cons] at hcut ⊢
      rw [hhead]
      split at hcut
      next => cases hcut
      next hnl =>
          split at hcut
          next => cases hcut
          next hcr =>
              rw [if_neg hnl, if_neg hcr, ih (by simpa using hcut)]
              cases cutBlank true v <;> rfl

/-- One line of the walk, when it is not empty. -/
theorem unfoldLines_cons (current : Option Str) {line : Str} (rest : List Str) (h : line ≠ []) :
    unfoldLines current (line :: rest) =
      if isContinuation line then
        unfoldLines (current.map fun cur => cur ++ ' ' :: trimStart line) rest
      else current.toList ++ unfoldLines (some line) rest := by
  rw [unfoldLines, if_neg h]

/-- The walk stops at the first empty line. -/
theorem unfoldLines_stop (current : Option Str) (l rest : List Str) :
    unfoldLines current (l ++ [] :: rest) = unfoldLines current l := by
  induction l generalizing current with
  | nil => simp [unfoldLines]
  | cons line l ih =>
      show unfoldLines current (line :: (l ++ [] :: rest)) = unfoldLines current (line :: l)
      unfold unfoldLines
      rw [ih, ih]

/-! ## What a value is made of -/

/-- Trimming keeps characters. -/
theorem mem_of_mem_trim {c : Char} {s : Str} (h : c ∈ trim s) : c ∈ s :=
  (List.dropWhile_suffix _).subset ((List.rdropWhile_prefix _ _).subset h)

/-- No field contains a line feed. -/
theorem newline_notMem_unfoldLines {current : Option Str} {ls : List Str}
    (hcurrent : ∀ cur, current = some cur → '\n' ∉ cur) (hls : ∀ l ∈ ls, '\n' ∉ l) {f : Str}
    (hf : f ∈ unfoldLines current ls) : '\n' ∉ f := by
  induction ls generalizing current with
  | nil => exact hcurrent f (Option.mem_toList.mp hf)
  | cons line ls ih =>
      have hline : '\n' ∉ line := hls line List.mem_cons_self
      have hrest : ∀ l ∈ ls, '\n' ∉ l := fun l hl => hls l (List.mem_cons_of_mem _ hl)
      by_cases hempty : line = []
      · rw [unfoldLines, if_pos hempty] at hf
        exact hcurrent f (Option.mem_toList.mp hf)
      rw [unfoldLines_cons _ _ hempty] at hf
      split at hf
      next =>
          refine ih ?_ hrest hf
          intro cur hcur
          obtain ⟨cur', hcur', rfl⟩ := Option.map_eq_some_iff.mp hcur
          have htail : '\n' ∉ trimStart line :=
            fun hmem => hline ((List.dropWhile_suffix _).subset hmem)
          simp [hcurrent cur' hcur', htail]
      next =>
          rcases List.mem_append.mp hf with hf | hf
          · exact hcurrent f (Option.mem_toList.mp hf)
          · refine ih ?_ hrest hf
            rintro cur ⟨⟩
            exact hline

/-- A value that is found was found in a text that does not begin with an empty line, and contains no
line feed. -/
theorem scanHeaders_eq_some {body : Bytes} {name v : Str} (h : scanHeaders body name = some v) :
    ∃ s, body = utf8 s ∧ (lines s).head? ≠ some [] ∧ '\n' ∉ v := by
  unfold scanHeaders at h
  split at h
  next => cases h
  next s hs =>
      obtain ⟨f, hfound, rfl⟩ := Option.map_eq_some_iff.mp h
      have hmem := List.mem_of_find?_eq_some hfound
      refine ⟨s, fromUtf8_eq_some_iff.mp hs, ?_, ?_⟩
      · intro hhead
        obtain ⟨ls, hls⟩ := List.head?_eq_some_iff.mp hhead
        unfold scanFields fieldsOfLines at hmem
        rw [hls] at hmem
        simp [unfoldLines] at hmem
      · unfold scanFields fieldsOfLines at hmem
        obtain ⟨line, hline, hfield⟩ := List.mem_filterMap.mp hmem
        have hnl := newline_notMem_unfoldLines (fun cur hcur => by cases hcur)
          (fun l hl => newline_notMem_of_mem_lines hl) hline
        obtain ⟨⟨n, value⟩, hcut, rfl⟩ := Option.map_eq_some_iff.mp hfield
        obtain ⟨rfl, -⟩ := splitOnce_eq_some_iff.mp hcut
        intro hv
        exact hnl (by simp [mem_of_mem_trim hv])

/-- The first part is made of characters of the value. -/
theorem mem_of_mem_firstPart {value : Str} {c : Char} (h : c ∈ firstPart value) : c ∈ value := by
  unfold firstPart at h
  cases hcut : splitOnce ',' value with
  | none =>
      rw [hcut] at h
      exact h
  | some p =>
      rw [hcut] at h
      rw [(splitOnce_eq_some_iff.mp hcut).1]
      exact List.mem_append_left _ h

/-- The inner address is made of characters of the part. -/
theorem mem_of_mem_innerAddress {first : Str} {c : Char} (h : c ∈ innerAddress first) :
    c ∈ first := by
  unfold innerAddress at h
  cases hcut : rsplitOnce '<' first with
  | none =>
      rw [hcut] at h
      exact h
  | some p =>
      obtain ⟨pre, tail⟩ := p
      rw [hcut] at h
      dsimp only at h
      rw [(rsplitOnce_eq_some_iff.mp hcut).1]
      refine List.mem_append_right _ (List.mem_cons_of_mem _ ?_)
      cases hend : splitOnce '>' tail with
      | none =>
          rw [hend] at h
          exact h
      | some q =>
          rw [hend] at h
          rw [(splitOnce_eq_some_iff.mp hend).1]
          exact List.mem_append_left _ h

/-- An extracted address is made of characters of the value. -/
theorem mem_of_mem_extractBareAddress {value addr : Str} (h : extractBareAddress value = some addr)
    {c : Char} (hc : c ∈ addr) : c ∈ value := by
  unfold extractBareAddress at h
  dsimp only at h
  split at h
  next => cases h
  next =>
      split at h
      next => cases h
      next =>
          cases h
          exact mem_of_mem_firstPart (mem_of_mem_trim (mem_of_mem_innerAddress (mem_of_mem_trim hc)))

/-! ## Fields under small changes of the lines -/

/-- What is appended to a line with a colon goes to the value. -/
theorem headerField_append {line n v : Str} (h : splitOnce ':' line = some (n, v)) (ext : Str) :
    headerField (line ++ ext) = some (toAsciiLowercase (trim n), trim (v ++ ext)) := by
  obtain ⟨rfl, hn⟩ := splitOnce_eq_some_iff.mp h
  have hcut : splitOnce ':' (n ++ ':' :: v ++ ext) = some (n, v ++ ext) :=
    splitOnce_eq_some_iff.mpr ⟨by simp, hn⟩
  unfold headerField
  rw [hcut]
  rfl

/-- A carriage return at the end of a line belongs to no field. -/
theorem headerField_concat_cr (line : Str) : headerField (line ++ ['\r']) = headerField line := by
  cases hcut : splitOnce ':' line with
  | none =>
      have hnone : splitOnce ':' (line ++ ['\r']) = none := by
        rw [splitOnce_eq_none_iff] at hcut ⊢
        simpa using hcut
      unfold headerField
      rw [hcut, hnone]
  | some p =>
      obtain ⟨n, v⟩ := p
      have hcr : isWhitespace '\r' = true := by decide
      rw [headerField_append hcut, trim_concat_whitespace v hcr]
      unfold headerField
      rw [hcut]
      rfl

/-- Walking from a field under construction: the field is committed with what continues it, then the
walk goes on as from nothing. -/
theorem unfoldLines_some (line : Str) (ls : List Str) :
    ∃ ext, unfoldLines (some line) ls = (line ++ ext) :: unfoldLines none ls := by
  induction ls generalizing line with
  | nil => exact ⟨[], by simp [unfoldLines]⟩
  | cons l ls ih =>
      unfold unfoldLines
      by_cases hempty : l = []
      · exact ⟨[], by simp [hempty]⟩
      rw [if_neg hempty, if_neg hempty]
      by_cases hcont : isContinuation l = true
      · rw [if_pos hcont, if_pos hcont]
        obtain ⟨ext, hext⟩ := ih (line ++ ' ' :: trimStart l)
        refine ⟨' ' :: trimStart l ++ ext, ?_⟩
        rw [Option.map_some, hext, Option.map_none]
        simp
      · rw [if_neg hcont, if_neg hcont]
        exact ⟨[], by simp⟩

/-- A carriage return at the end of the last line changes no field. -/
theorem fields_concat_cr (current : Option Str) (ls : List Str) (l : Str) :
    (unfoldLines current (ls ++ [l ++ ['\r']])).filterMap headerField =
      (unfoldLines current (ls ++ [l])).filterMap headerField := by
  induction ls generalizing current with
  | nil =>
      have hcr : isWhitespace '\r' = true := by decide
      cases l with
      | nil =>
          -- the line is no longer empty, but it is no field either
          have hnone : headerField ['\r'] = none := rfl
          have hcont : isContinuation ['\r'] = false := rfl
          show (unfoldLines current [['\r']]).filterMap headerField =
            (unfoldLines current [[]]).filterMap headerField
          rw [unfoldLines_cons current [] (List.cons_ne_nil _ _), hcont]
          simp [unfoldLines, List.filterMap_append, hnone]
      | cons c l =>
          have hcont : isContinuation (c :: (l ++ ['\r'])) = isContinuation (c :: l) := rfl
          show (unfoldLines current [c :: (l ++ ['\r'])]).filterMap headerField =
            (unfoldLines current [c :: l]).filterMap headerField
          rw [unfoldLines_cons current [] (List.cons_ne_nil _ _),
            unfoldLines_cons current [] (List.cons_ne_nil _ _), hcont]
          by_cases h : isContinuation (c :: l) = true
          · rw [if_pos h, if_pos h]
            cases current with
            | none => rfl
            | some cur =>
                rcases trimStart_concat_whitespace (c :: l) hcr with ht | ht
                · have hfield := headerField_concat_cr (cur ++ ' ' :: trimStart (c :: l))
                  rw [List.append_assoc, List.cons_append, ← ht, List.cons_append] at hfield
                  simp [unfoldLines, List.filterMap_cons, hfield]
                · rw [List.cons_append] at ht
                  rw [ht]
          · rw [if_neg h, if_neg h]
            have hfield := headerField_concat_cr (c :: l)
            simp only [unfoldLines, List.filterMap_append, Option.toList_some, List.filterMap_cons]
            rw [← List.cons_append, hfield]
  | cons line ls ih =>
      show (unfoldLines current (line :: (ls ++ [l ++ ['\r']]))).filterMap headerField =
        (unfoldLines current (line :: (ls ++ [l]))).filterMap headerField
      unfold unfoldLines
      split
      · rfl
      · split
        · exact ih _
        · rw [List.filterMap_append, List.filterMap_append, ih]

end Send
end Aimx
