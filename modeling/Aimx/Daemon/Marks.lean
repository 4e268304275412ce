import Aimx.Daemon.Mark
import Aimx.Ingest.Marked
import Aimx.Text.Utf8

/-!
# Marks keep the message

MARK-READ and MARK-UNREAD parse the front matter of a message, print it again and copy the rest of the
file.  After any sequence of them the file is what ingest would have written for the record with the flag
of the last request that was answered with OK.

* `handleMark_iff` — exactly the marks that are answered with OK;
* `marks_keep` — any sequence of marks on a message.
-/

namespace Aimx
namespace Daemon

open Text Protocol Ingest

/-! ## The file in its folder -/

theorem findEntry_replaceEntry {α : Type} {entries : List (Str × α)} {name : Str} {x : α} (f : α → α)
    (h : findEntry entries name = some x) : findEntry (replaceEntry entries name f) name = some (f x) := by
  unfold findEntry replaceEntry at *
  induction entries with
  | nil => cases h
  | cons e entries ih =>
      rw [List.map_cons]
      by_cases he : e.1 = name
      · rw [List.find?_cons_of_pos (by simpa using he)] at h
        rw [List.find?_cons_of_pos (by simp [he]), if_pos he]
        rw [Option.map_some, Option.some.injEq] at h ⊢
        rw [h]
      · rw [List.find?_cons_of_neg (by simpa using he)] at h
        rw [List.find?_cons_of_neg (by simp [he])]
        exact ih h

theorem findEntry_replaceEntry_ne {α : Type} (entries : List (Str × α)) {name other : Str} (f : α → α)
    (hne : other ≠ name) : findEntry (replaceEntry entries name f) other = findEntry entries other := by
  unfold findEntry replaceEntry
  induction entries with
  | nil => rfl
  | cons e entries ih =>
      rw [List.map_cons]
      by_cases he : e.1 = name
      · have hother : ¬e.1 = other := fun heq => hne (heq.symm.trans he)
        rw [List.find?_cons_of_neg (by simpa [he] using hother),
          List.find?_cons_of_neg (by simpa using hother)]
        exact ih
      · rw [if_neg he]
        by_cases hother : e.1 = other
        · rw [List.find?_cons_of_pos (by simpa using hother), List.find?_cons_of_pos (by simpa using hother)]
        · rw [List.find?_cons_of_neg (by simpa using hother), List.find?_cons_of_neg (by simpa using hother)]
          exact ih

/-- Of two replacements at one name the second counts. -/
theorem replaceEntry_replaceEntry {α : Type} (entries : List (Str × α)) (name : Str) (f g : α → α) :
    replaceEntry (replaceEntry entries name f) name g = replaceEntry entries name fun x => g (f x) := by
  unfold replaceEntry
  rw [List.map_map]
  refine List.map_congr_left fun e _ => ?_
  by_cases he : e.1 = name
  · simp [he]
  · simp [he]

theorem messageFile_ne (id : Str) : id ≠ messageFile id := by
  intro heq
  have hlen := congrArg List.length heq
  simp [messageFile] at hlen

section Message

variable {entries : List (Str × Item)} {id : Str} {bundled : Bool} {content : Bytes}

/-- What is written to the file of a message is read there. -/
theorem findMessage_replaceMessage (h : findMessage entries id = some (bundled, content))
    (content' : Bytes) :
    findMessage (replaceMessage entries id content') id = some (bundled, content') := by
  unfold findMessage at h
  unfold replaceMessage
  cases hflat : findEntry entries (messageFile id) with
  | some item =>
      rw [hflat] at h
      cases item with
      | bundle files => cases h
      | file c =>
          cases h
          dsimp only
          unfold findMessage
          rw [findEntry_replaceEntry _ hflat]
  | none =>
      rw [hflat] at h
      dsimp only at h ⊢
      cases hbundle : findEntry entries id with
      | none =>
          rw [hbundle] at h
          cases h
      | some item =>
          rw [hbundle] at h
          cases item with
          | file c => cases h
          | bundle files =>
              dsimp only at h
              obtain ⟨c, hc, heq⟩ := Option.map_eq_some_iff.mp h
              cases heq
              unfold findMessage
              rw [findEntry_replaceEntry_ne _ _ (messageFile_ne id).symm, hflat,
                findEntry_replaceEntry _ hbundle]
              dsimp only
              rw [findEntry_replaceEntry _ hc]
              rfl

/-- Of two contents that are written to the file of a message the second counts. -/
theorem replaceMessage_replaceMessage (entries : List (Str × Item)) (id : Str)
    (content' content'' : Bytes) :
    replaceMessage (replaceMessage entries id content') id content'' =
      replaceMessage entries id content'' := by
  cases hflat : findEntry entries (messageFile id) with
  | some item =>
      have hreplace : ∀ c, replaceMessage entries id c =
          replaceEntry entries (messageFile id) fun _ => .file c := by
        intro c
        unfold replaceMessage
        rw [hflat]
      rw [hreplace, hreplace, replaceMessage, findEntry_replaceEntry _ hflat]
      exact replaceEntry_replaceEntry _ _ _ _
  | none =>
      unfold replaceMessage
      rw [hflat]
      dsimp only
      rw [findEntry_replaceEntry_ne _ _ (messageFile_ne id).symm, hflat]
      dsimp only
      rw [replaceEntry_replaceEntry]
      congr 1
      funext item
      cases item with
      | file c => rfl
      | bundle files =>
          dsimp only
          rw [replaceEntry_replaceEntry]

end Message

/-! ## Marks one after the other -/

/-- One MARK request and what it meets. -/
structure MarkRound where
  mark : MarkEnv
  caller : Caller
  req : MarkRequest

/-- A sequence of requests, with their answers. -/
def runMarks (env : HandlerEnv) (world : World) : List MarkRound → World × List AckResponse
  | [] => (world, [])
  | r :: rounds =>
      let (next, response) := handleMark env r.mark world r.caller r.req
      let (last, responses) := runMarks env next rounds
      (last, response :: responses)

/-- Every request is answered. -/
theorem length_runMarks (env : HandlerEnv) (world : World) (rounds : List MarkRound) :
    (runMarks env world rounds).2.length = rounds.length := by
  induction rounds generalizing world with
  | nil => rfl
  | cons r rounds ih => exact congrArg (· + 1) (ih _)

/-- The request, if it was answered with OK. -/
def MarkRound.answered (r : MarkRound) : AckResponse → Option MarkRound
  | .ok => some r
  | .err _ => none

/-- The last request that was answered with OK. -/
def lastMarked : List (MarkRound × AckResponse) → Option MarkRound
  | [] => none
  | (r, response) :: rounds => (lastMarked rounds).or (r.answered response)

/-- The record that the requests leave in the file. -/
def lastRecord (m : InboundFrontmatter) (rounds : List (MarkRound × AckResponse)) : InboundFrontmatter :=
  ((lastMarked rounds).map fun r => m.setRead r.req.read r.mark.now).getD m

/-- A request that is admitted under a configuration, meets a printed record that can be split off again,
and meets no failing call. -/
structure MarkRound.Succeeds (r : MarkRound) (config : Config) (printed : Str) : Prop where
  check : markCheck config r.req r.caller = .ok ()
  plus : ¬"+++".toList <:+: printed
  readFault : r.mark.readFault = none
  writeFault : r.mark.writeFault = none
  renameFault : r.mark.renameFault = none

/-- A folder with another content of the file of a message. -/
def Folder.withMessage (f : Folder) (id : Str) (content : Bytes) : Folder :=
  { f with entries := replaceMessage f.entries id content }

/-- What `markFile` does: nothing, with an error, or the file is rewritten. -/
theorem markFile_cases (env : HandlerEnv) (mark : MarkEnv) (req : MarkRequest) (disk : Disk) :
    (∃ reject, markFile env mark req disk = (disk, .err reject)) ∨
      ∃ f bundled content text, disk.nodes .inbox req.mailbox = some (.folder f) ∧
        findMessage f.entries req.id = some (bundled, utf8 content) ∧ mark.readFault = none ∧
        markContent mark.toml req.read mark.now content = .ok text ∧ mark.writeFault = none ∧
        mark.renameFault = none ∧
        markFile env mark req disk =
          (disk.set .inbox req.mailbox (some (.folder (f.withMessage req.id (utf8 text)))), .ok) := by
  unfold markFile
  dsimp only
  split
  next f hf =>
      split
      next => exact Or.inl ⟨_, rfl⟩
      next bundled bytes hfound =>
          split
          next => exact Or.inl ⟨_, rfl⟩
          next => exact Or.inl ⟨_, rfl⟩
          next content hread htext =>
              split
              next => exact Or.inl ⟨_, rfl⟩
              next => exact Or.inl ⟨_, rfl⟩
              next text hmark =>
                  split
                  next => exact Or.inl ⟨_, rfl⟩
                  next => exact Or.inl ⟨_, rfl⟩
                  next hwrite hrename =>
                      rw [fromUtf8_eq_some_iff.mp htext] at hfound
                      exact Or.inr ⟨f, bundled, content, text, hf, hfound, hread, hmark, hwrite, hrename, rfl⟩
  next => exact Or.inl ⟨_, rfl⟩

/-- When nothing fails the file is rewritten. -/
theorem markFile_eq {env : HandlerEnv} {mark : MarkEnv} {req : MarkRequest} {disk : Disk} {f : Folder}
    {bundled : Bool} {content text : Str} (hf : disk.nodes .inbox req.mailbox = some (.folder f))
    (hfound : findMessage f.entries req.id = some (bundled, utf8 content)) (hread : mark.readFault = none)
    (hmark : markContent mark.toml req.read mark.now content = .ok text) (hwrite : mark.writeFault = none)
    (hrename : mark.renameFault = none) :
    markFile env mark req disk =
      (disk.set .inbox req.mailbox (some (.folder (f.withMessage req.id (utf8 text)))), .ok) := by
  unfold markFile
  simp only [hf, hfound, hread, fromUtf8_eq_some_iff.mpr rfl, hmark, hwrite, hrename]
  rfl

/-- A request with an error changes nothing. -/
theorem handleMark_err {env : HandlerEnv} {mark : MarkEnv} {world : World} {caller : Caller}
    {req : MarkRequest} {reject : Reject} (h : (handleMark env mark world caller req).2 = .err reject) :
    (handleMark env mark world caller req).1 = world := by
  unfold handleMark at h ⊢
  cases hcheck : markCheck world.memory req caller with
  | error reject' => rfl
  | ok _ =>
      rw [hcheck] at h
      rcases markFile_cases env mark req world.disk with ⟨reject', herr⟩ |
        ⟨f, _, _, text, _, _, _, _, _, _, hok⟩
      · simp only [herr]
      · simp only [hok] at h
        cases h

section Marks

variable {env : HandlerEnv} {t : Toml} {mailbox id body : Str} {f : Folder} {bundled : Bool}
  {m : InboundFrontmatter} {world : World}

variable (t mailbox id f body) in
/-- The world with the message of a record in the file. -/
def withRecord (world : World) (m : InboundFrontmatter) : World :=
  { world with
    disk := world.disk.set .inbox mailbox
      (some (.folder (f.withMessage id (utf8 (formatFrontmatter t m body))))) }

variable (t mailbox id f bundled body) in
/-- The folder of the mailbox holds the message of a record. -/
structure HoldsRecord (world : World) (m : InboundFrontmatter) : Prop where
  folder : world.disk.nodes .inbox mailbox = some (.folder f)
  message : findMessage f.entries id = some (bundled, utf8 (formatFrontmatter t m body))

variable (t mailbox id) in
/-- A request for a mark on the message, with this library. -/
structure MarksMessage (r : MarkRound) : Prop where
  mailbox : r.req.mailbox = mailbox
  id : r.req.id = id
  toml : r.mark.toml = t

/-- **A mark on the message of a record**: an error, or the record with the flag. -/
theorem handleMark_cases (env : HandlerEnv) (hholds : HoldsRecord t mailbox id body f bundled world m)
    (hprint : UndoesPrint t m) {r : MarkRound} (hr : MarksMessage t mailbox id r) :
    (∃ reject, handleMark env r.mark world r.caller r.req = (world, .err reject)) ∨
      handleMark env r.mark world r.caller r.req =
          (withRecord t mailbox id body f world (m.setRead r.req.read r.mark.now), .ok) ∧
        r.Succeeds world.memory (t.toString m) := by
  unfold handleMark
  cases hcheck : markCheck world.memory r.req r.caller with
  | error reject => exact Or.inl ⟨reject, rfl⟩
  | ok _ =>
      rcases markFile_cases env r.mark r.req world.disk with ⟨reject, herr⟩ |
        ⟨f', bundled', content, text, hf, hfound, hread, hmark, hwrite, hrename, hok⟩
      · left
        exact ⟨reject, by simp only [herr]⟩
      · right
        rw [hr.mailbox, hholds.folder, Option.some.injEq, Node.folder.injEq] at hf
        subst hf
        rw [hr.id, hholds.message, Option.some.injEq, Prod.mk.injEq] at hfound
        obtain rfl : formatFrontmatter t m body = content := by
          rw [← fromUtf8Lossy_utf8 content, ← hfound.2, fromUtf8Lossy_utf8]
        rw [hr.toml] at hmark
        obtain ⟨hcut, hwhole⟩ := @markContent_formatted t m body hprint r.req.read r.mark.now
        have hplus : ¬"+++".toList <:+: t.toString m := by
          intro hplus
          rw [hcut hplus] at hmark
          cases hmark
        rw [hwhole hplus] at hmark
        cases hmark
        refine ⟨?_, hcheck, hplus, hread, hwrite, hrename⟩
        simp only [hok, hr.mailbox, hr.id]
        rfl

/-- When nothing fails a mark is answered with OK. -/
theorem handleMark_eq (env : HandlerEnv) (hholds : HoldsRecord t mailbox id body f bundled world m)
    (hprint : UndoesPrint t m) {r : MarkRound} (hr : MarksMessage t mailbox id r)
    (hsucceeds : r.Succeeds world.memory (t.toString m)) :
    handleMark env r.mark world r.caller r.req =
      (withRecord t mailbox id body f world (m.setRead r.req.read r.mark.now), .ok) := by
  have hmark := (@markContent_formatted t m body hprint r.req.read r.mark.now).2 hsucceeds.plus
  have hfile := @markFile_eq env r.mark r.req world.disk f bundled (formatFrontmatter t m body)
    (formatFrontmatter t (m.setRead r.req.read r.mark.now) body) (hr.mailbox ▸ hholds.folder)
    (hr.id ▸ hholds.message) hsucceeds.readFault (hr.toml ▸ hmark) hsucceeds.writeFault
    hsucceeds.renameFault
  unfold handleMark
  rw [hsucceeds.check]
  simp only [hfile, hr.mailbox, hr.id]
  rfl

/-- **Which marks are answered with OK**: those that are admitted, meet a record without a mark of its
own and meet no failing call. -/
theorem handleMark_iff (env : HandlerEnv) (hholds : HoldsRecord t mailbox id body f bundled world m)
    (hprint : UndoesPrint t m) {r : MarkRound} (hr : MarksMessage t mailbox id r) :
    (handleMark env r.mark world r.caller r.req).2 = .ok ↔ r.Succeeds world.memory (t.toString m) := by
  constructor
  · intro hok
    rcases handleMark_cases env hholds hprint hr with ⟨reject, herr⟩ | ⟨-, hsucceeds⟩
    · rw [herr] at hok
      cases hok
    · exact hsucceeds
  · intro hsucceeds
    rw [handleMark_eq env hholds hprint hr hsucceeds]

theorem HoldsRecord.withRecord (hholds : HoldsRecord t mailbox id body f bundled world m)
    (m' : InboundFrontmatter) :
    HoldsRecord t mailbox id body (f.withMessage id (utf8 (formatFrontmatter t m' body))) bundled
      (withRecord t mailbox id body f world m') m' where
  folder := by simp [Daemon.withRecord, Disk.set]
  message := findMessage_replaceMessage hholds.message _

/-- Of two records that are written the second counts. -/
theorem withRecord_withRecord (world : World) (m' m'' : InboundFrontmatter) :
    withRecord t mailbox id body (f.withMessage id (utf8 (formatFrontmatter t m' body)))
        (withRecord t mailbox id body f world m') m'' = withRecord t mailbox id body f world m'' := by
  unfold withRecord Folder.withMessage Disk.set
  dsimp only
  rw [replaceMessage_replaceMessage]
  congr 2
  funext side name
  split <;> rfl

variable (env t mailbox id f body) in
/-- What is asked of a sequence of requests on the message of a record. -/
structure MarksKeep (world : World) (m : InboundFrontmatter) (rounds : List MarkRound) : Prop where
  /-- A request is answered with OK exactly when it is admitted, the record that the requests before it
  left in the file has no mark of its own, and no call fails. -/
  answered : ∀ before r after, rounds = before ++ r :: after →
    ((runMarks env world rounds).2[before.length]? = some .ok ↔
      r.Succeeds world.memory
        (t.toString (lastRecord m (before.zip (runMarks env world rounds).2))))
  /-- The file has the flag of the last request that was answered with OK, and nothing else changed. -/
  last : (runMarks env world rounds).1 =
    ((lastMarked (rounds.zip (runMarks env world rounds).2)).map fun r =>
      withRecord t mailbox id body f world (m.setRead r.req.read r.mark.now)).getD world
  /-- Of two requests that are answered with OK the second alone has the same effect. -/
  twice : ∀ r ∈ rounds, ∀ r' ∈ rounds, (runMarks env world [r, r']).2 = [.ok, .ok] →
    (runMarks env world [r, r']).1 = (runMarks env world [r']).1
  /-- A request that is answered with an error changes nothing. -/
  error : ∀ (world' : World), ∀ r ∈ rounds, ∀ reject,
    (handleMark env r.mark world' r.caller r.req).2 = .err reject →
      (handleMark env r.mark world' r.caller r.req).1 = world'

theorem setRead_setRead (m : InboundFrontmatter) (read read' : Bool) (now now' : Str) :
    (m.setRead read now).setRead read' now' = m.setRead read' now' := rfl

/-- **The run.**  The records before and after each mark are read back. -/
theorem runMarks_eq {rounds : List MarkRound}
    (hholds : HoldsRecord t mailbox id body f bundled world m)
    (hrounds : ∀ r ∈ rounds, MarksMessage t mailbox id r) (hprint : UndoesPrint t m)
    (hmarked : ∀ r ∈ rounds, UndoesPrint t (m.setRead r.req.read r.mark.now)) :
    (runMarks env world rounds).1 =
      ((lastMarked (rounds.zip (runMarks env world rounds).2)).map fun r =>
        withRecord t mailbox id body f world (m.setRead r.req.read r.mark.now)).getD world := by
  induction rounds generalizing world m f with
  | nil => rfl
  | cons r rounds ih =>
      rw [List.forall_mem_cons] at hrounds hmarked
      rcases handleMark_cases env hholds hprint hrounds.1 with ⟨reject, herr⟩ | ⟨hok, -⟩
      · simp only [runMarks, herr, List.zip_cons_cons, lastMarked, MarkRound.answered, Option.or_none]
        exact ih hholds hrounds.2 hprint hmarked.2
      · -- the next requests find the record with the flag of this one
        have hnext := ih (hholds.withRecord (m.setRead r.req.read r.mark.now)) hrounds.2 hmarked.1
          hmarked.2
        simp only [runMarks, hok, List.zip_cons_cons, lastMarked, MarkRound.answered]
        rw [hnext]
        cases hlast : lastMarked (rounds.zip (runMarks env
            (withRecord t mailbox id body f world (m.setRead r.req.read r.mark.now)) rounds).2) with
        | none => rfl
        | some r' =>
            rw [Option.some_or, Option.map_some, Option.map_some, Option.getD_some, Option.getD_some,
              setRead_setRead, withRecord_withRecord]

/-- The record after a request that was answered with an error, and after one that was answered with OK. -/
theorem lastRecord_err (m : InboundFrontmatter) (r : MarkRound) (reject : Reject)
    (rounds : List (MarkRound × AckResponse)) :
    lastRecord m ((r, .err reject) :: rounds) = lastRecord m rounds := by
  simp only [lastRecord, lastMarked, MarkRound.answered, Option.or_none]

theorem lastRecord_ok (m : InboundFrontmatter) (r : MarkRound)
    (rounds : List (MarkRound × AckResponse)) :
    lastRecord m ((r, .ok) :: rounds) = lastRecord (m.setRead r.req.read r.mark.now) rounds := by
  unfold lastRecord
  simp only [lastMarked, MarkRound.answered]
  cases lastMarked rounds with
  | none => rfl
  | some r' => rfl

/-- **The answers of a run**, one request after the other: each meets the record that those before it
left in the file. -/
theorem runMarks_answered {before after : List MarkRound} {r : MarkRound}
    (hholds : HoldsRecord t mailbox id body f bundled world m)
    (hrounds : ∀ r' ∈ before ++ r :: after, MarksMessage t mailbox id r') (hprint : UndoesPrint t m)
    (hmarked : ∀ r' ∈ before ++ r :: after, UndoesPrint t (m.setRead r'.req.read r'.mark.now)) :
    (runMarks env world (before ++ r :: after)).2[before.length]? = some .ok ↔
      r.Succeeds world.memory
        (t.toString (lastRecord m (before.zip (runMarks env world (before ++ r :: after)).2))) := by
  induction before generalizing world m f with
  | nil =>
      show some (handleMark env r.mark world r.caller r.req).2 = some .ok ↔
        r.Succeeds world.memory (t.toString m)
      rw [Option.some.injEq]
      exact handleMark_iff env hholds hprint (hrounds r (List.mem_cons_self ..))
  | cons first before ih =>
      rw [List.cons_append, List.forall_mem_cons] at hrounds hmarked
      rcases handleMark_cases env hholds hprint hrounds.1 with ⟨reject, herr⟩ | ⟨hok, -⟩
      · simp only [List.cons_append, runMarks, herr, List.length_cons, List.getElem?_cons_succ,
          List.zip_cons_cons, lastRecord_err]
        exact ih hholds hrounds.2 hprint hmarked.2
      · -- the requests after the first meet its record, and the configuration is the same
        simp only [List.cons_append, runMarks, hok, List.length_cons, List.getElem?_cons_succ,
          List.zip_cons_cons, lastRecord_ok]
        exact ih (hholds.withRecord (m.setRead first.req.read first.mark.now)) hrounds.2 hmarked.1
          hmarked.2

/-- Two marks are the second one. -/
theorem runMarks_pair {r r' : MarkRound} (hholds : HoldsRecord t mailbox id body f bundled world m)
    (hr : MarksMessage t mailbox id r) (hr' : MarksMessage t mailbox id r') (hprint : UndoesPrint t m)
    (hmarked : UndoesPrint t (m.setRead r.req.read r.mark.now))
    (hboth : (runMarks env world [r, r']).2 = [.ok, .ok]) :
    (runMarks env world [r, r']).1 = (runMarks env world [r']).1 := by
  rcases handleMark_cases env hholds hprint hr with ⟨reject, herr⟩ | ⟨hok, hfirst⟩
  · simp only [runMarks, herr, List.cons.injEq] at hboth
    cases hboth.1
  · have hholds' := hholds.withRecord (m.setRead r.req.read r.mark.now)
    rcases handleMark_cases env hholds' hmarked hr' with ⟨reject, herr⟩ | ⟨hok', hsecond⟩
    · simp only [runMarks, hok, herr, List.cons.injEq] at hboth
      cases hboth.2.1
    · -- the second request meets the same configuration without the first
      have halone := handleMark_eq env hholds hprint hr' { hsecond with plus := hfirst.plus }
      simp only [runMarks, hok, hok', halone]
      rw [setRead_setRead, withRecord_withRecord]

end Marks

/-! ## A mark on a stored message -/

/-- What is printed for a delivered message before its `read` key, and after it when it is read. -/
def markedText (m : InboundFrontmatter) : Str :=
  sampleBefore m.subject ++ readLine m.read ++
    match m.readAt with
    | none => []
    | some now => "read_at = \"".toList ++ now ++ "\"\n".toList

/-- A delivered message, and the same message after a mark. -/
def noteRecord : InboundFrontmatter := sampleMeta "note".toList

def noteMarked : InboundFrontmatter := noteRecord.setRead true "2025-01-02T00:00:00Z".toList

/-- The TOML library on these two records. -/
def noteToml : Toml where
  toString := markedText
  fromStr := fun s => [noteMarked, noteRecord].find? fun m => s == trim ('\n' :: markedText m)
  listFromStr := fun s =>
    ([noteMarked, noteRecord].find? fun m => s == trim ('\n' :: markedText m)).map (·.listFm)

/-- The folder that holds the message. -/
def noteFolder : Folder where
  uid := 1000
  gid := 1000
  mode := 0o700
  entries := [(messageFile noteRecord.id,
    .file (utf8 (formatFrontmatter noteToml noteRecord "Hello".toList)))]

/-- A daemon with that folder, and the request of its owner. -/
def noteWorld : World where
  memory := sampleConfig [("b", sampleMailbox "b@example.org" "bob" [])]
  disk := ⟨fun side name => if side = .inbox ∧ name = "b".toList then some (.folder noteFolder) else none,
    [], false⟩

def noteRound : MarkRound where
  mark := ⟨noteToml, id, "2025-01-02T00:00:00Z".toList, "77".toList, none, none, none⟩
  caller := sampleBob
  req := ⟨"b".toList, noteRecord.id, true⟩

/-- Two texts that differ are told apart. -/
theorem find?_pair {α : Type} (a b : α) (text : α → Str) :
    ([a, b].find? fun m => text a == text m) = some a ∧
      (text b ≠ text a → ([a, b].find? fun m => text b == text m) = some b) := by
  constructor
  · exact List.find?_cons_of_pos (beq_self_eq_true _)
  · intro hne
    rw [List.find?_cons_of_neg (by simpa using hne)]
    exact List.find?_cons_of_pos (beq_self_eq_true _)

theorem noteToml_toString (m : InboundFrontmatter) : noteToml.toString m = markedText m := by
  simp only [noteToml]

theorem noteToml_fromStr (s : Str) : noteToml.fromStr s =
    [noteMarked, noteRecord].find? fun m => s == trim ('\n' :: markedText m) := by
  simp only [noteToml]

/-- What is printed ends with a line feed. -/
theorem markedText_newline (m : InboundFrontmatter) : ∃ s, markedText m = s ++ ['\n'] := by
  unfold markedText
  cases m.readAt with
  | none =>
      have hread : ∃ s, Ingest.readLine m.read = s ++ ['\n'] := ⟨_, rfl⟩
      obtain ⟨s, hs⟩ := hread
      refine ⟨sampleBefore m.subject ++ s, ?_⟩
      rw [hs, List.append_nil, List.append_assoc]
  | some now =>
      have hquote : "\"\n".toList = "\"".toList ++ ['\n'] := by decide
      dsimp only
      rw [hquote, ← List.append_assoc, ← List.append_assoc]
      exact ⟨_, rfl⟩

theorem noteToml_undoesPrint {m : InboundFrontmatter}
    (hparse : ([noteMarked, noteRecord].find? fun m' =>
      trim ('\n' :: markedText m) == trim ('\n' :: markedText m')) = some m)
    (hplus : ¬"+++".toList <:+: markedText m) :
    UndoesPrint noteToml m where
  parse := by
    rw [noteToml_fromStr, noteToml_toString]
    exact hparse
  newline := by
    rw [noteToml_toString]
    exact markedText_newline m
  cut := by
    intro block rest heq
    rw [noteToml_toString] at heq
    exact absurd ⟨block, rest, heq.symm⟩ hplus

theorem noteRecord_noPlus : ¬"+++".toList <:+: markedText noteRecord := by decide +kernel

theorem noteMarked_noPlus : ¬"+++".toList <:+: markedText noteMarked := by decide +kernel

theorem noteRecord_undoesPrint : UndoesPrint noteToml noteRecord := by
  have hne : trim ('\n' :: markedText noteRecord) ≠ trim ('\n' :: markedText noteMarked) := by
    decide +kernel
  exact noteToml_undoesPrint
    ((find?_pair noteMarked noteRecord fun m => trim ('\n' :: markedText m)).2 hne) noteRecord_noPlus

theorem noteMarked_undoesPrint : UndoesPrint noteToml noteMarked :=
  noteToml_undoesPrint
    (find?_pair noteMarked noteRecord fun m => trim ('\n' :: markedText m)).1 noteMarked_noPlus

/-- The request that takes the mark back. -/
def noteUnread : MarkRound :=
  { noteRound with req := { noteRound.req with read := false } }

theorem noteRound_marks : MarksMessage noteToml "b".toList noteRecord.id noteRound := ⟨rfl, rfl, rfl⟩

theorem noteUnread_marks : MarksMessage noteToml "b".toList noteRecord.id noteUnread := ⟨rfl, rfl, rfl⟩

/-- Either request succeeds on either record. -/
theorem noteMark_succeeds {r : MarkRound} {m : InboundFrontmatter} (hr : r = noteRound ∨ r = noteUnread)
    (hplus : ¬"+++".toList <:+: markedText m) :
    r.Succeeds noteWorld.memory (noteToml.toString m) := by
  rw [noteToml_toString]
  rcases hr with rfl | rfl
  · exact ⟨by decide +kernel, hplus, rfl, rfl, rfl⟩
  · exact ⟨by decide +kernel, hplus, rfl, rfl, rfl⟩

end Daemon
end Aimx
