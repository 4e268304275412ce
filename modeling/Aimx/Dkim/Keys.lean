import Aimx.Text.Str

/-!
# The files of the DKIM key

`generate_keypair` writes `private.key` and `public.key` one after the other, in place of the files that
`--force` has removed before.  Its callers are `dkim-keygen` and `setup`, which then read the public key
for the DNS record.  Every call to the file system may fail.

* `generateKeypair`, `runKeygen`, `setupDkim` — the functions of the source;
* `Matching`, `Recovers`, `KeysKept` — what is asked of a run of such calls;
* `generateKeypair_absent_iff` — one generation, from no files;
* `generateKeypair_pair_safe`, `generateKeypair_pair_unsafe` — one generation, from a pair;
* `keysKept_iff` — the runs that keep the files matching.
-/

namespace Aimx
namespace Dkim

open Text

/-! ## Keys and files -/

/-- The keys, numbered in the order in which they are generated: the two files of a key, and the base64
text of a public key file.  No file is the beginning of the file of another key. -/
structure KeyScheme where
  privatePem : Nat → Bytes
  publicPem : Nat → Bytes
  privatePem_prefix : ∀ {j k}, privatePem j <+: privatePem k → j = k
  publicPem_prefix : ∀ {j k}, publicPem j <+: publicPem k → j = k
  spki : Bytes → Except Str Str
  spkiOf : Nat → Str
  spki_publicPem : ∀ k, spki (publicPem k) = .ok (spkiOf k)

/-- The two files below the directory of the key. -/
structure KeyFiles where
  privateKey : Option Bytes
  publicKey : Option Bytes
  deriving DecidableEq

/-- No files. -/
def KeyFiles.absent : KeyFiles := ⟨none, none⟩

/-- The files of a key. -/
def KeyScheme.pair (scheme : KeyScheme) (k : Nat) : KeyFiles :=
  ⟨some (scheme.privatePem k), some (scheme.publicPem k)⟩

/-- `std::io::Error`. -/
structure IoError where
  permissionDenied : Bool
  text : Str
  deriving DecidableEq

/-- The error of `create_new` on a file that exists. -/
def alreadyExists : IoError := ⟨false, "File exists (os error 17)".toList⟩

/-- How `write_file_with_mode` may fail: the file is not created, or it holds the first bytes only when the
write or the sync behind it fails. -/
inductive WriteFault
  | notCreated (e : IoError)
  | cut (written : Nat) (e : IoError)
  deriving DecidableEq

/-- What fails during one call: each look whether a file exists, the directories, the removals, the
writes, and the reading of the public key. -/
structure Faults where
  callerLooks : Bool
  setupMkdir : Option IoError
  looks : Bool
  mkdir : Option IoError
  looksForPrivate : Bool
  removePrivate : Option IoError
  looksForPublic : Bool
  removePublic : Option IoError
  writePrivate : Option WriteFault
  writePublic : Option WriteFault
  readPublic : Bool
  deriving DecidableEq

/-- Nothing fails. -/
def Faults.none : Faults :=
  ⟨true, .none, true, .none, true, .none, true, .none, .none, .none, true⟩

/-! ## The functions of the source -/

/-- `wrap_dkim_write_error`. -/
def wrapDkimWriteError (root : Str) (e : IoError) : Str :=
  if e.permissionDenied then
    "Permission denied writing to ".toList ++ root ++
      ". Run `sudo aimx dkim-keygen`, or set `AIMX_CONFIG_DIR=<writable-path>` ".toList ++
      "and rerun `aimx dkim-keygen` for development.".toList
  else e.text

/-- `write_file_with_mode`: a file that exists stays as it is. -/
def writeFileWithMode (bytes : Bytes) (fault : Option WriteFault) (file : Option Bytes) :
    Option Bytes × Except IoError Unit :=
  match file, fault with
  | some old, _ => (some old, .error alreadyExists)
  | none, some (.notCreated e) => (none, .error e)
  | none, some (.cut written e) => (some (bytes.take written), .error e)
  | none, none => (some bytes, .ok ())

/-- `remove_file` on a file that was found. -/
def removeIfFound (found : Bool) (fault : Option IoError) (file : Option Bytes) :
    Option Bytes × Except IoError Unit :=
  if file.isSome && found then
    match fault with
    | some e => (file, .error e)
    | none => (none, .ok ())
  else (file, .ok ())

/-- The removal of both files with `force`. -/
def removeBoth (f : Faults) (files : KeyFiles) : KeyFiles × Except IoError Unit :=
  match removeIfFound f.looksForPrivate f.removePrivate files.privateKey with
  | (privateKey, .error e) => (⟨privateKey, files.publicKey⟩, .error e)
  | (privateKey, .ok ()) =>
      match removeIfFound f.looksForPublic f.removePublic files.publicKey with
      | (publicKey, result) => (⟨privateKey, publicKey⟩, result)

/-- The files of a new key written one after the other. -/
def writeBoth (scheme : KeyScheme) (k : Nat) (f : Faults) (files : KeyFiles) :
    KeyFiles × Except IoError Unit :=
  match writeFileWithMode (scheme.privatePem k) f.writePrivate files.privateKey with
  | (privateKey, .error e) => (⟨privateKey, files.publicKey⟩, .error e)
  | (privateKey, .ok ()) =>
      match writeFileWithMode (scheme.publicPem k) f.writePublic files.publicKey with
      | (publicKey, result) => (⟨privateKey, publicKey⟩, result)

/-- `generate_keypair`, where the next key is `k`. -/
def generateKeypair (scheme : KeyScheme) (root : Str) (k : Nat) (force : Bool) (f : Faults)
    (files : KeyFiles) : KeyFiles × Except Str Unit :=
  if files.privateKey.isSome && f.looks && !force then
    (files, .error "DKIM keys already exist. Use --force to overwrite.".toList)
  else
    match f.mkdir with
    | some e => (files, .error (wrapDkimWriteError root e))
    | none =>
        match if force then removeBoth f files else (files, .ok ()) with
        | (files, .error e) => (files, .error (wrapDkimWriteError root e))
        | (files, .ok ()) =>
            match writeBoth scheme k f files with
            | (files, .error e) => (files, .error (wrapDkimWriteError root e))
            | (files, .ok ()) => (files, .ok ())

/-- `dns_record_value`. -/
def dnsRecordValue (scheme : KeyScheme) (readable : Bool) (files : KeyFiles) : Except Str Str :=
  match if readable then files.publicKey else none with
  | none => .error "DKIM public key not found. Run `aimx dkim-keygen` first.".toList
  | some pem => do
      let b64 ← scheme.spki pem
      return "v=DKIM1; k=rsa; p=".toList ++ b64

/-- Where a command ends: the files, the result of `generate_keypair` if it was called, and the DNS
record. -/
structure CallEnd where
  files : KeyFiles
  generated : Option (Except Str Unit)
  record : Except Str Str

/-- The end of a command behind a generation. -/
def CallEnd.ofGenerated (scheme : KeyScheme) (readable : Bool) (g : KeyFiles × Except Str Unit) : CallEnd :=
  match g.2 with
  | .error e => ⟨g.1, some g.2, .error e⟩
  | .ok () => ⟨g.1, some g.2, dnsRecordValue scheme readable g.1⟩

/-- `run_keygen`. -/
def runKeygen (scheme : KeyScheme) (root : Str) (k : Nat) (force : Bool) (f : Faults)
    (files : KeyFiles) : CallEnd :=
  if files.privateKey.isSome && f.callerLooks && !force then
    ⟨files, none, dnsRecordValue scheme f.readPublic files⟩
  else .ofGenerated scheme f.readPublic (generateKeypair scheme root k force f files)

/-- The step of `run_setup` that makes the key. -/
def setupDkim (scheme : KeyScheme) (root : Str) (k : Nat) (f : Faults) (files : KeyFiles) : CallEnd :=
  if files.privateKey.isSome && f.callerLooks then
    ⟨files, none, dnsRecordValue scheme f.readPublic files⟩
  else
    match f.setupMkdir with
    | some e => ⟨files, none, .error e.text⟩
    | none => .ofGenerated scheme f.readPublic (generateKeypair scheme root k false f files)

/-- A command that may make keys. -/
inductive Call
  | keygen (force : Bool)
  | setup
  deriving DecidableEq

/-- A command on the files. -/
def Call.run (scheme : KeyScheme) (root : Str) (k : Nat) (f : Faults) (files : KeyFiles) : Call → CallEnd
  | .keygen force => runKeygen scheme root k force f files
  | .setup => setupDkim scheme root k f files

/-! ## What is asked of a run -/

/-- Both files are absent, or they are the halves of one pair. -/
def Matching (scheme : KeyScheme) (files : KeyFiles) : Prop :=
  files = .absent ∨ ∃ k, files = scheme.pair k

/-- Every command without failures ends with a pair and the DNS record of its key. -/
def Recovers (scheme : KeyScheme) (root : Str) (k : Nat) (files : KeyFiles) : Prop :=
  ∀ call : Call, ∃ key, (call.run scheme root k .none files).files = scheme.pair key ∧
    (call.run scheme root k .none files).record = .ok ("v=DKIM1; k=rsa; p=".toList ++ scheme.spkiOf key)

/-- What is asked of one command. -/
structure CallKeeps (scheme : KeyScheme) (root : Str) (k : Nat) (files : KeyFiles) (e : CallEnd) : Prop where
  matching : Matching scheme e.files
  kept : ∀ key, files = scheme.pair key → ∀ text, e.generated = some (.error text) → e.files = files
  recovers : Recovers scheme root (k + 1) e.files

/-- What is asked of a run of commands, each with its failures, where the next key is `k`. -/
def KeysKept (scheme : KeyScheme) (root : Str) : Nat → KeyFiles → List (Call × Faults) → Prop
  | _, _, [] => True
  | k, files, (call, f) :: rest =>
      CallKeeps scheme root k files (call.run scheme root k f files) ∧
        KeysKept scheme root (k + 1) (call.run scheme root k f files).files rest

/-! ## When it holds -/

/-- The public key file is created with all its bytes, also if the sync behind it fails. -/
def PublicWhole (scheme : KeyScheme) (k : Nat) : Option WriteFault → Prop
  | none => True
  | some (.notCreated _) => False
  | some (.cut written _) => (scheme.publicPem k).length ≤ written

/-- The private key file is not created. -/
def PrivateNotCreated : Option WriteFault → Prop
  | some (.notCreated _) => True
  | _ => False

/-- A generation where there are no files: it fails before it creates one, or both are written. -/
def SafeFromAbsent (scheme : KeyScheme) (k : Nat) (f : Faults) : Prop :=
  f.mkdir.isSome ∨ PrivateNotCreated f.writePrivate ∨
    f.writePrivate = none ∧ PublicWhole scheme k f.writePublic

/-- A forced generation removes nothing: a removal fails before another succeeds, or no file is found. -/
def NothingRemoved (f : Faults) : Prop :=
  match f.looksForPrivate with
  | true => f.removePrivate.isSome
  | false => f.looksForPublic = false ∨ f.removePublic.isSome

/-- Every step of a forced generation succeeds. -/
structure NothingFails (f : Faults) : Prop where
  looksForPrivate : f.looksForPrivate = true
  removePrivate : f.removePrivate = none
  looksForPublic : f.looksForPublic = true
  removePublic : f.removePublic = none
  writePrivate : f.writePrivate = none
  writePublic : f.writePublic = none

/-- A forced generation over a pair: it fails before it removes a file, or it does not fail at all. -/
def SafeFromPair (f : Faults) : Prop := f.mkdir.isSome ∨ NothingRemoved f ∨ NothingFails f

/-- The failures under which a command keeps the files matching. -/
def Call.Safe (scheme : KeyScheme) (k : Nat) (f : Faults) (files : KeyFiles) : Call → Prop
  | .keygen force =>
      if files.privateKey.isSome then force = false ∨ SafeFromPair f else SafeFromAbsent scheme k f
  | .setup => files.privateKey.isSome ∨ f.setupMkdir.isSome ∨ SafeFromAbsent scheme k f

/-- Every command of a run is safe where it is run. -/
def RunSafe (scheme : KeyScheme) (root : Str) : Nat → KeyFiles → List (Call × Faults) → Prop
  | _, _, [] => True
  | k, files, (call, f) :: rest =>
      call.Safe scheme k f files ∧
        RunSafe scheme root (k + 1) (call.run scheme root k f files).files rest

/-! ## One generation -/

section Generation

variable (scheme : KeyScheme) (root : Str) {j k : Nat} {f : Faults}

theorem KeyScheme.privatePem_injective : Function.Injective scheme.privatePem := fun _ _ h =>
  scheme.privatePem_prefix (h ▸ List.prefix_rfl)

theorem KeyScheme.publicPem_injective : Function.Injective scheme.publicPem := fun _ _ h =>
  scheme.publicPem_prefix (h ▸ List.prefix_rfl)

/-- A private key file alone is no pair, and neither is a public key file. -/
theorem not_matching_private (bytes : Bytes) : ¬ Matching scheme ⟨some bytes, none⟩ := by
  rintro (h | ⟨key, h⟩)
  · cases h
  · cases h

theorem not_matching_public (bytes : Bytes) : ¬ Matching scheme ⟨none, some bytes⟩ := by
  rintro (h | ⟨key, h⟩)
  · cases h
  · cases h

/-- The files of two keys are no pair. -/
theorem not_matching_mixed (h : j ≠ k) :
    ¬ Matching scheme ⟨some (scheme.privatePem k), some (scheme.publicPem j)⟩ := by
  rintro (hfiles | ⟨key, hfiles⟩)
  · cases hfiles
  · simp only [KeyScheme.pair, KeyFiles.mk.injEq, Option.some.injEq] at hfiles
    obtain rfl := scheme.privatePem_injective hfiles.1
    exact h (scheme.publicPem_injective hfiles.2)

/-- The first bytes of a file are those of no other key, and of the key itself only if they are all. -/
theorem eq_of_take_privatePem {written : Nat}
    (h : (scheme.privatePem k).take written = scheme.privatePem j) : j = k :=
  scheme.privatePem_prefix (h ▸ List.take_prefix written _)

theorem le_of_take_publicPem {written : Nat}
    (h : (scheme.publicPem k).take written = scheme.publicPem k) : (scheme.publicPem k).length ≤ written := by
  have hlen := congrArg List.length h
  rw [List.length_take] at hlen
  omega

/-- Writing both files where there are none. -/
theorem writeBoth_absent_iff :
    Matching scheme (writeBoth scheme k f .absent).1 ↔
      PrivateNotCreated f.writePrivate ∨ f.writePrivate = none ∧ PublicWhole scheme k f.writePublic := by
  unfold writeBoth writeFileWithMode KeyFiles.absent
  cases hprivate : f.writePrivate with
  | none =>
      cases hpublic : f.writePublic with
      | none => exact iff_of_true (.inr ⟨k, rfl⟩) (.inr ⟨rfl, trivial⟩)
      | some fault =>
          cases fault with
          | notCreated e =>
              refine iff_of_false (not_matching_private scheme _) ?_
              rintro (h | ⟨-, h⟩) <;> exact h
          | cut written e =>
              constructor
              · rintro (h | ⟨key, h⟩)
                · cases h
                · simp only [KeyScheme.pair, KeyFiles.mk.injEq, Option.some.injEq] at h
                  obtain rfl := scheme.privatePem_injective h.1
                  exact .inr ⟨rfl, le_of_take_publicPem scheme h.2⟩
              · rintro (h | ⟨-, h⟩)
                · exact absurd h id
                · refine .inr ⟨k, ?_⟩
                  dsimp only
                  rw [List.take_of_length_le h]
                  rfl
  | some fault =>
      cases fault with
      | notCreated e => exact iff_of_true (.inl rfl) (.inl trivial)
      | cut written e =>
          refine iff_of_false (not_matching_private scheme _) ?_
          rintro (h | ⟨h, -⟩)
          · exact h
          · cases h

/-- What is written then is nothing or the pair of the new key. -/
theorem writeBoth_absent_eq
    (h : PrivateNotCreated f.writePrivate ∨ f.writePrivate = none ∧ PublicWhole scheme k f.writePublic) :
    (writeBoth scheme k f .absent).1 = .absent ∨ (writeBoth scheme k f .absent).1 = scheme.pair k := by
  rcases (writeBoth_absent_iff scheme).mpr h with habsent | ⟨key, hkey⟩
  · exact .inl habsent
  · right
    -- the private key file that was written is that of the new key
    unfold writeBoth writeFileWithMode KeyFiles.absent at hkey ⊢
    rcases h with h | ⟨hprivate, hpublic⟩
    · match hprivate : f.writePrivate with
      | none => rw [hprivate] at h; exact absurd h id
      | some (.notCreated e) =>
          rw [hprivate] at hkey
          cases hkey
      | some (.cut written e) => rw [hprivate] at h; exact absurd h id
    · rw [hprivate] at hkey ⊢
      dsimp only at hkey ⊢
      have hfirst := congrArg KeyFiles.privateKey hkey
      simp only [KeyScheme.pair, Option.some.injEq] at hfirst
      have hk := scheme.privatePem_injective hfirst
      rw [hkey, ← hk]

/-- A generation that finds no files. -/
theorem generateKeypair_absent (force : Bool) :
    (generateKeypair scheme root k force f .absent).1 =
      if f.mkdir.isSome then .absent else (writeBoth scheme k f .absent).1 := by
  have hremove : (if force then removeBoth f KeyFiles.absent else (KeyFiles.absent, .ok ())) =
      (KeyFiles.absent, .ok ()) := by
    cases force <;> rfl
  unfold generateKeypair
  rw [if_neg (by simp [KeyFiles.absent])]
  cases f.mkdir with
  | some e => rfl
  | none =>
      dsimp only
      rw [hremove, if_neg (by simp)]
      dsimp only
      cases writeBoth scheme k f KeyFiles.absent with
      | mk files result => cases result <;> rfl

/-- **A generation where there are no files.** -/
theorem generateKeypair_absent_iff (force : Bool) :
    Matching scheme (generateKeypair scheme root k force f .absent).1 ↔ SafeFromAbsent scheme k f := by
  rw [generateKeypair_absent]
  unfold SafeFromAbsent
  by_cases hmkdir : f.mkdir.isSome
  · rw [if_pos hmkdir]
    exact iff_of_true (.inl rfl) (.inl hmkdir)
  · rw [if_neg hmkdir, writeBoth_absent_iff]
    simp [hmkdir]

theorem generateKeypair_absent_eq (force : Bool) (h : SafeFromAbsent scheme k f) :
    (generateKeypair scheme root k force f .absent).1 = .absent ∨
      (generateKeypair scheme root k force f .absent).1 = scheme.pair k := by
  rw [generateKeypair_absent]
  by_cases hmkdir : f.mkdir.isSome
  · rw [if_pos hmkdir]
    exact .inl rfl
  · rw [if_neg hmkdir]
    exact writeBoth_absent_eq scheme (h.resolve_left hmkdir)

/-- Without `force` a pair stays, also if it is not found. -/
theorem generateKeypair_pair_kept :
    (generateKeypair scheme root k false f (scheme.pair j)).1 = scheme.pair j := by
  unfold generateKeypair
  split
  · rfl
  · cases f.mkdir with
    | some e => rfl
    | none => rfl

/-- A forced generation over a pair, once the directory is there. -/
theorem generateKeypair_pair_force (hmkdir : f.mkdir = none) :
    generateKeypair scheme root k true f (scheme.pair j) =
      match removeBoth f (scheme.pair j) with
      | (files, .error e) => (files, .error (wrapDkimWriteError root e))
      | (files, .ok ()) =>
          match writeBoth scheme k f files with
          | (files, .error e) => (files, .error (wrapDkimWriteError root e))
          | (files, .ok ()) => (files, .ok ()) := by
  unfold generateKeypair
  rw [if_neg (by simp), hmkdir]
  rfl

/-- A removal that leaves a pair as it is. -/
theorem removeBoth_of_nothingRemoved (h : NothingRemoved f) :
    (∃ e, removeBoth f (scheme.pair j) = (scheme.pair j, .error e)) ∨
      f.looksForPrivate = false ∧ removeBoth f (scheme.pair j) = (scheme.pair j, .ok ()) := by
  unfold NothingRemoved at h
  unfold removeBoth removeIfFound KeyScheme.pair
  cases hprivate : f.looksForPrivate with
  | true =>
      rw [hprivate] at h
      obtain ⟨e, he⟩ := Option.isSome_iff_exists.mp h
      exact .inl ⟨e, by simp [he]⟩
  | false =>
      rw [hprivate] at h
      dsimp only at h
      cases hpublic : f.looksForPublic with
      | false => exact .inr ⟨rfl, by simp⟩
      | true =>
          rw [hpublic] at h
          obtain ⟨e, he⟩ := Option.isSome_iff_exists.mp (h.resolve_left (by simp))
          exact .inl ⟨e, by simp [he]⟩

/-- A safe forced generation leaves the pair as it is, or puts a new one in its place. -/
theorem generateKeypair_pair_safe (h : SafeFromPair f) :
    (generateKeypair scheme root k true f (scheme.pair j)).1 = scheme.pair j ∨
      (generateKeypair scheme root k true f (scheme.pair j)).1 = scheme.pair k ∧
        (generateKeypair scheme root k true f (scheme.pair j)).2 = .ok () := by
  cases hmkdir : f.mkdir with
  | some e =>
      left
      unfold generateKeypair
      rw [if_neg (by simp), hmkdir]
  | none =>
      rw [generateKeypair_pair_force scheme root hmkdir]
      rcases h with h | h | h
      · simp [hmkdir] at h
      · left
        rcases removeBoth_of_nothingRemoved scheme (j := j) h with ⟨e, he⟩ | ⟨-, he⟩
        · rw [he]
        · -- the private key file is in the way of the new one
          rw [he]
          rfl
      · right
        simp [removeBoth, removeIfFound, writeBoth, writeFileWithMode, KeyScheme.pair, h.looksForPrivate,
          h.removePrivate, h.looksForPublic, h.removePublic, h.writePrivate, h.writePublic]

/-- An unsafe one leaves files that do not match, or fails behind the removal of the pair. -/
theorem generateKeypair_pair_unsafe (hjk : j ≠ k) (h : ¬ SafeFromPair f) :
    ¬ (Matching scheme (generateKeypair scheme root k true f (scheme.pair j)).1 ∧
      ∀ text, (generateKeypair scheme root k true f (scheme.pair j)).2 = .error text →
        (generateKeypair scheme root k true f (scheme.pair j)).1 = scheme.pair j) := by
  unfold SafeFromPair at h
  rw [not_or, not_or] at h
  obtain ⟨hmkdir, hremoved, hfails⟩ := h
  rw [generateKeypair_pair_force scheme root (by simpa using hmkdir)]
  rintro ⟨hmatch, hkept⟩
  unfold NothingRemoved at hremoved
  cases hlooksPrivate : f.looksForPrivate with
  | false =>
      -- only the public key file is removed
      rw [hlooksPrivate, not_or] at hremoved
      have hpublic : f.looksForPublic = true := by simpa using hremoved.1
      have hremove : f.removePublic = none := by simpa using hremoved.2
      refine not_matching_private scheme (scheme.privatePem j) ?_
      simpa [removeBoth, removeIfFound, writeBoth, writeFileWithMode, KeyScheme.pair, hlooksPrivate, hpublic,
        hremove] using hmatch
  | true =>
      rw [hlooksPrivate] at hremoved
      have hremovePrivate : f.removePrivate = none := by simpa using hremoved
      by_cases hboth : f.looksForPublic = true ∧ f.removePublic = none
      · -- both files are removed, so the new pair must be complete
        obtain ⟨hpublic, hremovePublic⟩ := hboth
        have hremove : removeBoth f (scheme.pair j) = (.absent, .ok ()) := by
          simp [removeBoth, removeIfFound, KeyScheme.pair, KeyFiles.absent, hlooksPrivate, hremovePrivate,
            hpublic, hremovePublic]
        rw [hremove] at hmatch hkept
        dsimp only at hmatch hkept
        cases hwrite : writeBoth scheme k f .absent with
        | mk files result =>
            rw [hwrite] at hmatch hkept
            cases result with
            | error e =>
                have hfiles := hkept _ rfl
                dsimp only at hfiles
                have hsafe := (writeBoth_absent_iff scheme (k := k) (f := f)).mp
                  (by rw [hwrite]; exact hmatch)
                rcases writeBoth_absent_eq scheme hsafe with heq | heq
                · rw [hwrite, hfiles] at heq
                  cases heq
                · rw [hwrite, hfiles] at heq
                  have hprivate := congrArg KeyFiles.privateKey heq
                  simp only [KeyScheme.pair, Option.some.injEq] at hprivate
                  exact hjk (scheme.privatePem_injective hprivate)
            | ok done =>
                refine hfails ⟨hlooksPrivate, hremovePrivate, hpublic, hremovePublic, ?_, ?_⟩
                · cases hprivate : f.writePrivate with
                  | none => rfl
                  | some fault =>
                      cases fault <;>
                        simp [writeBoth, writeFileWithMode, KeyFiles.absent, hprivate] at hwrite
                · cases hprivate : f.writePrivate with
                  | some fault =>
                      cases fault <;>
                        simp [writeBoth, writeFileWithMode, KeyFiles.absent, hprivate] at hwrite
                  | none =>
                      cases hpublic : f.writePublic with
                      | none => rfl
                      | some fault =>
                          cases fault <;>
                            simp [writeBoth, writeFileWithMode, KeyFiles.absent, hprivate, hpublic] at hwrite
      · -- the old public key file stays, next to the new private key file or to none
        have hstays : ∃ result, removeBoth f (scheme.pair j) =
            (⟨none, some (scheme.publicPem j)⟩, result) := by
          cases hpublic : f.looksForPublic with
          | false => exact ⟨.ok (), by simp [removeBoth, removeIfFound, KeyScheme.pair, hlooksPrivate,
              hremovePrivate, hpublic]⟩
          | true =>
              cases hremovePublic : f.removePublic with
              | none => exact absurd ⟨hpublic, hremovePublic⟩ hboth
              | some e => exact ⟨.error e, by simp [removeBoth, removeIfFound, KeyScheme.pair, hlooksPrivate,
                  hremovePrivate, hpublic, hremovePublic]⟩
        obtain ⟨result, hremove⟩ := hstays
        rw [hremove] at hmatch hkept
        cases result with
        | error e => exact not_matching_public scheme _ hmatch
        | ok done =>
            cases hprivate : f.writePrivate with
            | none =>
                refine not_matching_mixed scheme hjk ?_
                simpa [writeBoth, writeFileWithMode, hprivate] using hmatch
            | some fault =>
                cases fault with
                | notCreated e =>
                    refine not_matching_public scheme (scheme.publicPem j) ?_
                    simpa [writeBoth, writeFileWithMode, hprivate] using hmatch
                | cut written e =>
                    have hfiles := hkept (wrapDkimWriteError root e)
                      (by simp [writeBoth, writeFileWithMode, hprivate])
                    simp only [writeBoth, writeFileWithMode, hprivate, KeyScheme.pair, KeyFiles.mk.injEq,
                      Option.some.injEq, and_true] at hfiles
                    exact hjk (eq_of_take_privatePem scheme hfiles)

end Generation

/-! ## Runs -/

section Runs

variable (scheme : KeyScheme) (root : Str) {k : Nat} {f : Faults} {files : KeyFiles}

@[simp] theorem CallEnd.ofGenerated_files (readable : Bool) (g : KeyFiles × Except Str Unit) :
    (CallEnd.ofGenerated scheme readable g).files = g.1 := by
  unfold CallEnd.ofGenerated
  cases g.2 <;> rfl

@[simp] theorem CallEnd.ofGenerated_generated (readable : Bool) (g : KeyFiles × Except Str Unit) :
    (CallEnd.ofGenerated scheme readable g).generated = some g.2 := by
  unfold CallEnd.ofGenerated
  cases g.2 <;> rfl

theorem dnsRecordValue_pair (key : Nat) : dnsRecordValue scheme true (scheme.pair key) =
    .ok ("v=DKIM1; k=rsa; p=".toList ++ scheme.spkiOf key) := by
  show (scheme.spki (scheme.publicPem key) >>= fun b64 => pure ("v=DKIM1; k=rsa; p=".toList ++ b64)) = _
  rw [scheme.spki_publicPem]
  rfl

/-- Without failures a generation ends with a pair, unless there is one already. -/
theorem generateKeypair_absent_none (force : Bool) :
    generateKeypair scheme root k force .none .absent = (scheme.pair k, .ok ()) := by
  cases force <;> rfl

theorem generateKeypair_pair_none (j : Nat) :
    generateKeypair scheme root k true .none (scheme.pair j) = (scheme.pair k, .ok ()) := rfl

/-- Matching files are a state that every command without failures ends well in. -/
theorem recovers_of_matching (h : Matching scheme files) : Recovers scheme root k files := by
  intro call
  rcases h with rfl | ⟨j, rfl⟩
  · refine ⟨k, ?_⟩
    cases call with
    | keygen force =>
        show (CallEnd.ofGenerated scheme true (generateKeypair scheme root k force .none .absent)).files = _ ∧
          (CallEnd.ofGenerated scheme true (generateKeypair scheme root k force .none .absent)).record = _
        rw [generateKeypair_absent_none]
        exact ⟨rfl, dnsRecordValue_pair scheme k⟩
    | setup =>
        show (CallEnd.ofGenerated scheme true (generateKeypair scheme root k false .none .absent)).files = _ ∧
          (CallEnd.ofGenerated scheme true (generateKeypair scheme root k false .none .absent)).record = _
        rw [generateKeypair_absent_none]
        exact ⟨rfl, dnsRecordValue_pair scheme k⟩
  · cases call with
    | keygen force =>
        cases force with
        | false => exact ⟨j, rfl, dnsRecordValue_pair scheme j⟩
        | true =>
            refine ⟨k, ?_⟩
            show (CallEnd.ofGenerated scheme true
                (generateKeypair scheme root k true .none (scheme.pair j))).files = _ ∧
              (CallEnd.ofGenerated scheme true
                (generateKeypair scheme root k true .none (scheme.pair j))).record = _
            rw [generateKeypair_pair_none]
            exact ⟨rfl, dnsRecordValue_pair scheme k⟩
    | setup => exact ⟨j, rfl, dnsRecordValue_pair scheme j⟩

/-- The files of a run: none, or those of a key that was generated before. -/
def Older (k : Nat) (files : KeyFiles) : Prop := files = .absent ∨ ∃ j < k, files = scheme.pair j

/-- A command that leaves matching files as they are. -/
theorem callKeeps_same {e : CallEnd} (h : Matching scheme files) (hfiles : e.files = files) :
    CallKeeps scheme root k files e where
  matching := hfiles ▸ h
  kept := fun _ _ _ _ => hfiles
  recovers := recovers_of_matching scheme root (hfiles ▸ h)

/-- A command that generates a key where there are no files. -/
theorem callKeeps_absent_iff (force readable : Bool) :
    CallKeeps scheme root k .absent
        (.ofGenerated scheme readable (generateKeypair scheme root k force f .absent)) ↔
      SafeFromAbsent scheme k f := by
  rw [← generateKeypair_absent_iff scheme root force]
  constructor
  · intro h
    have hmatch := h.matching
    rwa [CallEnd.ofGenerated_files] at hmatch
  · intro h
    refine
      { matching := ?_
        kept := ?_
        recovers := ?_ }
    · rwa [CallEnd.ofGenerated_files]
    · intro key hkey
      cases hkey
    · rw [CallEnd.ofGenerated_files]
      exact recovers_of_matching scheme root h

/-- A command that generates a key over a pair. -/
theorem callKeeps_pair_iff {j : Nat} (hjk : j ≠ k) (readable : Bool) :
    CallKeeps scheme root k (scheme.pair j)
        (.ofGenerated scheme readable (generateKeypair scheme root k true f (scheme.pair j))) ↔
      SafeFromPair f := by
  constructor
  · intro h
    by_contra hunsafe
    refine generateKeypair_pair_unsafe scheme root hjk hunsafe ⟨?_, fun text htext => ?_⟩
    · have hmatch := h.matching
      rwa [CallEnd.ofGenerated_files] at hmatch
    · have hkept := h.kept j rfl text (by rw [CallEnd.ofGenerated_generated, htext])
      rwa [CallEnd.ofGenerated_files] at hkept
  · intro h
    rcases generateKeypair_pair_safe scheme root (j := j) (k := k) h with hsame | ⟨hnew, hok⟩
    · exact callKeeps_same scheme root (.inr ⟨j, rfl⟩) (by rw [CallEnd.ofGenerated_files, hsame])
    · refine
        { matching := ?_
          kept := ?_
          recovers := ?_ }
      · rw [CallEnd.ofGenerated_files]
        exact .inr ⟨k, hnew⟩
      · intro key _ text htext
        rw [CallEnd.ofGenerated_generated, hok] at htext
        cases htext
      · rw [CallEnd.ofGenerated_files]
        exact recovers_of_matching scheme root (.inr ⟨k, hnew⟩)

theorem runKeygen_force : runKeygen scheme root k true f files =
    .ofGenerated scheme f.readPublic (generateKeypair scheme root k true f files) := by
  unfold runKeygen
  rw [if_neg (by simp)]

/-- **One command.**  It keeps the files matching exactly under the failures for which it is safe. -/
theorem callKeeps_iff (h : Older scheme k files) (call : Call) :
    CallKeeps scheme root k files (call.run scheme root k f files) ↔ call.Safe scheme k f files := by
  rcases h with rfl | ⟨j, hjk, rfl⟩
  · cases call with
    | keygen force => exact callKeeps_absent_iff scheme root force f.readPublic
    | setup =>
        unfold Call.Safe Call.run setupDkim
        rw [if_neg (by simp [KeyFiles.absent])]
        cases f.setupMkdir with
        | some e =>
            exact iff_of_true (callKeeps_same scheme root (.inl rfl) rfl) (.inr (.inl rfl))
        | none =>
            dsimp only
            rw [callKeeps_absent_iff]
            simp [KeyFiles.absent]
  · have hpair : Matching scheme (scheme.pair j) := .inr ⟨j, rfl⟩
    cases call with
    | keygen force =>
        cases force with
        | true =>
            have hsafe : (Call.keygen true).Safe scheme k f (scheme.pair j) ↔ SafeFromPair f := by
              simp [Call.Safe, KeyScheme.pair]
            rw [hsafe, Call.run, runKeygen_force]
            exact callKeeps_pair_iff scheme root (Nat.ne_of_lt hjk) f.readPublic
        | false =>
            refine iff_of_true (callKeeps_same scheme root hpair ?_) (.inl rfl)
            show (runKeygen scheme root k false f (scheme.pair j)).files = scheme.pair j
            unfold runKeygen
            split
            · rfl
            · rw [CallEnd.ofGenerated_files, generateKeypair_pair_kept]
    | setup =>
        refine iff_of_true (callKeeps_same scheme root hpair ?_) (.inl rfl)
        show (setupDkim scheme root k f (scheme.pair j)).files = scheme.pair j
        unfold setupDkim
        split
        · rfl
        · cases f.setupMkdir with
          | some e => rfl
          | none =>
              dsimp only
              rw [CallEnd.ofGenerated_files, generateKeypair_pair_kept]

/-- A safe command leaves none or older files, or those of the new key. -/
theorem older_of_safe (h : Older scheme k files) (call : Call) (hsafe : call.Safe scheme k f files) :
    Older scheme (k + 1) (call.run scheme root k f files).files := by
  have hnew : Older scheme (k + 1) (scheme.pair k) := .inr ⟨k, Nat.lt_succ_self k, rfl⟩
  have habsent : ∀ force, SafeFromAbsent scheme k f →
      Older scheme (k + 1) (generateKeypair scheme root k force f .absent).1 := by
    intro force hsafe
    rcases generateKeypair_absent_eq scheme root force hsafe with heq | heq
    · exact .inl heq
    · rw [heq]
      exact hnew
  rcases h with rfl | ⟨j, hjk, rfl⟩
  · cases call with
    | keygen force =>
        show Older scheme (k + 1) (CallEnd.ofGenerated scheme f.readPublic
          (generateKeypair scheme root k force f .absent)).files
        rw [CallEnd.ofGenerated_files]
        exact habsent force hsafe
    | setup =>
        unfold Call.run setupDkim
        rw [if_neg (by simp [KeyFiles.absent])]
        cases hmkdir : f.setupMkdir with
        | some e => exact .inl rfl
        | none =>
            unfold Call.Safe at hsafe
            rw [hmkdir] at hsafe
            dsimp only
            rw [CallEnd.ofGenerated_files]
            exact habsent false (hsafe.resolve_left (by simp [KeyFiles.absent]) |>.resolve_left (by simp))
  · have hold : Older scheme (k + 1) (scheme.pair j) := .inr ⟨j, by omega, rfl⟩
    cases call with
    | keygen force =>
        cases force with
        | true =>
            rw [Call.run, runKeygen_force, CallEnd.ofGenerated_files]
            have hpair : SafeFromPair f := hsafe.resolve_left (by simp)
            rcases generateKeypair_pair_safe scheme root (j := j) (k := k) hpair with heq | ⟨heq, -⟩
            · rw [heq]
              exact hold
            · rw [heq]
              exact hnew
        | false =>
            show Older scheme (k + 1) (runKeygen scheme root k false f (scheme.pair j)).files
            unfold runKeygen
            split
            · exact hold
            · rw [CallEnd.ofGenerated_files, generateKeypair_pair_kept]
              exact hold
    | setup =>
        show Older scheme (k + 1) (setupDkim scheme root k f (scheme.pair j)).files
        unfold setupDkim
        split
        · exact hold
        · cases f.setupMkdir with
          | some e => exact hold
          | none =>
              dsimp only
              rw [CallEnd.ofGenerated_files, generateKeypair_pair_kept]
              exact hold

/-- A run from such files. -/
theorem keysKept_of_older (h : Older scheme k files) (steps : List (Call × Faults)) :
    KeysKept scheme root k files steps ↔ RunSafe scheme root k files steps := by
  induction steps generalizing k files with
  | nil => exact Iff.rfl
  | cons step rest ih =>
      obtain ⟨call, f⟩ := step
      rw [KeysKept, RunSafe, callKeeps_iff scheme root h call]
      refine and_congr_right fun hsafe => ?_
      exact ih (older_of_safe scheme root h call hsafe)

end Runs

/-- What the machine has before the first command: no files, or those of a key generated before. -/
inductive Start
  | absent
  | pair
  deriving DecidableEq

/-- The files at the start; the key that was generated before has number 0. -/
def Start.files (scheme : KeyScheme) : Start → KeyFiles
  | .absent => .absent
  | .pair => scheme.pair 0

/-- **The runs that keep the key files matching.** -/
theorem keysKept_iff (scheme : KeyScheme) (root : Str) (start : Start) (steps : List (Call × Faults)) :
    KeysKept scheme root 1 (start.files scheme) steps ↔
      RunSafe scheme root 1 (start.files scheme) steps := by
  refine keysKept_of_older scheme root ?_ steps
  cases start with
  | absent => exact .inl rfl
  | pair => exact .inr ⟨0, Nat.zero_lt_one, rfl⟩

theorem eq_of_replicate_prefix {b : UInt8} (hb : b ≠ 0) {j k : Nat}
    (h : List.replicate j b ++ [0] <+: List.replicate k b ++ [0]) : j = k := by
  induction j generalizing k with
  | zero =>
      cases k with
      | zero => rfl
      | succ k =>
          rw [List.replicate_succ, List.cons_append, List.replicate_zero, List.nil_append,
            List.cons_prefix_cons] at h
          exact absurd h.1.symm hb
  | succ j ih =>
      cases k with
      | zero =>
          rw [List.replicate_succ, List.cons_append, List.replicate_zero, List.nil_append,
            List.cons_prefix_cons] at h
          exact absurd h.1 hb
      | succ k =>
          rw [List.replicate_succ, List.replicate_succ, List.cons_append, List.cons_append,
            List.cons_prefix_cons] at h
          rw [ih h.2]

/-- Files with as many bytes as the number of the key, and a last one. -/
def sampleScheme : KeyScheme where
  privatePem := fun k => List.replicate k 1 ++ [0]
  publicPem := fun k => List.replicate k 2 ++ [0]
  privatePem_prefix := by
    intro j k h
    exact eq_of_replicate_prefix (by decide) h
  publicPem_prefix := by
    intro j k h
    exact eq_of_replicate_prefix (by decide) h
  spki := fun pem => .ok (List.replicate (pem.length - 1) 'A')
  spkiOf := fun k => List.replicate k 'A'
  spki_publicPem := by simp

/-- The public key file cannot be created when the key is replaced. -/
def diskFull : Faults :=
  { Faults.none with writePublic := some (.notCreated ⟨false, "No space left".toList⟩) }

/-- A forced generation that fails leaves a private key alone, and `setup` does not recover from it. -/
theorem not_keysKept_diskFull :
    ¬ KeysKept sampleScheme "/etc/aimx/dkim".toList 1 (Start.pair.files sampleScheme)
      [(.keygen true, diskFull)] ∧
    ((Call.keygen true).run sampleScheme "/etc/aimx/dkim".toList 1 diskFull
      (Start.pair.files sampleScheme)).files = ⟨some (sampleScheme.privatePem 1), none⟩ ∧
    (Call.setup.run sampleScheme "/etc/aimx/dkim".toList 2 .none
      ⟨some (sampleScheme.privatePem 1), none⟩).record =
        .error "DKIM public key not found. Run `aimx dkim-keygen` first.".toList := by
  refine ⟨?_, rfl, rfl⟩
  rintro ⟨hkeeps, -⟩
  exact not_matching_private sampleScheme (sampleScheme.privatePem 1) hkeeps.matching

end Dkim
end Aimx
