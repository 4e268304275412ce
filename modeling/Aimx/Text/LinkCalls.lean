import Aimx.Text.LinkTree

/-!
# Calls on a file system with links

Programs that make file-system calls one after another, each of which may fail from outside, with the
record of every file and directory that was opened, changed or removed and of the tree at that moment.

* `Access`, `Session`, `Calls` — what is recorded, the state of a program, and programs;
* `Ensures` — what a program records and how it ends, from any tree with a property;
* `Ensures.bind`, `Ensures.weaken`, `perform_ensures` — the rules;
* `readFile`, `createFile`, `rename`, `removeDirAll`, `createDirAll` … — the calls, with what each records.
-/

namespace Aimx
namespace Text
namespace LinkTree

/-- What is done at a place. -/
inductive AccessKind
  | read
  | list
  | write
  | chown
  | rename
  | remove
  | makeDir
  deriving DecidableEq

/-- A path as it was given, and the place it led to. -/
structure Access where
  kind : AccessKind
  path : List Str
  place : Place
  deriving DecidableEq

/-- The failure of a call from outside; one that removes a whole tree leaves some places. -/
structure Fault where
  text : Str
  left : Place → Bool

/-- The state of a program: the tree, which of the next calls fail, and what has been done. -/
structure Session where
  tree : LinkTree
  faults : List (Option Fault)
  log : List (LinkTree × Access)

/-- A program that makes calls. -/
def Calls (α : Type) : Type := Session → α × Session

instance : Monad Calls where
  pure a := fun s => (a, s)
  bind m k := fun s => k (m s).1 (m s).2

/-- What a call does when it succeeds. -/
structure Effect (α : Type) where
  value : α
  tree : LinkTree
  accesses : List Access

/-- The state behind an effect. -/
def Session.after {α : Type} (s : Session) (e : Effect α) : Session :=
  { tree := e.tree, faults := s.faults.tail, log := s.log ++ e.accesses.map fun a => (s.tree, a) }

/-- One call: `call` is what it does, `cut` what it has done when it fails from outside. -/
def performOr {α : Type} (cut : Fault → LinkTree → Effect Unit)
    (call : LinkTree → Except IoError (Effect α)) : Calls (Except IoError α) := fun s =>
  match s.faults.head? with
  | some (some fault) => (.error (.other fault.text), s.after (cut fault s.tree))
  | _ =>
      match call s.tree with
      | .error e => (.error e, { s with faults := s.faults.tail })
      | .ok effect => (.ok effect.value, s.after effect)

/-- One call that does nothing when it fails. -/
def perform {α : Type} (call : LinkTree → Except IoError (Effect α)) : Calls (Except IoError α) :=
  performOr (fun _ tree => ⟨(), tree, []⟩) call

/-- A call that asks what stands somewhere. -/
def ask {α : Type} (question : LinkTree → Except IoError α) : Calls (Except IoError α) :=
  perform fun tree => (question tree).map fun a => ⟨a, tree, []⟩

/-! ## What a program ensures -/

/-- From a tree with `before`, everything that the program does is `allowed`, and it ends as `after`
says. -/
def Ensures {α : Type} (before : LinkTree → Prop) (allowed : LinkTree → Access → Prop) (m : Calls α)
    (after : α → LinkTree → Prop) : Prop :=
  ∀ s : Session, before s.tree → ∃ new, (m s).2.log = s.log ++ new ∧
    (∀ e ∈ new, allowed e.1 e.2) ∧ after (m s).1 (m s).2.tree

section Rules

variable {α β : Type} {before before' : LinkTree → Prop} {allowed allowed' : LinkTree → Access → Prop}
  {m : Calls α} {after after' : α → LinkTree → Prop}

theorem Ensures.pure {a : α} (h : ∀ tree, before tree → after a tree) :
    Ensures before allowed (pure a) after := by
  intro s hs
  exact ⟨[], (List.append_nil _).symm, fun e he => (by cases he), h s.tree hs⟩

/-- One program after another. -/
theorem Ensures.bind {k : α → Calls β} {last : β → LinkTree → Prop}
    (hm : Ensures before allowed m after) (hk : ∀ a, Ensures (after a) allowed (k a) last) :
    Ensures before allowed (m >>= k) last := by
  intro s hs
  obtain ⟨first, hfirst, hallowed, hafter⟩ := hm s hs
  obtain ⟨second, hsecond, hallowed', hlast⟩ := hk (m s).1 (m s).2 hafter
  refine ⟨first ++ second, ?_, ?_, hlast⟩
  · show (k (m s).1 (m s).2).2.log = _
    rw [hsecond, hfirst, List.append_assoc]
  · intro e he
    rcases List.mem_append.mp he with he | he
    · exact hallowed e he
    · exact hallowed' e he

theorem Ensures.weaken (h : Ensures before allowed m after) (hbefore : ∀ tree, before' tree → before tree)
    (hallowed : ∀ tree a, allowed tree a → allowed' tree a)
    (hafter : ∀ a tree, after a tree → after' a tree) : Ensures before' allowed' m after' := by
  intro s hs
  obtain ⟨new, hlog, hnew, hend⟩ := h s (hbefore _ hs)
  exact ⟨new, hlog, fun e he => hallowed _ _ (hnew e he), hafter _ _ hend⟩

/-- Another program, whatever the first one leaves. -/
theorem Ensures.andThen {k : α → Calls β} {last : β → LinkTree → Prop}
    (hm : Ensures before allowed m fun _ _ => True)
    (hk : ∀ a, Ensures (fun _ => True) allowed (k a) last) : Ensures before allowed (m >>= k) last :=
  Ensures.bind hm hk

/-- From fewer trees. -/
theorem Ensures.restrict (before : LinkTree → Prop) (h : Ensures before allowed m after)
    (hbefore : ∀ tree, before' tree → before tree) : Ensures before' allowed m after :=
  fun s hs => h s (hbefore _ hs)

/-- A fact that does not depend on the tree. -/
theorem Ensures.given {p : Prop} (h : p → Ensures before allowed m after)
    (hp : ∀ tree, before tree → p) : Ensures before allowed m after :=
  fun s hs => h (hp _ hs) s hs

/-- The rule of a call. -/
theorem performOr_ensures {cut : Fault → LinkTree → Effect Unit}
    {call : LinkTree → Except IoError (Effect α)} {after : Except IoError α → LinkTree → Prop}
    (hok : ∀ tree, before tree → ∀ e, call tree = .ok e →
      (∀ a ∈ e.accesses, allowed tree a) ∧ after (.ok e.value) e.tree)
    (herror : ∀ tree, before tree → ∀ e, call tree = .error e → after (.error e) tree)
    (hcut : ∀ tree, before tree → ∀ fault,
      (∀ a ∈ (cut fault tree).accesses, allowed tree a) ∧
        after (.error (.other fault.text)) (cut fault tree).tree) :
    Ensures before allowed (performOr cut call) after := by
  intro s hs
  have hmap : ∀ accesses : List Access, (∀ a ∈ accesses, allowed s.tree a) →
      ∀ e ∈ accesses.map fun a => (s.tree, a), allowed e.1 e.2 := by
    intro accesses h e he
    obtain ⟨a, ha, rfl⟩ := List.mem_map.mp he
    exact h a ha
  unfold performOr
  split
  next fault hfault =>
      obtain ⟨haccesses, hafter⟩ := hcut s.tree hs fault
      exact ⟨_, rfl, hmap _ haccesses, hafter⟩
  next =>
      cases hcall : call s.tree with
      | error e =>
          exact ⟨[], (List.append_nil _).symm, fun e he => (by cases he), herror s.tree hs e hcall⟩
      | ok e =>
          obtain ⟨haccesses, hafter⟩ := hok s.tree hs e hcall
          exact ⟨_, rfl, hmap _ haccesses, hafter⟩

theorem perform_ensures {call : LinkTree → Except IoError (Effect α)}
    {after : Except IoError α → LinkTree → Prop}
    (hok : ∀ tree, before tree → ∀ e, call tree = .ok e →
      (∀ a ∈ e.accesses, allowed tree a) ∧ after (.ok e.value) e.tree)
    (herror : ∀ tree, before tree → ∀ e, (∃ text, e = .other text) ∨ call tree = .error e →
      after (.error e) tree) :
    Ensures before allowed (perform call) after := by
  refine performOr_ensures hok (fun tree h e he => herror tree h e (.inr he)) ?_
  intro tree h fault
  exact ⟨fun a ha => (by cases ha), herror tree h _ (.inl ⟨_, rfl⟩)⟩

/-- A question records nothing and changes nothing. -/
theorem ask_ensures {question : LinkTree → Except IoError α} :
    Ensures before allowed (ask question) fun r tree =>
      before tree ∧ ((∃ text, r = .error (.other text)) ∨ question tree = r) := by
  refine perform_ensures ?_ ?_
  · intro tree h e he
    cases hquestion : question tree with
    | error e' =>
        rw [hquestion] at he
        cases he
    | ok a =>
        rw [hquestion] at he
        cases he
        exact ⟨fun a ha => (by cases ha), h, .inr hquestion⟩
  · intro tree h e he
    refine ⟨h, ?_⟩
    rcases he with ⟨text, rfl⟩ | he
    · exact .inl ⟨text, rfl⟩
    · right
      cases hquestion : question tree with
      | error e' =>
          rw [hquestion] at he
          cases he
          rfl
      | ok a =>
          rw [hquestion] at he
          cases he

end Rules

/-! ## The calls -/

section Definitions

variable (path : List Str)

/-- `std::fs::symlink_metadata`. -/
def lstat : Calls (Except IoError Inode) := ask fun tree =>
  match tree.locate path with
  | .error e => .error e
  | .ok p => (tree.inode p).elim (.error .missing) .ok

/-- `std::fs::canonicalize`. -/
def canonicalize : Calls (Except IoError Place) := ask fun tree => tree.follow path

/-- `Path::exists`. -/
def pathExists : Calls Bool := do
  return (← ask fun tree => tree.follow path).isOk

/-- `Path::is_dir`. -/
def isDir : Calls Bool := do
  return (← ask fun tree =>
    (tree.follow path).bind fun p => if tree.inode p = some .dir then .ok () else .error .notDir).isOk

/-- `std::fs::read`. -/
def readFile : Calls (Except IoError Bytes) := perform fun tree =>
  match tree.follow path with
  | .error e => .error e
  | .ok p =>
      match tree.inode p with
      | some (.file content) => .ok ⟨content, tree, [⟨.read, path, p⟩]⟩
      | some (.special content) => .ok ⟨content, tree, [⟨.read, path, p⟩]⟩
      | some .dir => .error .isDir
      | some (.link _ _) => .error .loop
      | none => .error .missing

/-- `std::fs::read_dir`. -/
def readDir : Calls (Except IoError (List Str)) := perform fun tree =>
  match tree.follow path with
  | .error e => .error e
  | .ok p =>
      if tree.inode p = some .dir then .ok ⟨tree.names p, tree, [⟨.list, path, p⟩]⟩ else .error .notDir

/-- `File::create`, which gives the place that is written to. -/
def createFile : Calls (Except IoError Place) := perform fun tree =>
  match tree.followNew path with
  | .error e => .error e
  | .ok p =>
      match tree.inode p with
      | none => .ok ⟨p, tree.put p (.file []), [⟨.write, path, p⟩]⟩
      | some (.file _) => .ok ⟨p, tree.put p (.file []), [⟨.write, path, p⟩]⟩
      | some (.special _) => .ok ⟨p, tree, [⟨.write, path, p⟩]⟩
      | some .dir => .error .isDir
      | some (.link _ _) => .error .loop

/-- `write_all` on a file that was opened under the path at the place. -/
def writeAll (p : Place) (content : Bytes) : Calls (Except IoError Unit) := perform fun tree =>
  match tree.inode p with
  | some (.file _) => .ok ⟨(), tree.put p (.file content), [⟨.write, path, p⟩]⟩
  | some (.special _) => .ok ⟨(), tree, [⟨.write, path, p⟩]⟩
  | _ => .error (.other [])

/-- `std::fs::write`. -/
def writeFile (content : Bytes) : Calls (Except IoError Unit) := do
  match ← createFile path with
  | .error e => return .error e
  | .ok p => writeAll path p content

/-- `chown` or `chmod`. -/
def changeOwner : Calls (Except IoError Unit) := perform fun tree =>
  match tree.follow path with
  | .error e => .error e
  | .ok p => .ok ⟨(), tree, [⟨.chown, path, p⟩]⟩

/-- `std::fs::rename` of anything but a directory. -/
def renameFile (dst : List Str) : Calls (Except IoError Unit) := perform fun tree =>
  match tree.locate path, tree.locate dst with
  | .error e, _ => .error e
  | .ok _, .error e => .error e
  | .ok p, .ok q =>
      match tree.inode p with
      | none => .error .missing
      | some .dir => .error .isDir
      | some i =>
          if tree.inode q = some .dir then .error .isDir
          else .ok ⟨(), if p = q then tree else (tree.keep fun r => r != p).put q i,
            [⟨.rename, path, p⟩, ⟨.rename, dst, q⟩]⟩

/-- `std::fs::remove_file`. -/
def removeFile : Calls (Except IoError Unit) := perform fun tree =>
  match tree.locate path with
  | .error e => .error e
  | .ok p =>
      match tree.inode p with
      | none => .error .missing
      | some .dir => .error .isDir
      | some _ => .ok ⟨(), tree.keep fun q => q != p, [⟨.remove, path, p⟩]⟩

/-- `std::fs::remove_dir`. -/
def removeDir : Calls (Except IoError Unit) := perform fun tree =>
  match tree.locate path with
  | .error e => .error e
  | .ok p =>
      match tree.inode p with
      | none => .error .missing
      | some .dir =>
          if tree.names p = [] then .ok ⟨(), tree.keep fun q => q != p, [⟨.remove, path, p⟩]⟩
          else .error .notEmpty
      | some _ => .error .notDir

/-- What `remove_dir_all` does to a directory: it lists the directories in it and removes everything, but
for what is left. -/
def removeBelow (tree : LinkTree) (p : Place) (left : Place → Bool) : Effect Unit where
  value := ()
  tree := tree.keep fun q => !p.isPrefixOf q || left q
  accesses := (tree.nodes.filter fun n => p.isPrefixOf n.1).flatMap fun n =>
    (if n.2 = .dir then [⟨.list, path ++ n.1.drop p.length, n.1⟩] else []) ++
      [⟨.remove, path ++ n.1.drop p.length, n.1⟩]

/-- `std::fs::remove_dir_all`, which removes a link and does not follow it. -/
def removeDirAll : Calls (Except IoError Unit) :=
  performOr
    (fun fault tree =>
      match tree.locate path with
      | .error _ => ⟨(), tree, []⟩
      | .ok p =>
          if tree.inode p = some .dir then removeBelow path tree p fault.left else ⟨(), tree, []⟩)
    fun tree =>
      match tree.locate path with
      | .error e => .error e
      | .ok p =>
          match tree.inode p with
          | none => .error .missing
          | some .dir => .ok (removeBelow path tree p fun _ => false)
          | some (.link _ _) => .ok ⟨(), tree.keep fun q => q != p, [⟨.remove, path, p⟩]⟩
          | some _ => .error .notDir

/-- `mkdir`. -/
def makeDir : Calls (Except IoError Unit) := perform fun tree =>
  match tree.locate path with
  | .error e => .error e
  | .ok p =>
      match tree.inode p with
      | none => .ok ⟨(), tree.put p .dir, [⟨.makeDir, path, p⟩]⟩
      | some _ => .error .taken

/-- The error of a `mkdir`, unless there is a directory. -/
def unlessDir (e : IoError) : Calls (Except IoError Unit) := do
  if ← isDir path then return .ok () else return .error e

/-- `std::fs::create_dir_all` on a path whose names come last first. -/
def createDirs : List Str → Calls (Except IoError Unit)
  | [] => return .ok ()
  | c :: up => do
      match ← makeDir (c :: up).reverse with
      | .ok () => return .ok ()
      | .error .missing =>
          match ← createDirs up with
          | .error e => return .error e
          | .ok () =>
              match ← makeDir (c :: up).reverse with
              | .ok () => return .ok ()
              | .error e => unlessDir (c :: up).reverse e
      | .error e => unlessDir (c :: up).reverse e

/-- `std::fs::create_dir_all`. -/
def createDirAll : Calls (Except IoError Unit) := createDirs path.reverse

end Definitions

/-! ## What the calls ensure -/

section Specs

variable {before : LinkTree → Prop} {allowed : LinkTree → Access → Prop} {path : List Str}

theorem lstat_ensures : Ensures before allowed (lstat path) fun r tree =>
    before tree ∧ ∀ i, r = .ok i → ∃ p, tree.locate path = .ok p ∧ tree.inode p = some i := by
  refine Ensures.weaken ask_ensures (fun _ h => h) (fun _ _ h => h) ?_
  rintro r tree ⟨h, hr⟩
  refine ⟨h, ?_⟩
  rintro i rfl
  rcases hr with ⟨text, hr⟩ | hr
  · cases hr
  · cases hplace : tree.locate path with
    | error e =>
        rw [hplace] at hr
        cases hr
    | ok p =>
        rw [hplace] at hr
        refine ⟨p, rfl, ?_⟩
        cases hi : tree.inode p with
        | none =>
            dsimp only at hr
            rw [hi] at hr
            cases hr
        | some j =>
            dsimp only at hr
            rw [hi] at hr
            cases hr
            rfl

theorem canonicalize_ensures : Ensures before allowed (canonicalize path) fun r tree =>
    before tree ∧ ∀ p, r = .ok p → tree.follow path = .ok p := by
  refine Ensures.weaken ask_ensures (fun _ h => h) (fun _ _ h => h) ?_
  rintro r tree ⟨h, hr⟩
  refine ⟨h, ?_⟩
  rintro p rfl
  rcases hr with ⟨text, hr⟩ | hr
  · cases hr
  · exact hr

theorem pathExists_ensures : Ensures before allowed (pathExists path) fun _ tree => before tree :=
  Ensures.bind ask_ensures fun _ => Ensures.pure fun _ h => h.1

theorem isDir_ensures : Ensures before allowed (isDir path) fun _ tree => before tree :=
  Ensures.bind ask_ensures fun _ => Ensures.pure fun _ h => h.1

theorem readFile_ensures
    (hallowed : ∀ tree, before tree → ∀ p, tree.follow path = .ok p → allowed tree ⟨.read, path, p⟩) :
    Ensures before allowed (readFile path) fun _ tree => before tree := by
  refine perform_ensures ?_ fun tree h e _ => h
  intro tree h e he
  cases hpath : tree.follow path with
  | error e =>
      rw [hpath] at he
      cases he
  | ok p =>
      rw [hpath] at he
      have hread := hallowed tree h p hpath
      dsimp only at he
      split at he
      · cases he
        exact ⟨by simpa using hread, h⟩
      · cases he
        exact ⟨by simpa using hread, h⟩
      · cases he
      · cases he
      · cases he

theorem readDir_ensures
    (hallowed : ∀ tree, before tree → ∀ p, tree.follow path = .ok p → allowed tree ⟨.list, path, p⟩) :
    Ensures before allowed (readDir path) fun r tree =>
      before tree ∧ ∀ names, r = .ok names → ∀ c ∈ names, c ≠ ".".toList ∧ c ≠ "..".toList := by
  refine perform_ensures ?_ ?_
  · intro tree h e he
    cases hpath : tree.follow path with
    | error e =>
        rw [hpath] at he
        cases he
    | ok p =>
        rw [hpath] at he
        dsimp only at he
        split at he
        · cases he
          refine ⟨by simpa using hallowed tree h p hpath, h, ?_⟩
          rintro names heq c hc
          cases heq
          exact ne_of_mem_names hc
        · cases he
  · intro tree h e _
    exact ⟨h, fun names heq => (by cases heq)⟩

/-- What is written under a path: a file that was there or is new. -/
theorem createFile_ensures
    (hallowed : ∀ tree, before tree → ∀ p, tree.followNew path = .ok p → allowed tree ⟨.write, path, p⟩)
    (hstable : ∀ tree, before tree → ∀ p content, (∀ i, tree.inode p = some i → i.leads = false) →
      before (tree.put p (.file content))) :
    Ensures before allowed (createFile path) fun r tree =>
      before tree ∧ ∀ p, r = .ok p → ∃ tree', before tree' ∧ tree'.followNew path = .ok p := by
  refine perform_ensures ?_ ?_
  · intro tree h e he
    cases hpath : tree.followNew path with
    | error e =>
        rw [hpath] at he
        cases he
    | ok p =>
        rw [hpath] at he
        have hwrite := hallowed tree h p hpath
        have hplace : ∀ q, (Except.ok p : Except IoError Place) = .ok q →
            ∃ tree', before tree' ∧ tree'.followNew path = .ok q := by
          rintro q heq
          cases heq
          exact ⟨tree, h, hpath⟩
        dsimp only at he
        split at he
        next hnone =>
            cases he
            refine ⟨by simpa using hwrite, hstable tree h p [] ?_, hplace⟩
            intro i hi
            rw [hnone] at hi
            cases hi
        next content hfile =>
            cases he
            refine ⟨by simpa using hwrite, hstable tree h p [] ?_, hplace⟩
            intro i hi
            rw [hfile] at hi
            cases hi
            rfl
        · cases he
          exact ⟨by simpa using hwrite, h, hplace⟩
        · cases he
        · cases he
  · intro tree h e _
    exact ⟨h, fun p heq => (by cases heq)⟩

theorem writeAll_ensures {p : Place} {content : Bytes}
    (hallowed : ∀ tree, before tree → allowed tree ⟨.write, path, p⟩)
    (hstable : ∀ tree, before tree → ∀ p content, (∀ i, tree.inode p = some i → i.leads = false) →
      before (tree.put p (.file content))) :
    Ensures before allowed (writeAll path p content) fun _ tree => before tree := by
  refine perform_ensures ?_ fun tree h e _ => h
  intro tree h e he
  split at he
  next old hfile =>
      cases he
      refine ⟨by simpa using hallowed tree h, hstable tree h p content ?_⟩
      intro i hi
      rw [hfile] at hi
      cases hi
      rfl
  · cases he
    exact ⟨by simpa using hallowed tree h, h⟩
  · cases he

theorem writeFile_ensures {content : Bytes}
    (hallowed : ∀ tree tree', before tree → before tree' → ∀ p, tree'.followNew path = .ok p →
      allowed tree ⟨.write, path, p⟩)
    (hstable : ∀ tree, before tree → ∀ p content, (∀ i, tree.inode p = some i → i.leads = false) →
      before (tree.put p (.file content))) :
    Ensures before allowed (writeFile path content) fun _ tree => before tree := by
  refine Ensures.bind (createFile_ensures (fun tree h p hp => hallowed tree tree h h p hp) hstable) ?_
  intro r
  cases r with
  | error e => exact Ensures.pure fun tree h => h.1
  | ok p =>
      refine Ensures.given (p := ∃ tree', before tree' ∧ tree'.followNew path = .ok p) ?_
        fun tree h => h.2 p rfl
      rintro ⟨tree', h', hp⟩
      exact Ensures.weaken (writeAll_ensures (fun tree h => hallowed tree tree' h h' p hp) hstable)
        (fun tree h => h.1) (fun _ _ h => h) fun _ _ h => h

theorem changeOwner_ensures
    (hallowed : ∀ tree, before tree → ∀ p, tree.follow path = .ok p → allowed tree ⟨.chown, path, p⟩) :
    Ensures before allowed (changeOwner path) fun _ tree => before tree := by
  refine perform_ensures ?_ fun tree h e _ => h
  intro tree h e he
  cases hpath : tree.follow path with
  | error e =>
      rw [hpath] at he
      cases he
  | ok p =>
      rw [hpath] at he
      cases he
      exact ⟨by simpa using hallowed tree h p hpath, h⟩

theorem renameFile_ensures {dst : List Str}
    (hallowed : ∀ tree, before tree → (∀ p, tree.locate path = .ok p → allowed tree ⟨.rename, path, p⟩) ∧
      ∀ q, tree.locate dst = .ok q → allowed tree ⟨.rename, dst, q⟩) :
    Ensures before allowed (renameFile path dst) fun r tree => ∀ e, r = .error e → before tree := by
  refine perform_ensures ?_ fun tree h e _ _ _ => h
  intro tree h e he
  cases hp : tree.locate path with
  | error e =>
      rw [hp] at he
      cases he
  | ok p =>
      cases hq : tree.locate dst with
      | error e =>
          rw [hp, hq] at he
          cases he
      | ok q =>
          rw [hp, hq] at he
          have hrename := hallowed tree h
          have haccesses : ∀ a ∈ [⟨AccessKind.rename, path, p⟩, ⟨AccessKind.rename, dst, q⟩],
              allowed tree a := by
            intro a ha
            rcases List.mem_cons.mp ha with rfl | ha
            · exact hrename.1 p hp
            · obtain rfl := List.mem_singleton.mp ha
              exact hrename.2 q hq
          dsimp only at he
          split at he
          · cases he
          · cases he
          · split at he
            · cases he
            · cases he
              exact ⟨haccesses, fun e heq => (by cases heq)⟩

theorem removeFile_ensures
    (hallowed : ∀ tree, before tree → ∀ p, tree.locate path = .ok p → allowed tree ⟨.remove, path, p⟩) :
    Ensures before allowed (removeFile path) fun _ _ => True := by
  refine perform_ensures ?_ fun _ _ _ _ => trivial
  intro tree h e he
  cases hpath : tree.locate path with
  | error e =>
      rw [hpath] at he
      cases he
  | ok p =>
      rw [hpath] at he
      have hremove := hallowed tree h p hpath
      dsimp only at he
      split at he
      · cases he
      · cases he
      · cases he
        exact ⟨by simpa using hremove, trivial⟩

/-- Only a directory is removed. -/
theorem removeDir_ensures
    (hallowed : ∀ tree, before tree → ∀ p, tree.locate path = .ok p → tree.inode p = some .dir →
      allowed tree ⟨.remove, path, p⟩) :
    Ensures before allowed (removeDir path) fun _ _ => True := by
  refine perform_ensures ?_ fun _ _ _ _ => trivial
  intro tree h e he
  cases hpath : tree.locate path with
  | error e =>
      rw [hpath] at he
      cases he
  | ok p =>
      rw [hpath] at he
      dsimp only at he
      split at he
      · cases he
      next hdir =>
          split at he
          · cases he
            exact ⟨by simpa using hallowed tree h p hpath hdir, trivial⟩
          · cases he
      · cases he

/-- What `remove_dir_all` lists and removes stands at the place of its path or below it. -/
theorem removeDirAll_ensures
    (hallowed : ∀ tree, before tree → ∀ p, tree.locate path = .ok p → ∀ kind path' q,
      kind = .list ∨ kind = .remove → p <+: q → allowed tree ⟨kind, path', q⟩) :
    Ensures before allowed (removeDirAll path) fun _ _ => True := by
  have hbelow : ∀ tree, before tree → ∀ p, tree.locate path = .ok p → ∀ left,
      ∀ a ∈ (removeBelow path tree p left).accesses, allowed tree a := by
    intro tree h p hp left a ha
    obtain ⟨n, hn, ha⟩ := List.mem_flatMap.mp ha
    have hprefix : p <+: n.1 := List.isPrefixOf_iff_prefix.mp (List.mem_filter.mp hn).2
    rcases List.mem_append.mp ha with ha | ha
    · split at ha
      · obtain rfl := List.mem_singleton.mp ha
        exact hallowed tree h p hp _ _ _ (.inl rfl) hprefix
      · cases ha
    · obtain rfl := List.mem_singleton.mp ha
      exact hallowed tree h p hp _ _ _ (.inr rfl) hprefix
  refine performOr_ensures ?_ (fun _ _ _ _ => trivial) ?_
  · intro tree h e he
    cases hpath : tree.locate path with
    | error e =>
        rw [hpath] at he
        cases he
    | ok p =>
        rw [hpath] at he
        have hremove := hallowed tree h p hpath .remove path p (.inr rfl) (List.prefix_refl p)
        dsimp only at he
        split at he
        · cases he
        · cases he
          exact ⟨hbelow tree h p hpath _, trivial⟩
        · cases he
          exact ⟨by simpa using hremove, trivial⟩
        · cases he
  · intro tree h fault
    refine ⟨?_, trivial⟩
    cases hpath : tree.locate path with
    | error e => exact fun a ha => (by cases ha)
    | ok p =>
        dsimp only
        split
        · exact hbelow tree h p hpath _
        · exact fun a ha => (by cases ha)

theorem makeDir_ensures
    (hallowed : ∀ tree, before tree → ∀ p, tree.locate path = .ok p → tree.inode p = none →
      allowed tree ⟨.makeDir, path, p⟩) :
    Ensures before allowed (makeDir path) fun _ _ => True := by
  refine perform_ensures ?_ fun _ _ _ _ => trivial
  intro tree h e he
  cases hpath : tree.locate path with
  | error e =>
      rw [hpath] at he
      cases he
  | ok p =>
      rw [hpath] at he
      dsimp only at he
      split at he
      next hnone =>
          cases he
          exact ⟨by simpa using hallowed tree h p hpath hnone, trivial⟩
      · cases he

theorem unlessDir_ensures (e : IoError) : Ensures before allowed (unlessDir path e) fun _ _ => True := by
  refine Ensures.bind isDir_ensures ?_
  intro r
  cases r with
  | true => exact Ensures.pure fun _ _ => trivial
  | false => exact Ensures.pure fun _ _ => trivial

/-- What `create_dir_all` makes are directories on the way. -/
theorem createDirs_ensures (rev : List Str)
    (hallowed : ∀ tree path, path ≠ [] → path <+: rev.reverse → ∀ p, tree.locate path = .ok p →
      tree.inode p = none → allowed tree ⟨.makeDir, path, p⟩) :
    Ensures (fun _ => True) allowed (createDirs rev) fun _ _ => True := by
  induction rev with
  | nil => exact Ensures.pure fun _ _ => trivial
  | cons c up ih =>
      have hhere : ∀ {before : LinkTree → Prop},
          Ensures before allowed (makeDir (c :: up).reverse) fun _ _ => True :=
        makeDir_ensures fun tree _ p hp hnone =>
          hallowed tree _ (by simp) (List.prefix_refl _) p hp hnone
      refine Ensures.bind hhere ?_
      intro r
      -- the directory is made, something is in its way, or the directory above it is missing
      have hup := ih fun tree path hne hpath => hallowed tree path hne
        (hpath.trans (by rw [List.reverse_cons]; exact List.prefix_append _ _))
      cases r with
      | ok _ => exact Ensures.pure fun _ _ => trivial
      | error e =>
          cases e with
          | missing =>
              refine Ensures.bind hup ?_
              intro r
              cases r with
              | error e => exact Ensures.pure fun _ _ => trivial
              | ok _ =>
                  refine Ensures.bind hhere ?_
                  intro r
                  cases r with
                  | ok _ => exact Ensures.pure fun _ _ => trivial
                  | error e => exact unlessDir_ensures e
          | notDir => exact unlessDir_ensures _
          | isDir => exact unlessDir_ensures _
          | taken => exact unlessDir_ensures _
          | notEmpty => exact unlessDir_ensures _
          | loop => exact unlessDir_ensures _
          | other text => exact unlessDir_ensures _

theorem createDirAll_ensures
    (hallowed : ∀ tree path', path' ≠ [] → path' <+: path → ∀ p, tree.locate path' = .ok p →
      tree.inode p = none → allowed tree ⟨.makeDir, path', p⟩) :
    Ensures (fun _ => True) allowed (createDirAll path) fun _ _ => True := by
  refine createDirs_ensures _ ?_
  rw [List.reverse_reverse]
  exact hallowed

end Specs

end LinkTree
end Text
end Aimx
