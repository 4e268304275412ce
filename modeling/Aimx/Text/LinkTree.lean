import Aimx.Text.FileTree

/-!
# File systems with symbolic links

The entries of a file system by their places, some of them links, and where a path leads.  A walk along a
path follows the links in it, at most as many as the system allows, and can stop before a last name that
is missing.

* `Inode`, `LinkTree` — what stands at a place, and the entries of a file system;
* `follow`, `followNew`, `locate` — where a path leads, where a file made under it stands, and the entry
  of its last name, which is not followed;
* `resolve_append` — a path is walked along in two parts;
* `resolve_of_agree` — what does not touch directories and links leaves the walks alone.
-/

namespace Aimx
namespace Text

/-- What stands at a place: a link holds a path, from the root or from the directory it stands in. -/
inductive Inode
  | dir
  | file (content : Bytes)
  | link (absolute : Bool) (target : List Str)
  | special (content : Bytes)
  deriving DecidableEq

/-- A walk goes on behind it, or elsewhere. -/
def Inode.leads : Inode → Bool
  | .dir => true
  | .link _ _ => true
  | .file _ => false
  | .special _ => false

/-- `FileType::is_link`. -/
def Inode.isLink : Inode → Bool
  | .link _ _ => true
  | .dir => false
  | .file _ => false
  | .special _ => false

/-- Why a call fails. -/
inductive IoError
  | missing
  | notDir
  | isDir
  | taken
  | notEmpty
  | loop
  | other (text : Str)
  deriving DecidableEq

/-- The text of an `io::Error`. -/
def IoError.display : IoError → Str
  | .missing => "No such file or directory (os error 2)".toList
  | .notDir => "Not a directory (os error 20)".toList
  | .isDir => "Is a directory (os error 21)".toList
  | .taken => "File exists (os error 17)".toList
  | .notEmpty => "Directory not empty (os error 39)".toList
  | .loop => "Too many levels of symbolic links (os error 40)".toList
  | .other text => text

/-- The entries of a file system, in the order in which directories list them. -/
structure LinkTree where
  nodes : List (Place × Inode)
  nodup : (nodes.map Prod.fst).Nodup

namespace LinkTree

/-- What stands at a place; the root is a directory. -/
def inode (tree : LinkTree) (p : Place) : Option Inode :=
  if p = [] then some .dir else (tree.nodes.find? fun n => n.1 == p).map Prod.snd

/-- Some of the places kept. -/
def keep (tree : LinkTree) (f : Place → Bool) : LinkTree where
  nodes := tree.nodes.filter fun n => f n.1
  nodup := tree.nodup.sublist (List.filter_sublist.map Prod.fst)

/-- Something put at a place, for what stood there. -/
def put (tree : LinkTree) (p : Place) (i : Inode) : LinkTree where
  nodes := (tree.nodes.filter fun n => n.1 != p) ++ [(p, i)]
  nodup := by
    rw [List.map_append, List.nodup_append]
    refine ⟨tree.nodup.sublist (List.filter_sublist.map Prod.fst), by simp, ?_⟩
    intro q hq q' hq' heq
    obtain ⟨n, hn, rfl⟩ := List.mem_map.mp hq
    obtain rfl : q' = p := List.mem_singleton.mp hq'
    have hne := (List.mem_filter.mp hn).2
    rw [heq, bne_self_eq_false] at hne
    cases hne

/-! ## Walks -/

/-- How far a path leads before a link is followed. -/
inductive Advance
  | stop (p : Place)
  | jump (p : Place) (rest : List Str)
  | fail (e : IoError)

/-- The walk up to the first link.  With `create`, a last name that is missing is the place of the file
that is to be made. -/
def advance (tree : LinkTree) (create : Bool) : Place → List Str → Advance
  | p, [] => .stop p
  | p, c :: cs =>
      match tree.inode p with
      | none => .fail .missing
      | some (.file _) => .fail .notDir
      | some (.special _) => .fail .notDir
      | some (.link _ _) => .fail .notDir
      | some .dir =>
          if c = ".".toList then advance tree create p cs
          else if c = "..".toList then advance tree create p.dropLast cs
          else
            match tree.inode (p ++ [c]) with
            | none => if create && cs.isEmpty then .stop (p ++ [c]) else .fail .missing
            | some (.link absolute target) => .jump (if absolute then [] else p) (target ++ cs)
            | some _ => advance tree create (p ++ [c]) cs

/-- The place that a path leads to, and how many more links may be followed from there. -/
def resolve (tree : LinkTree) (create : Bool) : Nat → Place → List Str → Except IoError (Place × Nat)
  | 0, p, cs =>
      match tree.advance create p cs with
      | .stop q => .ok (q, 0)
      | .jump _ _ => .error .loop
      | .fail e => .error e
  | n + 1, p, cs =>
      match tree.advance create p cs with
      | .stop q => .ok (q, n + 1)
      | .jump q rest => resolve tree create n q rest
      | .fail e => .error e

/-- The number of links that one path may lead through. -/
def maxLinks : Nat := 40

/-- The place that a path leads to. -/
def follow (tree : LinkTree) (path : List Str) : Except IoError Place :=
  (tree.resolve false maxLinks [] path).map Prod.fst

/-- The place that a path leads to, or that a file made under it gets. -/
def followNew (tree : LinkTree) (path : List Str) : Except IoError Place :=
  (tree.resolve true maxLinks [] path).map Prod.fst

/-- The place of a name in a directory. -/
def entryPlace (p : Place) (c : Str) : Place :=
  if c = ".".toList then p else if c = "..".toList then p.dropLast else p ++ [c]

/-- The place of the last name of a path, which is not followed when it is a link. -/
def locate (tree : LinkTree) (path : List Str) : Except IoError Place :=
  match path.getLast? with
  | none => .ok []
  | some c =>
      match tree.follow path.dropLast with
      | .error e => .error e
      | .ok p => if tree.inode p = some .dir then .ok (entryPlace p c) else .error .notDir

/-- `read_dir`: the names of the entries. -/
def names (tree : LinkTree) (p : Place) : List Str :=
  tree.nodes.filterMap fun n =>
    n.1.getLast?.bind fun c =>
      if n.1 = p ++ [c] ∧ c ≠ ".".toList ∧ c ≠ "..".toList then some c else none

/-! ## Changes -/

section Changes

variable {tree : LinkTree} {p q : Place} {i : Inode}

theorem inode_put (hp : p ≠ []) (q : Place) :
    (tree.put p i).inode q = if q = p then some i else tree.inode q := by
  unfold inode
  show (if q = [] then _ else Option.map Prod.snd (((tree.nodes.filter _) ++ [(p, i)]).find? _)) = _
  rw [List.find?_append]
  by_cases hq : q = p
  · subst hq
    rw [if_neg hp, if_pos rfl, List.find?_eq_none.mpr]
    · simp
    · intro n hn
      simpa using (List.mem_filter.mp hn).2
  · have hlast : [(p, i)].find? (fun n => n.1 == q) = none := by
      simpa using fun heq : p = q => hq heq.symm
    rw [if_neg hq, List.find?_filter, hlast, Option.or_none]
    congr 3
    ext n
    by_cases hn : n.1 = q
    · simp [hn, hq]
    · simp [hn]

/-- The names that a directory lists are names. -/
theorem ne_of_mem_names {c : Str} (h : c ∈ tree.names p) : c ≠ ".".toList ∧ c ≠ "..".toList := by
  obtain ⟨n, -, hn⟩ := List.mem_filterMap.mp h
  obtain ⟨c', -, hc'⟩ := Option.bind_eq_some_iff.mp hn
  split at hc'
  next hcond =>
      cases hc'
      exact hcond.2
  next => cases hc'

end Changes

/-- The directories and the links of one tree are those of the other. -/
def Agrees (tree tree' : LinkTree) : Prop :=
  ∀ q i, tree.inode q = some i → i.leads = true → tree'.inode q = some i

/-! ## Walks in parts -/

section Walks

variable {tree : LinkTree} {create : Bool}

theorem advance_dir {p : Place} {c : Str} {cs : List Str} (hp : tree.inode p = some .dir) :
    tree.advance create p (c :: cs) =
      if c = ".".toList then tree.advance create p cs
      else if c = "..".toList then tree.advance create p.dropLast cs
      else
        match tree.inode (p ++ [c]) with
        | none => if create && cs.isEmpty then .stop (p ++ [c]) else .fail .missing
        | some (.link absolute target) => .jump (if absolute then [] else p) (target ++ cs)
        | some _ => tree.advance create (p ++ [c]) cs := by
  rw [advance, hp]

/-- Behind anything but a directory there is nothing. -/
theorem advance_notDir {p : Place} (hp : tree.inode p ≠ some .dir) :
    ∃ e, ∀ create c cs, tree.advance create p (c :: cs) = .fail e := by
  cases h : tree.inode p with
  | none => exact ⟨.missing, fun create c cs => by rw [advance, h]⟩
  | some i =>
      cases i with
      | dir => exact absurd h hp
      | file content => exact ⟨.notDir, fun create c cs => by rw [advance, h]⟩
      | link absolute target => exact ⟨.notDir, fun create c cs => by rw [advance, h]⟩
      | special content => exact ⟨.notDir, fun create c cs => by rw [advance, h]⟩

/-- The walk up to the first link goes on with the second part of a path where the first part ends. -/
theorem advance_append (p : Place) (cs : List Str) (d : Str) (ds : List Str) :
    tree.advance create p (cs ++ d :: ds) =
      match tree.advance false p cs with
      | .stop q => tree.advance create q (d :: ds)
      | .jump q rest => .jump q (rest ++ d :: ds)
      | .fail e => .fail e := by
  induction cs generalizing p with
  | nil => rfl
  | cons c cs ih =>
      by_cases hp : tree.inode p = some .dir
      · rw [List.cons_append, advance_dir hp, advance_dir hp]
        by_cases hdot : c = ".".toList
        · rw [if_pos hdot, if_pos hdot]
          exact ih p
        by_cases hdots : c = "..".toList
        · rw [if_neg hdot, if_neg hdot, if_pos hdots, if_pos hdots]
          exact ih p.dropLast
        rw [if_neg hdot, if_neg hdot, if_neg hdots, if_neg hdots]
        cases hc : tree.inode (p ++ [c]) with
        | none =>
            have hmore : (cs ++ d :: ds).isEmpty = false := by simp
            simp [hmore]
        | some i =>
            cases i with
            | link absolute target => simp
            | dir => exact ih (p ++ [c])
            | file content => exact ih (p ++ [c])
            | special content => exact ih (p ++ [c])
      · obtain ⟨e, he⟩ := advance_notDir hp
        rw [List.cons_append, he, he]

/-- One step of `resolve`. -/
theorem resolve_eq (n : Nat) (p : Place) (cs : List Str) :
    tree.resolve create n p cs =
      match tree.advance create p cs with
      | .stop q => .ok (q, n)
      | .jump q rest => if n = 0 then .error .loop else tree.resolve create (n - 1) q rest
      | .fail e => .error e := by
  cases n with
  | zero => rfl
  | succ n => rfl

/-- **A path is walked along in two parts.** -/
theorem resolve_append (n : Nat) (p : Place) (cs : List Str) (d : Str) (ds : List Str) :
    tree.resolve create n p (cs ++ d :: ds) =
      (tree.resolve false n p cs).bind fun r => tree.resolve create r.2 r.1 (d :: ds) := by
  induction n generalizing p cs with
  | zero =>
      rw [resolve, advance_append, resolve]
      cases tree.advance false p cs with
      | stop q => rfl
      | jump q rest => rfl
      | fail e => rfl
  | succ n ih =>
      rw [resolve, advance_append, resolve]
      cases tree.advance false p cs with
      | stop q => rfl
      | jump q rest => exact ih q rest
      | fail e => rfl

/-- One more name below a directory, when it is not a link. -/
theorem resolve_name {n : Nat} {p : Place} {c : Str} (hp : tree.inode p = some .dir)
    (hdot : c ≠ ".".toList) (hdots : c ≠ "..".toList)
    (hlink : ∀ absolute target, tree.inode (p ++ [c]) ≠ some (.link absolute target)) :
    tree.resolve create n p [c] =
      if create || (tree.inode (p ++ [c])).isSome then .ok (p ++ [c], n) else .error .missing := by
  have hadvance : tree.advance create p [c] =
      if create || (tree.inode (p ++ [c])).isSome then .stop (p ++ [c]) else .fail .missing := by
    rw [advance, hp]
    dsimp only
    rw [if_neg hdot, if_neg hdots]
    cases hc : tree.inode (p ++ [c]) with
    | none => cases create <;> rfl
    | some i =>
        cases i with
        | link absolute target => exact absurd hc (hlink absolute target)
        | dir => simp [advance]
        | file content => simp [advance]
        | special content => simp [advance]
  rw [resolve_eq, hadvance]
  by_cases h : (create || (tree.inode (p ++ [c])).isSome) = true
  · rw [if_pos h, if_pos h]
  · rw [if_neg h, if_neg h]

/-- What a walk does not lead through may change: the walk ends at the same place, if that has not changed
either. -/
theorem advance_of_agree {tree' : LinkTree} {create' : Bool} (hcreate : create = true → create' = true)
    (hagree : tree.Agrees tree') (p : Place) (cs : List Str) :
    (∀ q, tree.advance create p cs = .stop q → tree'.inode q = tree.inode q →
        tree'.advance create' p cs = .stop q) ∧
      ∀ q rest, tree.advance create p cs = .jump q rest → tree'.advance create' p cs = .jump q rest := by
  induction cs generalizing p with
  | nil => exact ⟨fun q h _ => h, fun q rest h => h⟩
  | cons c cs ih =>
      by_cases hp : tree.inode p = some .dir
      · rw [advance_dir hp, advance_dir (hagree p .dir hp rfl)]
        by_cases hdot : c = ".".toList
        · rw [if_pos hdot, if_pos hdot]
          exact ih p
        by_cases hdots : c = "..".toList
        · rw [if_neg hdot, if_neg hdot, if_pos hdots, if_pos hdots]
          exact ih p.dropLast
        rw [if_neg hdot, if_neg hdot, if_neg hdots, if_neg hdots]
        -- a file on the way is the end of it, or nothing is found behind it
        have hend : ∀ i, tree.inode (p ++ [c]) = some i → i.leads = false →
            (∀ q, tree.advance create (p ++ [c]) cs = .stop q → q = p ++ [c] ∧ cs = []) ∧
              ∀ q rest, tree.advance create (p ++ [c]) cs ≠ .jump q rest := by
          intro i hi hleads
          cases cs with
          | nil =>
              rw [advance]
              exact ⟨fun q h => ⟨(by cases h; rfl), rfl⟩, fun q rest h => (by cases h)⟩
          | cons c' cs =>
              have hne : tree.inode (p ++ [c]) ≠ some .dir := by
                rw [hi]
                rintro heq
                cases heq
                cases hleads
              obtain ⟨e, he⟩ := advance_notDir hne
              rw [he]
              exact ⟨fun q h => (by cases h), fun q rest h => (by cases h)⟩
        cases hc : tree.inode (p ++ [c]) with
        | none =>
            dsimp only
            constructor
            · intro q h hq
              split at h
              next hmade =>
                  cases h
                  rw [Bool.and_eq_true] at hmade
                  rw [hq, hc]
                  dsimp only
                  rw [if_pos (by rw [hcreate hmade.1, hmade.2]; rfl)]
              next => cases h
            · intro q rest h
              split at h
              next => cases h
              next => cases h
        | some i =>
            by_cases hleads : i.leads = true
            · rw [hagree _ i hc hleads]
              cases i with
              | link absolute target => exact ⟨fun q h _ => h, fun q rest h => h⟩
              | dir => exact ih (p ++ [c])
              | file content => cases hleads
              | special content => cases hleads
            · have hnot : i.leads = false := by simpa using hleads
              obtain ⟨hstop, hjump⟩ := hend i hc hnot
              cases i with
              | link absolute target => cases hnot
              | dir => cases hnot
              | file content =>
                  refine ⟨fun q h hq => ?_, fun q rest h => absurd h (hjump q rest)⟩
                  obtain ⟨rfl, rfl⟩ := hstop q h
                  rw [hq, hc]
                  rfl
              | special content =>
                  refine ⟨fun q h hq => ?_, fun q rest h => absurd h (hjump q rest)⟩
                  obtain ⟨rfl, rfl⟩ := hstop q h
                  rw [hq, hc]
                  rfl
      · obtain ⟨e, he⟩ := advance_notDir hp
        rw [he]
        exact ⟨fun q h _ => (by cases h), fun q rest h => (by cases h)⟩

theorem resolve_of_agree {tree' : LinkTree} {create' : Bool} (hcreate : create = true → create' = true)
    (hagree : tree.Agrees tree') {n k : Nat} {p q : Place} {cs : List Str}
    (h : tree.resolve create n p cs = .ok (q, k)) (hq : tree'.inode q = tree.inode q) :
    tree'.resolve create' n p cs = .ok (q, k) := by
  induction n generalizing p cs with
  | zero =>
      obtain ⟨hstop, -⟩ := advance_of_agree hcreate hagree p cs
      rw [resolve_eq] at h ⊢
      cases hadvance : tree.advance create p cs with
      | stop q' =>
          rw [hadvance] at h
          cases h
          rw [hstop q hadvance hq]
      | jump q' rest =>
          rw [hadvance] at h
          cases h
      | fail e =>
          rw [hadvance] at h
          cases h
  | succ n ih =>
      obtain ⟨hstop, hjump⟩ := advance_of_agree hcreate hagree p cs
      rw [resolve_eq] at h ⊢
      cases hadvance : tree.advance create p cs with
      | stop q' =>
          rw [hadvance] at h
          cases h
          rw [hstop q hadvance hq]
      | jump q' rest =>
          rw [hadvance] at h
          rw [hjump q' rest hadvance]
          exact ih h
      | fail e =>
          rw [hadvance] at h
          cases h

end Walks

/-! ## Where paths lead -/

/-- The path leads to `i`, at the place `p`. -/
def LeadsTo (tree : LinkTree) (path : List Str) (p : Place) (i : Inode) : Prop :=
  tree.follow path = .ok p ∧ tree.inode p = some i

/-- From the directory `p` the names lead to `q`, through directories and over no link. -/
def Straight (tree : LinkTree) : Place → List Str → Place → Prop
  | p, [], q => q = p
  | p, c :: cs, q => tree.inode p = some .dir ∧ c ≠ "..".toList ∧ Straight tree (entryPlace p c) cs q

section Leading

variable {tree : LinkTree} {path : List Str} {p q : Place} {c : Str} {i : Inode}

theorem entryPlace_eq (hdot : c ≠ ".".toList) (hdots : c ≠ "..".toList) : entryPlace p c = p ++ [c] := by
  unfold entryPlace
  rw [if_neg hdot, if_neg hdots]

/-- An entry of a directory that is not `..` stands below it. -/
theorem prefix_entryPlace (hdots : c ≠ "..".toList) : p <+: entryPlace p c := by
  unfold entryPlace
  split
  · exact List.prefix_refl p
  · exact List.prefix_append p [c]

theorem Straight.isPrefix {cs : List Str} (h : tree.Straight p cs q) : p <+: q := by
  induction cs generalizing p with
  | nil =>
      rw [show q = p from h]
  | cons c cs ih => exact (prefix_entryPlace h.2.1).trans (ih h.2.2)

theorem Straight.concat {cs : List Str} (h : tree.Straight p cs q) (hq : tree.inode q = some .dir)
    (hdots : c ≠ "..".toList) : tree.Straight p (cs ++ [c]) (entryPlace q c) := by
  induction cs generalizing p with
  | nil =>
      obtain rfl : q = p := h
      exact ⟨hq, hdots, rfl⟩
  | cons d cs ih => exact ⟨h.1, h.2.1, ih h.2.2⟩

/-- The place that a path leads to is that of a file made under it. -/
theorem followNew_of_follow (h : tree.follow path = .ok p) : tree.followNew path = .ok p := by
  unfold follow at h
  unfold followNew
  cases hresolve : tree.resolve false maxLinks [] path with
  | error e =>
      rw [hresolve] at h
      cases h
  | ok r =>
      obtain ⟨q, k⟩ := r
      rw [hresolve] at h
      cases h
      have hnew : tree.resolve true maxLinks [] path = .ok (q, k) :=
        resolve_of_agree (fun _ => rfl) (fun q i hi _ => hi) hresolve rfl
      rw [hnew]
      rfl

theorem follow_concat (path : List Str) (c : Str) :
    tree.follow (path ++ [c]) =
      (tree.resolve false maxLinks [] path).bind fun r =>
        (tree.resolve false r.2 r.1 [c]).map Prod.fst := by
  unfold follow
  rw [resolve_append]
  cases tree.resolve false maxLinks [] path with
  | error e => rfl
  | ok r => rfl

theorem followNew_concat (path : List Str) (c : Str) :
    tree.followNew (path ++ [c]) =
      (tree.resolve false maxLinks [] path).bind fun r =>
        (tree.resolve true r.2 r.1 [c]).map Prod.fst := by
  unfold followNew
  rw [resolve_append]
  cases tree.resolve false maxLinks [] path with
  | error e => rfl
  | ok r => rfl

theorem locate_concat (path : List Str) (c : Str) :
    tree.locate (path ++ [c]) =
      (tree.follow path).bind fun p =>
        if tree.inode p = some .dir then .ok (entryPlace p c) else .error .notDir := by
  unfold locate
  rw [List.getLast?_concat, List.dropLast_concat]
  cases tree.follow path with
  | error e => rfl
  | ok p => rfl

theorem locate_eq_ok_iff : tree.locate (path ++ [c]) = .ok q ↔
    ∃ p, tree.LeadsTo path p .dir ∧ q = entryPlace p c := by
  rw [locate_concat]
  constructor
  · intro h
    cases hpath : tree.follow path with
    | error e =>
        rw [hpath] at h
        cases h
    | ok p =>
        rw [hpath] at h
        change (if tree.inode p = some .dir then Except.ok (entryPlace p c)
          else .error IoError.notDir) = .ok q at h
        split at h
        next hdir =>
            cases h
            exact ⟨p, ⟨hpath, hdir⟩, rfl⟩
        next => cases h
  · rintro ⟨p, ⟨hpath, hdir⟩, rfl⟩
    rw [hpath]
    show (if tree.inode p = some .dir then Except.ok (entryPlace p c) else .error IoError.notDir) = _
    rw [if_pos hdir]

/-- The path to an entry of a directory, unless that is a link. -/
theorem LeadsTo.entry (h : tree.LeadsTo path p .dir) (hdots : c ≠ "..".toList)
    (hi : tree.inode (entryPlace p c) = some i) (hlink : i.isLink = false) :
    tree.LeadsTo (path ++ [c]) (entryPlace p c) i := by
  obtain ⟨hpath, hdir⟩ := h
  refine ⟨?_, hi⟩
  rw [follow_concat]
  unfold follow at hpath
  cases hresolve : tree.resolve false maxLinks [] path with
  | error e =>
      rw [hresolve] at hpath
      cases hpath
  | ok r =>
      obtain ⟨p', k⟩ := r
      rw [hresolve] at hpath
      cases hpath
      show (tree.resolve false k p' [c]).map Prod.fst = _
      by_cases hdot : c = ".".toList
      · rw [resolve_eq, advance_dir hdir, if_pos hdot, advance]
        unfold entryPlace
        rw [if_pos hdot]
        rfl
      · rw [entryPlace_eq hdot hdots] at hi ⊢
        rw [resolve_name hdir hdot hdots, hi]
        · rfl
        · intro absolute target hlinked
          rw [hi] at hlinked
          cases hlinked
          cases hlink

/-- The place of a file that is made in a directory, unless a link has its name. -/
theorem LeadsTo.followNew (h : tree.LeadsTo path p .dir) (hdot : c ≠ ".".toList) (hdots : c ≠ "..".toList)
    (hlink : ∀ i, tree.inode (p ++ [c]) = some i → i.isLink = false) :
    tree.followNew (path ++ [c]) = .ok (p ++ [c]) := by
  obtain ⟨hpath, hdir⟩ := h
  rw [followNew_concat]
  unfold follow at hpath
  cases hresolve : tree.resolve false maxLinks [] path with
  | error e =>
      rw [hresolve] at hpath
      cases hpath
  | ok r =>
      obtain ⟨p', k⟩ := r
      rw [hresolve] at hpath
      cases hpath
      show (tree.resolve true k p' [c]).map Prod.fst = _
      rw [resolve_name hdir hdot hdots]
      · rfl
      · intro absolute target hlinked
        cases hlink _ hlinked

end Leading

/-! ## What changes leave alone -/

section Agree

variable {tree tree' : LinkTree} {path : List Str} {p q : Place} {i j : Inode}

/-- The root leads on. -/
theorem ne_nil_of_not_leads (hi : ∀ i, tree.inode p = some i → i.leads = false) : p ≠ [] := by
  rintro rfl
  cases hi .dir (if_pos rfl)

theorem agrees_put (hi : ∀ i, tree.inode p = some i → i.leads = false) (j : Inode) :
    tree.Agrees (tree.put p j) := by
  intro q k hk hleads
  rw [inode_put (ne_nil_of_not_leads hi)]
  by_cases hq : q = p
  · subst hq
    rw [hi k hk] at hleads
    cases hleads
  · rw [if_neg hq]
    exact hk

theorem LeadsTo.of_agrees (h : tree.LeadsTo path p i) (hagree : tree.Agrees tree')
    (hp : tree'.inode p = some i) : tree'.LeadsTo path p i := by
  obtain ⟨hpath, hi⟩ := h
  refine ⟨?_, hp⟩
  unfold follow at hpath ⊢
  cases hresolve : tree.resolve false maxLinks [] path with
  | error e =>
      rw [hresolve] at hpath
      cases hpath
  | ok r =>
      obtain ⟨p', k⟩ := r
      rw [hresolve] at hpath
      cases hpath
      have hsame : tree'.resolve false maxLinks [] path = .ok (p', k) :=
        resolve_of_agree (fun h => h) hagree hresolve (by rw [hp, hi])
      rw [hsame]
      rfl

end Agree

end LinkTree
end Text
end Aimx
