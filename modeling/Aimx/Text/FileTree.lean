import Aimx.Text.Dirs

/-!
# File trees

The files and directories below a root by their places, and the calls that make and remove them.  Which
calls fail is decided from outside.

* `FileTree` — places with what stands there, each at most once;
* `walk`, `makeDirs`, `removeFile`, `removeDirAll` — the resolution of a path and the calls;
* `makeDirs_nodes`, `makeDirs_ok_iff` — what is made, and when everything is;
* `removeDirAll_tree`, `removeDirAll_ok_iff` — what is removed, and when everything is.
-/

namespace Aimx
namespace Text

/-- The place of a file or a directory: the names from the root on. -/
abbrev Place := List Str

/-- What stands at a place. -/
inductive PlaceKind
  | dir
  | file
  deriving DecidableEq

/-- The files and the directories of a file system, in the order in which directories list them. -/
structure FileTree where
  nodes : List (Place × PlaceKind)
  nodup : (nodes.map Prod.fst).Nodup

namespace FileTree

/-- What stands at a place; the root is a directory. -/
def kind (tree : FileTree) (p : Place) : Option PlaceKind :=
  if p = [] then some .dir else (tree.nodes.find? fun n => n.1 == p).map Prod.snd

/-- The name of an entry of a directory. -/
def entryName (p : Place) (n : Place × PlaceKind) : Option Str :=
  n.1.getLast?.bind fun e => if n.1 = p ++ [e] then some e else none

/-- `read_dir`: the names of the entries. -/
def names (tree : FileTree) (p : Place) : List Str := tree.nodes.filterMap (entryName p)

/-- Some of the places kept. -/
def keep (tree : FileTree) (f : Place → Bool) : FileTree where
  nodes := tree.nodes.filter fun n => f n.1
  nodup := tree.nodup.sublist (List.filter_sublist.map Prod.fst)

/-- A directory where nothing stands. -/
def addDir (tree : FileTree) (p : Place) (h : tree.kind p = none) : FileTree where
  nodes := tree.nodes ++ [(p, .dir)]
  nodup := by
    unfold kind at h
    split at h
    next => cases h
    next =>
        rw [Option.map_eq_none_iff, List.find?_eq_none] at h
        rw [List.map_append, List.nodup_append]
        refine ⟨tree.nodup, by simp, ?_⟩
        intro q hq q' hq' heq
        obtain ⟨n, hn, rfl⟩ := List.mem_map.mp hq
        obtain rfl : q' = p := List.mem_singleton.mp hq'
        exact h n hn (by simpa using heq)

/-! ## The calls -/

/-- Why a path leads nowhere. -/
inductive WalkError
  | missing
  | notDir
  deriving DecidableEq

/-- The place that a path leads to: everything before its last component is a directory. -/
def walk (tree : FileTree) : Place → List Str → Except WalkError Place
  | p, [] => .ok p
  | p, c :: cs =>
      match tree.kind p with
      | none => .error .missing
      | some .file => .error .notDir
      | some .dir => walk tree (if c = "..".toList then p.dropLast else p ++ [c]) cs

/-- `create_dir_all`, from a directory on. -/
def makeDirs (fault : Place → Option Str) : Place → List Str → FileTree → FileTree × Except Str Unit
  | _, [], tree => (tree, .ok ())
  | p, c :: cs, tree =>
      match h : tree.kind (p ++ [c]) with
      | some .dir => makeDirs fault (p ++ [c]) cs tree
      | some .file => (tree, .error "File exists (os error 17)".toList)
      | none =>
          match fault (p ++ [c]) with
          | some e => (tree, .error e)
          | none => makeDirs fault (p ++ [c]) cs (tree.addDir (p ++ [c]) h)

section Removal

variable (fault : Place → Option Str)

/-- Something at the place or below it cannot be removed. -/
def stays (tree : FileTree) (p : Place) : Bool :=
  tree.nodes.any fun n => p.isPrefixOf n.1 && (fault n.1).isSome

/-- `remove_file`. -/
def removeFile (tree : FileTree) (p : Place) : FileTree × Except Str Unit :=
  match tree.kind p with
  | none => (tree, .error "No such file or directory (os error 2)".toList)
  | some .dir => (tree, .error "Is a directory (os error 21)".toList)
  | some .file =>
      match fault p with
      | some e => (tree, .error e)
      | none => (tree.keep fun q => q != p, .ok ())

/-- `remove_dir_all`: what a failing call leaves stays there, with the directories that hold it. -/
def removeDirAll (tree : FileTree) (p : Place) : FileTree × Except Str Unit :=
  match tree.kind p with
  | none => (tree, .error "No such file or directory (os error 2)".toList)
  | some .file => (tree, .error "Not a directory (os error 20)".toList)
  | some .dir =>
      (tree.keep fun q => !(p.isPrefixOf q && !tree.stays fault q),
        match tree.nodes.findSome? fun n => if p.isPrefixOf n.1 then fault n.1 else none with
        | some e => .error e
        | none => .ok ())

end Removal

/-! ## Keeping some of the places -/

section Keep

variable {tree : FileTree} {f g : Place → Bool}

@[simp] theorem mem_keep {n : Place × PlaceKind} :
    n ∈ (tree.keep f).nodes ↔ n ∈ tree.nodes ∧ f n.1 = true :=
  List.mem_filter

theorem ext_nodes {tree' : FileTree} (h : tree.nodes = tree'.nodes) : tree = tree' := by
  cases tree
  cases tree'
  cases h
  rfl

theorem keep_congr (h : ∀ n ∈ tree.nodes, f n.1 = g n.1) : tree.keep f = tree.keep g :=
  ext_nodes (List.filter_congr h)

theorem keep_eq_self (h : ∀ n ∈ tree.nodes, f n.1 = true) : tree.keep f = tree :=
  ext_nodes (List.filter_eq_self.mpr h)

theorem keep_keep (tree : FileTree) (f g : Place → Bool) :
    (tree.keep f).keep g = tree.keep fun q => f q && g q := by
  refine ext_nodes ?_
  show (tree.nodes.filter _).filter _ = _
  rw [List.filter_filter]
  exact List.filter_congr fun n _ => Bool.and_comm _ _

theorem kind_eq_none_iff {p : Place} : tree.kind p = none ↔ p ≠ [] ∧ ∀ n ∈ tree.nodes, n.1 ≠ p := by
  unfold kind
  split
  next h => simp [h]
  next h => simp [h]

theorem eq_of_entryName {p : Place} {n : Place × PlaceKind} {e : Str} (h : entryName p n = some e) :
    n.1 = p ++ [e] := by
  unfold entryName at h
  obtain ⟨e', -, he⟩ := Option.bind_eq_some_iff.mp h
  split at he
  next hplace =>
      cases he
      exact hplace
  next => cases he

/-- A directory lists no name twice. -/
theorem names_nodup (tree : FileTree) (p : Place) : (tree.names p).Nodup := by
  unfold names List.Nodup
  rw [List.pairwise_filterMap]
  have hplaces := List.pairwise_map.mp tree.nodup
  refine hplaces.imp ?_
  intro n n' hne e he e' he' heq
  apply hne
  rw [eq_of_entryName he, eq_of_entryName he', heq]

/-- A place that is kept has what stood there. -/
theorem kind_keep {p : Place} (hp : f p = true) : (tree.keep f).kind p = tree.kind p := by
  unfold kind
  split
  next => rfl
  next =>
      congr 1
      show (tree.nodes.filter _).find? _ = _
      rw [List.find?_filter]
      congr 1
      funext n
      by_cases hn : n.1 = p
      · simp [hn, hp]
      · simp [hn]

theorem kind_of_kind_keep {p : Place} {k : PlaceKind} (h : (tree.keep f).kind p = some k) :
    tree.kind p = some k := by
  by_cases hp : f p = true
  · rw [← kind_keep hp]
    exact h
  · unfold kind at h ⊢
    split at h
    next hroot => rw [if_pos hroot]; exact h
    next hroot =>
        obtain ⟨n, hn, -⟩ := Option.map_eq_some_iff.mp h
        have hplace : n.1 = p := by simpa using List.find?_some hn
        have hkept := (mem_keep.mp (List.mem_of_find?_eq_some hn)).2
        rw [hplace] at hkept
        exact absurd hkept hp

/-- A path that leads somewhere led there before. -/
theorem walk_of_walk_keep {p q : Place} {cs : List Str} (h : (tree.keep f).walk p cs = .ok q) :
    tree.walk p cs = .ok q := by
  induction cs generalizing p with
  | nil => exact h
  | cons c cs ih =>
      rw [walk] at h ⊢
      split at h
      next => cases h
      next => cases h
      next hdir =>
          rw [kind_of_kind_keep hdir]
          exact ih h

theorem stays_keep {fault : Place → Option Str} {p : Place} (hp : ∀ q, p <+: q → f q = true) :
    (tree.keep f).stays fault p = tree.stays fault p := by
  unfold stays
  show (tree.nodes.filter _).any _ = _
  rw [List.any_filter]
  refine List.any_congr rfl fun n => ?_
  by_cases hn : p <+: n.1
  · simp [hp n.1 hn]
  · have hfalse : p.isPrefixOf n.1 = false := by
      rw [← Bool.not_eq_true, List.isPrefixOf_iff_prefix]
      exact hn
    simp [hfalse]

end Keep

/-! ## What is made -/

section MakeDirs

variable {fault : Place → Option Str} {tree : FileTree}

/-- Nothing is removed, and what is new are directories on the way. -/
theorem makeDirs_nodes (fault : Place → Option Str) (p : Place) (cs : List Str) (tree : FileTree) :
    ∃ new, (makeDirs fault p cs tree).1.nodes = tree.nodes ++ new ∧
      ∀ n ∈ new, n.1 <+: p ++ cs ∧ tree.kind n.1 = none := by
  induction cs generalizing p tree with
  | nil => exact ⟨[], (List.append_nil _).symm, fun n hn => by cases hn⟩
  | cons c cs ih =>
      have hpath : p ++ c :: cs = p ++ [c] ++ cs := by simp
      rw [makeDirs]
      split
      next =>
          rw [hpath]
          exact ih (p ++ [c]) tree
      next => exact ⟨[], (List.append_nil _).symm, fun n hn => by cases hn⟩
      next h =>
          split
          next => exact ⟨[], (List.append_nil _).symm, fun n hn => by cases hn⟩
          next =>
              obtain ⟨new, hnodes, hnew⟩ := ih (p ++ [c]) (tree.addDir (p ++ [c]) h)
              refine ⟨(p ++ [c], .dir) :: new, ?_, ?_⟩
              · rw [hnodes]
                show tree.nodes ++ [(p ++ [c], .dir)] ++ new = _
                rw [List.append_assoc, List.singleton_append]
              · rw [hpath, List.forall_mem_cons]
                refine ⟨⟨List.prefix_append _ _, h⟩, fun n hn => ⟨(hnew n hn).1, ?_⟩⟩
                have hnone := kind_eq_none_iff.mp (hnew n hn).2
                exact kind_eq_none_iff.mpr ⟨hnone.1, fun n' hn' =>
                  hnone.2 n' (List.mem_append_left _ hn')⟩

/-- A directory that is added stands there, and elsewhere nothing changes. -/
theorem kind_addDir {p : Place} (h : tree.kind p = none) (q : Place) :
    (tree.addDir p h).kind q = if q = p then some .dir else tree.kind q := by
  have hp : p ≠ [] := (kind_eq_none_iff.mp h).1
  unfold kind
  show (if q = [] then _ else Option.map Prod.snd ((tree.nodes ++ [(p, PlaceKind.dir)]).find? _)) = _
  rw [List.find?_append]
  by_cases hq : q = p
  · subst hq
    have hnone : tree.nodes.find? (fun n => n.1 == q) = none := by
      rw [List.find?_eq_none]
      intro n hn
      simpa using (kind_eq_none_iff.mp h).2 n hn
    rw [if_neg hp, if_pos rfl, hnone]
    simp
  · rw [if_neg hq]
    have hne : ¬p = q := fun heq => hq heq.symm
    simp [hne]

/-- **Every directory on the way is there or can be made**: exactly then `create_dir_all` succeeds. -/
theorem makeDirs_ok_iff (p : Place) (cs : List Str) :
    (makeDirs fault p cs tree).2 = .ok () ↔ ∀ q, p <+: q → q ≠ p → q <+: p ++ cs →
      tree.kind q = some .dir ∨ tree.kind q = none ∧ fault q = none := by
  induction cs generalizing p tree with
  | nil =>
      refine ⟨fun _ q hpq hne hq => ?_, fun _ => rfl⟩
      rw [List.append_nil] at hq
      exact absurd (hq.eq_of_length (Nat.le_antisymm hq.length_le hpq.length_le)) hne
  | cons c cs ih =>
      have hpath : p ++ c :: cs = p ++ [c] ++ cs := by simp
      have hstep : ∀ {q : Place}, p <+: q → q ≠ p → q <+: p ++ c :: cs → p ++ [c] <+: q := by
        rintro q ⟨t, rfl⟩ hne hq
        rw [List.prefix_append_right_inj] at hq ⊢
        cases t with
        | nil => exact absurd (List.append_nil p) hne
        | cons c' t =>
            rw [List.cons_prefix_cons] at hq
            exact List.cons_prefix_cons.mpr ⟨hq.1.symm, List.nil_prefix⟩
      have hhere : p ++ [c] ≠ p := by simp
      -- the first directory on the way, and the others
      have hsplit : (∀ q, p <+: q → q ≠ p → q <+: p ++ c :: cs →
            tree.kind q = some .dir ∨ tree.kind q = none ∧ fault q = none) ↔
          (tree.kind (p ++ [c]) = some .dir ∨
              tree.kind (p ++ [c]) = none ∧ fault (p ++ [c]) = none) ∧
            ∀ q, p ++ [c] <+: q → q ≠ p ++ [c] → q <+: p ++ [c] ++ cs →
              tree.kind q = some .dir ∨ tree.kind q = none ∧ fault q = none := by
        constructor
        · intro h
          refine ⟨h _ (List.prefix_append _ _) hhere (by simp), fun q hpq _ hq => ?_⟩
          refine h q ((List.prefix_append _ _).trans hpq) ?_ (by rw [hpath]; exact hq)
          rintro rfl
          have hlen := hpq.length_le
          rw [List.length_append, List.length_singleton] at hlen
          omega
        · rintro ⟨hfirst, hrest⟩ q hpq hne hq
          by_cases heq : q = p ++ [c]
          · rw [heq]
            exact hfirst
          · exact hrest q (hstep hpq hne hq) heq (by rw [← hpath]; exact hq)
      rw [hsplit, makeDirs]
      split
      next h => simp [h, ih]
      next h => simp [h]
      next h =>
          cases hfault : fault (p ++ [c]) with
          | some e => simp [h]
          | none =>
              dsimp only
              rw [ih]
              have hrest : (∀ q, p ++ [c] <+: q → q ≠ p ++ [c] → q <+: p ++ [c] ++ cs →
                    (tree.addDir (p ++ [c]) h).kind q = some .dir ∨
                      (tree.addDir (p ++ [c]) h).kind q = none ∧ fault q = none) ↔
                  ∀ q, p ++ [c] <+: q → q ≠ p ++ [c] → q <+: p ++ [c] ++ cs →
                    tree.kind q = some .dir ∨ tree.kind q = none ∧ fault q = none := by
                refine forall_congr' fun q => ?_
                refine imp_congr_right fun _ => imp_congr_right fun hne => ?_
                rw [kind_addDir, if_neg hne]
              rw [hrest]
              simp [h]

section More

variable {tree' : FileTree} {new : List (Place × PlaceKind)}

/-- What stands somewhere stands there when more is added. -/
theorem kind_append (h : tree'.nodes = tree.nodes ++ new) {q : Place} {k : PlaceKind}
    (hk : tree.kind q = some k) : tree'.kind q = some k := by
  unfold kind at hk ⊢
  split at hk
  next hroot =>
      rw [if_pos hroot]
      exact hk
  next hroot =>
      rw [if_neg hroot, h, List.find?_append]
      obtain ⟨n, hn, hkind⟩ := Option.map_eq_some_iff.mp hk
      rw [hn, Option.some_or, Option.map_some, hkind]

theorem kind_append_of_ne (h : tree'.nodes = tree.nodes ++ new) {q : Place} (hne : ∀ n ∈ new, n.1 ≠ q) :
    tree'.kind q = tree.kind q := by
  have hnone : new.find? (fun n => n.1 == q) = none := by
    rw [List.find?_eq_none]
    intro n hn
    simpa using hne n hn
  unfold kind
  rw [h, List.find?_append, hnone, Option.or_none]

theorem stays_append {fault : Place → Option Str} (h : tree'.nodes = tree.nodes ++ new) {q : Place}
    (hne : ∀ n ∈ new, ¬q <+: n.1) : tree'.stays fault q = tree.stays fault q := by
  unfold stays
  rw [h, List.any_append, Bool.or_eq_left_iff_imp]
  intro hany
  obtain ⟨n, hn, hboth⟩ := List.any_eq_true.mp hany
  rw [Bool.and_eq_true, List.isPrefixOf_iff_prefix] at hboth
  exact absurd hboth.1 (hne n hn)

end More

/-- After `create_dir_all` there are directories all the way. -/
theorem kind_makeDirs {p q : Place} {cs : List Str} (hp : tree.kind p = some .dir)
    (hok : (makeDirs fault p cs tree).2 = .ok ()) (hpq : p <+: q) (hq : q <+: p ++ cs) :
    (makeDirs fault p cs tree).1.kind q = some .dir := by
  induction cs generalizing p tree with
  | nil =>
      rw [List.append_nil] at hq
      rw [hq.eq_of_length (Nat.le_antisymm hq.length_le hpq.length_le)]
      exact hp
  | cons c cs ih =>
      obtain ⟨t, rfl⟩ := hpq
      cases t with
      | nil =>
          rw [List.append_nil]
          obtain ⟨new, hnodes, -⟩ := makeDirs_nodes fault p (c :: cs) tree
          exact kind_append hnodes hp
      | cons c' t =>
          rw [List.prefix_append_right_inj, List.cons_prefix_cons] at hq
          obtain ⟨rfl, ht⟩ := hq
          have hfrom : p ++ [c'] <+: p ++ c' :: t := ⟨t, by simp⟩
          have hbelow : p ++ c' :: t <+: p ++ [c'] ++ cs := by
            simpa using (List.prefix_append_right_inj (p ++ [c'])).mpr ht
          unfold makeDirs at hok ⊢
          split at hok
          next h => exact ih h hok hfrom hbelow
          next h => cases hok
          next h =>
              split at hok
              next => cases hok
              next hfault =>
                  have hadded : (tree.addDir (p ++ [c']) h).kind (p ++ [c']) = some .dir := by
                    rw [kind_addDir, if_pos rfl]
                  exact ih hadded hok hfrom hbelow

end MakeDirs

/-! ## What is removed -/

section Removed

variable {fault : Place → Option Str} {tree : FileTree} {p : Place}

variable (fault tree p) in
/-- What `remove_dir_all` removes. -/
def removesAll (q : Place) : Bool :=
  tree.kind p == some .dir && (p.isPrefixOf q && !tree.stays fault q)

theorem removeDirAll_tree :
    (tree.removeDirAll fault p).1 = tree.keep fun q => !removesAll fault tree p q := by
  unfold removeDirAll removesAll
  split
  next h => exact (keep_eq_self fun n _ => by simp [h]).symm
  next h => exact (keep_eq_self fun n _ => by simp [h]).symm
  next h =>
      dsimp only
      exact keep_congr fun n _ => by simp [h]

/-- Everything is removed exactly when no call fails. -/
theorem removeDirAll_ok_iff :
    (tree.removeDirAll fault p).2 = .ok () ↔ tree.kind p = some .dir ∧ tree.stays fault p = false := by
  unfold removeDirAll stays
  split
  next h => simp [h]
  next h => simp [h]
  next h =>
      rw [and_iff_right h]
      cases hfind : tree.nodes.findSome? fun n => if p.isPrefixOf n.1 then fault n.1 else none with
      | some e =>
          obtain ⟨l, n, l', hl, hn, -⟩ := List.findSome?_eq_some_iff.mp hfind
          constructor
          · intro hok
            cases hok
          intro hany
          rw [List.any_eq_false] at hany
          have hnot := hany n (by rw [hl]; simp)
          split at hn
          next hbelow => simp [hbelow, hn] at hnot
          next => cases hn
      | none =>
          refine ⟨fun _ => ?_, fun _ => rfl⟩
          rw [List.any_eq_false]
          intro n hn
          have hnone := List.findSome?_eq_none_iff.mp hfind n hn
          split at hnone
          next => simp [hnone]
          next hbelow => simp [hbelow]

/-- What is kept outside a tree does not matter to the removal of the tree. -/
theorem removesAll_keep {f : Place → Bool} (hp : ∀ q, p <+: q → f q = true) :
    removesAll fault (tree.keep f) p = removesAll fault tree p := by
  funext q
  unfold removesAll
  rw [kind_keep (hp p List.prefix_rfl)]
  by_cases hq : p <+: q
  · rw [stays_keep fun q' hq' => hp q' (hq.trans hq')]
  · have hfalse : p.isPrefixOf q = false := by
      rw [← Bool.not_eq_true, List.isPrefixOf_iff_prefix]
      exact hq
    rw [hfalse, Bool.false_and, Bool.false_and]

variable (fault tree p) in
/-- What `remove_file` removes. -/
def removesFile (q : Place) : Bool := tree.kind p == some .file && ((fault p).isNone && q == p)

theorem removeFile_tree : (tree.removeFile fault p).1 = tree.keep fun q => !removesFile fault tree p q := by
  unfold removeFile removesFile
  split
  next h => exact (keep_eq_self fun n _ => by simp [h]).symm
  next h => exact (keep_eq_self fun n _ => by simp [h]).symm
  next h =>
      cases hfault : fault p with
      | some e => exact (keep_eq_self fun n _ => by simp).symm
      | none =>
          dsimp only
          exact keep_congr fun n _ => by simp [h, bne]

theorem removeFile_ok_iff :
    (tree.removeFile fault p).2 = .ok () ↔ tree.kind p = some .file ∧ fault p = none := by
  unfold removeFile
  split
  next h => simp [h]
  next h => simp [h]
  next h => cases hfault : fault p <;> simp [h]

theorem prefix_of_removesAll {q : Place} (h : removesAll fault tree p q = true) : p <+: q := by
  unfold removesAll at h
  simp only [Bool.and_eq_true] at h
  exact List.isPrefixOf_iff_prefix.mp h.2.1

end Removed

end FileTree

end Text
end Aimx
