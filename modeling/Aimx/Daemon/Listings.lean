import Mathlib.Data.List.Dedup
import Aimx.Daemon.Commit
import Aimx.Mcp.Unread
import Aimx.Text.StableSort

/-!
# The listings of the daemon

`MAILBOX-LIST` and `HOOK-LIST`: the daemon answers with the rows of the mailboxes that the caller may see,
from the configuration in memory and one pass over the folders.

* `collectMailboxRows`, `collectHookRows` — the two functions `collect_rows` of the source;
* `view` — what a user sees of one mailbox name;
* `collectMailboxRows_congr`, `collectHookRows_congr` — an answer is a function of the views, whatever the
  order in which the mailboxes are visited;
* `listed_iff` — what is listed is what the caller may delete.
-/

namespace Aimx
namespace Daemon

open Text

/-! ## The handlers -/

/-- `MailboxListRow`. -/
structure MailboxListRow where
  name : Str
  address : Option Str
  inboxPath : Str
  sentPath : Str
  total : Nat
  unread : Nat
  sentCount : Nat
  registered : Bool
  deriving DecidableEq

/-- `HookListRow`. -/
structure HookListRow where
  name : Str
  mailbox : Str
  event : HookEvent
  cmd : List Str
  fireOnUntrusted : Bool
  timeoutSecs : UInt32
  deriving DecidableEq

/-- A message as a pass over the folder meets it. -/
def Item.entry (name : Str) : Item → Mcp.InboxEntry
  | .file content =>
      { name := utf8 name, kind := .file, text := .bytes content, isDir := false, found := true }
  | .bundle files =>
      match files.find? fun f => f.1 = name ++ ".md".toList with
      | some f => { name := utf8 name, kind := .dir, text := .bytes f.2, isDir := true, found := true }
      | none => { name := utf8 name, kind := .dir, text := .missing, isDir := true, found := false }

/-- `read_dir` of a folder. -/
def Disk.entries (disk : Disk) (side : Side) (name : Str) : Option (List Mcp.InboxEntry) :=
  (disk.messages side name).map fun items => items.map fun e => e.2.entry e.1

/-- `mailbox::count_messages`. -/
def countMailboxMessages (dir : Option (List Mcp.InboxEntry)) : Nat :=
  match dir with
  | none => 0
  | some entries => (entries.filterMap Mcp.InboxEntry.message?).length

/-- `caller_owns`. -/
def callerOwns (db : UserDb) (config : Config) (name : Str) (uid : UInt32) : Bool :=
  match config.mailboxes.lookup name with
  | none => false
  | some mb =>
      match db.ownerUid mb with
      | .ok owner => owner == uid
      | .error _ => false

/-- `inbox_owner_uid`, for a directory. -/
def inboxOwnerUid (disk : Disk) (name : Str) : Option UInt32 :=
  match disk.nodes .inbox name with
  | some (.folder f) => some f.uid
  | _ => none

/-- `is_visible_to` of the mailbox listing. -/
def isVisibleTo (db : UserDb) (config : Config) (disk : Disk) (name : Str) (uid : UInt32) : Bool :=
  if uid = 0 then true
  else if name ∈ config.mailboxes then callerOwns db config name uid
  else (inboxOwnerUid disk name).any fun owner => owner == uid

/-- `is_visible_to` of the hook listing. -/
def isHookVisibleTo (db : UserDb) (config : Config) (name : Str) (uid : UInt32) : Bool :=
  if uid = 0 then true else callerOwns db config name uid

/-- `discover_mailbox_names`, with the names of the directories in `inbox/` if that can be read. -/
def discoverMailboxNames (config : Config) (inboxRoot : Option (List Str)) : List Str :=
  (config.mailboxes.keys ++ inboxRoot.getD []).dedup.mergeSort Mcp.atMost

/-- The row of a mailbox. -/
def mailboxRow (config : Config) (disk : Disk) (name : Str) : MailboxListRow where
  name := name
  address := (config.mailboxes.lookup name).map MailboxConfig.address
  inboxPath := config.inboxDir name
  sentPath := config.sentDir name
  total := (Mcp.countInbox (disk.entries .inbox name)).1
  unread := (Mcp.countInbox (disk.entries .inbox name)).2
  sentCount := countMailboxMessages (disk.entries .sent name)
  registered := decide (name ∈ config.mailboxes)

/-- `collect_rows` of the mailbox listing. -/
def collectMailboxRows (db : UserDb) (world : World) (inboxRoot : Option (List Str)) (uid : UInt32) :
    List MailboxListRow :=
  (((discoverMailboxNames world.memory inboxRoot).filter fun name =>
    isVisibleTo db world.memory world.disk name uid).map (mailboxRow world.memory world.disk)).mergeSort
      fun a b => Mcp.atMost a.name b.name

/-- The row of a hook. -/
def hookRow (sha256 : Bytes → Bytes) (mailbox : Str) (hook : Hook) : HookListRow where
  name := effectiveHookName sha256 hook
  mailbox := mailbox
  event := hook.event
  cmd := hook.cmd
  fireOnUntrusted := hook.fireOnUntrusted
  timeoutSecs := hook.timeoutSecs

/-- The order of the hook listing: by mailbox, event and name. -/
def HookListRow.atMost : HookListRow → HookListRow → Bool :=
  thenWith (fun a b => Mcp.atMost a.mailbox b.mailbox)
    (thenWith (fun a b => Mcp.atMost a.event.asStr b.event.asStr) fun a b => Mcp.atMost a.name b.name)

/-- `collect_rows` of the hook listing. -/
def collectHookRows (db : UserDb) (sha256 : Bytes → Bytes) (config : Config) (uid : UInt32) :
    List HookListRow :=
  (config.mailboxes.entries.flatMap fun e =>
    if isHookVisibleTo db config e.1 uid then e.2.hooks.map (hookRow sha256 e.1) else []).mergeSort
      HookListRow.atMost

/-! ## The orders -/

theorem atMost_antisymm {s t : Str} (hst : Mcp.atMost s t = true) (hts : Mcp.atMost t s = true) : s = t := by
  induction s generalizing t with
  | nil =>
      cases t with
      | nil => rfl
      | cons b t => cases hts
  | cons a s ih =>
      cases t with
      | nil => cases hst
      | cons b t =>
          simp only [Mcp.atMost, Bool.or_eq_true, decide_eq_true_eq, Bool.and_eq_true, beq_iff_eq] at hst hts
          rcases hst with hlt | ⟨rfl, hst⟩
          · rcases hts with hgt | ⟨rfl, -⟩
            · omega
            · omega
          · rcases hts with hgt | ⟨-, hts⟩
            · omega
            · rw [ih hst hts]

/-- The comparison of texts, of a text of each row. -/
theorem comparison_atMost {α : Type} (f : α → Str) : Comparison fun a b => Mcp.atMost (f a) (f b) :=
  ⟨fun _ _ _ => Mcp.atMost_trans, fun _ _ => Mcp.atMost_total _ _⟩

theorem comparison_atMost_rows : Comparison HookListRow.atMost :=
  (comparison_atMost HookListRow.mailbox).thenWith
    ((comparison_atMost fun row => row.event.asStr).thenWith (comparison_atMost HookListRow.name))

/-- Rows of hooks that come in both orders are of one mailbox. -/
theorem HookListRow.mailbox_eq {a b : HookListRow} (hab : a.atMost b = true) (hba : b.atMost a = true) :
    a.mailbox = b.mailbox :=
  atMost_antisymm (thenWith_eq_true_iff.mp hab).1 (thenWith_eq_true_iff.mp hba).1

/-! ## What a user sees -/

section Views

variable {db : UserDb} {world world' : World} {uid : UInt32} {name : Str}

/-- A name in the listing: a mailbox, or a directory in `inbox/`. -/
def World.Shows (world : World) (name : Str) : Prop :=
  name ∈ world.memory.mailboxes ∨ (inboxOwnerUid world.disk name).isSome = true

instance (world : World) (name : Str) : Decidable (world.Shows name) := inferInstanceAs (Decidable (_ ∨ _))

/-- The entry of a mailbox, and what is in its folders. -/
structure Seen where
  mailbox : Option MailboxConfig
  inbox : Option (List Mcp.InboxEntry)
  sent : Option (List Mcp.InboxEntry)

/-- What a user sees of a name. -/
def view (db : UserDb) (world : World) (uid : UInt32) (name : Str) : Option Seen :=
  if world.Shows name ∧ isVisibleTo db world.memory world.disk name uid = true then
    some ⟨world.memory.mailboxes.lookup name, world.disk.entries .inbox name, world.disk.entries .sent name⟩
  else none

/-- The names of the directories in `inbox/`, in any order. -/
def Lists (disk : Disk) (names : List Str) : Prop :=
  ∀ name, name ∈ names ↔ (inboxOwnerUid disk name).isSome = true

theorem mem_discoverMailboxNames {names : List Str} (h : Lists world.disk names) :
    name ∈ discoverMailboxNames world.memory (some names) ↔ world.Shows name := by
  rw [discoverMailboxNames, List.mem_mergeSort, List.mem_dedup, List.mem_append, ← AList.mem_keys,
    Option.getD_some, h name]
  exact Iff.rfl

/-- The names that a user sees. -/
theorem mem_visible {names : List Str} (h : Lists world.disk names) :
    name ∈ (discoverMailboxNames world.memory (some names)).filter
        (fun name => isVisibleTo db world.memory world.disk name uid) ↔
      (view db world uid name).isSome = true := by
  rw [List.mem_filter, mem_discoverMailboxNames h, view]
  split
  next hseen => exact iff_of_true hseen rfl
  next hnot => exact iff_of_false hnot (by simp)

theorem nodup_visible (names : List Str) :
    ((discoverMailboxNames world.memory (some names)).filter
      fun name => isVisibleTo db world.memory world.disk name uid).Nodup :=
  ((List.mergeSort_perm _ _).nodup_iff.mpr (List.nodup_dedup _)).filter _

/-- A row says nothing but what the user sees of its name. -/
theorem mailboxRow_congr (hdir : world'.memory.dataDir = world.memory.dataDir)
    (hview : view db world' uid name = view db world uid name)
    (hseen : (view db world uid name).isSome = true) :
    mailboxRow world'.memory world'.disk name = mailboxRow world.memory world.disk name := by
  have hseen' : (view db world' uid name).isSome = true := hview ▸ hseen
  unfold view at hview hseen hseen'
  split at hseen
  next hshows =>
      split at hseen'
      next hshows' =>
          rw [if_pos hshows, if_pos hshows', Option.some.injEq, Seen.mk.injEq] at hview
          obtain ⟨hlookup, hinbox, hsent⟩ := hview
          have hmem : name ∈ world'.memory.mailboxes ↔ name ∈ world.memory.mailboxes := by
            rw [← AList.lookup_isSome, ← AList.lookup_isSome, hlookup]
          simp only [mailboxRow, Config.inboxDir, Config.sentDir, hdir, hlookup, hinbox, hsent, hmem]
      next => cases hseen'
  next => cases hseen

/-- **MAILBOX-LIST is a function of what the caller sees**, in whatever order `inbox/` is read. -/
theorem collectMailboxRows_congr {names names' : List Str} (hnames : Lists world.disk names)
    (hnames' : Lists world'.disk names') (hdir : world'.memory.dataDir = world.memory.dataDir)
    (hview : ∀ name, view db world' uid name = view db world uid name) :
    collectMailboxRows db world' (some names') uid = collectMailboxRows db world (some names) uid := by
  unfold collectMailboxRows
  have hperm : ((discoverMailboxNames world'.memory (some names')).filter
      fun name => isVisibleTo db world'.memory world'.disk name uid).Perm
        ((discoverMailboxNames world.memory (some names)).filter
          fun name => isVisibleTo db world.memory world.disk name uid) := by
    refine (List.perm_ext_iff_of_nodup (nodup_visible names') (nodup_visible names)).mpr fun name => ?_
    rw [mem_visible hnames', mem_visible hnames, hview]
  have hrows : ((discoverMailboxNames world'.memory (some names')).filter
      fun name => isVisibleTo db world'.memory world'.disk name uid).map
        (mailboxRow world'.memory world'.disk) =
      ((discoverMailboxNames world'.memory (some names')).filter
        fun name => isVisibleTo db world'.memory world'.disk name uid).map
          (mailboxRow world.memory world.disk) := by
    refine List.map_congr_left fun name hname => ?_
    rw [mem_visible hnames', hview] at hname
    exact mailboxRow_congr hdir (hview name) hname
  -- each name is a group of one row, and the names differ, so no rank is shared
  rw [hrows, List.map_eq_flatMap, List.map_eq_flatMap]
  refine mergeSort_flatMap_perm (comparison_atMost MailboxListRow.name) hperm ?_
  intro k _ k' _ x hx y hy hxy hyx
  rw [List.mem_singleton] at hx hy
  subst hx hy
  exact atMost_antisymm hxy hyx

/-- The rows of the hooks on one mailbox. -/
def hookRowsOf (db : UserDb) (sha256 : Bytes → Bytes) (config : Config) (uid : UInt32) (name : Str) :
    List HookListRow :=
  match config.mailboxes.lookup name with
  | none => []
  | some mb => if isHookVisibleTo db config name uid then mb.hooks.map (hookRow sha256 name) else []

theorem collectHookRows_eq (sha256 : Bytes → Bytes) (config : Config) :
    collectHookRows db sha256 config uid =
      (config.mailboxes.keys.flatMap (hookRowsOf db sha256 config uid)).mergeSort HookListRow.atMost := by
  unfold collectHookRows
  congr 1
  show _ = (config.mailboxes.entries.map Sigma.fst).flatMap _
  rw [List.flatMap_map]
  refine List.flatMap_congr fun e he => ?_
  have hlookup : config.mailboxes.lookup e.1 = some e.2 := AList.mem_lookup_iff.mpr he
  simp only [hookRowsOf, hlookup]

/-- The hooks of what a user sees. -/
def Seen.hookRows (sha256 : Bytes → Bytes) (name : Str) (seen : Seen) : List HookListRow :=
  match seen.mailbox with
  | none => []
  | some mb => mb.hooks.map (hookRow sha256 name)

theorem hookRowsOf_eq (sha256 : Bytes → Bytes) :
    hookRowsOf db sha256 world.memory uid name =
      ((view db world uid name).map (Seen.hookRows sha256 name)).getD [] := by
  unfold hookRowsOf view
  cases hlookup : world.memory.mailboxes.lookup name with
  | none =>
      dsimp only
      by_cases hsees : world.Shows name ∧ isVisibleTo db world.memory world.disk name uid = true
      · rw [if_pos hsees]
        rfl
      · rw [if_neg hsees]
        rfl
  | some mb =>
      have hmem : name ∈ world.memory.mailboxes := AList.lookup_isSome.mp (by rw [hlookup]; rfl)
      have hshows : world.Shows name := Or.inl hmem
      have hvisible : isVisibleTo db world.memory world.disk name uid =
          isHookVisibleTo db world.memory name uid := by
        unfold isVisibleTo isHookVisibleTo
        rw [if_pos hmem]
      rw [hvisible]
      dsimp only
      by_cases hsees : isHookVisibleTo db world.memory name uid = true
      · rw [if_pos hsees, if_pos ⟨hshows, hsees⟩]
        rfl
      · rw [if_neg hsees, if_neg fun h => hsees h.2]
        rfl

theorem mailbox_of_mem_hookRowsOf {sha256 : Bytes → Bytes} {config : Config} {row : HookListRow}
    (h : row ∈ hookRowsOf db sha256 config uid name) : row.mailbox = name := by
  unfold hookRowsOf at h
  split at h
  next => cases h
  next =>
      split at h
      next =>
          obtain ⟨hook, -, rfl⟩ := List.mem_map.mp h
          rfl
      next => cases h

/-- The mailboxes without a row can be left out. -/
theorem flatMap_filter_ne_nil {α β : Type} [DecidableEq β] (f : α → List β) (l : List α) :
    l.flatMap f = (l.filter fun a => decide (f a ≠ [])).flatMap f := by
  induction l with
  | nil => rfl
  | cons a l ih =>
      rw [List.flatMap_cons, List.filter_cons]
      split
      next => rw [List.flatMap_cons, ih]
      next hempty =>
          rw [decide_eq_true_eq, not_not] at hempty
          rw [hempty, List.nil_append, ih]

/-- **HOOK-LIST is a function of what the caller sees**, in whatever order the mailboxes are visited. -/
theorem collectHookRows_congr (sha256 : Bytes → Bytes)
    (hview : ∀ name, view db world' uid name = view db world uid name) :
    collectHookRows db sha256 world'.memory uid = collectHookRows db sha256 world.memory uid := by
  have hrows : hookRowsOf db sha256 world'.memory uid = hookRowsOf db sha256 world.memory uid := by
    funext name
    rw [hookRowsOf_eq, hookRowsOf_eq, hview]
  have hkey : ∀ (w : World) name, hookRowsOf db sha256 w.memory uid name ≠ [] →
      name ∈ w.memory.mailboxes.keys := by
    intro w name hne
    rw [← AList.mem_keys, ← AList.lookup_isSome]
    unfold hookRowsOf at hne
    cases hlookup : w.memory.mailboxes.lookup name with
    | none => simp [hlookup] at hne
    | some mb => rfl
  -- the mailboxes of the two configurations may differ, but not those with a row that is seen
  rw [collectHookRows_eq, collectHookRows_eq, hrows, flatMap_filter_ne_nil _ world'.memory.mailboxes.keys,
    flatMap_filter_ne_nil _ world.memory.mailboxes.keys]
  refine mergeSort_flatMap_perm comparison_atMost_rows ?_ ?_
  · refine (List.perm_ext_iff_of_nodup (world'.memory.mailboxes.keys_nodup.filter _)
      (world.memory.mailboxes.keys_nodup.filter _)).mpr fun name => ?_
    rw [List.mem_filter, List.mem_filter, decide_eq_true_eq]
    constructor
    · exact fun h => ⟨hkey world name h.2, h.2⟩
    · exact fun h => ⟨hkey world' name (hrows ▸ h.2), h.2⟩
  · intro k _ k' _ x hx y hy hxy hyx
    rw [← mailbox_of_mem_hookRowsOf hx, ← mailbox_of_mem_hookRowsOf hy]
    exact HookListRow.mailbox_eq hxy hyx

end Views

/-! ## What is listed can be deleted -/

section Deletable

variable {env : HandlerEnv} {config : Config} {uid : UInt32} {name mailbox : Str}

/-- HOOK-LIST shows a hook of this name on this mailbox. -/
def ListsHook (env : HandlerEnv) (config : Config) (uid : UInt32) (name mailbox : Str) : Prop :=
  ∃ row ∈ collectHookRows env.users env.sha256 config uid, row.name = name ∧ row.mailbox = mailbox

theorem listsHook_iff : ListsHook env config uid name mailbox ↔
    ∃ mb hook, config.mailboxes.lookup mailbox = some mb ∧
      isHookVisibleTo env.users config mailbox uid = true ∧ hook ∈ mb.hooks ∧
        effectiveHookName env.sha256 hook = name := by
  unfold ListsHook
  rw [collectHookRows_eq]
  constructor
  · rintro ⟨row, hrow, hname, hmailbox⟩
    obtain ⟨m, -, hmem⟩ := List.mem_flatMap.mp (List.mem_mergeSort.mp hrow)
    obtain rfl : m = mailbox := (mailbox_of_mem_hookRowsOf hmem).symm.trans hmailbox
    unfold hookRowsOf at hmem
    split at hmem
    next => cases hmem
    next mb hmb =>
        split at hmem
        next hsees =>
            obtain ⟨hook, hhook, rfl⟩ := List.mem_map.mp hmem
            exact ⟨mb, hook, hmb, hsees, hhook, hname⟩
        next => cases hmem
  · rintro ⟨mb, hook, hmb, hsees, hhook, hname⟩
    refine ⟨hookRow env.sha256 mailbox hook, List.mem_mergeSort.mpr (List.mem_flatMap.mpr ⟨mailbox, ?_, ?_⟩),
      hname, rfl⟩
    · exact AList.mem_keys.mp (AList.lookup_isSome.mp (by rw [hmb]; rfl))
    · unfold hookRowsOf
      rw [hmb]
      dsimp only
      rw [if_pos hsees]
      exact List.mem_map_of_mem hhook

/-- The mailbox on which HOOK-DELETE finds a name, if it lets the caller. -/
theorem hookDeleteCheck_iff (hdistinct : config.HookNamesDistinct env.sha256) {caller : Caller} :
    hookDeleteCheck env config ⟨name⟩ caller = .ok mailbox ↔
      ∃ mb hook, config.mailboxes.lookup mailbox = some mb ∧ caller.MayActFor mb ∧
        hook ∈ mb.hooks ∧ effectiveHookName env.sha256 hook = name := by
  constructor
  · intro h
    cases hookDeleteCheck_eq_ok h with
    | hookDelete hfind hmb hact =>
        unfold findHookOwner at hfind
        obtain ⟨⟨m, hook⟩, hfound, hm⟩ := Option.map_eq_some_iff.mp hfind
        obtain rfl : m = mailbox := hm
        have hname := List.find?_some hfound
        obtain ⟨mb', hmb', hhook⟩ := Config.mem_allHooks.mp (List.mem_of_find?_eq_some hfound)
        rw [hmb, Option.some_inj] at hmb'
        subst hmb'
        exact ⟨_, hook, hmb, hact, hhook, by simpa using hname⟩
  · rintro ⟨mb, hook, hmb, hact, hhook, hname⟩
    have hmem : (mailbox, hook) ∈ config.allHooks := Config.mem_allHooks.mpr ⟨mb, hmb, hhook⟩
    have hfind : findHookOwner env config name = some mailbox := by
      unfold findHookOwner
      cases hfound : config.allHooks.find? fun h => effectiveHookName env.sha256 h.2 == name with
      | none =>
          have hnone := List.find?_eq_none.mp hfound _ hmem
          simp [hname] at hnone
      | some found =>
          have hfoundName := List.find?_some hfound
          have hsame := hdistinct.unique (List.mem_of_find?_eq_some hfound) hmem
            ((by simpa using hfoundName : effectiveHookName env.sha256 found.2 = name).trans hname.symm)
          rw [hsame]
          rfl
    unfold hookDeleteCheck
    simp only [hfind, hmb, enforceMailboxOwnerOrRoot_eq_ok_iff.mpr hact]

/-- The caller sees a mailbox in HOOK-LIST, and acts for it, by the uid of its owner and by its name. -/
theorem sees_iff_mayActFor {mb : MailboxConfig} (hmb : config.mailboxes.lookup mailbox = some mb) :
    (isHookVisibleTo env.users config mailbox uid = true ↔ (env.users.caller uid).MayActFor mb) ↔
      uid = 0 ∨ Corresponds env.users uid mb.owner := by
  by_cases huid : uid = 0
  · refine iff_of_true (iff_of_true ?_ ?_) (Or.inl huid)
    · rw [isHookVisibleTo, if_pos huid]
    · exact Or.inl (by simp [Caller.isRoot, UserDb.caller, huid])
  · have hsees : isHookVisibleTo env.users config mailbox uid = true ↔ env.users.ownerUid mb = .ok uid := by
      rw [isHookVisibleTo, if_neg huid, callerOwns, hmb]
      dsimp only
      split
      next owner howner => rw [howner, beq_iff_eq, Except.ok.injEq]
      next e howner => rw [howner]; simp
    have hact : (env.users.caller uid).MayActFor mb ↔ env.users.nameOf uid = some mb.owner := by
      have hroot : ¬ (env.users.caller uid).isRoot = true := by
        simpa [Caller.isRoot, UserDb.caller] using huid
      have hname : (env.users.caller uid).username = env.users.nameOf uid := by
        rw [Caller.username, if_neg]
        · rfl
        · exact huid
      rw [Caller.MayActFor, or_iff_right hroot, hname]
    rw [hsees, hact, ownerUid_eq_ok_iff huid, or_iff_right huid]
    exact Iff.rfl

/-- **What HOOK-LIST shows is what HOOK-DELETE finds**, exactly if the names and uids of the owners of hooks
correspond: the listing goes by the uid of an owner, and the deletion by its name. -/
theorem listed_iff (hdistinct : config.HookNamesDistinct env.sha256) :
    (∀ name mailbox, ListsHook env config uid name mailbox ↔
        hookDeleteCheck env config ⟨name⟩ (env.users.caller uid) = .ok mailbox) ↔
      uid = 0 ∨ ∀ mailbox mb, config.mailboxes.lookup mailbox = some mb → mb.hooks ≠ [] →
        Corresponds env.users uid mb.owner := by
  constructor
  · intro h
    by_cases huid : uid = 0
    · exact Or.inl huid
    · refine Or.inr fun mailbox mb hmb hhooks => ?_
      obtain ⟨hook, hhook⟩ := List.exists_mem_of_ne_nil _ hhooks
      have hboth := h (effectiveHookName env.sha256 hook) mailbox
      rw [listsHook_iff, hookDeleteCheck_iff hdistinct] at hboth
      refine ((sees_iff_mayActFor hmb).mp ?_).resolve_left huid
      constructor
      · intro hsees
        obtain ⟨mb', -, hmb', hact, -⟩ := hboth.mp ⟨mb, hook, hmb, hsees, hhook, rfl⟩
        rw [hmb, Option.some_inj] at hmb'
        exact hmb' ▸ hact
      · intro hact
        obtain ⟨-, -, -, hsees, -⟩ := hboth.mpr ⟨mb, hook, hmb, hact, hhook, rfl⟩
        exact hsees
  · intro h name mailbox
    rw [listsHook_iff, hookDeleteCheck_iff hdistinct]
    refine exists_congr fun mb => exists_congr fun hook => and_congr_right fun hmb => ?_
    by_cases hhook : hook ∈ mb.hooks
    · have hagree : isHookVisibleTo env.users config mailbox uid = true ↔
          (env.users.caller uid).MayActFor mb :=
        (sees_iff_mayActFor hmb).mpr (h.imp_right fun hall => hall mailbox mb hmb (List.ne_nil_of_mem hhook))
      rw [hagree]
    · exact iff_of_false (fun hall => hhook hall.2.1) fun hall => hhook hall.2.1

end Deletable

/-- A hook on the mailbox of the user `bob`. -/
def bobHooked : Config :=
  sampleConfig [("bob", sampleMailbox "bob@example.org" "bob" [sampleHook (some "ping") "/bin/true"])]

/-- The user `bob` sees his hook, and HOOK-DELETE finds it. -/
theorem listed_bob : ListsHook sampleEnv bobHooked 1000 "ping".toList "bob".toList ∧
    hookDeleteCheck sampleEnv bobHooked ⟨"ping".toList⟩ (sampleEnv.users.caller 1000) = .ok "bob".toList := by
  have hdistinct : bobHooked.HookNamesDistinct sampleEnv.sha256 := by
    unfold Config.HookNamesDistinct
    decide
  have howners : ∀ mailbox mb, bobHooked.mailboxes.lookup mailbox = some mb → mb.hooks ≠ [] →
      Corresponds sampleEnv.users 1000 mb.owner := by
    intro mailbox mb hmb _
    have hmem := AList.mem_lookup_iff.mp hmb
    have hentries : bobHooked.mailboxes.entries = [⟨"bob".toList,
        sampleMailbox "bob@example.org" "bob" [sampleHook (some "ping") "/bin/true"]⟩] := by decide
    rw [hentries, List.mem_singleton] at hmem
    cases hmem
    rw [Corresponds]
    decide
  have hfound : hookDeleteCheck sampleEnv bobHooked ⟨"ping".toList⟩ (sampleEnv.users.caller 1000) =
      .ok "bob".toList := by decide
  exact ⟨((listed_iff hdistinct).mpr (Or.inr howners) _ _).mpr hfound, hfound⟩

end Daemon
end Aimx
