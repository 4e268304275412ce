import Aimx.Daemon.Paths

/-!
# Requests inside their mailbox

What the requests on one mailbox open, change, rename and remove, whatever the owner of the mailbox has put
into its folders and whichever calls fail.

* `FileRequest.StaysInside` — the law: every access is in a folder of the mailbox, and what is read is a
  regular file that is reached over no link;
* `FileRequest.Aside` — what a request does elsewhere: it replaces the configuration file and makes the
  directories above the folders, and a mark writes through a link with the name of its temporary file;
* `requests_contained` — everything else stays inside;
* `staysInside_elsewhere` — a mark on a planted link, and a creation.
-/

namespace Aimx
namespace Daemon

open Text LinkTree Protocol Ingest Mcp

/-! ## The law -/

/-- A request that works on the directories of one mailbox. -/
inductive FileRequest
  | mark (req : MarkRequest)
  | read (params : EmailReadParams)
  | reply (params : EmailReplyParams) (id : Str)
  | mailbox (req : MailboxLifecycleRequest)

/-- The mailbox that a request names. -/
def FileRequest.name : FileRequest → Str
  | .mark req => req.mailbox
  | .read params => params.mailbox
  | .reply params _ => params.mailbox
  | .mailbox req => req.name

/-- The name of the temporary file of a message. -/
def tempName (env : PathEnv) (id : Str) : Str := '.' :: messageFile id ++ ".tmp.".toList ++ env.pid

section Law

variable (env : PathEnv)

/-- The calls of a request. -/
def FileRequest.run (config : Config) (rows : Except Str (List MailboxRow)) (caller : Caller) :
    FileRequest → Calls Unit
  | .mark req => do let _ ← handleMarkPath env config caller req
  | .read params => do let _ ← emailRead env rows params
  | .reply params id => do let _ ← emailReply env rows params id
  | .mailbox req => do let _ ← handleMailboxCrud env config caller req

/-- The place is that of a folder of the mailbox, or below it. -/
def PathEnv.Inside (tree : LinkTree) (name : Str) (p : Place) : Prop :=
  ∃ side base, tree.followNew (env.folder side name) = .ok base ∧ base <+: p

/-- At the place there is a regular file, which is reached from a folder of the mailbox over no link. -/
def PathEnv.Regular (tree : LinkTree) (name : Str) (p : Place) : Prop :=
  ∃ side base names content, tree.LeadsTo (env.folder side name) base .dir ∧
    tree.Straight base names p ∧ tree.inode p = some (.file content)

/-- The law: a request stays in the folders of its mailbox, and reads regular files. -/
def FileRequest.StaysInside (config : Config) (rows : Except Str (List MailboxRow)) (caller : Caller)
    (start : LinkTree) (faults : List (Option Fault)) (request : FileRequest) : Prop :=
  ∀ e ∈ (request.run env config rows caller ⟨start, faults, []⟩).2.log,
    env.Inside e.1 request.name e.2.place ∧
      (e.2.kind = .read → env.Regular e.1 request.name e.2.place)

/-- A link stands where the path ends. -/
def Planted (tree : LinkTree) (path : List Str) : Prop :=
  ∃ p i, tree.locate path = .ok p ∧ tree.inode p = some i ∧ i.isLink = true

/-- The directory of a message in a folder: the folder, or the one that has the id as its name. -/
def IsHolder (home : List Str) (id : Str) (path : List Str) : Prop := path = home ∨ path = home ++ [id]

/-- The temporary file of a mark is written and gets its owner through a link that stood under its name
beside the message. -/
structure MarkAside (start : LinkTree) (req : MarkRequest) (a : Access) : Prop where
  kind : a.kind = .write ∨ a.kind = .chown
  path : ∃ holder, IsHolder (env.folder .inbox req.mailbox) req.id holder ∧
    a.path = holder ++ [tempName env req.id]
  planted : Planted start a.path

/-- The temporary file of the configuration is written and renamed, or removed again. -/
def ConfigAside (a : Access) : Prop :=
  a.path = env.configTemp ∧ (a.kind = .write ∨ a.kind = .rename ∨ a.kind = .remove) ∨
    a.path = env.configPath ∧ a.kind = .rename

/-- What a request does elsewhere: MARK writes through a link that had the name of its temporary file, the
requests on mailboxes replace the configuration file, and MAILBOX-CREATE makes the directories above the
folders. -/
def FileRequest.Aside (start : LinkTree) : FileRequest → Access → Prop
  | .mark req, a => MarkAside env start req a
  | .read _, _ => False
  | .reply _ _, _ => False
  | .mailbox req, a => ConfigAside env a ∨
      req.create = true ∧ a.kind = .makeDir ∧ ∃ side : Side, a.path <+: env.dataDir ++ [side.dirName]

/-- One access of a request, which began on the tree `start`. -/
structure FileRequest.Permitted (request : FileRequest) (start tree : LinkTree) (a : Access) : Prop where
  place : env.Inside tree request.name a.place ∨ request.Aside env start a
  regular : a.kind = .read → env.Regular tree request.name a.place

end Law

/-! ## The file of a message -/

section Resolver

/-- The path of a message in the folder under `home`, with the places of the folder and of the directory
that the file is in. -/
structure FoundAt (tree : LinkTree) (home : List Str) (id : Str) (path : List Str) (base dir : Place) :
    Prop where
  path_eq : path = path.dropLast ++ [messageFile id]
  folder : tree.LeadsTo home base .dir
  holder : tree.LeadsTo path.dropLast dir .dir
  parent : tree.LeadsTo (parentPath path) dir .dir
  parent_eq : IsHolder home id (parentPath path)
  straight : ∃ names, tree.Straight base names dir
  file : ∃ content, tree.inode (dir ++ [messageFile id]) = some (.file content)

theorem length_messageFile (id : Str) : 3 ≤ (messageFile id).length := by
  simp [messageFile]

theorem messageFile_ne_dots (id : Str) :
    messageFile id ≠ ".".toList ∧ messageFile id ≠ "..".toList := by
  have hlen := length_messageFile id
  constructor
  · intro heq
    rw [heq] at hlen
    simp at hlen
  · intro heq
    rw [heq] at hlen
    simp at hlen

theorem parentPath_concat {path : List Str} {d c : Str} (hd : d ≠ ".".toList) :
    parentPath (path ++ [d] ++ [c]) = path ++ [d] := by
  unfold parentPath
  rw [List.dropLast_concat, List.rdropWhile_concat_neg]
  simpa using hd

theorem parentPath_concat_dot {path : List Str} {d c : Str} (hd : d ≠ ".".toList) :
    parentPath (path ++ [d] ++ [".".toList] ++ [c]) = path ++ [d] := by
  unfold parentPath
  rw [List.dropLast_concat, List.rdropWhile_concat_pos _ _ _ (by simp), List.rdropWhile_concat_neg]
  simpa using hd

variable {before : LinkTree → Prop} {allowed : LinkTree → Access → Prop} {up : List Str} {name id : Str}

/-- A message in a directory of its own. -/
theorem foundAt_bundle {tree : LinkTree} {p q : Place} {content : Bytes} (hname : name ≠ ".".toList)
    (hid : id ≠ "..".toList) (hp : tree.locate (up ++ [name] ++ [id]) = .ok p)
    (hdir : tree.inode p = some .dir)
    (hq : tree.locate (up ++ [name] ++ [id] ++ [messageFile id]) = .ok q)
    (hfile : tree.inode q = some (.file content)) :
    ∃ base dir, FoundAt tree (up ++ [name]) id (up ++ [name] ++ [id] ++ [messageFile id]) base dir := by
  obtain ⟨hdot, hdots⟩ := messageFile_ne_dots id
  obtain ⟨base, hbase, rfl⟩ := locate_eq_ok_iff.mp hp
  obtain ⟨d, hd, rfl⟩ := locate_eq_ok_iff.mp hq
  rw [entryPlace_eq hdot hdots] at hfile
  have hentry : tree.LeadsTo (up ++ [name] ++ [id]) (entryPlace base id) .dir :=
    hbase.entry hid hdir rfl
  have hsame : d = entryPlace base id := by
    have heq := hd.1.symm.trans hentry.1
    cases heq
    rfl
  refine ⟨base, d, ?_⟩
  exact {
    path_eq := by rw [List.dropLast_concat]
    folder := hbase
    holder := by
      rw [List.dropLast_concat]
      exact hd
    parent := by
      by_cases hdotId : id = ".".toList
      · have hbaseSame : d = base := by
          rw [hsame, hdotId]
          exact if_pos rfl
        rw [show up ++ [name] ++ [id] = up ++ [name] ++ [".".toList] by rw [hdotId],
          parentPath_concat_dot hname, hbaseSame]
        exact hbase
      · rw [parentPath_concat hdotId]
        exact hd
    parent_eq := by
      by_cases hdotId : id = ".".toList
      · rw [show up ++ [name] ++ [id] = up ++ [name] ++ [".".toList] by rw [hdotId],
          parentPath_concat_dot hname]
        exact .inl rfl
      · rw [parentPath_concat hdotId]
        exact .inr rfl
    straight := ⟨[id], hbase.2, hid, hsame⟩
    file := ⟨content, hfile⟩ }

/-- A message is found in its folder, and nothing is opened for that. -/
theorem resolveEmailPathStrict_ensures (hname : name ≠ ".".toList) (hid : id ≠ "..".toList) :
    Ensures before allowed (resolveEmailPathStrict (up ++ [name]) id) fun r tree =>
      before tree ∧ ∀ path, r = some path → ∃ base dir, FoundAt tree (up ++ [name]) id path base dir := by
  obtain ⟨hdot, hdots⟩ := messageFile_ne_dots id
  have hnone : ∀ {before' : LinkTree → Prop}, (∀ tree, before' tree → before tree) →
      Ensures before' allowed (pure none) fun (r : Option (List Str)) tree =>
        before tree ∧ ∀ path, r = some path →
          ∃ base dir, FoundAt tree (up ++ [name]) id path base dir := by
    intro before' h
    exact Ensures.pure fun tree hb => ⟨h tree hb, fun path heq => (by cases heq)⟩
  refine Ensures.bind canonicalize_ensures ?_
  intro canon
  cases canon with
  | error e => exact hnone fun tree h => h.1
  | ok canon =>
      refine Ensures.bind lstat_ensures ?_
      intro r
      cases r with
      | ok i =>
          cases i with
          | dir => exact hnone fun tree h => h.1.1
          | link absolute target => exact hnone fun tree h => h.1.1
          | special content => exact hnone fun tree h => h.1.1
          | file content =>
              refine Ensures.bind canonicalize_ensures ?_
              intro candidate
              cases candidate with
              | error e => exact hnone fun tree h => h.1.1.1
              | ok candidate =>
                  refine Ensures.pure ?_
                  rintro tree ⟨⟨⟨hb, -⟩, hfile⟩, -⟩
                  refine ⟨hb, ?_⟩
                  intro path heq
                  split at heq
                  next =>
                      cases heq
                      obtain ⟨p, hp, hi⟩ := hfile _ rfl
                      obtain ⟨base, hbase, rfl⟩ := locate_eq_ok_iff.mp hp
                      rw [entryPlace_eq hdot hdots] at hi
                      refine ⟨base, base, ?_⟩
                      exact {
                        path_eq := by rw [List.dropLast_concat]
                        folder := hbase
                        holder := by
                          rw [List.dropLast_concat]
                          exact hbase
                        parent := by
                          rw [parentPath_concat hname]
                          exact hbase
                        parent_eq := by
                          rw [parentPath_concat hname]
                          exact .inl rfl
                        straight := ⟨[], rfl⟩
                        file := ⟨content, hi⟩ }
                  next => cases heq
      | error e =>
          cases e with
          | missing =>
              -- there is no flat file: the message may have a directory of its own
              refine Ensures.bind lstat_ensures ?_
              intro r
              cases r with
              | error e => exact hnone fun tree h => h.1.1.1
              | ok i =>
                  cases i with
                  | link absolute target => exact hnone fun tree h => h.1.1.1
                  | special content => exact hnone fun tree h => h.1.1.1
                  | file content => exact hnone fun tree h => h.1.1.1
                  | dir =>
                      refine Ensures.bind lstat_ensures ?_
                      intro r
                      cases r with
                      | error e => exact hnone fun tree h => h.1.1.1.1
                      | ok i =>
                          cases i with
                          | dir => exact hnone fun tree h => h.1.1.1.1
                          | link absolute target => exact hnone fun tree h => h.1.1.1.1
                          | special content => exact hnone fun tree h => h.1.1.1.1
                          | file content =>
                              refine Ensures.bind canonicalize_ensures ?_
                              intro candidate
                              cases candidate with
                              | error e => exact hnone fun tree h => h.1.1.1.1.1
                              | ok candidate =>
                                  refine Ensures.pure ?_
                                  rintro tree ⟨⟨⟨⟨⟨hb, -⟩, -⟩, hbundle⟩, hfile⟩, -⟩
                                  refine ⟨hb, ?_⟩
                                  intro path heq
                                  split at heq
                                  next =>
                                      cases heq
                                      obtain ⟨p, hp, hi⟩ := hbundle _ rfl
                                      obtain ⟨q, hq, hj⟩ := hfile _ rfl
                                      exact foundAt_bundle hname hid hp hi hq hj
                                  next => cases heq
          | notDir => exact hnone fun tree h => h.1.1
          | isDir => exact hnone fun tree h => h.1.1
          | taken => exact hnone fun tree h => h.1.1
          | notEmpty => exact hnone fun tree h => h.1.1
          | loop => exact hnone fun tree h => h.1.1
          | other text => exact hnone fun tree h => h.1.1

section Found

variable {tree : LinkTree} {home path : List Str} {base dir p : Place}

/-- The path leads straight to the file. -/
theorem FoundAt.leadsTo (h : FoundAt tree home id path base dir) :
    ∃ content names, tree.LeadsTo path (dir ++ [messageFile id]) (.file content) ∧
      tree.Straight base names (dir ++ [messageFile id]) := by
  obtain ⟨hdot, hdots⟩ := messageFile_ne_dots id
  obtain ⟨content, hfile⟩ := h.file
  obtain ⟨names, hnames⟩ := h.straight
  rw [← entryPlace_eq (p := dir) hdot hdots] at hfile ⊢
  refine ⟨content, names ++ [messageFile id], ?_, hnames.concat h.holder.2 hdots⟩
  rw [h.path_eq]
  exact h.holder.entry hdots hfile rfl

/-- What is read of a message. -/
theorem FoundAt.regular {env : PathEnv} {side : Side}
    (h : FoundAt tree (env.folder side name) id path base dir) (hp : tree.follow path = .ok p) :
    env.Inside tree name p ∧ env.Regular tree name p := by
  obtain ⟨content, names, hleads, hnames⟩ := h.leadsTo
  have heq := hp.symm.trans hleads.1
  cases heq
  exact ⟨⟨side, base, followNew_of_follow h.folder.1, hnames.isPrefix⟩,
    ⟨side, base, names, content, h.folder, hnames, hleads.2⟩⟩

end Found

end Resolver

/-! ## Reading a message -/

section Reading

variable {env : PathEnv} {before : LinkTree → Prop} {allowed : LinkTree → Access → Prop} {name id : Str}
  {path : List Str}

theorem readToString_ensures
    (hallowed : ∀ tree, before tree → ∀ p, tree.follow path = .ok p → allowed tree ⟨.read, path, p⟩) :
    Ensures before allowed (readToString path) fun _ tree => before tree := by
  refine Ensures.bind (readFile_ensures hallowed) ?_
  intro r
  cases r with
  | error e => exact Ensures.pure fun _ h => h
  | ok bytes =>
      dsimp only
      split
      · exact Ensures.pure fun _ h => h
      · exact Ensures.pure fun _ h => h

theorem folder_eq (env : PathEnv) (side : Side) (name : Str) :
    env.folder side name = env.dataDir ++ [side.dirName] ++ [name] := by
  simp [PathEnv.folder]

/-- The tools read a message of the mailbox and nothing else. -/
theorem readMessage_ensures {side : Side} {mailbox : Str} {row : MailboxRow} (hname : row.name ≠ ".".toList)
    (hid : id ≠ "..".toList) :
    Ensures before (fun tree a => a.kind = .read ∧ env.Inside tree row.name a.place ∧
      env.Regular tree row.name a.place) (readMessage env side mailbox row id) fun _ _ => True := by
  unfold readMessage
  rw [folder_eq]
  refine Ensures.bind (resolveEmailPathStrict_ensures hname hid) ?_
  intro r
  cases r with
  | none => exact Ensures.pure fun _ _ => trivial
  | some path =>
      refine Ensures.bind (readToString_ensures ?_) ?_
      · rintro tree ⟨-, hfound⟩ p hp
        obtain ⟨base, dir, hfound⟩ := hfound path rfl
        rw [← folder_eq] at hfound
        exact ⟨rfl, hfound.regular hp⟩
      · intro r
        cases r with
        | error e => exact Ensures.pure fun _ _ => trivial
        | ok content => exact Ensures.pure fun _ _ => trivial

end Reading

/-! ## Marks -/

section Marks

variable {env : PathEnv} {start : LinkTree} {name id : Str} {path : List Str} {base dir : Place}

theorem tempName_ne_dots (env : PathEnv) (id : Str) :
    tempName env id ≠ ".".toList ∧ tempName env id ≠ "..".toList := by
  have hlen : 3 ≤ (tempName env id).length := by
    have hfile := length_messageFile id
    simp only [tempName, List.cons_append, List.length_cons, List.length_append]
    omega
  constructor
  · intro heq
    rw [heq] at hlen
    simp at hlen
  · intro heq
    rw [heq] at hlen
    simp at hlen

/-- What holds from the finding of the message to the end of a mark: the paths lead where they led, and
no link gets the name of the temporary file. -/
structure Marking (env : PathEnv) (start : LinkTree) (name id : Str) (path : List Str) (base dir : Place)
    (tree : LinkTree) : Prop where
  path_eq : path = path.dropLast ++ [messageFile id]
  below : base <+: dir
  folder : tree.LeadsTo (env.folder .inbox name) base .dir
  holder : tree.LeadsTo path.dropLast dir .dir
  parent : tree.LeadsTo (parentPath path) dir .dir
  free : ¬Planted start (parentPath path ++ [tempName env id]) →
    ∀ i, tree.inode (dir ++ [tempName env id]) = some i → i.isLink = false

theorem FoundAt.marking (h : FoundAt start (env.folder .inbox name) id path base dir) :
    Marking env start name id path base dir start := by
  obtain ⟨hdot, hdots⟩ := tempName_ne_dots env id
  refine ⟨h.path_eq, ?_, h.folder, h.holder, h.parent, ?_⟩
  · obtain ⟨names, hnames⟩ := h.straight
    exact hnames.isPrefix
  · intro hfree i hi
    by_contra hlink
    refine hfree ⟨dir ++ [tempName env id], i, ?_, hi, by simpa using hlink⟩
    exact locate_eq_ok_iff.mpr ⟨dir, h.parent, (entryPlace_eq hdot hdots).symm⟩

variable {tree : LinkTree}

/-- The writing of a file leaves that so. -/
theorem Marking.put (h : Marking env start name id path base dir tree) {p : Place} {content : Bytes}
    (hp : ∀ i, tree.inode p = some i → i.leads = false) :
    Marking env start name id path base dir (tree.put p (.file content)) := by
  have hagree := agrees_put hp (.file content)
  refine ⟨h.path_eq, h.below, h.folder.of_agrees hagree (hagree _ _ h.folder.2 rfl),
    h.holder.of_agrees hagree (hagree _ _ h.holder.2 rfl),
    h.parent.of_agrees hagree (hagree _ _ h.parent.2 rfl), ?_⟩
  intro hfree i hi
  rw [inode_put (ne_nil_of_not_leads hp)] at hi
  split at hi
  · cases hi
    rfl
  · exact h.free hfree i hi

theorem Marking.inside (h : Marking env start name id path base dir tree) (c : Str) :
    env.Inside tree name (dir ++ [c]) :=
  ⟨.inbox, base, followNew_of_follow h.folder.1, h.below.trans (List.prefix_append dir [c])⟩

/-- The temporary file is in the directory of the message, unless a link had its name. -/
theorem Marking.followNew_temp (h : Marking env start name id path base dir tree)
    (hfree : ¬Planted start (parentPath path ++ [tempName env id])) :
    tree.followNew (parentPath path ++ [tempName env id]) = .ok (dir ++ [tempName env id]) := by
  obtain ⟨hdot, hdots⟩ := tempName_ne_dots env id
  exact h.parent.followNew hdot hdots (h.free hfree)

theorem Marking.tempPath_eq (h : Marking env start name id path base dir tree) :
    tempPath env.pid "mark".toList path = parentPath path ++ [tempName env id] := by
  have hlast : path.getLast? = some (messageFile id) := by rw [h.path_eq, List.getLast?_concat]
  unfold tempPath tempName
  rw [hlast]
  rfl

/-- The entry under a name beside the message. -/
theorem Marking.locate (h : Marking env start name id path base dir tree) {up : List Str} {c : Str}
    (hup : tree.LeadsTo up dir .dir) (hdot : c ≠ ".".toList) (hdots : c ≠ "..".toList) {p : Place}
    (hp : tree.locate (up ++ [c]) = .ok p) : env.Inside tree name p := by
  obtain ⟨d, hd, rfl⟩ := locate_eq_ok_iff.mp hp
  have heq := hd.1.symm.trans hup.1
  cases heq
  rw [entryPlace_eq hdot hdots]
  exact h.inside c

section Calls

variable {before : LinkTree → Prop} {allowed : LinkTree → Access → Prop} {mb : MailboxConfig}

theorem chownPath_ensures
    (hallowed : ∀ tree, before tree → ∀ p, tree.follow path = .ok p → allowed tree ⟨.chown, path, p⟩) :
    Ensures before allowed (chownPath env path mb) fun _ tree => before tree := by
  unfold chownPath
  split
  · exact Ensures.pure fun _ h => h
  · refine Ensures.bind (changeOwner_ensures hallowed) ?_
    intro r
    cases r with
    | error e => exact Ensures.pure fun _ h => h
    | ok _ => exact changeOwner_ensures hallowed

end Calls

/-- The new file is put in place inside the mailbox, unless a link had the name of the temporary file. -/
theorem replaceFile_ensures {req : MarkRequest} {mb : MailboxConfig} {text : Str}
    (hfound : FoundAt start (env.folder .inbox req.mailbox) req.id path base dir) :
    Ensures (fun tree => tree = start) ((FileRequest.mark req).Permitted env start)
      (replaceFile env mb path text) fun _ _ => True := by
  have hmarking : Marking env start req.mailbox req.id path base dir start := hfound.marking
  obtain ⟨hdot, hdots⟩ := tempName_ne_dots env req.id
  obtain ⟨hfileDot, hfileDots⟩ := messageFile_ne_dots req.id
  unfold replaceFile
  rw [hmarking.tempPath_eq]
  -- a write or a change of the owner under the temporary name
  have htemp : ∀ {tree tree'} {kind : AccessKind}, kind = .write ∨ kind = .chown →
      Marking env start req.mailbox req.id path base dir tree →
      Marking env start req.mailbox req.id path base dir tree' → ∀ p,
      tree'.followNew (parentPath path ++ [tempName env req.id]) = .ok p →
      (FileRequest.mark req).Permitted env start tree
        ⟨kind, parentPath path ++ [tempName env req.id], p⟩ := by
    intro tree tree' kind hkind h h' p hp
    refine ⟨?_, fun hread => by rcases hkind with rfl | rfl <;> cases hread⟩
    by_cases hplanted : Planted start (parentPath path ++ [tempName env req.id])
    · exact .inr ⟨hkind, ⟨_, hfound.parent_eq, rfl⟩, hplanted⟩
    · have heq := hp.symm.trans (h'.followNew_temp hplanted)
      cases heq
      exact .inl (h.inside _)
  refine Ensures.restrict (Marking env start req.mailbox req.id path base dir) ?_
    fun tree h => by rw [h]; exact hmarking
  refine Ensures.bind (writeFile_ensures (fun tree tree' h h' p hp => htemp (.inl rfl) h h' p hp)
    fun tree h p content hp => h.put hp) ?_
  intro r
  cases r with
  | error e => exact Ensures.pure fun _ _ => trivial
  | ok _ =>
      refine Ensures.bind (chownPath_ensures fun tree h p hp =>
        htemp (.inr rfl) h h p (followNew_of_follow hp)) ?_
      intro _
      refine Ensures.bind (renameFile_ensures ?_) ?_
      · intro tree h
        refine ⟨fun p hp => ⟨.inl (h.locate h.parent hdot hdots hp), fun hread => (by cases hread)⟩, ?_⟩
        intro q hq
        rw [h.path_eq] at hq
        exact ⟨.inl (h.locate h.holder hfileDot hfileDots hq), fun hread => (by cases hread)⟩
      · intro r
        cases r with
        | ok _ => exact Ensures.pure fun _ _ => trivial
        | error e =>
            refine Ensures.bind (removeFile_ensures ?_) fun _ => Ensures.pure fun _ _ => trivial
            intro tree h p hp
            exact ⟨.inl ((h e rfl).locate (h e rfl).parent hdot hdots hp), fun hread => (by cases hread)⟩

/-- **A mark** stays inside the mailbox, unless a link had the name of its temporary file. -/
theorem markPath_ensures {req : MarkRequest} {mb : MailboxConfig} (hname : req.mailbox ≠ ".".toList)
    (hid : req.id ≠ "..".toList) :
    Ensures (fun tree => tree = start) ((FileRequest.mark req).Permitted env start)
      (markPath env req mb) fun _ _ => True := by
  unfold markPath
  have hresolve : Ensures (fun tree => tree = start) ((FileRequest.mark req).Permitted env start)
      (resolveEmailPathStrict (env.folder .inbox req.mailbox) req.id) fun r tree =>
        tree = start ∧ ∀ path, r = some path →
          ∃ base dir, FoundAt tree (env.folder .inbox req.mailbox) req.id path base dir := by
    rw [folder_eq]
    exact resolveEmailPathStrict_ensures hname hid
  refine Ensures.bind hresolve ?_
  intro r
  cases r with
  | none => exact Ensures.pure fun _ _ => trivial
  | some path =>
      have hstart : ∀ tree, (tree = start ∧ ∀ path', some path = some path' → ∃ base dir,
            FoundAt tree (env.folder .inbox req.mailbox) req.id path' base dir) →
          ∃ base dir, FoundAt start (env.folder .inbox req.mailbox) req.id path base dir := by
        rintro tree ⟨rfl, hfound⟩
        exact hfound path rfl
      refine Ensures.given ?_ hstart
      rintro ⟨base, dir, hfound⟩
      have hread : Ensures (fun tree => tree = start) ((FileRequest.mark req).Permitted env start)
          (readToString path) fun _ tree => tree = start := by
        refine readToString_ensures ?_
        rintro tree rfl p hp
        obtain ⟨hinside, hregular⟩ := hfound.regular hp
        exact ⟨.inl hinside, fun _ => hregular⟩
      refine Ensures.bind (hread.restrict _ fun tree h => h.1) ?_
      intro r
      cases r with
      | error e => exact Ensures.pure fun _ _ => trivial
      | ok content =>
          dsimp only
          split
          · exact Ensures.pure fun _ _ => trivial
          · exact Ensures.pure fun _ _ => trivial
          · exact replaceFile_ensures hfound

end Marks

/-! ## Mailboxes -/

section Mailboxes

variable {env : PathEnv} {start : LinkTree} {req : MailboxLifecycleRequest} {before : LinkTree → Prop}

variable {tree : LinkTree} {kind : AccessKind} {path : List Str} {p : Place}

theorem permitted_of_inside (h : env.Inside tree req.name p) (hkind : kind ≠ .read) :
    (FileRequest.mailbox req).Permitted env start tree ⟨kind, path, p⟩ :=
  ⟨.inl h, fun hread => absurd hread hkind⟩

theorem permitted_of_config (h : ConfigAside env ⟨kind, path, p⟩) (hkind : kind ≠ .read) :
    (FileRequest.mailbox req).Permitted env start tree ⟨kind, path, p⟩ :=
  ⟨.inr (.inl h), fun hread => absurd hread hkind⟩

/-- The configuration file is written, and its temporary file. -/
theorem writeConfig_ensures (config : Config) :
    Ensures before ((FileRequest.mailbox req).Permitted env start) (writeConfig env config)
      fun _ _ => True := by
  refine Ensures.restrict (fun _ => True) ?_ fun _ _ => trivial
  unfold writeConfig
  split
  · exact Ensures.pure fun _ _ => trivial
  · refine Ensures.bind (writeFile_ensures (fun tree tree' _ _ p _ =>
      permitted_of_config (.inl ⟨rfl, .inl rfl⟩) (by decide)) fun _ _ _ _ _ => trivial) ?_
    intro r
    cases r with
    | error e => exact Ensures.pure fun _ _ => trivial
    | ok _ =>
        refine Ensures.bind ask_ensures ?_
        intro r
        cases r with
        | error e => exact Ensures.pure fun _ _ => trivial
        | ok _ =>
            refine Ensures.bind (renameFile_ensures ?_) ?_
            · exact fun tree _ => ⟨fun p _ => permitted_of_config (.inl ⟨rfl, .inr (.inl rfl)⟩) (by decide),
                fun q _ => permitted_of_config (.inr ⟨rfl, rfl⟩) (by decide)⟩
            · intro r
              cases r with
              | ok _ => exact Ensures.pure fun _ _ => trivial
              | error e =>
                  refine Ensures.bind (removeFile_ensures ?_) fun _ => Ensures.pure fun _ _ => trivial
                  exact fun tree _ p _ =>
                    permitted_of_config (.inl ⟨rfl, .inr (.inr rfl)⟩) (by decide)

/-- What is made are a folder and the directories above it. -/
theorem createFolder_ensures (side : Side) (hcreate : req.create = true) (hdot : req.name ≠ ".".toList)
    (hdots : req.name ≠ "..".toList) :
    Ensures before ((FileRequest.mailbox req).Permitted env start)
      (LinkTree.createDirAll (env.folder side req.name)) fun _ _ => True := by
  refine Ensures.restrict _ (createDirAll_ensures ?_) fun _ _ => trivial
  intro tree path _ hpath p hp hnone
  rw [folder_eq, List.prefix_concat_iff] at hpath
  rcases hpath with rfl | hpath
  · obtain ⟨d, hd, rfl⟩ := locate_eq_ok_iff.mp hp
    rw [entryPlace_eq hdot hdots] at hnone ⊢
    refine permitted_of_inside ⟨side, d ++ [req.name], ?_, List.prefix_refl _⟩ (by decide)
    rw [folder_eq]
    refine hd.followNew hdot hdots ?_
    intro i hi
    rw [hnone] at hi
    cases hi
  · exact ⟨.inr (.inr ⟨hcreate, rfl, side, hpath⟩), fun hread => (by cases hread)⟩

theorem removeUnless_ensures (existed : Bool) (side : Side) (hdots : req.name ≠ "..".toList) :
    Ensures before ((FileRequest.mailbox req).Permitted env start)
      (removeUnless existed (env.folder side req.name)) fun _ _ => True := by
  unfold removeUnless
  split
  · exact Ensures.pure fun _ _ => trivial
  · refine Ensures.bind (removeDir_ensures ?_) fun _ => Ensures.pure fun _ _ => trivial
    intro tree _ p hp hdir
    rw [folder_eq] at hp
    obtain ⟨d, hd, rfl⟩ := locate_eq_ok_iff.mp hp
    have hentry := hd.entry hdots hdir rfl
    rw [← folder_eq] at hentry
    exact permitted_of_inside ⟨side, _, followNew_of_follow hentry.1, List.prefix_refl _⟩ (by decide)

theorem chownFolder_ensures (side : Side) (mb : MailboxConfig) :
    Ensures before ((FileRequest.mailbox req).Permitted env start)
      (chownPath env (env.folder side req.name) mb) fun _ tree => before tree :=
  chownPath_ensures fun tree _ p hp =>
    permitted_of_inside ⟨side, p, followNew_of_follow hp, List.prefix_refl p⟩ (by decide)

theorem checkPreexistingPath_ensures {allowed : LinkTree → Access → Prop} (uid gid : UInt32) :
    Ensures before allowed (checkPreexistingPath env uid gid path) fun _ tree => before tree := by
  refine Ensures.bind lstat_ensures ?_
  intro r
  split
  · split
    · exact Ensures.pure fun _ h => h.1
    · exact Ensures.pure fun _ h => h.1
  · exact Ensures.pure fun _ h => h.1
  · exact Ensures.pure fun _ h => h.1
  · exact Ensures.pure fun _ h => h.1

/-- **MAILBOX-CREATE** stays inside the mailbox, but for the configuration and the directories above. -/
theorem createMailboxPaths_ensures {owner : Str} {config : Config} (hcreate : req.create = true)
    (hdot : req.name ≠ ".".toList) (hdots : req.name ≠ "..".toList) :
    Ensures before ((FileRequest.mailbox req).Permitted env start)
      (createMailboxPaths env req.name owner config) fun _ _ => True := by
  have hfolder : ∀ {before : LinkTree → Prop} side, Ensures before
      ((FileRequest.mailbox req).Permitted env start) (LinkTree.createDirAll (env.folder side req.name))
      fun _ _ => True := fun side => createFolder_ensures side hcreate hdot hdots
  unfold createMailboxPaths
  split
  · exact Ensures.pure fun _ _ => trivial
  split
  · exact Ensures.pure fun _ _ => trivial
  refine Ensures.bind pathExists_ensures fun inboxExisted => ?_
  refine Ensures.bind pathExists_ensures fun sentExisted => ?_
  refine Ensures.andThen ?_ ?_
  · refine Ensures.bind (checkPreexistingPath_ensures _ _) ?_
    intro r
    cases r with
    | some reject => exact Ensures.pure fun _ _ => trivial
    | none =>
        exact Ensures.weaken (checkPreexistingPath_ensures _ _) (fun _ h => h) (fun _ _ h => h)
          fun _ _ _ => trivial
  intro r
  cases r with
  | some reject => exact Ensures.pure fun _ _ => trivial
  | none =>
      refine Ensures.andThen ?_ ?_
      · -- both folders are made, or the first is removed again
        refine Ensures.bind (hfolder .inbox) ?_
        intro r
        cases r with
        | error e => exact Ensures.pure fun _ _ => trivial
        | ok _ =>
            refine Ensures.bind (hfolder .sent) ?_
            intro r
            cases r with
            | ok _ => exact Ensures.pure fun _ _ => trivial
            | error e =>
                exact Ensures.bind (removeUnless_ensures _ .inbox hdots) fun _ =>
                  Ensures.pure fun _ _ => trivial
      intro r
      cases r with
      | error reject => exact Ensures.pure fun _ _ => trivial
      | ok _ =>
          refine Ensures.andThen ?_ ?_
          · -- the folders get their owner, and the configuration is written
            refine Ensures.bind (chownFolder_ensures .inbox _) ?_
            intro r
            cases r with
            | error e => exact Ensures.pure fun _ _ => trivial
            | ok _ =>
                refine Ensures.bind (chownFolder_ensures .sent _) ?_
                intro r
                cases r with
                | error e => exact Ensures.pure fun _ _ => trivial
                | ok _ =>
                    refine Ensures.bind (writeConfig_ensures _) ?_
                    intro r
                    cases r with
                    | error e => exact Ensures.pure fun _ _ => trivial
                    | ok _ => exact Ensures.pure fun _ _ => trivial
          intro r
          cases r with
          | ok _ => exact Ensures.pure fun _ _ => trivial
          | error reject =>
              refine Ensures.andThen ?_ fun _ => Ensures.pure fun _ _ => trivial
              exact Ensures.bind (removeUnless_ensures _ .inbox hdots) fun _ =>
                removeUnless_ensures _ .sent hdots

/-- What is wiped stands in the folder. -/
theorem wipePaths_ensures (side : Side) {names : List Str}
    (hnames : ∀ c ∈ names, c ≠ ".".toList ∧ c ≠ "..".toList) :
    Ensures (fun _ => True) ((FileRequest.mailbox req).Permitted env start)
      (wipePaths (env.folder side req.name) names) fun _ _ => True := by
  induction names with
  | nil => exact Ensures.pure fun _ _ => trivial
  | cons c rest ih =>
      have hrest := ih fun c' hc' => hnames c' (List.mem_cons_of_mem c hc')
      obtain ⟨hdot, hdots⟩ := hnames c List.mem_cons_self
      have hentry : ∀ {tree p q kind path}, tree.locate (env.folder side req.name ++ [c]) = .ok p →
          p <+: q → kind ≠ .read → (FileRequest.mailbox req).Permitted env start tree ⟨kind, path, q⟩ := by
        intro tree p q kind path hp hpq hkind
        obtain ⟨d, hd, rfl⟩ := locate_eq_ok_iff.mp hp
        rw [entryPlace_eq hdot hdots] at hpq
        exact permitted_of_inside
          ⟨side, d, followNew_of_follow hd.1, (List.prefix_append d [c]).trans hpq⟩ hkind
      refine Ensures.bind ask_ensures ?_
      intro r
      cases r with
      | error e => exact hrest.restrict _ fun _ _ => trivial
      | ok _ =>
          refine Ensures.andThen ?_ ?_
          · refine Ensures.bind isDir_ensures ?_
            intro r
            cases r with
            | true =>
                refine removeDirAll_ensures ?_
                intro tree _ p hp kind path q hkind hpq
                exact hentry hp hpq (by rintro rfl; rcases hkind with h | h <;> cases h)
            | false =>
                exact removeFile_ensures fun tree _ p hp => hentry hp (List.prefix_refl p) (by decide)
          · intro r
            cases r with
            | error e => exact Ensures.pure fun _ _ => trivial
            | ok _ => exact hrest

theorem listFolder_ensures (side : Side) :
    Ensures before ((FileRequest.mailbox req).Permitted env start) (readDir (env.folder side req.name))
      fun r _ => ∀ names, r = .ok names → ∀ c ∈ names, c ≠ ".".toList ∧ c ≠ "..".toList := by
  refine Ensures.weaken (readDir_ensures ?_) (fun _ h => h) (fun _ _ h => h) fun _ _ h => h.2
  exact fun tree _ p hp =>
    permitted_of_inside ⟨side, p, followNew_of_follow hp, List.prefix_refl p⟩ (by decide)

theorem wipeContents_ensures (side : Side) :
    Ensures before ((FileRequest.mailbox req).Permitted env start)
      (wipeContents (env.folder side req.name)) fun _ _ => True := by
  refine Ensures.bind (listFolder_ensures side) ?_
  intro r
  split
  next names =>
      refine Ensures.given ?_ fun tree h => h names rfl
      intro hnames
      exact (wipePaths_ensures side hnames).restrict _ fun _ _ => trivial
  · exact Ensures.pure fun _ _ => trivial
  · exact Ensures.pure fun _ _ => trivial

theorem countEntries_ensures {allowed : LinkTree → Access → Prop} (names : List Str) :
    Ensures before allowed (countEntries names) fun _ _ => True := by
  induction names generalizing before with
  | nil => exact Ensures.pure fun _ _ => trivial
  | cons c rest ih =>
      exact Ensures.bind ask_ensures fun _ => Ensures.bind ih fun _ => Ensures.pure fun _ _ => trivial

theorem countPaths_ensures (side : Side) :
    Ensures before ((FileRequest.mailbox req).Permitted env start)
      (countPaths (env.folder side req.name)) fun _ _ => True := by
  refine Ensures.bind (listFolder_ensures side) ?_
  intro r
  cases r with
  | error e => exact Ensures.pure fun _ _ => trivial
  | ok names => exact countEntries_ensures names

/-- **MAILBOX-DELETE** stays inside the mailbox, but for the configuration. -/
theorem deleteMailboxPaths_ensures {force : Bool} {config : Config} :
    Ensures before ((FileRequest.mailbox req).Permitted env start)
      (deleteMailboxPaths env req.name force config) fun _ _ => True := by
  unfold deleteMailboxPaths
  split
  · exact Ensures.pure fun _ _ => trivial
  split
  · exact Ensures.pure fun _ _ => trivial
  refine Ensures.andThen ?_ ?_
  · unfold deleteMailboxPaths.wipeBoth
    split
    · refine Ensures.bind (wipeContents_ensures .inbox) ?_
      intro r
      cases r with
      | error e => exact Ensures.pure fun _ _ => trivial
      | ok _ => exact wipeContents_ensures .sent
    · exact Ensures.pure fun _ _ => trivial
  intro r
  cases r with
  | error e => exact Ensures.pure fun _ _ => trivial
  | ok _ =>
      refine Ensures.bind (countPaths_ensures .inbox) fun inboxFiles => ?_
      refine Ensures.bind (countPaths_ensures .sent) fun sentFiles => ?_
      split
      · exact Ensures.pure fun _ _ => trivial
      · refine Ensures.bind (writeConfig_ensures _) ?_
        intro r
        cases r with
        | error e => exact Ensures.pure fun _ _ => trivial
        | ok _ => exact Ensures.pure fun _ _ => trivial

end Mailboxes

/-! ## Any request -/

section Any

variable {env : PathEnv} {start : LinkTree} {name id : Str}

theorem ne_dots_of_validateMailboxName (h : validateMailboxName name = .ok ()) :
    name ≠ ".".toList ∧ name ≠ "..".toList := by
  constructor
  · rintro rfl
    exact absurd h (by decide)
  · rintro rfl
    exact absurd h (by decide)

theorem ne_dots_of_validateId (h : validateId id = .ok ()) : id ≠ "..".toList := by
  rintro rfl
  exact absurd h (by decide)

theorem ne_dots_of_validateEmailId (h : validateEmailId id = .ok ()) : id ≠ "..".toList := by
  rintro rfl
  exact absurd h (by decide)

theorem name_of_lookupMailboxRow {rows : Except Str (List MailboxRow)} {row : MailboxRow}
    (h : lookupMailboxRow rows name = .ok row) : row.name = name := by
  unfold lookupMailboxRow at h
  split at h
  · cases h
  · split at h
    next hfind =>
        cases h
        simpa using List.find?_some hfind
    · cases h

/-- The tools read one message of the mailbox whose row the daemon gives them. -/
theorem readRow_ensures {before : LinkTree → Prop} {request : FileRequest}
    {rows : Except Str (List MailboxRow)} {row : MailboxRow} {side : Side}
    (hdot : request.name ≠ ".".toList) (hrow : lookupMailboxRow rows request.name = .ok row)
    (hid : validateEmailId id = .ok ()) :
    Ensures before (request.Permitted env start) (readMessage env side request.name row id)
      fun _ _ => True := by
  have hname := name_of_lookupMailboxRow hrow
  have hread : row.name ≠ ".".toList := by
    rw [hname]
    exact hdot
  refine Ensures.weaken (readMessage_ensures hread (ne_dots_of_validateEmailId hid)) (fun _ h => h) ?_
    fun _ _ h => h
  rintro tree a ⟨-, hinside, hregular⟩
  rw [hname] at hinside hregular
  exact ⟨.inl hinside, fun _ => hregular⟩

theorem handleMarkPath_ensures (config : Config) (caller : Caller) {req : MarkRequest}
    (hdot : req.mailbox ≠ ".".toList) :
    Ensures (fun tree => tree = start) ((FileRequest.mark req).Permitted env start)
      (handleMarkPath env config caller req) fun _ _ => True := by
  unfold handleMarkPath
  cases hcheck : markCheck config req caller with
  | error reject => exact Ensures.pure fun _ _ => trivial
  | ok _ =>
      cases config.mailboxes.lookup req.mailbox with
      | none => exact Ensures.pure fun _ _ => trivial
      | some mb =>
          -- the check of the id comes first, and keeps `..` out of the path
          refine markPath_ensures hdot (ne_dots_of_validateId ?_)
          unfold markCheck at hcheck
          split at hcheck
          next => cases hcheck
          next hid => exact hid

theorem emailRead_ensures (rows : Except Str (List MailboxRow)) {params : EmailReadParams}
    (hdot : params.mailbox ≠ ".".toList) :
    Ensures (fun tree => tree = start) ((FileRequest.read params).Permitted env start)
      (emailRead env rows params) fun _ _ => True := by
  unfold emailRead
  cases hid : validateEmailId params.id with
  | error e => exact Ensures.pure fun _ _ => trivial
  | ok _ =>
      cases hrow : lookupMailboxRow rows params.mailbox with
      | error e => exact Ensures.pure fun _ _ => trivial
      | ok row =>
          cases resolveFolder params.folder with
          | error e => exact Ensures.pure fun _ _ => trivial
          | ok side => exact @readRow_ensures env start params.id _ (.read params) _ _ _ hdot hrow hid

theorem emailReply_ensures (rows : Except Str (List MailboxRow)) {params : EmailReplyParams}
    (hdot : params.mailbox ≠ ".".toList) :
    Ensures (fun tree => tree = start) ((FileRequest.reply params id).Permitted env start)
      (emailReply env rows params id) fun _ _ => True := by
  unfold emailReply
  cases validateTextOnlyHtmlBodyExclusion (params.textOnly.getD false) params.htmlBody with
  | error e => exact Ensures.pure fun _ _ => trivial
  | ok _ =>
      cases hid : validateEmailId id with
      | error e => exact Ensures.pure fun _ _ => trivial
      | ok _ =>
          cases hrow : lookupMailboxRow rows params.mailbox with
          | error e => exact Ensures.pure fun _ _ => trivial
          | ok row =>
              refine Ensures.andThen
                (@readRow_ensures env start id _ (.reply params id) _ _ _ hdot hrow hid) ?_
              -- what is made of the message needs no further call
              intro r
              cases r with
              | error e => exact Ensures.pure fun _ _ => trivial
              | ok content =>
                  dsimp only
                  split
                  · exact Ensures.pure fun _ _ => trivial
                  · exact Ensures.pure fun _ _ => trivial

theorem handleMailboxCrud_ensures (config : Config) (caller : Caller) {req : MailboxLifecycleRequest}
    (hdot : req.name ≠ ".".toList) (hdots : req.name ≠ "..".toList) :
    Ensures (fun tree => tree = start) ((FileRequest.mailbox req).Permitted env start)
      (handleMailboxCrud env config caller req) fun _ _ => True := by
  unfold handleMailboxCrud
  split
  · exact Ensures.pure fun _ _ => trivial
  split
  next hcreate =>
      split
      · exact Ensures.pure fun _ _ => trivial
      · exact Ensures.pure fun _ _ => trivial
      · exact createMailboxPaths_ensures hcreate hdot hdots
  next =>
      split
      · exact Ensures.pure fun _ _ => trivial
      · exact deleteMailboxPaths_ensures

/-- One request, from its arrival on a tree. -/
theorem FileRequest.run_ensures (config : Config) (rows : Except Str (List MailboxRow)) (caller : Caller)
    (request : FileRequest) (hname : validateMailboxName request.name = .ok ()) :
    Ensures (fun tree => tree = start) (request.Permitted env start)
      (request.run env config rows caller) fun _ _ => True := by
  obtain ⟨hdot, hdots⟩ := ne_dots_of_validateMailboxName hname
  cases request with
  | mark req =>
      exact Ensures.andThen (handleMarkPath_ensures config caller hdot) fun _ =>
        Ensures.pure fun _ _ => trivial
  | read params =>
      exact Ensures.andThen (emailRead_ensures rows hdot) fun _ => Ensures.pure fun _ _ => trivial
  | reply params id =>
      exact Ensures.andThen (emailReply_ensures rows hdot) fun _ => Ensures.pure fun _ _ => trivial
  | mailbox req =>
      exact Ensures.andThen (handleMailboxCrud_ensures config caller hdot hdots) fun _ =>
        Ensures.pure fun _ _ => trivial

/-- **Requests stay inside their mailbox**, whatever its owner has put there and whichever calls fail: what
a request opens, changes, renames or removes is in the folders of its mailbox, and what it reads is a
regular file that it reached over no link, but for what it does aside. -/
theorem requests_contained (env : PathEnv) (config : Config) (rows : Except Str (List MailboxRow))
    (caller : Caller) (request : FileRequest) (hname : validateMailboxName request.name = .ok ())
    (start : LinkTree) (faults : List (Option Fault)) :
    ∀ e ∈ (request.run env config rows caller ⟨start, faults, []⟩).2.log,
      request.Permitted env start e.1 e.2 := by
  obtain ⟨new, hlog, hnew, -⟩ := request.run_ensures config rows caller hname ⟨start, faults, []⟩ rfl
  rw [hlog, List.nil_append]
  exact hnew

end Any

/-! ## Elsewhere -/

section Decide

variable (env : PathEnv) (tree : LinkTree) (name : Str) (p : Place)

/-- The place is in the folder of one side. -/
def PathEnv.isInside (side : Side) : Bool :=
  match tree.followNew (env.folder side name) with
  | .error _ => false
  | .ok base => base.isPrefixOf p

theorem isInside_iff (side : Side) : env.isInside tree name p side = true ↔
    ∃ base, tree.followNew (env.folder side name) = .ok base ∧ base <+: p := by
  unfold PathEnv.isInside
  cases tree.followNew (env.folder side name) with
  | error e => simp
  | ok base => simp

instance : Decidable (env.Inside tree name p) :=
  decidable_of_iff (env.isInside tree name p .inbox = true ∨ env.isInside tree name p .sent = true) (by
    rw [isInside_iff, isInside_iff]
    constructor
    · rintro (⟨base, h⟩ | ⟨base, h⟩)
      · exact ⟨.inbox, base, h⟩
      · exact ⟨.sent, base, h⟩
    · rintro ⟨side, base, h⟩
      cases side with
      | inbox => exact .inl ⟨base, h⟩
      | sent => exact .inr ⟨base, h⟩)

end Decide

/-- A host with the data directory `/data`, on which every block of a message is read as the same record. -/
def dataEnv : PathEnv where
  handlers := sampleEnv
  toml := ⟨fun _ => [], fun _ => some (sampleMeta "note".toList), fun _ => none⟩
  tomlError := fun _ => []
  now := "2025-01-02T00:00:00Z".toList
  pid := "1".toList
  dataDir := ["data".toList]
  configPath := ["etc".toList, "config.toml".toList]
  ids := fun _ => (1000, 1000)

/-- The entries of the host. -/
def dataNodes : List (Place × Inode) :=
  [(["data".toList], .dir), (["data".toList, "inbox".toList], .dir), (["data".toList, "sent".toList], .dir),
    (["data".toList, "inbox".toList, "bob".toList], .dir),
    (["data".toList, "inbox".toList, "bob".toList, "note.md".toList], .file (utf8 "+++\n+++\n\nHi".toList)),
    (["data".toList, "inbox".toList, "bob".toList, ".note.md.tmp.1".toList],
      .link true ["etc".toList, "hosts".toList]),
    (["etc".toList], .dir), (["etc".toList, "hosts".toList], .file [])]

theorem dataNodes_nodup : (dataNodes.map Prod.fst).Nodup := by decide

/-- A message of `bob`, who has put a link beside it. -/
def plantedTree : LinkTree where
  nodes := dataNodes
  nodup := dataNodes_nodup

/-- `bob` marks the message. -/
def plantedMark : FileRequest := .mark ⟨"bob".toList, "note".toList, true⟩

/-- `bob` creates a mailbox. -/
def newMailboxRequest : FileRequest := .mailbox ⟨"bob-2".toList, true, none, false⟩

def bobConfig : Config := sampleConfig [("bob", sampleMailbox "bob@example.org" "bob" [])]

/-- **The mark writes through the link**, to a file of the system; the creation of a mailbox writes the
configuration file. -/
theorem staysInside_elsewhere :
    validateMailboxName plantedMark.name = .ok () ∧
      ¬plantedMark.StaysInside dataEnv bobConfig (.error []) sampleBob plantedTree [] ∧
      validateMailboxName newMailboxRequest.name = .ok () ∧
      ¬newMailboxRequest.StaysInside dataEnv bobConfig (.error []) sampleBob plantedTree [] := by
  have hmark : ∃ e ∈ (plantedMark.run dataEnv bobConfig (.error []) sampleBob ⟨plantedTree, [], []⟩).2.log,
      ¬dataEnv.Inside e.1 plantedMark.name e.2.place := by decide +kernel
  have hcreate : ∃ e ∈ (newMailboxRequest.run dataEnv bobConfig (.error []) sampleBob
      ⟨plantedTree, [], []⟩).2.log, ¬dataEnv.Inside e.1 newMailboxRequest.name e.2.place := by
    decide +kernel
  refine ⟨by decide, ?_, by decide, ?_⟩
  · intro hstays
    obtain ⟨e, he, hout⟩ := hmark
    exact hout (hstays e he).1
  · intro hstays
    obtain ⟨e, he, hout⟩ := hcreate
    exact hout (hstays e he).1

/-- The law at the mark on the planted link, which makes seven accesses. -/
theorem requests_contained_planted :
    (plantedMark.run dataEnv bobConfig (.error []) sampleBob ⟨plantedTree, [], []⟩).2.log.length = 7 ∧
      ∀ e ∈ (plantedMark.run dataEnv bobConfig (.error []) sampleBob ⟨plantedTree, [], []⟩).2.log,
        plantedMark.Permitted dataEnv plantedTree e.1 e.2 :=
  ⟨by decide +kernel, requests_contained dataEnv bobConfig (.error []) sampleBob plantedMark (by decide)
    plantedTree []⟩

end Daemon
end Aimx
