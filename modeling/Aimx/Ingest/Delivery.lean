import Aimx.Ingest.Dedup
import Aimx.Ingest.Trust
import Aimx.Transition.Runs

/-!
# Concurrent deliveries

The daemon delivers the messages of many SMTP sessions at once, while mailboxes are created, deleted
and written to by other requests.  A process is one transaction after its DATA, one MAILBOX-DELETE or
one SEND; the state holds what they share: the configuration, the mailbox directories, the lock and the
duplicate store of each mailbox.  A step is one action of one process.

* `World`, `step` — the state and what each process does next;
* `Effect`, `effect_of_step` — everything a step can do;
* `Explained`, `log_of_effect` — what a step adds to the record.
-/

namespace Aimx
namespace Ingest

open Text

/-! ## What is shared -/

/-- The libraries that an ingest calls. -/
structure Env where
  unicode : Unicode
  toml : Toml
  sender : SenderMatch
  chrono : Chrono
  /-- `MessageParser::parse`. -/
  parse : Bytes → Option Message
  /-- `SparKV::with_config`. -/
  sparkv : (config : SparKVConfig) → SparKV config

/-- The Message-Id under which a message is remembered; empty when it has none. -/
def Env.messageId (env : Env) (raw : Bytes) : Str :=
  ((env.parse raw).bind Message.messageId).getD []

/-- `make_dedup_sparkv`. -/
def Env.makeDedupSparkv (env : Env) : SparKV dedupConfig := env.sparkv dedupConfig

/-- An entry of a mailbox directory.  `letter` is the message that it stores, for the inbox: the file
itself holds only the front matter and the text. -/
structure Entry where
  name : Str
  node : Node
  letter : Option Bytes

/-- The directory as the file system shows it. -/
def dirOf (l : List Entry) : MailDir := l.map fun e => (e.name, e.node)

/-- What happened, in order.  This is a record for the laws: no process reads it. -/
inductive Event
  /-- The duplicate store of a mailbox was built from its directory. -/
  | built (time : Int) (mailbox : Str) (cache : Cache)
  /-- A message was acknowledged as a duplicate. -/
  | skipped (pid : Nat) (time : Int) (mailbox messageId : Str)
  | stored (pid : Nat) (time : Int) (mailbox messageId : Str)
  /-- The hooks of a mailbox were started for the message of the given `stored` event. -/
  | fired (mailbox : Str) (serial : Nat)
  /-- A transaction was answered, with the routes of its recipients. -/
  | replied (pid : Nat) (accepted : Bool) (messageId : Str) (routes : List (Option Str))
  /-- A file was written under a mailbox: whether the mailbox was configured then, and whether the
  writer had looked before a deletion of the mailbox. -/
  | wrote (mailbox : Str) (live late : Bool)
  | deleted (mailbox : Str)

/-! ## The processes -/

/-- Where a transaction stands with its current recipient. -/
inductive Phase
  | next
  | routed (mailbox : Str)
  | ready (mailbox : Str)
  | locked (mailbox : Str)
  | fresh (mailbox : Str)
  | written (mailbox : Str) (serial : Nat)
  | firing (mailbox : Str) (serial : Nat)
  deriving DecidableEq

/-- A transaction after its DATA.  `epochs` counts the deletions of each mailbox before the snapshot; `id` is
that of the message written last. -/
structure Transaction where
  raw : Bytes
  rcpts : List Str
  snapshot : Config
  epochs : Str → Nat
  done : List Str
  todo : List Str
  succeeded : Nat
  failed : Nat
  phase : Phase
  id : Str
  abandoned : Bool

/-- A MAILBOX-DELETE under the lock of its mailbox. -/
structure Deletion where
  mailbox : Str
  force : Bool
  counted : Bool

/-- A SEND after it has read the configuration, and the sent copy that it has claimed. -/
structure Sending where
  mailbox : Str
  epoch : Nat
  claimed : Option Str

inductive Proc
  | deliver (t : Transaction)
  | delete (d : Deletion)
  | send (s : Sending)

structure World where
  now : Int
  config : Config
  inbox : Str → List Entry
  sent : Str → List Entry
  cache : Str → Option Cache
  holder : Str → Option Nat
  procs : Nat → Option Proc
  /-- The number of processes so far; the next one gets it as its name. -/
  next : Nat
  deletes : Str → Nat
  log : List Event

/-- The daemon after a start. -/
def World.start (now : Int) (config : Config) (inbox sent : Str → List Entry) : World where
  now := now
  config := config
  inbox := inbox
  sent := sent
  cache := fun _ => none
  holder := fun _ => none
  procs := fun _ => none
  next := 0
  deletes := fun _ => 0
  log := []

namespace World

def setProc (w : World) (pid : Nat) (p : Option Proc) : World :=
  { w with procs := Function.update w.procs pid p }

def setHolder (w : World) (mailbox : Str) (pid : Option Nat) : World :=
  { w with holder := Function.update w.holder mailbox pid }

def setCache (w : World) (mailbox : Str) (cache : Option Cache) : World :=
  { w with cache := Function.update w.cache mailbox cache }

def setInbox (w : World) (mailbox : Str) (l : List Entry) : World :=
  { w with inbox := Function.update w.inbox mailbox l }

def setSent (w : World) (mailbox : Str) (l : List Entry) : World :=
  { w with sent := Function.update w.sent mailbox l }

def emit (w : World) (es : List Event) : World :=
  { w with log := w.log ++ es }

/-- A new process. -/
def spawn (w : World) (p : Proc) : World :=
  { w with procs := Function.update w.procs w.next (some p), next := w.next + 1 }

/-- A deletion of the mailbox has found it empty and has not ended. -/
def deleting (w : World) (mailbox : Str) : Bool :=
  match w.holder mailbox with
  | none => false
  | some pid =>
      match w.procs pid with
      | some (.delete d) => d.counted && d.mailbox == mailbox
      | _ => false

/-- A process that looked at the configuration after `epoch` deletions writes into the mailbox. -/
def wroteEvent (w : World) (mailbox : Str) (epoch : Nat) : Event :=
  .wrote mailbox (decide (mailbox ∈ w.config.mailboxes))
    (decide (epoch ≠ w.deletes mailbox) || w.deleting mailbox)

end World

/-! ## Deliveries -/

/-- What one ingest takes from its surroundings when it writes: besides the front matter's part, the
time for the name, the attachments, and whether a call to the file system fails. -/
structure Writing where
  arrival : Arrival
  timestamp : Timestamp
  attachments : List (Str × Bytes)
  failure : Option Residue

/-- The files that an ingest writes. -/
def Writing.delivery (env : Env) (config : Config) (rcpt mailbox : Str) (raw : Bytes)
    (message : Message) (wr : Writing) : Delivery where
  timestamp := wr.timestamp
  subject := message.subject.getD "(no subject)".toList
  attachments := wr.attachments
  content := fun id =>
    utf8 (formatFrontmatter env.toml
      (inboundMeta env.sender config rcpt mailbox raw message { wr.arrival with id := id })
      message.body)
  failure := wr.failure

/-- Storing a message, and what is stored if it succeeds. -/
def storeLetter (u : Unicode) (l : List Entry) (d : Delivery) (raw : Bytes) :
    List Entry × Option StoredMessage :=
  let (dir, stored) := store u (dirOf l) d
  let letter := if stored.isSome then some raw else none
  (l ++ (dir.drop l.length).map (fun e => ⟨e.1, e.2, letter⟩), stored)

/-- The current recipient is done with, and its result is counted. -/
def Transaction.finish (t : Transaction) (ok : Bool) : Transaction :=
  { t with
    done := t.done ++ t.todo.take 1
    todo := t.todo.tail
    succeeded := if ok then t.succeeded + 1 else t.succeeded
    failed := if ok then t.failed else t.failed + 1
    phase := .next }

/-- The answer to DATA is 250. -/
def Transaction.accepted (t : Transaction) : Bool := t.failed == 0 && decide (0 < t.succeeded)

/-- The mailboxes that the recipients are routed to. -/
def Transaction.routes (t : Transaction) : List (Option Str) :=
  t.rcpts.map (resolveRecipientMailbox t.snapshot)

/-- What a delivery does next. -/
inductive DeliverMove
  /-- Take the next recipient and find its mailbox. -/
  | route
  /-- Create the directory, and parse the message. -/
  | mkdir (ok : Bool)
  | lock
  /-- Build the duplicate store from the entries that can be read. -/
  | build (readable : Str → Bool)
  | check
  | write (wr : Writing)
  | insert
  /-- Start the hooks, on a thread that can fail to start. -/
  | fire (ok : Bool)
  | reply
  /-- The session ends: the current recipient is still ingested, the others are not. -/
  | abandon

def deliverStep (env : Env) (w : World) (pid : Nat) (t : Transaction) : DeliverMove → Option World
  | .route =>
      match t.phase, t.todo with
      | .next, rcpt :: _ =>
          match resolveRecipientMailbox t.snapshot rcpt with
          | none => some (w.setProc pid (some (.deliver (t.finish false))))
          | some m => some (w.setProc pid (some (.deliver { t with phase := .routed m })))
      | _, _ => none
  | .mkdir ok =>
      match t.phase with
      | .routed m =>
          if ok && (env.parse t.raw).isSome then
            some (w.setProc pid (some (.deliver { t with phase := .ready m })))
          else some (w.setProc pid (some (.deliver (t.finish false))))
      | _ => none
  | .lock =>
      match t.phase with
      | .ready m =>
          if w.holder m = none then
            some ((w.setHolder m (some pid)).setProc pid (some (.deliver { t with phase := .locked m })))
          else none
      | _ => none
  | .build readable =>
      match t.phase with
      | .locked m =>
          if env.messageId t.raw ≠ [] ∧ (w.cache m).isNone then
            let seen := (dirOf (w.inbox m)).filter fun e => readable e.1
            match buildDedupCacheFromDisk env.chrono w.now seen with
            | none => some ((w.setHolder m none).setProc pid (some (.deliver (t.finish false))))
            | some cache => some ((w.setCache m (some cache)).emit [.built w.now m cache])
          else none
      | _ => none
  | .check =>
      match t.phase with
      | .locked m =>
          if env.messageId t.raw = [] then
            some (w.setProc pid (some (.deliver { t with phase := .fresh m })))
          else
            match w.cache m with
            | none => none
            | some cache =>
                if env.makeDedupSparkv.containsKey cache w.now (env.messageId t.raw) then
                  some (((w.setHolder m none).setProc pid (some (.deliver (t.finish true)))).emit
                    [.skipped pid w.now m (env.messageId t.raw)])
                else some (w.setProc pid (some (.deliver { t with phase := .fresh m })))
      | _ => none
  | .write wr =>
      match t.phase, env.parse t.raw with
      | .fresh m, some message =>
          let d := wr.delivery env t.snapshot (t.todo.headD []) m t.raw message
          let (l, stored) := storeLetter env.unicode (w.inbox m) d t.raw
          let w' := (w.setInbox m l).emit [w.wroteEvent m (t.epochs m)]
          match stored with
          | some s =>
              let written := { t with phase := .written m w'.log.length, id := s.id }
              some ((w'.setProc pid (some (.deliver written))).emit
                [.stored pid w.now m (env.messageId t.raw)])
          | none => some ((w'.setHolder m none).setProc pid (some (.deliver (t.finish false))))
      | _, _ => none
  | .insert =>
      match t.phase with
      | .written m n =>
          let w' := w.setCache m ((w.cache m).map fun cache =>
            env.makeDedupSparkv.enter cache w.now (env.messageId t.raw) t.id)
          some ((w'.setHolder m none).setProc pid (some (.deliver { t with phase := .firing m n })))
      | _ => none
  | .fire ok =>
      match t.phase with
      | .firing m n =>
          some ((w.setProc pid (some (.deliver (t.finish true)))).emit (if ok then [.fired m n] else []))
      | _ => none
  | .reply =>
      match t.phase, t.todo with
      | .next, [] =>
          some ((w.setProc pid none).emit
            (if t.abandoned then []
              else [.replied pid t.accepted (env.messageId t.raw) t.routes]))
      | _, _ => none
  | .abandon =>
      some (w.setProc pid (some (.deliver
        { t with todo := if t.phase = .next then [] else t.todo.take 1, abandoned := true })))

/-! ## Deletions and sent copies -/

/-- What a MAILBOX-DELETE does next. -/
inductive DeleteMove
  /-- With force: remove one entry of the inbox or of the sent copies. -/
  | wipe (fromSent : Bool) (name : Str)
  /-- Count the files; a directory that cannot be read counts as empty. -/
  | count (inboxUnreadable sentUnreadable : Bool)
  /-- Write and store the configuration without the mailbox, and answer OK. -/
  | commit
  /-- Answer with an error. -/
  | refuse

def deleteStep (w : World) (pid : Nat) (d : Deletion) : DeleteMove → Option World
  | .wipe fromSent name =>
      let keep (l : List Entry) : List Entry := l.filter fun e => e.name != name
      if d.force && !d.counted then
        if fromSent then some (w.setSent d.mailbox (keep (w.sent d.mailbox)))
        else some (w.setInbox d.mailbox (keep (w.inbox d.mailbox)))
      else none
  | .count inboxUnreadable sentUnreadable =>
      if !d.counted && (inboxUnreadable || (w.inbox d.mailbox).isEmpty) &&
          (sentUnreadable || (w.sent d.mailbox).isEmpty) then
        some (w.setProc pid (some (.delete { d with counted := true })))
      else none
  | .commit =>
      if d.counted then
        some ((({ w with
          config := { w.config with mailboxes := w.config.mailboxes.erase d.mailbox }
          deletes := Function.update w.deletes d.mailbox (w.deletes d.mailbox + 1) }).setHolder
            d.mailbox none).setProc pid none |>.emit [.deleted d.mailbox])
      else none
  | .refuse => some ((w.setHolder d.mailbox none).setProc pid none)

/-- What a SEND does next, once its message is on its way. -/
inductive SendMove
  /-- Allocate a name for the sent copy and create an empty file there. -/
  | claim (timestamp : Timestamp) (subject : Str)
  /-- Write the copy; a file that is gone is created again. -/
  | write (content : Bytes)
  | stop

def sendStep (env : Env) (w : World) (pid : Nat) (s : Sending) : SendMove → Option World
  | .claim timestamp subject =>
      let sent := w.sent s.mailbox
      match s.claimed, allocateFilename (dirOf sent) timestamp (slugify env.unicode subject) false with
      | none, some path =>
          let name := mdName path.stem
          some (((w.setSent s.mailbox (sent ++ [⟨name, .file [], none⟩])).setProc pid
            (some (.send { s with claimed := some name }))).emit [w.wroteEvent s.mailbox s.epoch])
      | _, _ => none
  | .write content =>
      match s.claimed with
      | some name =>
          let others := (w.sent s.mailbox).filter fun e => e.name != name
          some (((w.setSent s.mailbox (others ++ [⟨name, .file content, none⟩])).setProc pid none).emit
            [w.wroteEvent s.mailbox s.epoch])
      | none => none
  | .stop => some (w.setProc pid none)

/-! ## The system -/

inductive Move
  | tick (d : Nat)
  /-- A session has received a message: the configuration is read. -/
  | data (raw : Bytes) (rcpts : List Str)
  | deliver (pid : Nat) (a : DeliverMove)
  /-- MAILBOX-CREATE, under the lock of the mailbox. -/
  | create (name : Str) (mb : MailboxConfig)
  /-- MAILBOX-DELETE takes the lock of the mailbox. -/
  | delete (name : Str) (force : Bool)
  | deleting (pid : Nat) (a : DeleteMove)
  /-- A SEND reads the configuration. -/
  | send (mailbox : Str)
  | sending (pid : Nat) (a : SendMove)
  /-- MARK-READ or MARK-UNREAD rewrites a file, under the lock of the mailbox. -/
  | mark (mailbox name : Str) (node : Node)

def step (env : Env) (w : World) : Move → Option World
  | .tick d => some { w with now := w.now + d }
  | .data raw rcpts =>
      some (w.spawn (.deliver ⟨raw, rcpts, w.config, w.deletes, [], rcpts, 0, 0, .next, [], false⟩))
  | .deliver pid a =>
      match w.procs pid with
      | some (.deliver t) => deliverStep env w pid t a
      | _ => none
  | .create name mb =>
      if w.holder name = none ∧ name ∉ w.config.mailboxes then
        some { w with config := { w.config with mailboxes := w.config.mailboxes.insert name mb } }
      else none
  | .delete name force =>
      if w.holder name = none ∧ name ∈ w.config.mailboxes ∧ name ≠ "catchall".toList then
        some ((w.setHolder name (some w.next)).spawn (.delete ⟨name, force, false⟩))
      else none
  | .deleting pid a =>
      match w.procs pid with
      | some (.delete d) => deleteStep w pid d a
      | _ => none
  | .send mailbox =>
      if mailbox ∈ w.config.mailboxes then
        some (w.spawn (.send ⟨mailbox, w.deletes mailbox, none⟩))
      else none
  | .sending pid a =>
      match w.procs pid with
      | some (.send s) => sendStep env w pid s a
      | _ => none
  | .mark mailbox name node =>
      if w.holder mailbox = none then
        some (w.setInbox mailbox ((w.inbox mailbox).map fun e =>
          if e.name = name then { e with node := node } else e))
      else none

/-! ## Everything a step can do -/

/-- The transaction `t` of a process. -/
abbrev World.delivers (w : World) (pid : Nat) (t : Transaction) : Prop :=
  w.procs pid = some (.deliver t)

/-- The steps, each with what it needs and the state after it. -/
inductive Effect (env : Env) (w : World) : Move → World → Prop
  | tick (d : Nat) : Effect env w (.tick d) { w with now := w.now + d }
  | data (raw : Bytes) (rcpts : List Str) :
      Effect env w (.data raw rcpts)
        (w.spawn (.deliver ⟨raw, rcpts, w.config, w.deletes, [], rcpts, 0, 0, .next, [], false⟩))
  | unrouted {pid : Nat} {t : Transaction} {rcpt : Str} {rest : List Str} (hpid : w.delivers pid t)
      (hphase : t.phase = .next) (htodo : t.todo = rcpt :: rest)
      (hroute : resolveRecipientMailbox t.snapshot rcpt = none) :
      Effect env w (.deliver pid .route) (w.setProc pid (some (.deliver (t.finish false))))
  | routed {pid : Nat} {t : Transaction} {rcpt : Str} {rest : List Str} {m : Str}
      (hpid : w.delivers pid t) (hphase : t.phase = .next) (htodo : t.todo = rcpt :: rest)
      (hroute : resolveRecipientMailbox t.snapshot rcpt = some m) :
      Effect env w (.deliver pid .route)
        (w.setProc pid (some (.deliver { t with phase := .routed m })))
  | unready {pid : Nat} {t : Transaction} {m : Str} (ok : Bool) (hpid : w.delivers pid t)
      (hphase : t.phase = .routed m) :
      Effect env w (.deliver pid (.mkdir ok)) (w.setProc pid (some (.deliver (t.finish false))))
  | ready {pid : Nat} {t : Transaction} {m : Str} (ok : Bool) (hpid : w.delivers pid t)
      (hphase : t.phase = .routed m) (hparse : (env.parse t.raw).isSome = true) :
      Effect env w (.deliver pid (.mkdir ok))
        (w.setProc pid (some (.deliver { t with phase := .ready m })))
  | lock {pid : Nat} {t : Transaction} {m : Str} (hpid : w.delivers pid t)
      (hphase : t.phase = .ready m) (hfree : w.holder m = none) :
      Effect env w (.deliver pid .lock)
        ((w.setHolder m (some pid)).setProc pid (some (.deliver { t with phase := .locked m })))
  | unbuilt {pid : Nat} {t : Transaction} {m : Str} (readable : Str → Bool) (hpid : w.delivers pid t)
      (hphase : t.phase = .locked m) :
      Effect env w (.deliver pid (.build readable))
        ((w.setHolder m none).setProc pid (some (.deliver (t.finish false))))
  | build {pid : Nat} {t : Transaction} {m : Str} {cache : Cache} (readable : Str → Bool)
      (hpid : w.delivers pid t) (hphase : t.phase = .locked m) (hid : env.messageId t.raw ≠ [])
      (hnone : w.cache m = none)
      (hbuild : buildDedupCacheFromDisk env.chrono w.now
        ((dirOf (w.inbox m)).filter fun e => readable e.1) = some cache) :
      Effect env w (.deliver pid (.build readable))
        ((w.setCache m (some cache)).emit [.built w.now m cache])
  | skip {pid : Nat} {t : Transaction} {m : Str} {cache : Cache} (hpid : w.delivers pid t)
      (hphase : t.phase = .locked m) (hid : env.messageId t.raw ≠ []) (hcache : w.cache m = some cache)
      (hdup : env.makeDedupSparkv.containsKey cache w.now (env.messageId t.raw) = true) :
      Effect env w (.deliver pid .check)
        (((w.setHolder m none).setProc pid (some (.deliver (t.finish true)))).emit
          [.skipped pid w.now m (env.messageId t.raw)])
  | pass {pid : Nat} {t : Transaction} {m : Str} (hpid : w.delivers pid t)
      (hphase : t.phase = .locked m)
      (hnew : env.messageId t.raw ≠ [] →
        ∃ cache, w.cache m = some cache ∧
          env.makeDedupSparkv.containsKey cache w.now (env.messageId t.raw) = false) :
      Effect env w (.deliver pid .check) (w.setProc pid (some (.deliver { t with phase := .fresh m })))
  | write {pid : Nat} {t : Transaction} {m id : Str} {e : Entry} (wr : Writing) (hpid : w.delivers pid t)
      (hphase : t.phase = .fresh m) (hletter : e.letter = some t.raw) :
      Effect env w (.deliver pid (.write wr))
        ((((w.setInbox m (w.inbox m ++ [e])).emit [w.wroteEvent m (t.epochs m)]).setProc pid
          (some (.deliver { t with phase := .written m (w.log.length + 1), id := id }))).emit
            [.stored pid w.now m (env.messageId t.raw)])
  | unwritten {pid : Nat} {t : Transaction} {m : Str} {residue : List Entry} (wr : Writing)
      (hpid : w.delivers pid t) (hphase : t.phase = .fresh m) :
      Effect env w (.deliver pid (.write wr))
        ((((w.setInbox m (w.inbox m ++ residue)).emit [w.wroteEvent m (t.epochs m)]).setHolder m
          none).setProc pid (some (.deliver (t.finish false))))
  | insert {pid : Nat} {t : Transaction} {m : Str} {n : Nat} (hpid : w.delivers pid t)
      (hphase : t.phase = .written m n) :
      Effect env w (.deliver pid .insert)
        (((w.setCache m ((w.cache m).map fun cache =>
          env.makeDedupSparkv.enter cache w.now (env.messageId t.raw) t.id)).setHolder m none).setProc pid
          (some (.deliver { t with phase := .firing m n })))
  | fire {pid : Nat} {t : Transaction} {m : Str} {n : Nat} (ok : Bool) (hpid : w.delivers pid t)
      (hphase : t.phase = .firing m n) :
      Effect env w (.deliver pid (.fire ok))
        ((w.setProc pid (some (.deliver (t.finish true)))).emit (if ok then [.fired m n] else []))
  | reply {pid : Nat} {t : Transaction} (hpid : w.delivers pid t) (hphase : t.phase = .next)
      (htodo : t.todo = []) :
      Effect env w (.deliver pid .reply)
        ((w.setProc pid none).emit
          (if t.abandoned then []
            else [.replied pid t.accepted (env.messageId t.raw) t.routes]))
  | abandon {pid : Nat} {t : Transaction} (hpid : w.delivers pid t) :
      Effect env w (.deliver pid .abandon)
        (w.setProc pid (some (.deliver
          { t with todo := if t.phase = .next then [] else t.todo.take 1, abandoned := true })))
  | create {name : Str} (mb : MailboxConfig) (hfree : w.holder name = none) :
      Effect env w (.create name mb)
        { w with config := { w.config with mailboxes := w.config.mailboxes.insert name mb } }
  | delete {name : Str} (force : Bool) (hfree : w.holder name = none) :
      Effect env w (.delete name force)
        ((w.setHolder name (some w.next)).spawn (.delete ⟨name, force, false⟩))
  | wipeSent {pid : Nat} {d : Deletion} (name : Str) (hpid : w.procs pid = some (.delete d))
      (hcounted : d.counted = false) :
      Effect env w (.deleting pid (.wipe true name))
        (w.setSent d.mailbox ((w.sent d.mailbox).filter fun e => e.name != name))
  | wipeInbox {pid : Nat} {d : Deletion} (name : Str) (hpid : w.procs pid = some (.delete d))
      (hcounted : d.counted = false) :
      Effect env w (.deleting pid (.wipe false name))
        (w.setInbox d.mailbox ((w.inbox d.mailbox).filter fun e => e.name != name))
  | count {pid : Nat} {d : Deletion} (inboxUnreadable sentUnreadable : Bool)
      (hpid : w.procs pid = some (.delete d)) :
      Effect env w (.deleting pid (.count inboxUnreadable sentUnreadable))
        (w.setProc pid (some (.delete { d with counted := true })))
  | commit {pid : Nat} {d : Deletion} (hpid : w.procs pid = some (.delete d))
      (hcounted : d.counted = true) :
      Effect env w (.deleting pid .commit)
        ((({ w with
          config := { w.config with mailboxes := w.config.mailboxes.erase d.mailbox }
          deletes := Function.update w.deletes d.mailbox (w.deletes d.mailbox + 1) }).setHolder
            d.mailbox none).setProc pid none |>.emit [.deleted d.mailbox])
  | refuse {pid : Nat} {d : Deletion} (hpid : w.procs pid = some (.delete d)) :
      Effect env w (.deleting pid .refuse) ((w.setHolder d.mailbox none).setProc pid none)
  | send {mailbox : Str} (hlive : mailbox ∈ w.config.mailboxes) :
      Effect env w (.send mailbox) (w.spawn (.send ⟨mailbox, w.deletes mailbox, none⟩))
  | claim {pid : Nat} {s : Sending} (timestamp : Timestamp) (subject name : Str) (sent : List Entry)
      (hpid : w.procs pid = some (.send s)) :
      Effect env w (.sending pid (.claim timestamp subject))
        (((w.setSent s.mailbox sent).setProc pid
          (some (.send { s with claimed := some name }))).emit [w.wroteEvent s.mailbox s.epoch])
  | copy {pid : Nat} {s : Sending} (content : Bytes) (sent : List Entry)
      (hpid : w.procs pid = some (.send s)) :
      Effect env w (.sending pid (.write content))
        (((w.setSent s.mailbox sent).setProc pid none).emit [w.wroteEvent s.mailbox s.epoch])
  | stop {pid : Nat} {s : Sending} (hpid : w.procs pid = some (.send s)) :
      Effect env w (.sending pid .stop) (w.setProc pid none)
  | mark {mailbox : Str} (name : Str) (node : Node) (hfree : w.holder mailbox = none) :
      Effect env w (.mark mailbox name node)
        (w.setInbox mailbox ((w.inbox mailbox).map fun e =>
          if e.name = name then { e with node := node } else e))

/-- Storing appends to the directory. -/
theorem store_appends (u : Unicode) (d : MailDir) (r : Delivery) :
    ∃ new, (store u d r).1 = d ++ new ∧ ((store u d r).2.isSome = true → new.length = 1) := by
  unfold store
  dsimp only
  split
  · exact ⟨[], by simp, by simp⟩
  · split
    · exact ⟨_, rfl, by simp⟩
    · split
      · exact ⟨_, rfl, by simp⟩
      · split
        · exact ⟨[], by simp, by simp⟩
        · exact ⟨_, rfl, by simp⟩

theorem storeLetter_cases (u : Unicode) (l : List Entry) (d : Delivery) (raw : Bytes) :
    (∃ e s, storeLetter u l d raw = (l ++ [e], some s) ∧ e.letter = some raw) ∨
      ∃ residue, storeLetter u l d raw = (l ++ residue, none) := by
  obtain ⟨new, hnew, hone⟩ := store_appends u (dirOf l) d
  have hdrop : ((store u (dirOf l) d).1.drop l.length) = new := by
    rw [hnew]
    simp [dirOf]
  unfold storeLetter
  dsimp only
  rw [hdrop]
  cases hstored : (store u (dirOf l) d).2 with
  | none => exact Or.inr ⟨_, rfl⟩
  | some s =>
      obtain ⟨e, rfl⟩ := List.length_eq_one_iff.mp (hone (by rw [hstored]; rfl))
      exact Or.inl ⟨_, _, rfl, rfl⟩

theorem effect_of_deliverStep {env : Env} {w w' : World} {pid : Nat} {t : Transaction}
    {a : DeliverMove} (hpid : w.delivers pid t) (h : deliverStep env w pid t a = some w') :
    Effect env w (.deliver pid a) w' := by
  cases a with
  | route =>
      simp only [deliverStep] at h
      split at h
      · split at h
        · cases h
          exact .unrouted hpid ‹_› ‹_› ‹_›
        · cases h
          exact .routed hpid ‹_› ‹_› ‹_›
      · cases h
  | mkdir ok =>
      simp only [deliverStep] at h
      split at h
      · split at h
        next hok =>
            cases h
            rw [Bool.and_eq_true] at hok
            exact .ready ok hpid ‹_› hok.2
        next =>
            cases h
            exact .unready ok hpid ‹_›
      · cases h
  | lock =>
      simp only [deliverStep] at h
      split at h
      · split at h
        · cases h
          exact .lock hpid ‹_› ‹_›
        · cases h
      · cases h
  | build readable =>
      simp only [deliverStep] at h
      split at h
      · split at h
        next hcond =>
            split at h
            · cases h
              exact .unbuilt readable hpid ‹_›
            · cases h
              exact .build readable hpid ‹_› hcond.1 (Option.isNone_iff_eq_none.mp hcond.2) ‹_›
        next => cases h
      · cases h
  | check =>
      simp only [deliverStep] at h
      split at h
      · split at h
        next hid =>
            cases h
            exact .pass hpid ‹_› fun hne => absurd hid hne
        next hid =>
            split at h
            · cases h
            next hcache =>
                split at h
                next hdup =>
                    cases h
                    exact .skip hpid ‹_› hid hcache hdup
                next hnew =>
                    cases h
                    exact .pass hpid ‹_› fun _ => ⟨_, hcache, Bool.eq_false_iff.mpr hnew⟩
      · cases h
  | write wr =>
      simp only [deliverStep] at h
      split at h
      next m message hphase _ =>
          rcases storeLetter_cases env.unicode (w.inbox m)
            (wr.delivery env t.snapshot (t.todo.headD []) m t.raw message) t.raw with
            ⟨e, s, hstore, hletter⟩ | ⟨residue, hstore⟩
          · rw [hstore] at h
            cases h
            have hlength : ((w.setInbox m (w.inbox m ++ [e])).emit
                [w.wroteEvent m (t.epochs m)]).log.length = w.log.length + 1 := List.length_append
            rw [hlength]
            exact .write wr hpid hphase hletter
          · rw [hstore] at h
            cases h
            exact .unwritten wr hpid hphase
      next => cases h
  | insert =>
      simp only [deliverStep] at h
      split at h
      · cases h
        exact .insert hpid ‹_›
      · cases h
  | fire ok =>
      simp only [deliverStep] at h
      split at h
      · cases h
        exact .fire ok hpid ‹_›
      · cases h
  | reply =>
      simp only [deliverStep] at h
      split at h
      · cases h
        exact .reply hpid ‹_› ‹_›
      · cases h
  | abandon =>
      simp only [deliverStep] at h
      cases h
      exact .abandon hpid

theorem effect_of_deleteStep {env : Env} {w w' : World} {pid : Nat} {d : Deletion} {a : DeleteMove}
    (hpid : w.procs pid = some (.delete d)) (h : deleteStep w pid d a = some w') :
    Effect env w (.deleting pid a) w' := by
  cases a with
  | wipe fromSent name =>
      simp only [deleteStep] at h
      split at h
      next hcond =>
          have hcounted : d.counted = false := by
            simp only [Bool.and_eq_true, Bool.not_eq_true'] at hcond
            exact hcond.2
          cases fromSent with
          | true =>
              simp only [if_true] at h
              cases h
              exact .wipeSent name hpid hcounted
          | false =>
              simp only [Bool.false_eq_true, if_false] at h
              cases h
              exact .wipeInbox name hpid hcounted
      next => cases h
  | count inboxUnreadable sentUnreadable =>
      simp only [deleteStep] at h
      split at h
      · cases h
        exact .count inboxUnreadable sentUnreadable hpid
      · cases h
  | commit =>
      simp only [deleteStep] at h
      split at h
      · cases h
        exact .commit hpid ‹_›
      · cases h
  | refuse =>
      simp only [deleteStep] at h
      cases h
      exact .refuse hpid

theorem effect_of_sendStep {env : Env} {w w' : World} {pid : Nat} {s : Sending} {a : SendMove}
    (hpid : w.procs pid = some (.send s)) (h : sendStep env w pid s a = some w') :
    Effect env w (.sending pid a) w' := by
  cases a with
  | claim timestamp subject =>
      simp only [sendStep] at h
      split at h
      · cases h
        exact .claim timestamp subject _ _ hpid
      · cases h
  | write content =>
      simp only [sendStep] at h
      split at h
      · cases h
        exact .copy content _ hpid
      · cases h
  | stop =>
      simp only [sendStep] at h
      cases h
      exact .stop hpid

/-- Everything a step can do. -/
theorem effect_of_step {env : Env} {w w' : World} {a : Move} (h : step env w a = some w') :
    Effect env w a w' := by
  cases a with
  | tick d =>
      cases h
      exact .tick d
  | data raw rcpts =>
      cases h
      exact .data raw rcpts
  | deliver pid a =>
      simp only [step] at h
      split at h
      · exact effect_of_deliverStep ‹_› h
      · cases h
  | create name mb =>
      simp only [step] at h
      split at h
      next hcond =>
          cases h
          exact .create mb hcond.1
      next => cases h
  | delete name force =>
      simp only [step] at h
      split at h
      next hcond =>
          cases h
          exact .delete force hcond.1
      next => cases h
  | deleting pid a =>
      simp only [step] at h
      split at h
      · exact effect_of_deleteStep ‹_› h
      · cases h
  | send mailbox =>
      simp only [step] at h
      split at h
      · cases h
        exact .send ‹_›
      · cases h
  | sending pid a =>
      simp only [step] at h
      split at h
      · exact effect_of_sendStep ‹_› h
      · cases h
  | mark mailbox name node =>
      simp only [step] at h
      split at h
      · cases h
        exact .mark name node ‹_›
      · cases h

/-! ## What is added to the record -/

/-- What an event says of the step that adds it. -/
def Explained (env : Env) (w w' : World) : Event → Prop
  | .skipped _ time m id => time = w.now ∧ ∃ cache, w.cache m = some cache ∧
      env.makeDedupSparkv.containsKey cache time id = true
  | .stored pid _ m id => ∃ t e, w.delivers pid t ∧ id = env.messageId t.raw ∧
      w'.inbox m = w.inbox m ++ [e] ∧ e.letter = some t.raw
  | .replied pid accepted id routes => ∃ t, w.delivers pid t ∧ t.todo = [] ∧ t.abandoned = false ∧
      id = env.messageId t.raw ∧ accepted = t.accepted ∧ routes = t.routes
  | .wrote m live late =>
      (∃ pid t, w.delivers pid t ∧ t.phase = .fresh m ∧
        .wrote m live late = w.wroteEvent m (t.epochs m)) ∨
      ∃ pid s, w.procs pid = some (.send s) ∧ s.mailbox = m ∧ .wrote m live late = w.wroteEvent m s.epoch
  | _ => True

/-- The record only grows, and a step explains what it adds. -/
theorem log_of_effect {env : Env} {w w' : World} {a : Move} (heffect : Effect env w a w') :
    ∃ es, w'.log = w.log ++ es ∧ ∀ e ∈ es, Explained env w w' e := by
  have hnothing : ∀ {l : List Event}, ∃ es, l = l ++ es ∧ ∀ e ∈ es, Explained env w w' e :=
    ⟨[], by simp, by simp⟩
  have hone : ∀ {l : List Event} {x : Event}, Explained env w w' x →
      ∃ es, l ++ [x] = l ++ es ∧ ∀ e ∈ es, Explained env w w' e := by
    intro l x hx
    refine ⟨[x], rfl, ?_⟩
    intro e he
    rw [List.mem_singleton] at he
    rw [he]
    exact hx
  cases heffect with
  | build => exact hone trivial
  | skip hpid hphase hid hcache hdup => exact hone ⟨rfl, _, hcache, hdup⟩
  | @write pid t m id e wr hpid hphase hletter =>
      refine ⟨[w.wroteEvent m (t.epochs m), .stored pid w.now m (env.messageId t.raw)], ?_, ?_⟩
      · show w.log ++ [_] ++ [_] = _
        rw [List.append_assoc]
        rfl
      · intro x hx
        rcases List.mem_pair.mp hx with rfl | rfl
        · exact Or.inl ⟨pid, t, hpid, hphase, rfl⟩
        · refine ⟨t, e, hpid, rfl, ?_, hletter⟩
          show Function.update w.inbox m _ m = _
          rw [Function.update_self]
  | unwritten wr hpid hphase => exact hone (Or.inl ⟨_, _, hpid, hphase, rfl⟩)
  | fire ok =>
      cases ok with
      | true => exact hone trivial
      | false => exact ⟨[], rfl, by simp⟩
  | reply hpid hphase htodo =>
      dsimp only [World.emit, World.setProc]
      split
      · exact ⟨[], rfl, by simp⟩
      next hstill => exact hone ⟨_, hpid, htodo, Bool.eq_false_iff.mpr hstill, rfl, rfl, rfl⟩
  | commit => exact hone trivial
  | claim _ _ _ _ hpid => exact hone (Or.inr ⟨_, _, hpid, rfl, rfl⟩)
  | copy _ _ hpid => exact hone (Or.inr ⟨_, _, hpid, rfl, rfl⟩)
  | _ => exact hnothing

/-- An event of the record was there before, or the last step explains it. -/
theorem event_of_effect {env : Env} {w w' : World} {a : Move} (heffect : Effect env w a w') {n : Nat}
    {e : Event} (he : w'.log[n]? = some e) : w.log[n]? = some e ∨ Explained env w w' e := by
  obtain ⟨es, hlog, hexplained⟩ := log_of_effect heffect
  rw [hlog] at he
  by_cases hlt : n < w.log.length
  · rw [List.getElem?_append_left hlt] at he
    exact Or.inl he
  · rw [List.getElem?_append_right (by omega)] at he
    exact Or.inr (hexplained e (List.mem_of_getElem? he))

/-- What has happened stays on record. -/
theorem event_mono {env : Env} {w w' : World} {a : Move} (heffect : Effect env w a w') {n : Nat}
    {e : Event} (he : w.log[n]? = some e) : w'.log[n]? = some e := by
  obtain ⟨es, hlog, -⟩ := log_of_effect heffect
  rw [hlog, List.getElem?_append_left (List.getElem?_eq_some_iff.mp he).1]
  exact he

/-! ## A small daemon -/

/-- A mailbox without hooks. -/
def plainMailbox (owner : Str) : MailboxConfig where
  address := owner ++ "@example.org".toList
  owner := owner
  hooks := []
  trust := none
  trustedSenders := none
  allowRootCatchall := false

/-- A configuration with the mailboxes of `alice` and `bob`. -/
def twoMailboxes : Config where
  domain := "example.org".toList
  dataDir := "/var/lib/aimx".toList
  dkimSelector := "aimx".toList
  trust := "none".toList
  trustedSenders := []
  mailboxes := (AList.singleton "bob".toList (plainMailbox "bob".toList)).insert "alice".toList
    (plainMailbox "alice".toList)
  verifyHost := none
  enableIpv6 := false
  signature := none
  upgrade := none

/-- A message as it arrives. -/
def helloRaw : Bytes :=
  utf8 "Message-ID: <m1@example.net>\r\nSubject: hello\r\n\r\nHello\r\n".toList

/-- What the parser gives of it. -/
def helloMessage : Message where
  from_ := none
  to_ := none
  cc := none
  replyTo := none
  subject := some "hello".toList
  date := none
  messageId := some "m1@example.net".toList
  inReplyTo := none
  references := none
  listId := none
  autoSubmitted := none
  body := "Hello\r\n".toList

def helloEnv : Env where
  unicode := asciiUnicode
  toml := lineToml
  sender := plainMatch
  chrono := newYear
  parse := fun raw => if raw = helloRaw then some helloMessage else none
  sparkv := memorySparKV

/-- The daemon on the first morning of 2025, with empty directories. -/
def helloWorld : World :=
  World.start (1735689601 * nanosPerSec) twoMailboxes (fun _ => []) fun _ => []

/-- A write that succeeds. -/
def helloWriting : Writing where
  arrival := {
    now := "2025-01-01T00:00:01+00:00".toList
    id := []
    threadId := "0123456789abcdef".toList
    receivedFromIp := none
    attachments := []
    auth := none }
  timestamp := ⟨2025, 1, 1, 0, 0, 1⟩
  attachments := []
  failure := none

/-- All that a transaction does for its next recipient, when nothing fails; the store of the mailbox is
built when `first` says so. -/
def deliverNext (pid : Nat) (first : Bool) : List Move :=
  [.deliver pid .route, .deliver pid (.mkdir true), .deliver pid .lock] ++
    (if first then [.deliver pid (.build fun _ => true)] else []) ++
    [.deliver pid .check, .deliver pid (.write helloWriting), .deliver pid .insert,
      .deliver pid (.fire true)]

end Ingest
end Aimx
