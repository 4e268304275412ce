import Aimx.Config.Toml
import Aimx.Daemon.Commit
import Aimx.Daemon.Mark
import Aimx.Transition.Runs

/-!
# The daemon under concurrent requests

The daemon as a transition system.  A request is checked on the configuration of its arrival, waits for
its mailbox lock and for the configuration lock, loads the configuration once more, replaces the file,
and stores the new configuration.  A reload reads the file and stores what it read, without either lock.
MARK requests take the mailbox lock only.  The operator edits the file at any time.

* `Server`, `Move`, `step` — states, moves and the step function;
* `Effect`, `step_effect` — what each move can do;
* `start` — the start of the daemon, with or without an override of the data directory.
-/

namespace Aimx
namespace Daemon

open Text Protocol Transition

/-! ## States -/

/-- A request that waits for its locks, with the snapshot it was checked on. -/
structure Pending where
  caller : Caller
  request : ConfigRequest
  snapshot : Config
  plan : Plan

/-- A MARK request that waits for its lock, with the snapshot it was checked on. -/
structure PendingMark where
  caller : Caller
  request : MarkRequest
  snapshot : Config

/-- The request that holds the locks: it has loaded the configuration, or it has replaced the file. -/
inductive Inside
  | entered (pending : Pending) (current : Config)
  | renamed (pending : Pending) (current next : Config)

/-- The request itself. -/
def Inside.pending : Inside → Pending
  | .entered pending _ => pending
  | .renamed pending _ _ => pending

/-- Whether it has replaced the file. -/
def Inside.isRenamed : Inside → Bool
  | .entered _ _ => false
  | .renamed _ _ _ => true

/-- The daemon: the configuration in memory, the disk, the data directories that the request context and
the send context copied at the start, the requests under way, the reload under way, and the requests that
were answered OK, the latest first. -/
structure Server where
  memory : Config
  disk : Disk
  stateDataDir : Str
  sendDataDir : Str
  waiting : List Pending
  inside : Option Inside
  reloading : Option Config
  marking : List PendingMark
  answered : List Pending

/-- The surroundings: those of the handlers, the `toml` crate's parser, and the texts of its errors. -/
structure ServerEnv where
  handlers : HandlerEnv
  parseToml : Str → Except Str TomlValue
  tomlError : TomlValue → Str

/-- The surroundings of a load. -/
def ServerEnv.load (env : ServerEnv) : LoadEnv where
  parseToml := env.parseToml
  deserialize := deserializeConfig env.tomlError
  resolveUser := env.handlers.users.resolveUser
  sha256 := env.handlers.sha256

/-- The surroundings of a handler whose context has copied a data directory. -/
def ServerEnv.at (env : ServerEnv) (dataDir : Str) : HandlerEnv :=
  { env.handlers with dataDir := dataDir }

/-- The parser of the `toml` crate undoes its printer. -/
def ServerEnv.RoundTrips (env : ServerEnv) : Prop :=
  ∀ config text, env.handlers.print config = .ok text → env.parseToml text = .ok config.toToml

/-- The configuration in the file. -/
def ServerEnv.fileConfig (env : ServerEnv) (disk : Disk) : Except Str Config :=
  readBack env.load disk.config

/-- A printed configuration is read back. -/
theorem ServerEnv.RoundTrips.readBack {env : ServerEnv} (h : env.RoundTrips) {config : Config}
    {text : Str} (hprint : env.handlers.print config = .ok text) :
    readBack env.load text = .ok config :=
  (load_printed rfl (h config text hprint)).1

/-- It is loaded if the legacy check lets it pass and it is acceptable. -/
theorem ServerEnv.RoundTrips.exists_load {env : ServerEnv} (h : env.RoundTrips) {config : Config}
    {text : Str} (hprint : env.handlers.print config = .ok text)
    (hlegacy : rejectLegacySchema text = .ok ()) (haccepted : Accepted env.handlers.sha256 config) :
    ∃ warnings, Aimx.load env.load text = .ok (config, warnings) :=
  (@load_printed env.load _ _ _ rfl (h config text hprint)).2.mpr ⟨hlegacy, haccepted⟩

/-- No other printed configuration is loaded. -/
theorem ServerEnv.RoundTrips.load_iff {env : ServerEnv} (h : env.RoundTrips) {config : Config}
    {text : Str} (hprint : env.handlers.print config = .ok text) :
    (∃ r, Aimx.load env.load text = .ok r) ↔
      rejectLegacySchema text = .ok () ∧ Accepted env.handlers.sha256 config := by
  constructor
  · rintro ⟨⟨config', warnings⟩, h'⟩
    obtain ⟨hread', haccepted, hlegacy⟩ := load_eq_ok h'
    cases (h.readBack hprint).symm.trans hread'
    exact ⟨hlegacy, haccepted⟩
  · rintro ⟨hlegacy, haccepted⟩
    obtain ⟨warnings, h'⟩ := h.exists_load hprint hlegacy haccepted
    exact ⟨_, h'⟩

/-! ## Steps -/

/-- The moves. -/
inductive Move
  /-- A request arrives and is checked. -/
  | arrive (caller : Caller) (request : ConfigRequest)
  /-- A waiting request takes its locks and loads the configuration. -/
  | enter (k : Nat)
  /-- The request inside does its work on the disk, up to the rename. -/
  | execute (faults : Faults)
  /-- The request inside stores its configuration, is answered, and releases its locks. -/
  | store
  /-- A reload reads and checks the file. -/
  | readFile
  /-- The reload stores what it read. -/
  | storeReload
  /-- The operator replaces the file. -/
  | edit (text : Str)
  /-- A MARK request arrives and is checked. -/
  | arriveMark (caller : Caller) (request : MarkRequest)
  /-- A waiting MARK request takes its lock and rewrites its file. -/
  | mark (k : Nat) (mark : MarkEnv)

/-- One move, where it is possible. -/
def step (env : ServerEnv) (s : Server) : Move → Option Server
  | .arrive caller request =>
      match request.check env.handlers s.memory caller with
      | .error _ => some s
      | .ok plan => some { s with waiting := s.waiting ++ [⟨caller, request, s.memory, plan⟩] }
  | .enter k =>
      match s.inside, s.waiting[k]? with
      | none, some p => some
          { s with waiting := s.waiting.eraseIdx k, inside := some (.entered p s.memory) }
      | _, _ => none
  | .execute faults =>
      match s.inside with
      | some (.entered p current) =>
          match p.plan.execute (env.at s.stateDataDir) faults p.caller current s.disk with
          | (disk, .error _) => some { s with disk := disk, inside := none }
          | (disk, .ok next) => some { s with disk := disk, inside := some (.renamed p current next) }
      | _ => none
  | .store =>
      match s.inside with
      | some (.renamed p _ next) =>
          some { s with memory := next, inside := none, answered := p :: s.answered }
      | _ => none
  | .readFile =>
      match s.reloading with
      | some _ => none
      | none =>
          match load env.load s.disk.config with
          | .error _ => some s
          | .ok (config, _) => some { s with reloading := some config }
  | .storeReload =>
      match s.reloading with
      | none => none
      | some config => some { s with memory := config, reloading := none }
  | .edit text => some { s with disk := { s.disk with config := text } }
  | .arriveMark caller request =>
      match markCheck s.memory request caller with
      | .error _ => some s
      | .ok () => some { s with marking := s.marking ++ [⟨caller, request, s.memory⟩] }
  | .mark k mark =>
      match s.marking[k]? with
      | none => none
      | some p =>
          if s.inside.any fun i => i.pending.plan.mailbox = p.request.mailbox then none
          else some
            { s with
              disk := (markFile (env.at s.stateDataDir) mark p.request s.disk).1
              marking := s.marking.eraseIdx k }

/-- The daemon at its start: the file is loaded, an override replaces the data directory in memory, and
the contexts copy it. -/
def start (env : ServerEnv) (dataDirOverride : Option Str) (disk : Disk) : Option Server :=
  match load env.load disk.config with
  | .error _ => none
  | .ok (config, _) =>
      let config := { config with dataDir := dataDirOverride.getD config.dataDir }
      some
        { memory := config
          disk := disk
          stateDataDir := config.dataDir
          sendDataDir := config.dataDir
          waiting := []
          inside := none
          reloading := none
          marking := []
          answered := [] }

/-! ## What a step can do -/

/-- What the moves can do to a state. -/
inductive Effect (env : ServerEnv) (s : Server) : Move → Server → Prop
  | refuse (caller : Caller) (request : ConfigRequest) : Effect env s (.arrive caller request) s
  | arrive {caller : Caller} {request : ConfigRequest} {plan : Plan}
      (hcheck : request.check env.handlers s.memory caller = .ok plan) :
      Effect env s (.arrive caller request)
        { s with waiting := s.waiting ++ [⟨caller, request, s.memory, plan⟩] }
  | enter {k : Nat} {p : Pending} (hinside : s.inside = none) (hp : s.waiting[k]? = some p) :
      Effect env s (.enter k)
        { s with waiting := s.waiting.eraseIdx k, inside := some (.entered p s.memory) }
  | fail {faults : Faults} {p : Pending} {current : Config} {disk : Disk} {reject : Reject}
      (hinside : s.inside = some (.entered p current))
      (hexecute : p.plan.execute (env.at s.stateDataDir) faults p.caller current s.disk =
        (disk, .error reject)) :
      Effect env s (.execute faults) { s with disk := disk, inside := none }
  | rename {faults : Faults} {p : Pending} {current next : Config} {disk : Disk}
      (hinside : s.inside = some (.entered p current))
      (hexecute : p.plan.execute (env.at s.stateDataDir) faults p.caller current s.disk =
        (disk, .ok next)) :
      Effect env s (.execute faults)
        { s with disk := disk, inside := some (.renamed p current next) }
  | store {p : Pending} {current next : Config} (hinside : s.inside = some (.renamed p current next)) :
      Effect env s .store { s with memory := next, inside := none, answered := p :: s.answered }
  | keepConfig (hreloading : s.reloading = none) : Effect env s .readFile s
  | readFile {config : Config} {warnings : List LoadWarning} (hreloading : s.reloading = none)
      (hload : load env.load s.disk.config = .ok (config, warnings)) :
      Effect env s .readFile { s with reloading := some config }
  | storeReload {config : Config} (hreloading : s.reloading = some config) :
      Effect env s .storeReload { s with memory := config, reloading := none }
  | edit (text : Str) : Effect env s (.edit text) { s with disk := { s.disk with config := text } }
  | refuseMark (caller : Caller) (request : MarkRequest) : Effect env s (.arriveMark caller request) s
  | arriveMark {caller : Caller} {request : MarkRequest}
      (hcheck : markCheck s.memory request caller = .ok ()) :
      Effect env s (.arriveMark caller request)
        { s with marking := s.marking ++ [⟨caller, request, s.memory⟩] }
  | mark {k : Nat} {mark : MarkEnv} {p : PendingMark} (hp : s.marking[k]? = some p)
      (hlock : ∀ i, s.inside = some i → i.pending.plan.mailbox ≠ p.request.mailbox) :
      Effect env s (.mark k mark)
        { s with
          disk := (markFile (env.at s.stateDataDir) mark p.request s.disk).1
          marking := s.marking.eraseIdx k }

/-- Every step is one of these effects. -/
theorem step_effect {env : ServerEnv} {s s' : Server} {m : Move} (h : step env s m = some s') :
    Effect env s m s' := by
  cases m with
  | arrive caller request =>
      dsimp only [step] at h
      split at h
      next => cases h; exact .refuse caller request
      next plan hcheck => cases h; exact .arrive hcheck
  | enter k =>
      dsimp only [step] at h
      split at h
      next p hinside hp => cases h; exact .enter hinside hp
      next => cases h
  | execute faults =>
      dsimp only [step] at h
      split at h
      next p current hinside =>
          split at h
          next disk reject hexecute => cases h; exact .fail hinside hexecute
          next disk next hexecute => cases h; exact .rename hinside hexecute
      next => cases h
  | store =>
      dsimp only [step] at h
      split at h
      next p current next hinside => cases h; exact .store hinside
      next => cases h
  | readFile =>
      dsimp only [step] at h
      split at h
      next => cases h
      next hreloading =>
          split at h
          next => cases h; exact .keepConfig hreloading
          next config warnings hload => cases h; exact .readFile hreloading hload
  | storeReload =>
      dsimp only [step] at h
      split at h
      next => cases h
      next config hreloading => cases h; exact .storeReload hreloading
  | edit text =>
      cases h
      exact .edit text
  | arriveMark caller request =>
      dsimp only [step] at h
      split at h
      next => cases h; exact .refuseMark caller request
      next hcheck => cases h; exact .arriveMark hcheck
  | mark k mark =>
      dsimp only [step] at h
      split at h
      next => cases h
      next p hp =>
          split at h
          next => cases h
          next hlock =>
              cases h
              refine .mark hp fun i hi heq => hlock ?_
              rw [hi]
              simpa using heq

/-- A start is a loaded file, with the override in memory. -/
theorem start_eq_some {env : ServerEnv} {dataDirOverride : Option Str} {disk : Disk} {s : Server}
    (h : start env dataDirOverride disk = some s) :
    ∃ config warnings, load env.load disk.config = .ok (config, warnings) ∧
      s = { memory := { config with dataDir := dataDirOverride.getD config.dataDir }
            disk := disk
            stateDataDir := dataDirOverride.getD config.dataDir
            sendDataDir := dataDirOverride.getD config.dataDir
            waiting := []
            inside := none
            reloading := none
            marking := []
            answered := [] } := by
  unfold start at h
  split at h
  next => cases h
  next config warnings hload =>
      cases h
      exact ⟨config, warnings, hload, rfl⟩

/-- A run from a start that can be evaluated. -/
theorem exists_run (env : ServerEnv) (dataDirOverride : Option Str) (disk : Disk) (moves : List Move)
    (P : Server → Prop) [DecidablePred P]
    (h : ((start env dataDirOverride disk).bind fun s => run (step env) s moves).any
      (fun s => decide (P s)) = true) :
    ∃ s₀ s, start env dataDirOverride disk = some s₀ ∧ run (step env) s₀ moves = some s ∧ P s := by
  obtain ⟨s, hs, hP⟩ := (Option.any_eq_true _ _).mp h
  obtain ⟨s₀, hstart, hrun⟩ := Option.bind_eq_some_iff.mp hs
  exact ⟨s₀, s, hstart, hrun, of_decide_eq_true hP⟩

/-- A step that ends between the rename and the store, and that can be evaluated. -/
theorem exists_renamed {env : ServerEnv} {s : Server} {faults : Faults}
    (h : (step env s (.execute faults)).any (fun s' => s'.inside.any Inside.isRenamed) = true) :
    ∃ s' p current next, step env s (.execute faults) = some s' ∧
      s'.inside = some (.renamed p current next) := by
  obtain ⟨s', hs', hinside⟩ := (Option.any_eq_true _ _).mp h
  obtain ⟨inside, hsome, hrenamed⟩ := (Option.any_eq_true _ _).mp hinside
  cases inside with
  | entered p current => cases hrenamed
  | renamed p current next => exact ⟨s', p, current, next, hs', hsome⟩

/-! ## A daemon with a few files -/

/-- Equality of configurations, as it can be evaluated. -/
def sameConfig (c c' : Config) : Bool :=
  decide (c.domain = c'.domain ∧ c.dataDir = c'.dataDir ∧ c.dkimSelector = c'.dkimSelector ∧
    c.trust = c'.trust ∧ c.trustedSenders = c'.trustedSenders ∧
    c.mailboxes.entries = c'.mailboxes.entries ∧ c.verifyHost = c'.verifyHost ∧
    c.enableIpv6 = c'.enableIpv6 ∧ c.signature = c'.signature ∧ c.upgrade = c'.upgrade)

theorem sameConfig_iff {c c' : Config} : sameConfig c c' = true ↔ c = c' := by
  rw [sameConfig, decide_eq_true_eq]
  constructor
  · rintro ⟨h₁, h₂, h₃, h₄, h₅, h₆, h₇, h₈, h₉, h₁₀⟩
    obtain ⟨_, _, _, _, _, mailboxes, _, _, _, _⟩ := c
    obtain ⟨_, _, _, _, _, mailboxes', _, _, _, _⟩ := c'
    have hmailboxes : mailboxes = mailboxes' := AList.ext h₆
    simp only at h₁ h₂ h₃ h₄ h₅ h₇ h₈ h₉ h₁₀
    subst h₁ h₂ h₃ h₄ h₅ h₇ h₈ h₉ h₁₀ hmailboxes
    rfl
  · rintro rfl
    simp

/-- A line with a text value. -/
def tomlLine (key : String) (value : Str) : Str :=
  key.toList ++ " = \"".toList ++ value ++ "\"\n".toList

/-- The printed form of a configuration that only sets names, addresses, owners and plain hooks. -/
def sampleFile (config : Config) : Str :=
  tomlLine "domain" config.domain ++ tomlLine "data_dir" config.dataDir ++
    tomlLine "dkim_selector" config.dkimSelector ++ "enable_ipv6 = false\n".toList ++
    config.mailboxes.entries.flatMap fun e =>
      "\n[mailboxes.".toList ++ e.1 ++ "]\n".toList ++ tomlLine "address" e.2.address ++
        tomlLine "owner" e.2.owner ++
        e.2.hooks.flatMap fun hook =>
          "\n[[mailboxes.".toList ++ e.1 ++ ".hooks]]\n".toList ++
            (match hook.name with
            | some name => tomlLine "name" name
            | none => []) ++
            tomlLine "event" hook.event.asStr ++ tomlLine "type" hook.type ++ "cmd = [\n".toList ++
            hook.cmd.flatMap (fun arg => "    \"".toList ++ arg ++ "\",\n".toList) ++
            "]\n".toList

/-- Surroundings in which some configurations are printed and their files are parsed. -/
def sampleServer (configs : List Config) : ServerEnv where
  handlers :=
    { sampleEnv with
      print := fun c => if configs.any (sameConfig c) then .ok (sampleFile c) else .error [] }
  parseToml := fun text =>
    match configs.find? fun c => sampleFile c == text with
    | some c => .ok c.toToml
    | none => .error "expected a key".toList
  tomlError := fun _ => "missing field".toList

/-- They are parsed to what was printed, if their files differ. -/
theorem sampleServer_roundTrips {configs : List Config} (h : (configs.map sampleFile).Nodup) :
    (sampleServer configs).RoundTrips := by
  intro config text hprint
  simp only [sampleServer] at hprint ⊢
  split at hprint
  next hany =>
      cases hprint
      obtain ⟨c, hmem, hsame⟩ := List.any_eq_true.mp hany
      obtain rfl := sameConfig_iff.mp hsame
      cases hfind : configs.find? fun c => sampleFile c == sampleFile config with
      | none =>
          have hne := List.find?_eq_none.mp hfind config hmem
          exact absurd (beq_self_eq_true _) hne
      | some c =>
          have heq := List.find?_some hfind
          rw [beq_iff_eq] at heq
          rw [List.inj_on_of_nodup_map h (List.mem_of_find?_eq_some hfind) hmem heq]
  next => cases hprint

/-- A configuration without mailboxes. -/
def sampleConfigAt (dataDir : String) : Config := { sampleConfig [] with dataDir := dataDir.toList }

/-- A disk without folders and with a configuration file. -/
def sampleDisk (config : Config) : Disk := ⟨fun _ _ => none, sampleFile config, false⟩

end Daemon
end Aimx
