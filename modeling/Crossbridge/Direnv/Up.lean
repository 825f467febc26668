import Crossbridge.Lib.Runs
import Crossbridge.Direnv.Slug

/-!
`crossbridge_up`: one server for a repo, started when a shell enters it.

Calls run at the same time. Each checks its arguments, takes a lock on a file that is named by slug and
group, looks for the root of the repo in what `pgrep` lists, and if it is not found there starts a
server and waits until it is. The server writes to a log file, which is named like the lock; where that
cannot be opened the shell does not start it. What `pgrep` lists are the servers that have come up, and
the `grep`s of the calls that look at the same time, if their command line has the name of the server in
it.
-/

namespace Crossbridge.Direnv

open Text

/-- What a call of `crossbridge_up` is given and finds. -/
structure Call where
  group : String
  /-- The second argument, which may be empty. -/
  slugArg : String
  /-- `pwd -P` -/
  root : String
  /-- What `_crossbridge_origin_url` prints. -/
  originUrl : String
  hasServer : Bool
  /-- `.crosslink/issues.db` is a file. -/
  db : Bool
  logdir : String
  deriving DecidableEq, Repr

namespace Call

variable (loc : Ctype) (c : Call)

/-- What `$(…)` makes of an output. -/
def captured (s : String) : String := String.ofList (s.toList.rdropWhile (· = '\n'))

/-- The slug: the argument, or else what the URL gives; empty if there is none. -/
def slug : String :=
  if c.slugArg ≠ "" then c.slugArg
  else if c.originUrl = "" then ""
  else ((parseSlug loc c.originUrl).map captured).getD ""

/-- The call passes its checks. -/
def Ready : Prop := c.group ≠ "" ∧ c.hasServer = true ∧ c.slug loc ≠ "" ∧ c.db = true

instance : Decidable (c.Ready loc) := by unfold Ready; infer_instance

def lockPath : String := c.logdir ++ "/" ++ c.slug loc ++ "." ++ c.group ++ ".lock"

def logPath : String := c.logdir ++ "/" ++ c.slug loc ++ "." ++ c.group ++ ".log"

/-- The command line of the server that the call starts. -/
def serverCommand : String :=
  "crossbridge-server --group " ++ c.group ++ " --slug " ++ c.slug loc ++ " --repo-path " ++ c.root

lemma serverCommand_eq : c.serverCommand loc = "crossbridge-server --group " ++ c.group ++
    " --slug " ++ c.slug loc ++ " --repo-path " ++ c.root := rfl

/-- The command line of `grep` as the call looks for its root. -/
def grepCommand : String := "grep -qF -- --repo-path " ++ c.root

end Call

/-! ### Looking for a server -/

/-- A process as `pgrep -a` lists it. -/
def processLine (pid : ℕ) (command : String) : String := toString pid ++ " " ++ command

lemma processLine_eq (pid : ℕ) (command : String) :
    processLine pid command = toString pid ++ " " ++ command := rfl

/-- `pgrep -f crossbridge-server` lists a command line. -/
def Listed (command : String) : Prop := "crossbridge-server".toList <:+: command.toList

instance (command : String) : Decidable (Listed command) := by unfold Listed; infer_instance

/-- `grep -qF -- "--repo-path $root"` finds a line. -/
def Matches (root line : String) : Prop := GrepF ("--repo-path " ++ root).toList line.toList

instance (root line : String) : Decidable (Matches root line) := by unfold Matches; infer_instance

/-- A server is found by the root it was started with. -/
lemma matches_of_infix {root line : String} (h : ("--repo-path " ++ root).toList <:+: line.toList) :
    Matches root line :=
  grepF_of_infix h

/-! ### The system -/

section System

variable {ι : Type}

/-- A server that was running before, as `pgrep` lists it. -/
structure Running where
  root : String
  line : String
  deriving DecidableEq, Repr

/-- The calls, what there is of files, and the servers there are before, all of which were started with
`--repo-path`. -/
structure Config (ι : Type) where
  loc : Ctype
  calls : ι → Call
  /-- The file that is opened at a path, if it can be. -/
  lockFile : String → Option ℕ
  /-- The file at a path can be opened, to append to it. -/
  logFile : String → Bool
  servers : List Running
  started : ∀ v ∈ servers, ("--repo-path " ++ v.root).toList <:+: v.line.toList

namespace Config

variable (cfg : Config ι) (i : ι)

def Ready : Prop := (cfg.calls i).Ready cfg.loc

instance : Decidable (cfg.Ready i) := by unfold Ready; infer_instance

def root : String := (cfg.calls i).root

/-- The lock of a call: none if its file cannot be opened. -/
def lock : Option ℕ := cfg.lockFile ((cfg.calls i).lockPath cfg.loc)

/-- The server of a call can write to its log. -/
def Logs : Prop := cfg.logFile ((cfg.calls i).logPath cfg.loc) = true

instance : Decidable (cfg.Logs i) := by unfold Config.Logs; infer_instance

end Config

/-- A server: `visible` once `pgrep` lists it, `owner` is the call that has started it. -/
structure Server (ι : Type) where
  root : String
  line : String
  visible : Bool
  owner : Option ι

/-- Where a call is. -/
inductive Pc where
  | idle
  | waiting
  | checking
  | starting
  | polling
  | finished
  deriving DecidableEq, Repr

structure State (ι : Type) where
  pc : ι → Pc
  holder : ℕ → Option ι
  servers : List (Server ι)

def State.init (cfg : Config ι) : State ι where
  pc _ := .idle
  holder _ := none
  servers := cfg.servers.map fun v => ⟨v.root, v.line, true, none⟩

/-- A step of a call. Looking for a server, `greps` are the `grep`s that run at that time, with their
process ids. -/
inductive Action (ι : Type) where
  /-- The arguments and the database are checked, and the lock file is opened. -/
  | enter (i : ι)
  /-- `flock` returns. -/
  | acquire (i : ι)
  | check (i : ι) (greps : List (ι × ℕ))
  /-- The command that starts a server. -/
  | spawn (i : ι) (pid : ℕ)
  /-- The server that the call has started comes up. -/
  | appear (i : ι)
  /-- The root is found while the call waits for it. -/
  | found (i : ι) (greps : List (ι × ℕ))
  /-- The call has waited as long as it does; if it has started a server, this has come up. -/
  | exhaust (i : ι)

variable [DecidableEq ι] (cfg : Config ι)

/-- The lines that `pgrep` prints. -/
def seen (s : State ι) (greps : List (ι × ℕ)) : List String :=
  (s.servers.filter Server.visible).map Server.line ++
    (greps.filter fun g => Listed (cfg.calls g.1).grepCommand).map fun g =>
      processLine g.2 (cfg.calls g.1).grepCommand

/-- A call finds its root. -/
def Detects (s : State ι) (i : ι) (greps : List (ι × ℕ)) : Prop :=
  ∃ line ∈ seen cfg s greps, Matches (cfg.root i) line

instance (s : State ι) (i : ι) (greps : List (ι × ℕ)) : Decidable (Detects cfg s i greps) := by
  unfold Detects; infer_instance

/-- A `grep` runs while its call looks for a server. -/
def Looking (s : State ι) (greps : List (ι × ℕ)) : Prop :=
  ∀ g ∈ greps, s.pc g.1 = .checking ∨ s.pc g.1 = .polling

instance (s : State ι) (greps : List (ι × ℕ)) : Decidable (Looking s greps) := by
  unfold Looking; infer_instance

namespace State

variable (s : State ι) (i : ι)

def goto (p : Pc) : State ι := { s with pc := Function.update s.pc i p }

/-- The lock is given up, if there is one. -/
def release : State ι :=
  match cfg.lock i with
  | none => s
  | some l => { s with holder := Function.update s.holder l none }

/-- The end of a call. -/
def finish : State ι := (s.release cfg i).goto i .finished

/-- The server that a call starts. -/
def spawned (pid : ℕ) : Server ι where
  root := cfg.root i
  line := processLine pid ((cfg.calls i).serverCommand cfg.loc)
  visible := false
  owner := some i

/-- A server that has come up if the call has started it. -/
def shown (v : Server ι) : Server ι := if v.owner = some i then { v with visible := true } else v

end State

/-- A step, if it can be taken. -/
def step (s : State ι) : Action ι → Option (State ι)
  | .enter i =>
    if s.pc i = .idle then
      if cfg.Ready i then some (s.goto i (if cfg.lock i = none then .checking else .waiting))
      else some (s.goto i .finished)
    else none
  | .acquire i =>
    match cfg.lock i with
    | none => none
    | some l =>
      if s.pc i = .waiting ∧ s.holder l = none then
        some ({ s with holder := Function.update s.holder l (some i) }.goto i .checking)
      else none
  | .check i greps =>
    if s.pc i = .checking ∧ Looking s greps then
      if Detects cfg s i greps then some (s.finish cfg i) else some (s.goto i .starting)
    else none
  | .spawn i pid =>
    if s.pc i = .starting then
      if cfg.Logs i then
        some ({ s with servers := s.servers ++ [State.spawned cfg i pid] }.goto i .polling)
      -- the redirection fails, and the command is not run
      else some (s.goto i .polling)
    else none
  | .appear i => some { s with servers := s.servers.map (State.shown i) }
  | .found i greps =>
    if s.pc i = .polling ∧ Looking s greps ∧ Detects cfg s i greps then some (s.finish cfg i) else none
  | .exhaust i =>
    if s.pc i = .polling ∧ (cfg.Logs i → ∃ v ∈ s.servers, v.owner = some i ∧ v.visible = true) then
      some (s.finish cfg i)
    else none

end System

end Crossbridge.Direnv
