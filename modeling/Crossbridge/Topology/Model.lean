import Crossbridge.Server.Listeners
import Crossbridge.Supervisor.SlugDirs

/-!
The supervisor and the repo servers over one file tree.

A server process is offline, registering, in a session, or closing its listeners after one; the
stream it has opened holds what the two sides have sent and not read, and which of them still have
it open. The supervisor is there or not; when it goes all streams break, and when it comes back it
wipes the base directory. Messages are read whole, one step each; a session may also end with a read
error at any time. Each call of a listener set is a step, and so is each `remove` of a `clear`, so
that the steps of all processes interleave.
-/

namespace Crossbridge.Topology

open Crossbridge.Protocol Crossbridge.Server Crossbridge.Supervisor Crossbridge.Runs

abbrev ProcId := ℕ

/-- A stream from a server to the supervisor. -/
structure Stream where
  owner : ProcId
  /-- What the server has sent and the supervisor has not read. -/
  register : Option Register
  /-- What the supervisor has sent and the server has not read. -/
  inbox : List SupervisorMessage
  supOpen : Bool
  srvOpen : Bool
  deriving DecidableEq

/-- Where a server process is in `run`. -/
inductive Phase where
  | absent
  /-- In the loop of `connect_and_register_with_backoff`, without a stream. -/
  | offline
  /-- `Register` is sent. -/
  | registering (st : StreamId)
  /-- In `serve_one_session`, with the peers of the `Ack` that are still to be added. -/
  | session (st : StreamId) (todo : List String)
  /-- In `clear`, after a session; the stream is dropped or not, and the process ends or not. -/
  | closing (st : Option StreamId) (exit : Bool)
  | exited
  deriving DecidableEq

/-- The stream that a process holds. -/
def Phase.stream : Phase → Option StreamId
  | .registering st | .session st _ => some st
  | .closing st _ => st
  | _ => none

/-- A server process. -/
structure Proc where
  group : String
  listeners : ListenerSet
  phase : Phase

abbrev Proc.slug (p : Proc) : String := p.listeners.ownSlug

/-- A running supervisor. -/
structure Sup where
  state : State
  queue : List Event

structure Sys where
  root : Path
  sup : Option Sup
  tree : FileTree SockId
  stream : StreamId → Stream
  nextStream : StreamId
  proc : ProcId → Proc
  nextSock : SockId

namespace Sys

/-- The base directory, and nobody there. -/
def init (root : Path) : Sys where
  root := root
  sup := none
  tree := FileTree.createDirAll ∅ root
  stream _ := ⟨0, none, [], false, false⟩
  nextStream := 0
  proc _ := ⟨"", ⟨"", ∅⟩, .absent⟩
  nextSock := 0

def setStream (y : Sys) (st : StreamId) (s : Stream) : Sys :=
  { y with stream := Function.update y.stream st s }

def setProc (y : Sys) (x : ProcId) (p : Proc) : Sys := { y with proc := Function.update y.proc x p }

def setPhase (y : Sys) (x : ProcId) (ph : Phase) : Sys := y.setProc x { y.proc x with phase := ph }

/-- The process drops the stream it holds. -/
def hangUp (y : Sys) (x : ProcId) : Sys :=
  match (y.proc x).phase.stream with
  | none => y
  | some st => y.setStream st { y.stream st with srvOpen := false }

/-- The process acts on a notification. -/
def act (y : Sys) (x : ProcId) (out : AddOutcome) (n : Notification) : Sys :=
  let r := (y.proc x).listeners.act y.root y.tree out y.nextSock n
  { y.setProc x { y.proc x with listeners := r.1 } with tree := r.2, nextSock := y.nextSock + 1 }

end Sys

/-- The streams after the effects of the supervisor. -/
def streamsAfter (es : List Effect) (stream : StreamId → Stream) (st : StreamId) : Stream :=
  { stream st with
    inbox := (stream st).inbox ++ ((writesOn st es).filter fun x => x.2).map fun x => x.1
    supOpen := (stream st).supOpen && .drop st ∉ es }

/-- `prepare_base_dir` -/
def prepareBaseDir (t : FileTree SockId) (baseDir : Path) : FileTree SockId :=
  (t.clearDir baseDir).createDirAll baseDir

inductive Action where
  /-- A server process starts. -/
  | start (x : ProcId) (slug group : String)
  /-- It connects to the supervisor, and sends its `Register`. -/
  | connect (x : ProcId)
  /-- It reads the next message of the supervisor, and acts on it. -/
  | recv (x : ProcId) (out : AddOutcome)
  /-- It adds a listener for the next peer of the `Ack`. -/
  | addNext (x : ProcId) (out : AddOutcome)
  /-- It reads the end of the stream. -/
  | recvEof (x : ProcId)
  /-- A read fails. -/
  | fail (x : ProcId)
  /-- The shutdown token is seen. -/
  | shutdown (x : ProcId)
  /-- `clear` removes a listener. -/
  | clearOne (x : ProcId) (peer : String)
  /-- `clear` is done. -/
  | finish (x : ProcId)
  /-- The process is killed. -/
  | kill (x : ProcId)
  /-- The accept loop of a listener stops. -/
  | acceptError (x : ProcId) (peer : String)
  /-- The supervisor reads the `Register` of a stream. -/
  | read (st : StreamId)
  /-- It reads the end of a stream. -/
  | eof (id : ConnId)
  /-- It handles the next event. -/
  | handle (o : Outcomes)
  /-- It is killed. -/
  | supKill
  /-- It starts. -/
  | supStart

def step (y : Sys) : Action → Option Sys
  | .start x slug group =>
    match (y.proc x).phase with
    | .absent => some (y.setProc x ⟨group, ⟨slug, ∅⟩, .offline⟩)
    | _ => none
  | .connect x =>
    match y.sup, (y.proc x).phase with
    | some _, .offline =>
      let s : Stream := ⟨x, some ⟨(y.proc x).slug, (y.proc x).group⟩, [], true, true⟩
      some { (y.setStream y.nextStream s).setPhase x (.registering y.nextStream) with
        nextStream := y.nextStream + 1 }
    | _, _ => none
  | .recv x out =>
    match (y.proc x).phase with
    | .registering st =>
      match (y.stream st).inbox with
      | [] => none
      | m :: rest =>
        let y' := y.setStream st { y.stream st with inbox := rest }
        match m with
        | .registerResponse (.ack peers) => some (y'.setPhase x (.session st peers))
        | .registerResponse (.nack _) => some ((y'.hangUp x).setPhase x (.closing none true))
        | .notification _ => some ((y'.hangUp x).setPhase x .offline)
    | .session st [] =>
      match (y.stream st).inbox with
      | [] => none
      | m :: rest =>
        let y' := y.setStream st { y.stream st with inbox := rest }
        match m with
        | .notification n => some (y'.act x out n)
        | .registerResponse _ => some ((y'.hangUp x).setPhase x (.closing none false))
    | _ => none
  | .addNext x out =>
    match (y.proc x).phase with
    | .session st (peer :: todo) => some ((y.act x out (.peerJoined peer)).setPhase x (.session st todo))
    | _ => none
  | .recvEof x =>
    match (y.proc x).phase with
    | .registering st =>
      if (y.stream st).inbox = [] ∧ (y.stream st).supOpen = false then
        some ((y.hangUp x).setPhase x .offline)
      else none
    | .session st [] =>
      if (y.stream st).inbox = [] ∧ (y.stream st).supOpen = false then
        some ((y.hangUp x).setPhase x (.closing none false))
      else none
    | _ => none
  | .fail x =>
    match (y.proc x).phase with
    | .registering _ => some ((y.hangUp x).setPhase x .offline)
    | .session _ [] => some ((y.hangUp x).setPhase x (.closing none false))
    | _ => none
  | .shutdown x =>
    match (y.proc x).phase with
    | .offline => some (y.setPhase x (.closing none true))
    | .registering _ => some ((y.hangUp x).setPhase x (.closing none true))
    | .session st [] => some (y.setPhase x (.closing (some st) true))
    | _ => none
  | .clearOne x peer =>
    match (y.proc x).phase with
    | .closing _ _ =>
      if peer ∈ (y.proc x).listeners.entries then some (y.act x .bound (.peerLeft peer)) else none
    | _ => none
  | .finish x =>
    match (y.proc x).phase with
    | .closing _ exit =>
      if (y.proc x).listeners.entries.keys = [] then
        some ((y.hangUp x).setPhase x (if exit then .exited else .offline))
      else none
    | _ => none
  | .kill x =>
    match (y.proc x).phase with
    | .absent | .exited => none
    | _ => some ((y.hangUp x).setProc x
        ⟨(y.proc x).group, ⟨(y.proc x).slug, ∅⟩, .exited⟩)
  | .acceptError x peer =>
    match (y.proc x).listeners.entries.lookup peer with
    | none => none
    | some e =>
      let entries := (y.proc x).listeners.entries.insert peer { e with running := false }
      some (y.setProc x { y.proc x with listeners := ⟨(y.proc x).slug, entries⟩ })
  | .read st =>
    match y.sup, (y.stream st).register with
    | some s, some r =>
      if (y.stream st).supOpen then
        some { y.setStream st { y.stream st with register := none } with
          sup := some { s with queue := s.queue ++ [.registered st r] } }
      else none
    | _, _ => none
  | .eof id =>
    match y.sup with
    | none => none
    | some s =>
      match s.state.conns.lookup id with
      | none => none
      | some rec =>
        if (y.stream rec.stream).srvOpen then none
        else some { y with sup := some { s with queue := s.queue ++ [.departed id] } }
  | .handle o =>
    match y.sup with
    | none => none
    | some s =>
      match s.queue with
      | [] => none
      | e :: queue =>
        let r := s.state.handleEvent o e
        some { y with
          sup := some ⟨r.1, queue ++ sentEvents r.2⟩
          tree := r.2.foldl Effect.onTree y.tree
          stream := streamsAfter r.2 y.stream }
  | .supKill =>
    match y.sup with
    | none => none
    | some _ => some { y with
        sup := none
        stream := fun st => { y.stream st with supOpen := false } }
  | .supStart =>
    match y.sup with
    | some _ => none
    | none => some { y with
        sup := some ⟨State.new y.root, []⟩
        tree := prepareBaseDir y.tree y.root }

end Crossbridge.Topology
