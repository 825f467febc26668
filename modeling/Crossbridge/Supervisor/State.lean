import Mathlib.Data.List.AList
import Crossbridge.Lib.Path
import Crossbridge.Protocol.Message

/-!
The state of the supervisor and its two event handlers, `handle_registration` and
`handle_departure`.

A handler changes the two maps and has effects on the file tree, on the streams and on the event
queue; it returns the new maps and the list of its effects, in order. What the handler does not
decide is a parameter (`Outcomes`): whether a directory can be made, which writes fail, and in which
order the hash maps are traversed. Connection ids are natural numbers; they are those of a counter of
64 bits for the first `2 ^ 64` registrations (`nextId_lt_two_pow`).
-/

namespace Crossbridge.Supervisor

open Crossbridge.Protocol

abbrev ConnId := ℕ

/-- A stream that the register socket accepted. -/
abbrev StreamId := ℕ

/-- `ConnRecord`; the write half and the EOF watcher are known by their stream. -/
structure ConnRecord where
  slug : String
  group : String
  stream : StreamId
  deriving DecidableEq

inductive Event where
  | registered (stream : StreamId) (register : Register)
  | departed (id : ConnId)
  deriving DecidableEq

/-- `State`, less the sender of the event queue. -/
structure State where
  baseDir : Path
  nextId : ConnId
  /-- `group → slug → conn_id` -/
  groups : AList fun _ : String => AList fun _ : String => ConnId
  conns : AList fun _ : ConnId => ConnRecord

def State.new (baseDir : Path) : State := ⟨baseDir, 0, ∅, ∅⟩

inductive Effect where
  | createDirAll (dir : Path) (ok : Bool)
  | removeDirAll (dir : Path)
  | write (stream : StreamId) (msg : SupervisorMessage) (ok : Bool)
  /-- `spawn_eof_watcher` -/
  | watch (stream : StreamId) (id : ConnId)
  /-- The halves of a stream are dropped. -/
  | drop (stream : StreamId)
  /-- `Event::Departed` is sent to the event queue. -/
  | send (id : ConnId)
  deriving DecidableEq

/-- What the operating system and the hash maps decide while an event is handled. -/
structure Outcomes where
  createDir : Except String Unit
  write : StreamId → Bool
  slugs : List String → List String
  ids : List ConnId → List ConnId
  slugs_perm : ∀ l, (slugs l).Perm l
  ids_perm : ∀ l, (ids l).Perm l

/-- Only the writes on some streams fail. -/
def failing (streams : List StreamId) : Outcomes :=
  ⟨.ok (), fun st => st ∉ streams, fun l => l, fun l => l, List.Perm.refl, List.Perm.refl⟩

namespace State

/-- The slugs of a group with their ids; a group that is not there has none. -/
def group (s : State) (g : String) : AList fun _ : String => ConnId := (s.groups.lookup g).getD ∅

/-- The connections of a group, as the loops over `peer_ids` find them. -/
def peers (o : Outcomes) (s : State) (g : String) : List (ConnId × ConnRecord) :=
  (o.ids ((s.group g).entries.map Sigma.snd)).filterMap fun id =>
    (s.conns.lookup id).map fun rec => (id, rec)

/-- The directory of a slug. -/
def slugDir (s : State) (slug : String) : Path := Path.join s.baseDir slug

/-- The loop that writes a notification to the peers, and the events it sends for those whose write
failed. -/
def fanOut (o : Outcomes) (peers : List (ConnId × ConnRecord)) (n : Notification) : List Effect :=
  (peers.map fun p => .write p.2.stream (.notification n) (o.write p.2.stream)) ++
    (peers.filter fun p => !o.write p.2.stream).map fun p => .send p.1

/-- The response to a registration that is not accepted. -/
def nack (o : Outcomes) (stream : StreamId) (reason : String) : List Effect :=
  [.write stream (.registerResponse (.nack reason)) (o.write stream), .drop stream]

/-- The maps with one more connection. -/
def insert (s : State) (rec : ConnRecord) : State where
  baseDir := s.baseDir
  nextId := s.nextId + 1
  groups := s.groups.insert rec.group ((s.group rec.group).insert rec.slug s.nextId)
  conns := s.conns.insert s.nextId rec

/-- The maps without a connection; a group that gets empty goes, too. -/
def remove (s : State) (id : ConnId) (rec : ConnRecord) : State where
  baseDir := s.baseDir
  nextId := s.nextId
  groups :=
    match s.groups.lookup rec.group with
    | none => s.groups
    | some m =>
      if (m.erase rec.slug).keys = [] then s.groups.erase rec.group
      else s.groups.insert rec.group (m.erase rec.slug)
  conns := s.conns.erase id

def handleRegistration (o : Outcomes) (s : State) (stream : StreamId) (r : Register) :
    State × List Effect :=
  if r.slug ∈ s.group r.group then
    (s, nack o stream ("slug '" ++ r.slug ++ "' already registered in group '" ++ r.group ++ "'"))
  else
    let dir := s.slugDir r.slug
    match o.createDir with
    | .error e =>
      (s, .createDirAll dir false :: nack o stream ("failed to create slug directory: " ++ e))
    | .ok () =>
      let ack := .registerResponse (.ack (o.slugs (s.group r.group).keys))
      if o.write stream then
        (s.insert ⟨r.slug, r.group, stream⟩,
          .createDirAll dir true :: .write stream ack true :: .watch stream s.nextId ::
            fanOut o (s.peers o r.group) (.peerJoined r.slug))
      else
        (s, [.createDirAll dir true, .write stream ack false, .removeDirAll dir, .drop stream])

def handleDeparture (o : Outcomes) (s : State) (id : ConnId) : State × List Effect :=
  match s.conns.lookup id with
  | none => (s, [])
  | some rec =>
    let s' := s.remove id rec
    (s', .drop rec.stream :: .removeDirAll (s.slugDir rec.slug) ::
      fanOut o (s'.peers o rec.group) (.peerLeft rec.slug))

def handleEvent (o : Outcomes) (s : State) : Event → State × List Effect
  | .registered stream register => s.handleRegistration o stream register
  | .departed id => s.handleDeparture o id

end State

end Crossbridge.Supervisor
