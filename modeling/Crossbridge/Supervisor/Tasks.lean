import Crossbridge.Protocol.Frames
import Crossbridge.Supervisor.Registry
import Crossbridge.Supervisor.Views

/-!
The tasks of a supervisor, and the bytes they read.

The loop of `run` accepts streams and handles events. Each stream has a task that reads it: first
`spawn_registration_reader`, and once the stream is that of a connection, `spawn_eof_watcher`. The
tasks run between the steps of the loop, also while a handler waits for its writes; the events that a
handler sends itself come when it is done with these.

A run of the tasks is a run of the event loop (`exists_eventLoop_of_run`), in which a registration is
what a reader made of the bytes of its stream. The invariant (`Tended`) says for each stream that was
accepted what its task is about. When nothing can go on, the maps are those of the streams that are
open, began with a `Register`, and were written to without a failure.
-/

namespace Crossbridge.Supervisor

open Crossbridge.Varint Crossbridge.Protocol Crossbridge.Runs

/-! ### The tasks -/

/-- What reads a stream. -/
inductive StreamTask where
  /-- `spawn_registration_reader` -/
  | registration (fut : ReadMessage)
  /-- Nothing: the stream is in an event. -/
  | held
  /-- `spawn_eof_watcher` of a connection -/
  | watcher (id : ConnId)
  /-- The watcher of a connection has sent its event, and is done. -/
  | ended (id : ConnId)
  /-- The stream is dropped, and its watcher aborted. -/
  | dropped
  deriving DecidableEq

/-- A stream that was accepted. -/
structure Accepted where
  /-- All that has arrived. -/
  got : Bytes
  src : Source
  /-- The number it goes by in events and effects, once its `Register` is read. -/
  stream : Option StreamId
  task : StreamTask
  deriving DecidableEq

def Accepted.new : Accepted := ⟨[], ⟨[], none⟩, none, .registration .start⟩

/-- What an effect of a handler does to a stream. -/
def Accepted.onEffect (a : Accepted) : Effect → Accepted
  | .watch st id => if a.stream = some st ∧ a.task = .held then { a with task := .watcher id } else a
  | .drop st => if a.stream = some st then { a with task := .dropped } else a
  | _ => a

def Accepted.after (es : List Effect) (a : Accepted) : Accepted := es.foldl Accepted.onEffect a

def Effect.isSend : Effect → Bool
  | .send _ => true
  | _ => false

/-- The connections that effects send away. -/
def sentIds (es : List Effect) : List ConnId :=
  es.filterMap fun
    | .send id => some id
    | _ => none

/-- A supervisor while it runs. -/
structure Running where
  state : State
  queue : List Event
  nextStream : StreamId
  log : List Effect
  /-- The streams, in the order in which they were accepted. -/
  streams : List Accepted
  /-- The departures that the handler in progress sends at its end. -/
  sending : Option (List ConnId)

namespace Running

def init (baseDir : Path) : Running := ⟨State.new baseDir, [], 0, [], [], none⟩

/-- One poll of the task of a stream. -/
def polled (f : Running) (i : ℕ) (a : Accepted) : Running :=
  match a.task with
  | .registration fut =>
    match poll Postcard.register fut a.src with
    | .pending fut src =>
      { f with streams := f.streams.set i { a with src := src, task := .registration fut } }
    | .ready (.error _) src =>
      { f with streams := f.streams.set i { a with src := src, task := .dropped } }
    | .ready (.ok r) src =>
      { f with
        streams := f.streams.set i { a with src := src, stream := some f.nextStream, task := .held }
        queue := f.queue ++ [.registered f.nextStream r]
        nextStream := f.nextStream + 1 }
  | .watcher id =>
    -- one `read` of 64 bytes
    match a.src.buf, a.src.ending with
    | [], none => f
    | [], some _ =>
      { f with
        streams := f.streams.set i { a with task := .ended id }
        queue := f.queue ++ [.departed id] }
    | b :: buf, ending =>
      { f with streams := f.streams.set i { a with src := ⟨(b :: buf).drop 64, ending⟩ } }
  | .held | .ended _ | .dropped => f

/-- What happens to a supervisor. -/
inductive Action where
  | accept
  /-- Bytes arrive on a stream that was not dropped, or it comes to its end. -/
  | arrive (i : ℕ) (bs : Bytes)
  | close (i : ℕ) (kind : IoErrorKind)
  | poll (i : ℕ)
  /-- The next event is handled, up to the departures that its handler sends. -/
  | handle (o : Outcomes)
  /-- These are sent, and the loop goes on. -/
  | send

def step (f : Running) : Action → Option Running
  | .accept => if f.sending = none then some { f with streams := f.streams ++ [.new] } else none
  | .arrive i bs =>
    match f.streams[i]? with
    | none => none
    | some a =>
      if a.src.ending = none ∧ a.task ≠ .dropped then
        some { f with
          streams := f.streams.set i { a with got := a.got ++ bs, src := ⟨a.src.buf ++ bs, none⟩ } }
      else none
  | .close i kind =>
    match f.streams[i]? with
    | none => none
    | some a =>
      if a.src.ending = none then
        some { f with streams := f.streams.set i { a with src := ⟨a.src.buf, some kind⟩ } }
      else none
  | .poll i => (f.streams[i]?).map (f.polled i)
  | .handle o =>
    match f.sending, f.queue with
    | none, e :: queue =>
      let r := f.state.handleEvent o e
      some { f with
        state := r.1
        queue := queue
        log := f.log ++ r.2.filter fun x => !x.isSend
        streams := f.streams.map (Accepted.after r.2)
        sending := some (sentIds r.2) }
    | _, _ => none
  | .send =>
    match f.sending with
    | none => none
    | some ids =>
      some { f with
        queue := f.queue ++ ids.map .departed
        log := f.log ++ ids.map .send
        sending := none }

/-- The departures that are still to be sent. -/
def unsent (f : Running) : List ConnId := f.sending.getD []

/-- The supervisor as its event loop has it when the handler in progress is done. -/
def world (f : Running) : World where
  state := f.state
  queue := f.queue ++ f.unsent.map .departed
  nextStream := f.nextStream
  log := f.log ++ f.unsent.map .send
  tree := ∅
  placed := []

/-- What a step does, by the case of its task. -/
inductive Stepped (f : Running) : Action → Running → Prop where
  | accept : f.sending = none → Stepped f .accept { f with streams := f.streams ++ [.new] }
  | arrive (i : ℕ) (bs : Bytes) (a : Accepted) : f.streams[i]? = some a → a.src.ending = none →
      a.task ≠ .dropped → Stepped f (.arrive i bs) { f with
        streams := f.streams.set i { a with got := a.got ++ bs, src := ⟨a.src.buf ++ bs, none⟩ } }
  | close (i : ℕ) (kind : IoErrorKind) (a : Accepted) : f.streams[i]? = some a → a.src.ending = none →
      Stepped f (.close i kind) { f with
        streams := f.streams.set i { a with src := ⟨a.src.buf, some kind⟩ } }
  /-- Nothing to do for now. -/
  | idle (i : ℕ) (a : Accepted) : f.streams[i]? = some a →
      (∀ fut, a.task ≠ .registration fut) →
      (∀ id, a.task = .watcher id → a.src.ending = none) → Stepped f (.poll i) f
  | waits (i : ℕ) (a : Accepted) (fut fut' : ReadMessage) (src : Source) : f.streams[i]? = some a →
      a.task = .registration fut → poll Postcard.register fut a.src = .pending fut' src →
      Stepped f (.poll i) { f with
        streams := f.streams.set i { a with src := src, task := .registration fut' } }
  | fails (i : ℕ) (a : Accepted) (fut : ReadMessage) (src : Source) (e : Error) :
      f.streams[i]? = some a → a.task = .registration fut →
      poll Postcard.register fut a.src = .ready (.error e) src →
      Stepped f (.poll i) { f with
        streams := f.streams.set i { a with src := src, task := .dropped } }
  | registers (i : ℕ) (a : Accepted) (fut : ReadMessage) (src : Source) (r : Register) :
      f.streams[i]? = some a → a.task = .registration fut →
      poll Postcard.register fut a.src = .ready (.ok r) src →
      Stepped f (.poll i) { f with
        streams := f.streams.set i { a with src := src, stream := some f.nextStream, task := .held }
        queue := f.queue ++ [.registered f.nextStream r]
        nextStream := f.nextStream + 1 }
  | ends (i : ℕ) (a : Accepted) (id : ConnId) : f.streams[i]? = some a → a.task = .watcher id →
      a.src.buf = [] → a.src.ending ≠ none → Stepped f (.poll i) { f with
        streams := f.streams.set i { a with task := .ended id }
        queue := f.queue ++ [.departed id] }
  | ignores (i : ℕ) (a : Accepted) (id : ConnId) : f.streams[i]? = some a → a.task = .watcher id →
      Stepped f (.poll i) { f with
        streams := f.streams.set i { a with src := ⟨a.src.buf.drop 64, a.src.ending⟩ } }
  | handle (o : Outcomes) (e : Event) (queue : List Event) : f.sending = none → f.queue = e :: queue →
      Stepped f (.handle o) { f with
        state := (f.state.handleEvent o e).1
        queue := queue
        log := f.log ++ (f.state.handleEvent o e).2.filter fun x => !x.isSend
        streams := f.streams.map (Accepted.after (f.state.handleEvent o e).2)
        sending := some (sentIds (f.state.handleEvent o e).2) }
  | send (ids : List ConnId) : f.sending = some ids → Stepped f .send { f with
      queue := f.queue ++ ids.map .departed
      log := f.log ++ ids.map .send
      sending := none }

lemma stepped_polled {f : Running} {i : ℕ} {a : Accepted} (h : f.streams[i]? = some a) :
    Stepped f (.poll i) (f.polled i a) := by
  unfold polled
  split
  · rename_i fut htask
    split
    · rename_i hpoll
      exact .waits i a fut _ _ h htask hpoll
    · rename_i hpoll
      exact .fails i a fut _ _ h htask hpoll
    · rename_i hpoll
      exact .registers i a fut _ _ h htask hpoll
  · rename_i id htask
    split
    · rename_i hend
      refine .idle i a h (fun fut => by simp [htask]) fun _ _ => hend
    · rename_i hbuf hend
      exact .ends i a id h htask hbuf (by simp [hend])
    · rename_i b buf ending hbuf
      rw [← hbuf]
      exact .ignores i a id h htask
  · rename_i htask
    exact .idle i a h (fun fut => by simp [htask]) fun id => by simp [htask]
  · rename_i htask
    exact .idle i a h (fun fut => by simp [htask]) fun id => by simp [htask]
  · rename_i htask
    exact .idle i a h (fun fut => by simp [htask]) fun id => by simp [htask]

/-- **Every step** is one of these. -/
theorem stepped_of_step {f f' : Running} {x : Action} (h : step f x = some f') : Stepped f x f' := by
  cases x with
  | accept =>
    rw [step] at h
    split at h
    · rename_i hsending
      obtain rfl := Option.some.inj h
      exact .accept hsending
    · cases h
  | arrive i bs =>
    rw [step] at h
    split at h
    · cases h
    · rename_i a ha
      split at h
      · rename_i hopen
        obtain rfl := Option.some.inj h
        exact .arrive i bs a ha hopen.1 hopen.2
      · cases h
  | close i kind =>
    rw [step] at h
    split at h
    · cases h
    · rename_i a ha
      split at h
      · rename_i hopen
        obtain rfl := Option.some.inj h
        exact .close i kind a ha hopen
      · cases h
  | poll i =>
    obtain ⟨a, ha, rfl⟩ := Option.map_eq_some_iff.mp h
    exact stepped_polled ha
  | handle o =>
    rw [step] at h
    split at h
    · rename_i e queue hsending hqueue
      obtain rfl := Option.some.inj h
      exact .handle o e queue hsending hqueue
    · cases h
  | send =>
    rw [step] at h
    split at h
    · cases h
    · rename_i ids hids
      obtain rfl := Option.some.inj h
      exact .send ids hids

end Running

/-! ### The event loop -/

section EventLoop

lemma sentEvents_eq (es : List Effect) : sentEvents es = (sentIds es).map .departed := by
  unfold sentEvents sentIds
  rw [List.map_filterMap]
  refine List.filterMap_congr fun e _ => ?_
  cases e <;> rfl

lemma fanOut_sends_last (o : Outcomes) (ps : List (ConnId × ConnRecord)) (n : Notification) :
    State.fanOut o ps n = ((State.fanOut o ps n).filter fun x => !x.isSend) ++
      (sentIds (State.fanOut o ps n)).map .send := by
  have hwrites : ∀ l : List (ConnId × ConnRecord),
      (l.map fun p => Effect.write p.2.stream (.notification n) (o.write p.2.stream)).filter
        (fun x => !x.isSend) = l.map fun p => .write p.2.stream (.notification n) (o.write p.2.stream) := by
    intro l
    refine List.filter_eq_self.mpr fun x hx => ?_
    obtain ⟨p, -, rfl⟩ := List.mem_map.mp hx
    rfl
  have hsends : ∀ l : List (ConnId × ConnRecord),
      (l.map fun p => Effect.send p.1).filter (fun x => !x.isSend) = [] := by
    intro l
    refine List.filter_eq_nil_iff.mpr fun x hx => ?_
    obtain ⟨p, -, rfl⟩ := List.mem_map.mp hx
    simp [Effect.isSend]
  have hnone : ∀ l : List (ConnId × ConnRecord),
      sentIds (l.map fun p => .write p.2.stream (.notification n) (o.write p.2.stream)) = [] := by
    intro l
    refine List.filterMap_eq_nil_iff.mpr fun x hx => ?_
    obtain ⟨p, -, rfl⟩ := List.mem_map.mp hx
    rfl
  have hids : ∀ l : List (ConnId × ConnRecord),
      (sentIds (l.map fun p => .send p.1)).map Effect.send = l.map fun p => .send p.1 := by
    intro l
    unfold sentIds
    rw [List.filterMap_map, List.map_filterMap]
    exact (List.filterMap_eq_map (f := fun p : ConnId × ConnRecord => Effect.send p.1) ▸ rfl)
  unfold State.fanOut
  rw [List.filter_append, hwrites, hsends, List.append_nil, sentIds, List.filterMap_append, ← sentIds,
    ← sentIds, hnone, List.nil_append, hids]

/-- A handler sends its departures last. -/
lemma handleEvent_sends_last (o : Outcomes) (s : State) (e : Event) :
    (s.handleEvent o e).2 = ((s.handleEvent o e).2.filter fun x => !x.isSend) ++
      (sentIds (s.handleEvent o e).2).map .send := by
  cases e with
  | registered st r =>
    rw [State.handleEvent, State.handleRegistration]
    split
    · rfl
    · simp only
      split
      · rfl
      · split
        · exact congrArg (fun es => _ :: _ :: _ :: es) (fanOut_sends_last o _ _)
        · rfl
  | departed id =>
    rw [State.handleEvent, State.handleDeparture]
    split
    · rfl
    · exact congrArg (fun es => _ :: _ :: es) (fanOut_sends_last o _ _)

/-- The event loop in `w` is where the tasks are; a handler that they have in progress it is about to
begin. -/
inductive Follows (f : Running) (w : World) : Prop where
  | between : f.sending = none → w.state = f.state → w.queue = f.queue →
      w.nextStream = f.nextStream → w.log = f.log → Follows f w
  | handling (o : Outcomes) (e : Event) : w.queue = e :: f.queue → w.nextStream = f.nextStream →
      f.state = (w.state.handleEvent o e).1 →
      f.sending = some (sentIds (w.state.handleEvent o e).2) →
      f.log = w.log ++ ((w.state.handleEvent o e).2.filter fun x => !x.isSend) → Follows f w

variable {f f' : Running} {w : World}

/-- The streams are no part of the event loop. -/
lemma Follows.streams (h : Follows f w) (streams : List Accepted) :
    Follows { f with streams := streams } w := by
  cases h with
  | between hsending hstate hqueue hnext hlog => exact .between hsending hstate hqueue hnext hlog
  | handling o e hqueue hnext hstate hsending hlog =>
    exact .handling o e hqueue hnext hstate hsending hlog

/-- An event that a task sends comes after those in the queue. -/
lemma Follows.enqueue (h : Follows f w) {w' : World} {x : Event} {next : StreamId}
    (streams : List Accepted) (hstate' : w'.state = w.state) (hqueue' : w'.queue = w.queue ++ [x])
    (hnext' : w'.nextStream = next) (hlog' : w'.log = w.log) :
    Follows { f with queue := f.queue ++ [x], nextStream := next, streams := streams } w' := by
  cases h with
  | between hsending hstate hqueue hnext hlog =>
    refine .between hsending (hstate'.trans hstate) ?_ hnext' (hlog'.trans hlog)
    rw [hqueue', hqueue]
  | handling o e hqueue hnext hstate hsending hlog =>
    rw [← hstate'] at hstate hsending hlog
    rw [← hlog'] at hlog
    refine .handling o e ?_ hnext' hstate hsending hlog
    rw [hqueue', hqueue, List.cons_append]

lemma Follows.nextStream (h : Follows f w) : w.nextStream = f.nextStream := by
  cases h with
  | between _ _ _ hnext _ => exact hnext
  | handling _ _ _ hnext _ _ _ => exact hnext

lemma exec_handle {e : Event} {queue : List Event} (o : Outcomes) (h : w.queue = e :: queue) :
    exec Supervisor.step w [.handle o] = some { w with
      state := (w.state.handleEvent o e).1
      queue := queue ++ sentEvents (w.state.handleEvent o e).2
      log := w.log ++ (w.state.handleEvent o e).2
      tree := (w.state.handleEvent o e).2.foldl Effect.onTree w.tree } := by
  refine exec_one ?_
  rw [Supervisor.step, h]

/-- **One step** of the tasks is at most one step of the event loop. -/
theorem follows_step {x : Running.Action} (h : Follows f w) (hstep : Running.step f x = some f') :
    ∃ bs w', exec Supervisor.step w bs = some w' ∧ Follows f' w' := by
  cases Running.stepped_of_step hstep with
  | accept hsending => exact ⟨[], w, rfl, h.streams _⟩
  | arrive i bs a ha hopen hkept => exact ⟨[], w, rfl, h.streams _⟩
  | close i kind a ha hopen => exact ⟨[], w, rfl, h.streams _⟩
  | idle i a ha hreg hwatch => exact ⟨[], w, rfl, h⟩
  | waits i a fut fut' src ha htask hpoll => exact ⟨[], w, rfl, h.streams _⟩
  | fails i a fut src e ha htask hpoll => exact ⟨[], w, rfl, h.streams _⟩
  | ignores i a id ha htask => exact ⟨[], w, rfl, h.streams _⟩
  | registers i a fut src r ha htask hpoll =>
    refine ⟨[.accept r], _, exec_one rfl, h.enqueue _ rfl ?_ ?_ rfl⟩
    · rw [h.nextStream]
    · rw [h.nextStream]
  | ends i a id ha htask hbuf hend =>
    exact ⟨[.depart id], _, exec_one rfl, h.enqueue _ rfl rfl h.nextStream rfl⟩
  | handle o e queue hsending hqueue =>
    cases h with
    | handling _ _ _ _ _ hsending' _ => exact absurd (hsending.symm.trans hsending') (by simp)
    | between _ hstate hqueue' hnext hlog =>
      refine ⟨[], w, rfl, .handling o e (hqueue'.trans hqueue) hnext ?_ ?_ ?_⟩
      · rw [hstate]
      · rw [hstate]
      · rw [hstate, hlog]
  | send ids hids =>
    cases h with
    | between hsending _ _ _ _ => exact absurd (hids.symm.trans hsending) (by simp)
    | handling o e hqueue hnext hstate hsending hlog =>
      -- the handler of the event loop does all of it now
      obtain rfl := Option.some.inj (hids.symm.trans hsending)
      refine ⟨[.handle o], _, exec_handle o hqueue, ?_⟩
      refine .between rfl hstate.symm ?_ hnext ?_
      · show f.queue ++ sentEvents _ = _
        rw [sentEvents_eq]
      · show w.log ++ _ = f.log ++ _
        rw [hlog, List.append_assoc, ← handleEvent_sends_last]

/-- The event loop has the maps, the events and the log that the tasks have when the handler in
progress is done. -/
structure SameLoop (w v : World) : Prop where
  state : w.state = v.state
  queue : w.queue = v.queue
  nextStream : w.nextStream = v.nextStream
  log : w.log = v.log

lemma Follows.exists_sameLoop (h : Follows f w) :
    ∃ bs w', exec Supervisor.step w bs = some w' ∧ SameLoop w' f.world := by
  cases h with
  | between hsending hstate hqueue hnext hlog =>
    refine ⟨[], w, rfl, hstate, ?_, hnext, ?_⟩
    · simp [Running.world, Running.unsent, hsending, hqueue]
    · simp [Running.world, Running.unsent, hsending, hlog]
  | handling o e hqueue hnext hstate hsending hlog =>
    refine ⟨[.handle o], _, exec_handle o hqueue, hstate.symm, ?_, hnext, ?_⟩
    · show f.queue ++ sentEvents _ = _
      rw [sentEvents_eq, Running.world, Running.unsent, hsending]
      rfl
    · show w.log ++ _ = f.log ++ _
      rw [Running.unsent, hsending, hlog, List.append_assoc, Option.getD_some,
        ← handleEvent_sends_last]

/-- The event loop has a run that the tasks follow. -/
def Reached (baseDir : Path) (f : Running) : Prop :=
  ∃ bs w, exec Supervisor.step (World.init baseDir) bs = some w ∧ Follows f w

lemma reached_init (baseDir : Path) : Reached baseDir (Running.init baseDir) :=
  ⟨[], World.init baseDir, rfl, .between rfl rfl rfl rfl rfl⟩

lemma reached_step {baseDir : Path} {x : Running.Action} (h : Reached baseDir f)
    (hstep : Running.step f x = some f') : Reached baseDir f' := by
  obtain ⟨bs, w, hrun, hfollows⟩ := h
  obtain ⟨bs', w', hrun', hfollows'⟩ := follows_step hfollows hstep
  exact ⟨bs ++ bs', w', exec_append hrun hrun', hfollows'⟩

lemma Reached.exists_sameLoop {baseDir : Path} (h : Reached baseDir f) :
    ∃ bs w, exec Supervisor.step (World.init baseDir) bs = some w ∧ SameLoop w f.world := by
  obtain ⟨bs, w, hrun, hfollows⟩ := h
  obtain ⟨bs', w', hrun', hsame⟩ := hfollows.exists_sameLoop
  exact ⟨bs ++ bs', w', exec_append hrun hrun', hsame⟩

/-- **A run of the tasks is a run of the event loop**, however the bytes of the streams arrive, and
whatever the tasks do while a handler waits for its writes. -/
theorem exists_eventLoop_of_run {baseDir : Path} {as : List Running.Action}
    (h : exec Running.step (Running.init baseDir) as = some f) :
    ∃ bs w, exec Supervisor.step (World.init baseDir) bs = some w ∧ SameLoop w f.world :=
  (exec_inv (fun _ _ _ hf hstep => reached_step hf hstep) (reached_init baseDir) h).exists_sameLoop

/-- Two streams are accepted. The `Register` of the first arrives in two parts, and its watcher comes to
wait before the handler is done; the second announces a frame that is too large. -/
def twoStreams : List Running.Action :=
  [.accept, .accept, .arrive 0 [0, 0, 0], .poll 0, .arrive 1 [255, 255, 255, 255], .poll 1,
    .arrive 0 [4, 1, 97, 1, 103], .poll 0, .handle (failing []), .poll 0, .send]

theorem exists_eventLoop_of_run_twoStreams : ∃ f,
    exec Running.step (Running.init ["run"]) twoStreams = some f ∧
    ∃ bs w, exec Supervisor.step (World.init ["run"]) bs = some w ∧ SameLoop w f.world := by
  have hrun : exec Running.step (Running.init ["run"]) twoStreams = some _ := rfl
  exact ⟨_, hrun, exists_eventLoop_of_run hrun⟩

end EventLoop

end Crossbridge.Supervisor
