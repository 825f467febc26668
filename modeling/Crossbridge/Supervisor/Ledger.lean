import Crossbridge.Supervisor.LiveStreams

/-!
Where the streams of a supervisor are.

A stream that was accepted is in one place: with its registration reader, in an event of the queue,
with a connection, or dropped, by its reader or by a handler. `Ledger` says that the places exclude
each other, and that each has the stream once: there are no two events with it, no two connections, and
it is dropped once. So no stream is leaked; and after a handler has dropped one, nothing is done with
it, so that it is not written to, watched or dropped again.

For the event loop alone this is `Dropped`: what its log drops is what is in no event and with no
connection. The streams of the tasks are brought in by `Tended`.
-/

namespace Crossbridge.Supervisor

open Crossbridge.Protocol Crossbridge.Runs Crossbridge.Lists

/-- The stream that an effect uses. -/
def Effect.stream : Effect → Option StreamId
  | .write st _ _ | .watch st _ | .drop st => some st
  | .createDirAll _ _ | .removeDirAll _ | .send _ => none

/-- Nothing is done with a stream once it is dropped. -/
def DropsLast (es : List Effect) : Prop :=
  es.Pairwise fun d e => ∀ st, d = .drop st → e.stream ≠ some st

/-- The streams that effects drop. -/
def drops (es : List Effect) : List StreamId :=
  es.filterMap fun
    | .drop st => some st
    | _ => none

/-- The streams that the event loop has dropped. -/
structure Dropped (w : World) : Prop where
  last : DropsLast w.log
  iff : ∀ st, .drop st ∈ w.log ↔ st < w.nextStream ∧ (∀ r, .registered st r ∉ w.queue) ∧
    ∀ id rec, w.state.conns.lookup id = some rec → rec.stream ≠ st

section Drops

variable {es : List Effect} {st : StreamId}

lemma mem_drops : st ∈ drops es ↔ .drop st ∈ es := by
  unfold drops
  rw [List.mem_filterMap]
  constructor
  · rintro ⟨e, he, hst⟩
    cases e with
    | drop st' =>
      obtain rfl := Option.some.inj hst
      exact he
    | createDirAll | removeDirAll | write | watch | send => cases hst
  · exact fun h => ⟨_, h, rfl⟩

/-- What is dropped is dropped once. -/
lemma DropsLast.nodup (h : DropsLast es) : (drops es).Nodup := by
  refine List.Pairwise.filterMap _ ?_ h
  intro d e hde st hst st' hst' heq
  subst heq
  cases d with
  | drop =>
    obtain rfl := Option.some.inj hst
    cases e with
    | drop => exact hde _ rfl hst'
    | createDirAll | removeDirAll | write | watch | send => cases hst'
  | createDirAll | removeDirAll | write | watch | send => cases hst

end Drops

/-! ### What a handler does with the streams -/

section Handler

variable {o : Outcomes} {s : State} {e : Event} {st : StreamId} {x : Effect}

lemma dropsLast_of_no_drop {es : List Effect} (h : ∀ st, .drop st ∉ es) : DropsLast es := by
  refine List.pairwise_of_forall_mem_list fun d hd e _ st heq => ?_
  exact absurd (heq ▸ hd) (h st)

lemma stream_of_mem_fanOut (hs : Consistent s) {g : String} {n : Notification}
    (hx : x ∈ State.fanOut o (s.peers o g) n) (hst : x.stream = some st) :
    ∃ id rec, s.conns.lookup id = some rec ∧ rec.stream = st := by
  unfold State.fanOut at hx
  rw [List.mem_append, List.mem_map, List.mem_map] at hx
  rcases hx with ⟨p, hp, rfl⟩ | ⟨p, -, rfl⟩
  · exact ⟨p.1, p.2, ((mem_peers hs).mp hp).1, Option.some.inj hst⟩
  · cases hst

/-- A handler uses the stream of its event, and those of connections. -/
lemma stream_of_mem_handleEvent (hs : Consistent s) (hx : x ∈ (s.handleEvent o e).2)
    (hst : x.stream = some st) :
    st ∈ waiting [e] ∨ ∃ id rec, s.conns.lookup id = some rec ∧ rec.stream = st := by
  cases e with
  | registered st' r =>
    have hown : some st' = some st → st ∈ waiting [.registered st' r] := by
      intro heq
      exact Option.some.inj heq ▸ List.mem_cons_self
    rw [State.handleEvent, State.handleRegistration] at hx
    split at hx
    · simp only [State.nack, List.mem_cons, List.not_mem_nil, or_false] at hx
      rcases hx with rfl | rfl <;> exact Or.inl (hown hst)
    · simp only at hx
      split at hx
      · simp only [State.nack, List.mem_cons, List.not_mem_nil, or_false] at hx
        rcases hx with rfl | rfl | rfl
        · cases hst
        · exact Or.inl (hown hst)
        · exact Or.inl (hown hst)
      · split at hx
        · simp only [List.mem_cons] at hx
          rcases hx with rfl | rfl | rfl | hx
          · cases hst
          · exact Or.inl (hown hst)
          · exact Or.inl (hown hst)
          · exact Or.inr (stream_of_mem_fanOut hs hx hst)
        · simp only [List.mem_cons, List.not_mem_nil, or_false] at hx
          rcases hx with rfl | rfl | rfl | rfl
          · cases hst
          · exact Or.inl (hown hst)
          · cases hst
          · exact Or.inl (hown hst)
  | departed id =>
    rw [State.handleEvent] at hx
    rcases handleDeparture_cases o s id with ⟨-, heq⟩ | ⟨rec, hd⟩
    · rw [heq] at hx
      exact absurd hx List.not_mem_nil
    · rw [State.handleDeparture, hd.conn] at hx
      rcases List.mem_cons.mp hx with rfl | hx
      · exact Or.inr ⟨id, rec, hd.conn, Option.some.inj hst⟩
      · rcases List.mem_cons.mp hx with rfl | hx
        · cases hst
        · obtain ⟨id', rec', hid', heq⟩ := stream_of_mem_fanOut (consistent_remove hs hd.conn) hx hst
          exact Or.inr ⟨id', rec', (mem_remove hid').2, heq⟩

/-- **A handler** that drops a stream is done with it. -/
lemma dropsLast_handleEvent (hs : Consistent s) (hstreams : OwnStreams s) :
    DropsLast (s.handleEvent o e).2 := by
  cases e with
  | registered st r =>
    have hnack : ∀ reason, DropsLast (State.nack o st reason) := by
      intro reason
      refine List.pairwise_cons.mpr ⟨(fun e _ st' heq => by cases heq), List.pairwise_singleton _ _⟩
    rw [State.handleEvent, State.handleRegistration]
    split
    · exact hnack _
    · simp only
      split
      · exact List.pairwise_cons.mpr ⟨(fun e _ st' heq => by cases heq), hnack _⟩
      · split
        · refine dropsLast_of_no_drop fun st' hin => ?_
          simp only [List.mem_cons, reduceCtorEq, false_or] at hin
          exact drop_not_mem_fanOut _ _ _ hin
        · refine List.pairwise_cons.mpr ⟨(fun e _ st' heq => by cases heq), ?_⟩
          refine List.pairwise_cons.mpr ⟨(fun e _ st' heq => by cases heq), ?_⟩
          exact List.pairwise_cons.mpr ⟨(fun e _ st' heq => by cases heq), List.pairwise_singleton _ _⟩
  | departed id =>
    rw [State.handleEvent]
    rcases handleDeparture_cases o s id with ⟨-, heq⟩ | ⟨rec, hd⟩
    · rw [heq]
      exact List.Pairwise.nil
    · rw [State.handleDeparture, hd.conn]
      refine List.pairwise_cons.mpr ⟨fun x hx st' heq hst => ?_, dropsLast_of_no_drop fun st' hin => ?_⟩
      · rcases List.mem_cons.mp hx with rfl | hx
        · cases hst
        · -- the others have streams of their own
          obtain ⟨id', rec', hid', heq'⟩ := stream_of_mem_fanOut (consistent_remove hs hd.conn) hx hst
          obtain ⟨hne, hid'⟩ := mem_remove hid'
          exact hne (hstreams id' rec' id rec hid' hd.conn (heq'.trans (Effect.drop.inj heq).symm))
      · simp only [List.mem_cons, reduceCtorEq, false_or] at hin
        exact drop_not_mem_fanOut _ _ _ hin

end Handler

/-! ### The runs of the event loop -/

section Run

variable {w w' : World} {a : Action} {st : StreamId}

lemma dropped_init (baseDir : Path) : Dropped (World.init baseDir) where
  last := List.Pairwise.nil
  iff st := by
    refine ⟨fun h => absurd h List.not_mem_nil, fun h => absurd h.1 (Nat.not_lt_zero st)⟩

lemma not_mem_waiting {q : List Event} : st ∉ waiting q ↔ ∀ r, .registered st r ∉ q := by
  rw [mem_waiting, not_exists]

/-- A handler uses no stream that was dropped. -/
lemma dropsLast_handled (hi : Inv w) (h : Dropped w) {o : Outcomes} {e : Event} (he : e ∈ w.queue) :
    DropsLast (w.log ++ (w.state.handleEvent o e).2) := by
  refine List.pairwise_append.mpr ⟨h.last, dropsLast_handleEvent hi.maps hi.streams, ?_⟩
  rintro d hd x hx st rfl hst
  obtain ⟨-, hnot, hconns⟩ := (h.iff st).mp hd
  rcases stream_of_mem_handleEvent hi.maps hx hst with hin | ⟨id, rec, hid, heq⟩
  · obtain ⟨r, hr⟩ := mem_waiting.mp hin
    exact hnot r (List.mem_singleton.mp hr ▸ he)
  · exact hconns id rec hid heq

/-- What a handler drops was in its event or with a connection, and is in no place after it. -/
lemma drop_mem_handled (hi : Inv w) (h : Dropped w) {o : Outcomes} {e : Event}
    (hh : Handled e (w.state.handleEvent o e) w w') (st : StreamId) : .drop st ∈ w'.log ↔
      st < w.nextStream ∧ st ∉ waiting w'.queue ∧
        ∀ id rec, w'.state.conns.lookup id = some rec → rec.stream ≠ st := by
  have hr := handling_of_inv hi hh
  rw [hh.log, List.mem_append, h.iff, hr.drops, ← not_mem_waiting, hh.waiting, hh.state, List.mem_append,
    not_or]
  constructor
  · rintro (⟨hlt, ⟨hnew, hnot⟩, hconns⟩ | ⟨hin | ⟨id, rec, hid, rfl⟩, hnone⟩)
    · refine ⟨hlt, hnot, fun id rec hid heq => ?_⟩
      rcases hr.conns id rec hid with ⟨hid₀, -, -⟩ | ⟨he, -⟩
      · exact hconns id rec hid₀ heq
      · rw [he, heq] at hnew
        exact hnew List.mem_cons_self
    · exact ⟨(hh.apart hi hin).1, (hh.apart hi hin).2, hnone⟩
    · obtain ⟨hlt, hnot⟩ := hi.handled id rec hid
      refine ⟨hlt, fun hin => hnot ?_, hnone⟩
      rw [hh.waiting]
      exact List.mem_append_right _ hin
  · rintro ⟨hlt, hnot, hnone⟩
    by_cases hin : st ∈ waiting [e]
    · exact Or.inr ⟨Or.inl hin, hnone⟩
    by_cases hold : ∃ id rec, w.state.conns.lookup id = some rec ∧ rec.stream = st
    · exact Or.inr ⟨Or.inr hold, hnone⟩
    · exact Or.inl ⟨hlt, ⟨hin, hnot⟩, fun id rec hid heq => hold ⟨id, rec, hid, heq⟩⟩

/-- **One step** keeps this. -/
theorem dropped_step (hi : Inv w) (h : Dropped w) (hstep : step w a = some w') : Dropped w' := by
  cases stepped_of_step hstep with
  | accept r =>
    refine ⟨h.last, fun st => (h.iff st).trans ?_⟩
    show _ ↔ st < w.nextStream + 1 ∧ _
    constructor
    · rintro ⟨hlt, hqueue, hconns⟩
      refine ⟨Nat.lt_succ_of_lt hlt, fun r' hin => ?_, hconns⟩
      rcases List.mem_append.mp hin with hin | hin
      · exact hqueue r' hin
      · exact absurd (Event.registered.inj (List.mem_singleton.mp hin)).1 hlt.ne
    · rintro ⟨hlt, hqueue, hconns⟩
      refine ⟨?_, fun r' hin => hqueue r' (List.mem_append_left _ hin), hconns⟩
      rcases Nat.lt_succ_iff_lt_or_eq.mp hlt with hlt | rfl
      · exact hlt
      · exact absurd (List.mem_append_right _ List.mem_cons_self) (hqueue r)
  | depart id =>
    refine ⟨h.last, fun st => (h.iff st).trans ?_⟩
    simp
  | handle o e queue hqueue =>
    obtain ⟨e', hh⟩ := handled_of_step hstep
    obtain ⟨rest, hrest, -⟩ := hh.queue
    obtain ⟨rfl, rfl⟩ := List.cons.inj (hqueue.symm.trans hrest)
    refine ⟨dropsLast_handled hi h (hqueue ▸ List.mem_cons_self), fun st => ?_⟩
    have hmem := drop_mem_handled hi h hh st
    rwa [not_mem_waiting] at hmem
  | place p node | unlink p => exact ⟨h.last, h.iff⟩

lemma dropped_of_run {baseDir : Path} {as : List Action}
    (hrun : exec step (World.init baseDir) as = some w) : Dropped w :=
  (exec_inv (I := fun w => Inv w ∧ Dropped w)
    (fun _ _ _ h hstep => ⟨inv_step h.1 hstep, dropped_step h.1 h.2 hstep⟩)
    ⟨inv_init baseDir, dropped_init baseDir⟩ hrun).2

end Run

/-! ### The streams of the tasks -/

/-- Where a stream is. -/
inductive Place where
  /-- With `spawn_registration_reader`. -/
  | reader
  /-- In an event of the queue. -/
  | event
  /-- With a connection. -/
  | conn (id : ConnId)
  /-- Dropped, by its reader or by a handler. -/
  | dropped
  deriving DecidableEq

/-- The place of a stream, as its task has it. -/
def StreamTask.place : StreamTask → Place
  | .registration _ => .reader
  | .held => .event
  | .watcher id | .ended id => .conn id
  | .dropped => .dropped

/-- A stream is at a place of a supervisor. -/
def Accepted.At (f : Running) (a : Accepted) : Place → Prop
  | .reader => ∃ fut, a.task = .registration fut
  | .event => ∃ st r, a.stream = some st ∧ .registered st r ∈ f.queue
  | .conn id => ∃ rec, f.state.conns.lookup id = some rec ∧ a.stream = some rec.stream
  | .dropped =>
    match a.stream with
    | none => a.task = .dropped
    | some st => .drop st ∈ f.log

/-- The streams in events and with connections, and those that handlers have dropped. -/
def Running.accounted (f : Running) : List StreamId :=
  waiting f.queue ++ f.state.conns.entries.map (fun e => e.2.stream) ++ drops f.log

/-- The places of the streams. -/
structure Ledger (f : Running) : Prop where
  /-- Each stream is in one place, -/
  one : ∀ a ∈ f.streams, ∃! p, a.At f p
  /-- which is that of its task. -/
  task : ∀ a ∈ f.streams, a.At f a.task.place
  /-- No place has a stream twice. -/
  once : f.accounted.Nodup
  /-- What is in a place was accepted, as one stream. -/
  accepted : ∀ st ∈ f.accounted, ∃! i : ℕ, (f.streams[i]?).bind Accepted.stream = some st
  /-- Nothing is done with a stream once it is dropped. -/
  last : DropsLast f.log

section Ledger

variable {f f' : Running} {a : Accepted} {p : Place} {st : StreamId} {baseDir : Path}
  {as : List Running.Action}

lemma waiting_departed (ids : List ConnId) : waiting (ids.map .departed) = [] := by
  refine List.filterMap_eq_nil_iff.mpr fun e he => ?_
  obtain ⟨id, -, rfl⟩ := List.mem_map.mp he
  rfl

@[simp] lemma waiting_world : waiting f.world.queue = waiting f.queue := by
  unfold Running.world
  rw [waiting_append, waiting_departed, List.append_nil]

lemma registered_mem_world {r : Register} :
    .registered st r ∈ f.world.queue ↔ .registered st r ∈ f.queue := by
  simp [Running.world]

lemma drop_mem_world : .drop st ∈ f.world.log ↔ .drop st ∈ f.log := by
  simp [Running.world]

/-- What the event loop has dropped, the tasks have. -/
lemma dropped_world (hrun : exec Running.step (Running.init baseDir) as = some f) :
    Dropped f.world := by
  obtain ⟨bs, w, hrun', hsame⟩ := exists_eventLoop_of_run hrun
  obtain ⟨hlast, hiff⟩ := dropped_of_run hrun'
  refine ⟨hsame.log ▸ hlast, fun st => ?_⟩
  rw [← hsame.log, ← hsame.queue, ← hsame.nextStream, ← hsame.state]
  exact hiff st

/-- A stream is where its task has it. -/
lemma at_place (h : Tended f.world f.streams) (hd : Dropped f.world) (ha : a ∈ f.streams) :
    a.At f a.task.place := by
  have hm := h.minded a ha
  unfold Accepted.Minded at hm
  cases htask : a.task with
  | registration fut => exact ⟨fut, htask⟩
  | held =>
    rw [htask] at hm
    obtain ⟨st, r, hst, -, hin⟩ := hm
    exact ⟨st, r, hst, registered_mem_world.mp hin⟩
  | watcher id =>
    rw [htask] at hm
    obtain ⟨st, r, hst, -, hid⟩ := hm
    exact ⟨_, hid, hst⟩
  | ended id =>
    rw [htask] at hm
    obtain ⟨⟨st, r, hst, -, hid⟩, -⟩ := hm
    exact ⟨_, hid, hst⟩
  | dropped =>
    rw [htask] at hm
    rw [StreamTask.place, Accepted.At]
    split
    · exact htask
    · rename_i st hst
      refine drop_mem_world.mp ((hd.iff st).mpr ⟨(h.known a ha st hst).1, fun r hin => ?_, ?_⟩)
      · exact (hm.2 st hst).1 (mem_waiting.mpr ⟨r, hin⟩)
      · -- a connection has a watcher
        rintro id rec hid rfl
        obtain ⟨b, hb, hst', htask'⟩ := h.watched id rec hid
        obtain rfl := h.eq_of_stream ha hb hst hst'
        rw [htask] at htask'
        simp at htask'

/-- A stream is nowhere else. -/
lemma eq_of_at (h : Tended f.world f.streams) (hd : Dropped f.world) (ha : a ∈ f.streams)
    (hat : a.At f p) : p = a.task.place := by
  cases p with
  | reader =>
    obtain ⟨fut, htask⟩ := hat
    rw [htask]
    rfl
  | event =>
    obtain ⟨st, r, hst, hin⟩ := hat
    obtain ⟨b, hb, hst', -, htask⟩ := h.held st r (registered_mem_world.mpr hin)
    obtain rfl := h.eq_of_stream ha hb hst hst'
    rw [htask]
    rfl
  | conn id =>
    obtain ⟨rec, hid, hst⟩ := hat
    obtain ⟨b, hb, hst', htask⟩ := h.watched id rec hid
    obtain rfl := h.eq_of_stream ha hb hst hst'
    rcases htask with htask | htask <;> rw [htask] <;> rfl
  | dropped =>
    have hplace := at_place h hd ha
    rw [Accepted.At] at hat
    split at hat
    · rw [hat]
      rfl
    · rename_i st hst
      obtain ⟨-, hqueue, hconns⟩ := (hd.iff st).mp (drop_mem_world.mpr hat)
      cases htask : a.task with
      | registration fut =>
        have hm := h.minded a ha
        unfold Accepted.Minded at hm
        rw [htask] at hm
        rw [hm.1] at hst
        cases hst
      | held =>
        rw [htask] at hplace
        obtain ⟨st', r, hst', hin⟩ := hplace
        obtain rfl := Option.some.inj (hst.symm.trans hst')
        exact absurd (registered_mem_world.mpr hin) (hqueue r)
      | watcher id | ended id =>
        rw [htask] at hplace
        obtain ⟨rec, hid, hst'⟩ := hplace
        exact absurd (Option.some.inj (hst'.symm.trans hst)) (hconns id rec hid)
      | dropped => rfl

/-- No two connections have a stream. -/
lemma nodup_conns (hstreams : OwnStreams f.state) :
    (f.state.conns.entries.map fun e => e.2.stream).Nodup := by
  refine List.Nodup.map_on (fun e he e' he' heq => ?_) f.state.conns.nodupKeys.nodup
  have hid := AList.mem_lookup_iff.mpr he
  have hid' := AList.mem_lookup_iff.mpr he'
  have hids := hstreams _ _ _ _ hid hid' heq
  obtain ⟨id, rec⟩ := e
  obtain ⟨id', rec'⟩ := e'
  obtain rfl : id = id' := hids
  exact congrArg _ (Option.some.inj (hid.symm.trans hid'))

/-- No stream is in two places, or in one twice. -/
lemma nodup_accounted (hi : Inv f.world) (hd : Dropped f.world) (hlast : DropsLast f.log) :
    f.accounted.Nodup := by
  have hconn : ∀ st ∈ f.state.conns.entries.map (fun e => e.2.stream),
      ∃ id rec, f.state.conns.lookup id = some rec ∧ rec.stream = st := by
    intro st hst
    obtain ⟨e, he, rfl⟩ := List.mem_map.mp hst
    exact ⟨e.1, e.2, AList.mem_lookup_iff.mpr he, rfl⟩
  have hdrop : ∀ st ∈ drops f.log, _ := fun st hst =>
    (hd.iff st).mp (drop_mem_world.mpr (mem_drops.mp hst))
  refine List.nodup_append.mpr ⟨List.nodup_append.mpr ⟨?_, nodup_conns hi.streams, ?_⟩, hlast.nodup, ?_⟩
  · exact waiting_world ▸ hi.waiting_nodup
  · rintro st hst _ hst' rfl
    obtain ⟨id, rec, hid, rfl⟩ := hconn st hst'
    exact (hi.handled id rec hid).2 (waiting_world ▸ hst)
  · rintro st hst _ hst' rfl
    obtain ⟨-, hqueue, hconns⟩ := hdrop st hst'
    rcases List.mem_append.mp hst with hst | hst
    · obtain ⟨r, hin⟩ := mem_waiting.mp hst
      exact hqueue r (registered_mem_world.mpr hin)
    · obtain ⟨id, rec, hid, heq⟩ := hconn st hst
      exact hconns id rec hid heq

/-- Each number is that of a stream. -/
def Numbered (f : Running) : Prop := ∀ st < f.nextStream, ∃ a ∈ f.streams, a.stream = some st

/-- One step keeps this; it is the reader of a stream that gives it its number. -/
lemma numbered_step {x : Running.Action} (h : Tended f.world f.streams) (hn : Numbered f)
    (hstep : Running.step f x = some f') : Numbered f' := by
  have hset : ∀ {i : ℕ} {a a' : Accepted}, f.streams[i]? = some a → a'.stream = a.stream →
      ∀ st < f.nextStream, ∃ b ∈ f.streams.set i a', b.stream = some st :=
    fun ha heq st hlt => exists_mem_set ha (fun hst => heq.trans hst) (hn st hlt)
  cases Running.stepped_of_step hstep with
  | accept hsending =>
    intro st hlt
    obtain ⟨a, ha, hst⟩ := hn st hlt
    exact ⟨a, List.mem_append_left _ ha, hst⟩
  | arrive i bs a ha hopen hkept => exact hset ha rfl
  | close i kind a ha hopen => exact hset ha rfl
  | idle i a ha hreg hwatch => exact hn
  | waits i a fut fut' src ha htask hpoll => exact hset ha rfl
  | fails i a fut src e ha htask hpoll => exact hset ha rfl
  | ends i a id ha htask hbuf hend => exact hset ha rfl
  | ignores i a id ha htask => exact hset ha rfl
  | registers i a fut src r ha htask hpoll =>
    intro st hlt
    rcases Nat.lt_succ_iff_lt_or_eq.mp hlt with hlt | rfl
    · refine exists_mem_set ha (fun hst => ?_) (hn st hlt)
      -- it had none
      have hm := h.minded a (List.mem_of_getElem? ha)
      unfold Accepted.Minded at hm
      rw [htask] at hm
      rw [hm.1] at hst
      cases hst
    · obtain ⟨hi, -⟩ := List.getElem?_eq_some_iff.mp ha
      exact ⟨_, List.mem_set hi _, rfl⟩
  | handle o e queue hsending hqueue =>
    intro st hlt
    obtain ⟨a, ha, hst⟩ := hn st hlt
    exact ⟨_, List.mem_map_of_mem ha, after_stream.trans hst⟩
  | send ids hids => exact hn

lemma numbered_of_run (hrun : exec Running.step (Running.init baseDir) as = some f) :
    Numbered f := by
  refine (exec_inv (I := fun f => (∃ bs, exec Running.step (Running.init baseDir) bs = some f) ∧
    Numbered f) ?_ ⟨⟨[], rfl⟩, fun st h => absurd h (Nat.not_lt_zero st)⟩ hrun).2
  rintro f x f' ⟨⟨bs, hbs⟩, hn⟩ hstep
  exact ⟨⟨bs ++ [x], exec_append hbs (exec_one hstep)⟩, numbered_step (tended_of_run hbs).2 hn hstep⟩

/-- What is in a place has a number that was given. -/
lemma lt_of_accounted (hi : Inv f.world) (hd : Dropped f.world) (h : st ∈ f.accounted) :
    st < f.nextStream := by
  unfold Running.accounted at h
  rw [List.mem_append, List.mem_append] at h
  rcases h with (h | h) | h
  · exact hi.waiting_lt st (waiting_world ▸ h)
  · obtain ⟨e, he, rfl⟩ := List.mem_map.mp h
    exact (hi.handled e.1 e.2 (AList.mem_lookup_iff.mpr he)).1
  · exact ((hd.iff st).mp (drop_mem_world.mpr (mem_drops.mp h))).1

/-- **Each stream is accounted for exactly once**, in every run of the tasks, however the bytes
arrive. -/
theorem ledger_of_run (hrun : exec Running.step (Running.init baseDir) as = some f) : Ledger f := by
  obtain ⟨hi, h⟩ := tended_of_run hrun
  have hd := dropped_world hrun
  have hlast : DropsLast f.log := (List.pairwise_append.mp hd.last).1
  refine ⟨fun a ha => ?_, fun a ha => at_place h hd ha, nodup_accounted hi hd hlast,
    fun st hst => ?_, hlast⟩
  · exact ⟨_, at_place h hd ha, fun p hat => eq_of_at h hd ha hat⟩
  · obtain ⟨a, ha, hst'⟩ := numbered_of_run hrun st (lt_of_accounted hi hd hst)
    obtain ⟨i, hi'⟩ := List.mem_iff_getElem?.mp ha
    refine ⟨i, by simp [hi', hst'], fun j hj => ?_⟩
    obtain ⟨b, hb, hst''⟩ := Option.bind_eq_some_iff.mp hj
    exact h.own j i b a st hb hi' hst'' hst'

/-- Four streams are accepted. The first registers, the second is refused, the third registers while a
write to the first fails, so that the first departs twice, by its watcher too; the fourth sends no
frame. -/
def twiceDeparted : List Running.Action :=
  [.accept, .arrive 0 [0, 0, 0, 4, 1, 97, 1, 103], .poll 0, .handle (failing []), .send,
    .accept, .arrive 1 [0, 0, 0, 4, 1, 97, 1, 103], .poll 1, .handle (failing []), .send,
    .accept, .arrive 2 [0, 0, 0, 4, 1, 98, 1, 103], .poll 2, .handle (failing [0]),
    .close 0 .unexpectedEof, .poll 0, .send, .handle (failing []), .send, .handle (failing []), .send,
    .accept, .arrive 3 [255, 255, 255, 255], .poll 3]

theorem ledger_of_run_twiceDeparted : ∃ f,
    exec Running.step (Running.init ["run"]) twiceDeparted = some f ∧
    drops f.log = [1, 0] ∧ f.accounted = [2, 1, 0] ∧ Ledger f := by
  have hrun : exec Running.step (Running.init ["run"]) twiceDeparted = some _ := rfl
  exact ⟨_, hrun, by decide, by decide, ledger_of_run hrun⟩

end Ledger

end Crossbridge.Supervisor
