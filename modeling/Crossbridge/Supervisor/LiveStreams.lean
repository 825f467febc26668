import Crossbridge.Lib.Lists
import Crossbridge.Supervisor.Tasks

/-!
The streams that the maps of a supervisor hold.

`Tended` says, for the event loop and the streams that were accepted, what the task of each stream is
about: a stream whose registration is in the queue is held, a stream of a connection is watched until
its watcher has sent the departure, and a stream that was dropped had come to its end, or was not told
everything. From this, when nothing can go on, the maps hold exactly the streams that are open, began
with a `Register`, and were written to without a failure (`maps_exact`).
-/

namespace Crossbridge.Supervisor

open Crossbridge.Varint Crossbridge.Protocol Crossbridge.Runs Crossbridge.Lists
open Streams (first first_append)

/-- An `Ack` that was written, and notifications all of which were. -/
def Heard (ws : List (SupervisorMessage × Bool)) : Prop :=
  ∃ (peers : List String) (ns : List Notification),
    ws = (.registerResponse (.ack peers), true) :: ns.map fun n => (.notification n, true)

section Heard

variable {ws more : List (SupervisorMessage × Bool)}

lemma not_heard_nil : ¬ Heard [] := by
  rintro ⟨peers, ns, h⟩
  cases h

lemma Heard.true_of_mem (h : Heard ws) {x : SupervisorMessage × Bool} (hx : x ∈ ws) : x.2 = true := by
  obtain ⟨peers, ns, rfl⟩ := h
  rcases List.mem_cons.mp hx with rfl | hx
  · rfl
  · obtain ⟨n, -, rfl⟩ := List.mem_map.mp hx
    rfl

/-- What was not heard stays so, whatever is written later. -/
lemma not_heard_append (h : ¬ Heard ws) (hne : ws ≠ []) : ¬ Heard (ws ++ more) := by
  rintro ⟨peers, ns, heq⟩
  refine h ?_
  cases ws with
  | nil => exact absurd rfl hne
  | cons x ws =>
    rw [List.cons_append, List.cons.injEq] at heq
    obtain ⟨ns₁, ns₂, -, h₁, -⟩ := List.map_eq_append_iff.mp heq.2.symm
    exact ⟨peers, ns₁, by rw [heq.1, h₁]⟩

lemma Conversation.ne_nil (h : Conversation ws) : ws ≠ [] := by
  obtain ⟨resp, ok, notes, rfl, -⟩ := h
  exact List.cons_ne_nil _ _

end Heard

/-! ### What effects do to a stream -/

section After

variable {a : Accepted} {es : List Effect} {st : StreamId} {id : ConnId}

lemma onEffect_fields (a : Accepted) (e : Effect) : (a.onEffect e).got = a.got ∧
    (a.onEffect e).src = a.src ∧ (a.onEffect e).stream = a.stream := by
  cases e with
  | watch st id =>
    rw [Accepted.onEffect]
    split <;> exact ⟨rfl, rfl, rfl⟩
  | drop st =>
    rw [Accepted.onEffect]
    split <;> exact ⟨rfl, rfl, rfl⟩
  | createDirAll | removeDirAll | write | send => exact ⟨rfl, rfl, rfl⟩

lemma after_fields (a : Accepted) (es : List Effect) : (a.after es).got = a.got ∧
    (a.after es).src = a.src ∧ (a.after es).stream = a.stream := by
  unfold Accepted.after
  induction es generalizing a with
  | nil => exact ⟨rfl, rfl, rfl⟩
  | cons e es ih =>
    obtain ⟨hgot, hsrc, hst⟩ := onEffect_fields a e
    rw [List.foldl_cons, ← hgot, ← hsrc, ← hst]
    exact ih _

@[simp] lemma after_got : (a.after es).got = a.got := (after_fields a es).1

@[simp] lemma after_src : (a.after es).src = a.src := (after_fields a es).2.1

@[simp] lemma after_stream : (a.after es).stream = a.stream := (after_fields a es).2.2

/-- Effects on other streams. -/
lemma after_eq_self (hdrop : ∀ st, a.stream = some st → .drop st ∉ es)
    (hwatch : ∀ st, a.stream = some st → a.task = .held → ∀ id, .watch st id ∉ es) :
    a.after es = a := by
  unfold Accepted.after
  induction es with
  | nil => rfl
  | cons e es ih =>
    have hone : a.onEffect e = a := by
      cases e with
      | watch st id =>
        rw [Accepted.onEffect, if_neg]
        exact fun h => hwatch st h.1 h.2 id List.mem_cons_self
      | drop st =>
        rw [Accepted.onEffect, if_neg]
        exact fun h => hdrop st h List.mem_cons_self
      | createDirAll | removeDirAll | write | send => rfl
    rw [List.foldl_cons, hone]
    exact ih (fun st hst h => hdrop st hst (List.mem_cons_of_mem _ h))
      fun st hst hheld id h => hwatch st hst hheld id (List.mem_cons_of_mem _ h)

lemma after_of_dropped (h : a.task = .dropped) : a.after es = a := by
  unfold Accepted.after
  induction es with
  | nil => rfl
  | cons e es ih =>
    have hone : a.onEffect e = a := by
      cases e with
      | watch st id =>
        rw [Accepted.onEffect, if_neg]
        rintro ⟨-, hheld⟩
        rw [h] at hheld
        cases hheld
      | drop st =>
        rw [Accepted.onEffect]
        split
        · rw [← h]
        · rfl
      | createDirAll | removeDirAll | write | send => rfl
    rw [List.foldl_cons, hone, ih]

lemma after_of_drop (hst : a.stream = some st) (h : .drop st ∈ es) :
    (a.after es).task = .dropped := by
  induction es generalizing a with
  | nil => cases h
  | cons e es ih =>
    rcases List.mem_cons.mp h with rfl | h
    · have hone : a.onEffect (.drop st) = { a with task := .dropped } := if_pos hst
      show (Accepted.after es (a.onEffect (.drop st))).task = _
      rw [hone, after_of_dropped rfl]
    · exact ih ((onEffect_fields a e).2.2.trans hst) h

lemma after_of_watch (hst : a.stream = some st) (hheld : a.task = .held) (h : .watch st id ∈ es)
    (hone : ∀ id', .watch st id' ∈ es → id' = id) (hdrop : .drop st ∉ es) :
    a.after es = { a with task := .watcher id } := by
  induction es with
  | nil => cases h
  | cons e es ih =>
    show Accepted.after es (a.onEffect e) = _
    by_cases he : e = .watch st id
    · subst he
      have hstep : a.onEffect (.watch st id) = { a with task := .watcher id } := if_pos ⟨hst, hheld⟩
      rw [hstep]
      refine after_eq_self (fun st' hst' hin => ?_) fun st' _ hheld' => by cases hheld'
      obtain rfl := Option.some.inj (hst.symm.trans hst')
      exact hdrop (List.mem_cons_of_mem _ hin)
    · have hstep : a.onEffect e = a := by
        cases e with
        | watch st' id' =>
          rw [Accepted.onEffect, if_neg]
          rintro ⟨hst', -⟩
          obtain rfl := Option.some.inj (hst.symm.trans hst')
          exact he (hone id' List.mem_cons_self ▸ rfl)
        | drop st' =>
          rw [Accepted.onEffect, if_neg]
          intro hst'
          obtain rfl := Option.some.inj (hst.symm.trans hst')
          exact hdrop List.mem_cons_self
        | createDirAll | removeDirAll | write | send => rfl
      rw [hstep]
      exact ih ((List.mem_cons.mp h).resolve_left fun heq => he heq.symm)
        (fun id' hin => hone id' (List.mem_cons_of_mem _ hin)) fun hin => hdrop (List.mem_cons_of_mem _ hin)

end After

/-! ### What a handler does to the streams -/

section Handler

variable {o : Outcomes} {s : State} {e : Event} {st : StreamId} {id : ConnId} {rec : ConnRecord}

lemma watch_not_mem_fanOut (ps : List (ConnId × ConnRecord)) (n : Notification) :
    .watch st id ∉ State.fanOut o ps n := by
  unfold State.fanOut
  rw [List.mem_append, List.mem_map, List.mem_map]
  rintro (⟨p, -, heq⟩ | ⟨p, -, heq⟩) <;> cases heq

/-- The stream that gets a watcher is that of the new connection. -/
lemma watch_mem_handleEvent (hs : Consistent s) : .watch st id ∈ (s.handleEvent o e).2 ↔
    id = s.nextId ∧ ∃ rec, (s.handleEvent o e).1.conns.lookup id = some rec ∧ rec.stream = st := by
  have hfresh : s.conns.lookup s.nextId = none := by
    cases hlook : s.conns.lookup s.nextId with
    | none => rfl
    | some rec => exact absurd (hs.fresh _ rec hlook) (lt_irrefl _)
  cases e with
  | registered st' r =>
    rw [State.handleEvent, State.handleRegistration]
    split
    · simp only [State.nack, List.mem_cons, List.not_mem_nil, or_false, reduceCtorEq, false_iff]
      rintro ⟨rfl, rec, hlook, -⟩
      rw [hfresh] at hlook
      cases hlook
    · simp only
      split
      · simp only [State.nack, List.mem_cons, List.not_mem_nil, or_false, reduceCtorEq, false_iff]
        rintro ⟨rfl, rec, hlook, -⟩
        rw [hfresh] at hlook
        cases hlook
      · split
        · have hnew : (s.insert ⟨r.slug, r.group, st'⟩).conns.lookup s.nextId =
              some ⟨r.slug, r.group, st'⟩ := lookup_conns_insert.trans (if_pos rfl)
          simp only [List.mem_cons, reduceCtorEq, false_or, Effect.watch.injEq, watch_not_mem_fanOut,
            or_false]
          constructor
          · rintro ⟨rfl, rfl⟩
            exact ⟨rfl, _, hnew, rfl⟩
          · rintro ⟨rfl, rec, hlook, rfl⟩
            rw [hnew] at hlook
            rw [← Option.some.inj hlook]
            exact ⟨rfl, rfl⟩
        · simp only [List.mem_cons, List.not_mem_nil, or_false, reduceCtorEq, false_iff]
          rintro ⟨rfl, rec, hlook, -⟩
          rw [hfresh] at hlook
          cases hlook
  | departed id₀ =>
    rw [State.handleEvent]
    constructor
    · intro h
      rw [State.handleDeparture] at h
      split at h
      · cases h
      · simp only [List.mem_cons, reduceCtorEq, false_or] at h
        exact absurd h (watch_not_mem_fanOut _ _)
    · rintro ⟨rfl, rec, hlook, -⟩
      rcases handleDeparture_cases o s id₀ with ⟨-, heq⟩ | ⟨rec₀, hd⟩
      · rw [heq, hfresh] at hlook
        cases hlook
      · rw [hd.state] at hlook
        rw [(mem_remove hlook).2] at hfresh
        cases hfresh

/-- What a handler sends away could not be written to. -/
lemma exists_write_of_send (hs : Consistent s) (h : .send id ∈ (s.handleEvent o e).2) :
    ∃ rec n, s.conns.lookup id = some rec ∧ e ≠ .departed id ∧
      .write rec.stream (.notification n) false ∈ (s.handleEvent o e).2 := by
  have hfan : ∀ {t : State} {g : String} {n : Notification}, Consistent t →
      .send id ∈ State.fanOut o (t.peers o g) n → ∃ rec, t.conns.lookup id = some rec ∧
        .write rec.stream (.notification n) false ∈ State.fanOut o (t.peers o g) n := by
    intro t g n ht hsend
    obtain ⟨rec, hmem, hfail⟩ := send_mem_fanOut.mp hsend
    refine ⟨rec, ((mem_peers ht).mp hmem).1, ?_⟩
    unfold State.fanOut
    exact List.mem_append_left _ (List.mem_map.mpr ⟨(id, rec), hmem, by rw [hfail]⟩)
  cases e with
  | registered st r =>
    rw [State.handleEvent, State.handleRegistration] at h ⊢
    split at h
    · simp [State.nack] at h
    · rename_i hdup
      rw [if_neg hdup]
      simp only at h ⊢
      split at h
      · simp [State.nack] at h
      · split at h
        · rename_i hok
          simp only [List.mem_cons, reduceCtorEq, false_or] at h
          obtain ⟨rec, hlook, hwrite⟩ := hfan hs h
          rw [if_pos hok]
          refine ⟨rec, .peerJoined r.slug, hlook, by simp, ?_⟩
          exact List.mem_cons_of_mem _ (List.mem_cons_of_mem _ (List.mem_cons_of_mem _ hwrite))
        · simp at h
  | departed id₀ =>
    rw [State.handleEvent, State.handleDeparture] at h ⊢
    split at h
    · cases h
    · rename_i rec₀ hid₀
      simp only [List.mem_cons, reduceCtorEq, false_or] at h
      obtain ⟨rec, hlook, hwrite⟩ := hfan (consistent_remove hs hid₀) h
      obtain ⟨hne, hlook⟩ := mem_remove hlook
      refine ⟨rec, .peerLeft rec₀.slug, hlook, fun heq => hne (Event.departed.inj heq).symm, ?_⟩
      exact List.mem_cons_of_mem _ (List.mem_cons_of_mem _ hwrite)

end Handler

/-! ### The invariant -/

/-- The `Register` that a stream begins with. -/
abbrev Accepted.register (a : Accepted) : Option Register := first Postcard.register a.got

/-- The stream is that of the connection `id`. -/
def Accepted.IsConn (w : World) (a : Accepted) (id : ConnId) : Prop :=
  ∃ st r, a.stream = some st ∧ a.register = some r ∧
    w.state.conns.lookup id = some ⟨r.slug, r.group, st⟩

/-- What the task of a stream is about. -/
def Accepted.Minded (w : World) (a : Accepted) : Prop :=
  match a.task with
  | .registration fut => a.stream = none ∧ fut.Waiting ∧ a.got = fut.bytes ++ a.src.buf
  | .held => ∃ st r, a.stream = some st ∧ a.register = some r ∧ .registered st r ∈ w.queue
  | .watcher id => a.IsConn w id
  | .ended id => a.IsConn w id ∧ a.src.ending ≠ none ∧ .departed id ∈ w.queue
  | .dropped => (a.stream = none → a.register = none) ∧ ∀ st, a.stream = some st →
      st ∉ waiting w.queue ∧ (a.src.ending ≠ none ∨ ¬ Heard (writesOn st w.log))

/-- A stream that has come to its end, or was not told everything. -/
def Lost (w : World) (streams : List Accepted) (st : StreamId) : Prop :=
  (∃ a ∈ streams, a.stream = some st ∧ a.src.ending ≠ none) ∨ ¬ Heard (writesOn st w.log)

structure Tended (w : World) (streams : List Accepted) : Prop where
  minded : ∀ a ∈ streams, a.Minded w
  /-- Each stream has a number of its own. -/
  own : ∀ (i j : ℕ) (a b : Accepted) (st : StreamId),
    streams[i]? = some a → streams[j]? = some b → a.stream = some st →
    b.stream = some st → i = j
  known : ∀ a ∈ streams, ∀ st, a.stream = some st →
    st < w.nextStream ∧ ∃ r, a.register = some r
  /-- The stream of an event is held for it. -/
  held : ∀ st r, .registered st r ∈ w.queue →
    ∃ a ∈ streams, a.stream = some st ∧ a.register = some r ∧ a.task = .held
  /-- The stream of a connection has a watcher, or had one. -/
  watched : ∀ id rec, w.state.conns.lookup id = some rec →
    ∃ a ∈ streams, a.stream = some rec.stream ∧ (a.task = .watcher id ∨ a.task = .ended id)
  /-- A connection departs for a reason. -/
  leaving : ∀ id, .departed id ∈ w.queue → id < w.state.nextId ∧
    ∀ rec, w.state.conns.lookup id = some rec → Lost w streams rec.stream

section Steps

variable {w w' : World} {streams : List Accepted} {a a' : Accepted} {i : ℕ} {st : StreamId}
  {id : ConnId}

lemma tended_init (baseDir : Path) : Tended (Running.init baseDir).world [] where
  minded a ha := absurd ha List.not_mem_nil
  own i j a b st ha := by simp at ha
  known a ha := absurd ha List.not_mem_nil
  held st r h := absurd h List.not_mem_nil
  watched id rec h := by simp [Running.world, Running.init, State.new] at h
  leaving id h := absurd h List.not_mem_nil

lemma Tended.eq_of_stream (h : Tended w streams) {b : Accepted} (ha : a ∈ streams) (hb : b ∈ streams)
    (hst : a.stream = some st) (hst' : b.stream = some st) : a = b := by
  obtain ⟨i, hi⟩ := List.mem_iff_getElem?.mp ha
  obtain ⟨j, hj⟩ := List.mem_iff_getElem?.mp hb
  obtain rfl := h.own i j a b st hi hj hst hst'
  exact Option.some.inj (hi.symm.trans hj)

lemma Lost.set (h : Lost w streams st) (ha : streams[i]? = some a) (hst : a'.stream = a.stream)
    (hend : a.src.ending ≠ none → a'.src.ending ≠ none) : Lost w (streams.set i a') st := by
  rcases h with h | h
  · exact Or.inl (exists_mem_set ha (fun ⟨hs, he⟩ => ⟨hst.trans hs, hend he⟩) h)
  · exact Or.inr h

/-- **A task that goes on** with its stream. -/
lemma Tended.set (h : Tended w streams) (ha : streams[i]? = some a) (hst : a'.stream = a.stream)
    (hend : a.src.ending ≠ none → a'.src.ending ≠ none)
    (hreg : ∀ r, a.register = some r → a'.register = some r)
    (hheld : a.task = .held → a'.task = .held)
    (hid : ∀ id, a.task = .watcher id ∨ a.task = .ended id →
      a'.task = .watcher id ∨ a'.task = .ended id) (hm : a'.Minded w) :
    Tended w (streams.set i a') where
  minded b hb := by
    rcases mem_set_cases hb with rfl | hb
    · exact hm
    · exact h.minded b hb
  own j k b c st hb hc hbst hcst := by
    rcases getElem?_set_cases hb with ⟨rfl, rfl⟩ | ⟨hj, hb'⟩ <;>
      rcases getElem?_set_cases hc with ⟨rfl, rfl⟩ | ⟨hk, hc'⟩
    · rfl
    · exact h.own _ _ _ _ st ha hc' (hst ▸ hbst) hcst
    · exact h.own _ _ _ _ st hb' ha hbst (hst ▸ hcst)
    · exact h.own _ _ _ _ st hb' hc' hbst hcst
  known b hb st hbst := by
    rcases mem_set_cases hb with rfl | hb
    · obtain ⟨hlt, r, hr⟩ := h.known a (List.mem_of_getElem? ha) st (hst ▸ hbst)
      exact ⟨hlt, r, hreg r hr⟩
    · exact h.known b hb st hbst
  held st r hin :=
    exists_mem_set ha (fun ⟨hs, hr, ht⟩ => ⟨hst.trans hs, hreg r hr, hheld ht⟩) (h.held st r hin)
  watched id rec hlook :=
    exists_mem_set ha (fun ⟨hs, ht⟩ => ⟨hst.trans hs, hid id ht⟩) (h.watched id rec hlook)
  leaving id hin :=
    ⟨(h.leaving id hin).1, fun rec hlook => ((h.leaving id hin).2 rec hlook).set ha hst hend⟩

/-- A new stream. -/
lemma Tended.accept (h : Tended w streams) : Tended w (streams ++ [.new]) := by
  have hnew : ∀ {b : Accepted}, b ∈ streams ++ [Accepted.new] → b ∈ streams ∨ b = .new := by
    intro b hb
    rcases List.mem_append.mp hb with hb | hb
    · exact Or.inl hb
    · exact Or.inr (List.mem_singleton.mp hb)
  have hold : ∀ {P : Accepted → Prop}, (∃ b ∈ streams, P b) → ∃ b ∈ streams ++ [Accepted.new], P b :=
    fun ⟨b, hb, hP⟩ => ⟨b, List.mem_append_left _ hb, hP⟩
  have hstream : ∀ {j : ℕ} {b : Accepted} {st : StreamId}, (streams ++ [Accepted.new])[j]? = some b →
      b.stream = some st → streams[j]? = some b := by
    intro j b st hb hst
    by_cases hj : j < streams.length
    · rwa [List.getElem?_append_left hj] at hb
    · rw [List.getElem?_append_right (Nat.le_of_not_lt hj)] at hb
      have hmem := List.mem_singleton.mp (List.mem_of_getElem? hb)
      rw [hmem] at hst
      cases hst
  refine ⟨fun b hb => ?_, fun j k b c st hb hc hbst hcst => ?_, fun b hb st hst => ?_,
    fun st r hin => hold (h.held st r hin), fun id rec hlook => hold (h.watched id rec hlook),
    fun id hin => ⟨(h.leaving id hin).1, fun rec hlook => ?_⟩⟩
  · rcases hnew hb with hb | rfl
    · exact h.minded b hb
    · exact ⟨rfl, ReadMessage.waiting_start, rfl⟩
  · exact h.own j k b c st (hstream hb hbst) (hstream hc hcst) hbst hcst
  · rcases hnew hb with hb | rfl
    · exact h.known b hb st hst
    · cases hst
  · exact ((h.leaving id hin).2 rec hlook).imp_left hold

/-- Nothing but more events in the queue. -/
lemma Accepted.Minded.queue (h : a.Minded w) (hstate : w'.state = w.state) (hlog : w'.log = w.log)
    (hmore : ∀ e ∈ w.queue, e ∈ w'.queue)
    (hwaiting : ∀ st, a.stream = some st → st ∈ waiting w'.queue → st ∈ waiting w.queue) :
    a.Minded w' := by
  unfold Accepted.Minded Accepted.IsConn at h ⊢
  rw [hstate, hlog]
  cases htask : a.task with
  | registration fut =>
    rw [htask] at h
    exact h
  | held =>
    rw [htask] at h
    obtain ⟨st, r, hst, hr, hin⟩ := h
    exact ⟨st, r, hst, hr, hmore _ hin⟩
  | watcher id =>
    rw [htask] at h
    exact h
  | ended id =>
    rw [htask] at h
    exact ⟨h.1, h.2.1, hmore _ h.2.2⟩
  | dropped =>
    rw [htask] at h
    exact ⟨h.1, fun st hst => ⟨fun hin => (h.2 st hst).1 (hwaiting st hst hin), (h.2 st hst).2⟩⟩

lemma mem_waiting_of_depart (hqueue : ∀ e, e ∈ w'.queue ↔ e ∈ w.queue ∨ e = .departed id)
    (h : st ∈ waiting w'.queue) : st ∈ waiting w.queue := by
  obtain ⟨r, hr⟩ := mem_waiting.mp h
  rcases (hqueue _).mp hr with hr | heq
  · exact mem_waiting.mpr ⟨r, hr⟩
  · cases heq

/-- **A watcher sends its event.** -/
lemma Tended.depart (h : Tended w streams) (hstate : w'.state = w.state) (hlog : w'.log = w.log)
    (hnext : w'.nextStream = w.nextStream)
    (hqueue : ∀ e, e ∈ w'.queue ↔ e ∈ w.queue ∨ e = .departed id) (hid : id < w.state.nextId)
    (hlost : ∀ rec, w.state.conns.lookup id = some rec → Lost w streams rec.stream) :
    Tended w' streams where
  minded a ha := (h.minded a ha).queue hstate hlog (fun e he => (hqueue e).mpr (Or.inl he))
    fun st _ => mem_waiting_of_depart hqueue
  own := h.own
  known a ha st hst := hnext ▸ h.known a ha st hst
  held st r hin := by
    rcases (hqueue _).mp hin with hin | heq
    · exact h.held st r hin
    · cases heq
  watched id' rec hlook := h.watched id' rec (hstate ▸ hlook)
  leaving id' hin := by
    unfold Lost
    rw [hstate, hlog]
    rcases (hqueue _).mp hin with hin | heq
    · exact h.leaving id' hin
    · rw [Event.departed.inj heq]
      exact ⟨hid, hlost⟩

/-- **A reader sends its event.** -/
lemma Tended.register (h : Tended w streams) (ha : streams[i]? = some a) {fut : ReadMessage}
    (htask : a.task = .registration fut) {r : Register} (hr : a.register = some r)
    (hgot : a'.got = a.got) (hst : a'.stream = some w.nextStream) (hheld : a'.task = .held)
    (hstate : w'.state = w.state) (hlog : w'.log = w.log) (hnext : w'.nextStream = w.nextStream + 1)
    (hqueue : ∀ e, e ∈ w'.queue ↔ e ∈ w.queue ∨ e = .registered w.nextStream r) :
    Tended w' (streams.set i a') := by
  have hnone : a.stream = none := by
    have hm := h.minded a (List.mem_of_getElem? ha)
    unfold Accepted.Minded at hm
    rw [htask] at hm
    exact hm.1
  have hold : ∀ {P : Accepted → Prop}, (∀ b, P b → b ≠ a) → (∃ b ∈ streams, P b) →
      ∃ b ∈ streams.set i a', P b := fun hP h =>
    exists_mem_set ha (fun hPa => absurd rfl (hP a hPa)) h
  have hr' : a'.register = some r := by
    rw [Accepted.register, hgot]
    exact hr
  have hfresh : ∀ {j : ℕ} {b : Accepted}, streams[j]? = some b → b.stream ≠ some w.nextStream :=
    fun hb heq => absurd (h.known _ (List.mem_of_getElem? hb) _ heq).1 (lt_irrefl _)
  have hwaiting : ∀ {b : Accepted} {st : StreamId}, b ∈ streams → b.stream = some st →
      st ∈ waiting w'.queue → st ∈ waiting w.queue := by
    intro b st hb hbst hin
    obtain ⟨r', hr'⟩ := mem_waiting.mp hin
    rcases (hqueue _).mp hr' with hr' | heq
    · exact mem_waiting.mpr ⟨r', hr'⟩
    · obtain ⟨j, hj⟩ := List.mem_iff_getElem?.mp hb
      rw [(Event.registered.inj heq).1] at hbst
      exact absurd hbst (hfresh hj)
  refine ⟨fun b hb => ?_, fun j k b c st hb hc hbst hcst => ?_, fun b hb st hbst => ?_,
    fun st r' hin => ?_, fun id rec hlook => ?_, fun id hin => ?_⟩
  · rcases mem_set_cases hb with rfl | hb
    · unfold Accepted.Minded
      rw [hheld]
      exact ⟨w.nextStream, r, hst, hr', (hqueue _).mpr (Or.inr rfl)⟩
    · exact (h.minded b hb).queue hstate hlog (fun e he => (hqueue e).mpr (Or.inl he))
        fun st hbst => hwaiting hb hbst
  · rcases getElem?_set_cases hb with ⟨rfl, rfl⟩ | ⟨hj, hb'⟩ <;>
      rcases getElem?_set_cases hc with ⟨rfl, rfl⟩ | ⟨hk, hc'⟩
    · rfl
    · exact absurd (hcst.trans (hbst.symm.trans hst)) (hfresh hc')
    · exact absurd (hbst.trans (hcst.symm.trans hst)) (hfresh hb')
    · exact h.own _ _ _ _ st hb' hc' hbst hcst
  · rw [hnext]
    rcases mem_set_cases hb with rfl | hb
    · rw [← Option.some.inj (hst.symm.trans hbst)]
      exact ⟨Nat.lt_succ_self _, r, hr'⟩
    · obtain ⟨hlt, hreg⟩ := h.known b hb st hbst
      exact ⟨Nat.lt_succ_of_lt hlt, hreg⟩
  · rcases (hqueue _).mp hin with hin | heq
    · refine hold (fun b hb heq => ?_) (h.held st r' hin)
      rw [heq, hnone] at hb
      cases hb.1
    · obtain ⟨rfl, rfl⟩ := Event.registered.inj heq
      exact ⟨a', mem_set_self ha, hst, hr', hheld⟩
  · rw [hstate] at hlook
    refine hold (fun b hb heq => ?_) (h.watched id rec hlook)
    rw [heq, hnone] at hb
    cases hb.1
  · rw [hstate]
    rcases (hqueue _).mp hin with hin | heq
    · refine ⟨(h.leaving id hin).1, fun rec hlook => ?_⟩
      unfold Lost
      rw [hlog]
      refine ((h.leaving id hin).2 rec hlook).imp_left (hold fun b hb heq => ?_)
      rw [heq, hnone] at hb
      cases hb.1
    · cases heq

end Steps

/-! ### A handler -/

section Handle

variable {w w' : World} {streams : List Accepted} {a : Accepted} {o : Outcomes} {e : Event}
  {st : StreamId} {id : ConnId} {rec : ConnRecord} {r : Register}

lemma handling_of_inv (hi : Inv w) (hh : Handled e (w.state.handleEvent o e) w w') :
    Handling w.state e (w.state.handleEvent o e) := by
  refine handling o hi.maps hi.streams fun st hst id rec hid heq => (hi.handled id rec hid).2 ?_
  rw [hh.waiting, heq]
  exact List.mem_append_left _ hst

lemma Handled.mem_queue (hh : Handled e (w.state.handleEvent o e) w w') {x : Event} :
    x ∈ w'.queue → x ∈ w.queue ∨ ∃ id, x = .departed id ∧ .send id ∈ (w.state.handleEvent o e).2 := by
  obtain ⟨rest, hqueue, hqueue'⟩ := hh.queue
  rw [hqueue, hqueue', List.mem_append]
  rintro (hx | hx)
  · exact Or.inl (List.mem_cons_of_mem _ hx)
  · rw [sentEvents_eq] at hx
    obtain ⟨id, -, rfl⟩ := List.mem_map.mp hx
    rw [← sentEvents_eq] at hx
    exact Or.inr ⟨id, rfl, departed_mem_sentEvents.mp hx⟩

lemma Handled.mem_queue_of_ne (hh : Handled e (w.state.handleEvent o e) w w') {x : Event}
    (hx : x ∈ w.queue) (hne : x ≠ e) : x ∈ w'.queue := by
  obtain ⟨rest, hqueue, hqueue'⟩ := hh.queue
  rw [hqueue] at hx
  rw [hqueue']
  exact List.mem_append_left _ ((List.mem_cons.mp hx).resolve_left hne)

/-- The stream of a connection that stays is left alone. -/
lemma after_of_conn (hi : Inv w) (hh : Handled e (w.state.handleEvent o e) w w')
    (hst : a.stream = some rec.stream) (hid : w.state.conns.lookup id = some rec)
    (hid' : w'.state.conns.lookup id = some rec) : a.after (w.state.handleEvent o e).2 = a := by
  have hr := handling_of_inv hi hh
  rw [hh.state] at hid'
  refine after_eq_self (fun st hst' hdrop => ?_) fun st hst' _ id' hwatch => ?_
  · obtain rfl := Option.some.inj (hst.symm.trans hst')
    exact ((hr.drops _).mp hdrop).2 id rec hid' rfl
  · obtain rfl := Option.some.inj (hst.symm.trans hst')
    obtain ⟨rfl, rec', hlook, heq⟩ := (watch_mem_handleEvent hi.maps).mp hwatch
    obtain rfl := hr.streams _ rec' id rec hlook hid' heq
    exact absurd (hi.maps.fresh _ rec hid) (lt_irrefl _)

/-- The stream of an event that is not handled yet is left alone. -/
lemma after_of_waiting (hi : Inv w) (hh : Handled e (w.state.handleEvent o e) w w')
    (hst : a.stream = some st) (hin : st ∈ waiting w'.queue) :
    a.after (w.state.handleEvent o e).2 = a := by
  have hr := handling_of_inv hi hh
  have hnot : st ∉ waiting [e] := fun hin' => (hh.apart hi hin').2 hin
  have hold : ∀ id rec, w.state.conns.lookup id = some rec → rec.stream ≠ st := by
    rintro id rec hid rfl
    refine (hi.handled id rec hid).2 ?_
    rw [hh.waiting]
    exact List.mem_append_right _ hin
  refine after_eq_self (fun st' hst' hdrop => ?_) fun st' hst' _ id' hwatch => ?_
  · obtain rfl := Option.some.inj (hst.symm.trans hst')
    rcases ((hr.drops _).mp hdrop).1 with hin' | ⟨id, rec, hid, heq⟩
    · exact hnot hin'
    · exact hold id rec hid heq
  · obtain rfl := Option.some.inj (hst.symm.trans hst')
    obtain ⟨-, rec, hlook, heq⟩ := (watch_mem_handleEvent hi.maps).mp hwatch
    rcases hr.conns id' rec hlook with ⟨hid, -, -⟩ | ⟨he, -⟩
    · exact hold id' rec hid heq
    · exact hnot (heq ▸ mem_waiting_of_eq he)

/-- What was not heard before a handler is not heard after it. -/
lemma Handled.not_heard (hi : Inv w) (hh : Handled e (w.state.handleEvent o e) w w')
    (hlt : st < w.nextStream) (hnot : st ∉ Supervisor.waiting w.queue) (h : ¬ Heard (writesOn st w.log)) :
    ¬ Heard (writesOn st w'.log) := by
  rw [hh.writes]
  exact not_heard_append h (hi.form st hlt hnot).ne_nil

/-- **A stream that was held** is dropped, or gets a watcher. -/
lemma minded_of_held (hi : Inv w)
    (hh : Handled e (w.state.handleEvent o e) w w') (hst : a.stream = some st)
    (hreg : a.register = some r) (hheld : a.task = .held) (he : e = .registered st r) :
    (a.after (w.state.handleEvent o e).2).Minded w' := by
  have hr := handling_of_inv hi hh
  have hin : st ∈ waiting [e] := mem_waiting_of_eq he
  by_cases hex : ∃ id rec, w'.state.conns.lookup id = some rec ∧ rec.stream = st
  · obtain ⟨id, rec, hid, heq⟩ := hex
    have hid₀ := hid
    rw [hh.state] at hid
    have hnew : id = w.state.nextId ∧ rec = ⟨r.slug, r.group, st⟩ := by
      rcases conns_handleEvent hid with hbefore | ⟨hnew, st', r', he', hrec⟩
      · refine absurd ?_ (hi.handled id rec hbefore).2
        rw [hh.waiting, heq]
        exact List.mem_append_left _ hin
      · rw [he] at he'
        obtain ⟨rfl, rfl⟩ := Event.registered.inj he'
        exact ⟨hnew, hrec⟩
    have hwatch : .watch st id ∈ (w.state.handleEvent o e).2 :=
      (watch_mem_handleEvent hi.maps).mpr ⟨hnew.1, rec, hid, heq⟩
    have hafter := after_of_watch hst hheld hwatch
      (fun id' hin' => ((watch_mem_handleEvent hi.maps).mp hin').1.trans hnew.1.symm)
      fun hdrop => ((hr.drops _).mp hdrop).2 id rec hid heq
    rw [hafter]
    exact ⟨st, r, hst, hreg, hnew.2 ▸ hid₀⟩
  · have hnone : ∀ id rec, (w.state.handleEvent o e).1.conns.lookup id = some rec → rec.stream ≠ st :=
      fun id rec hid heq => hex ⟨id, rec, hh.state ▸ hid, heq⟩
    have hdrop : .drop st ∈ (w.state.handleEvent o e).2 := (hr.drops st).mpr ⟨Or.inl hin, hnone⟩
    unfold Accepted.Minded
    rw [after_of_drop hst hdrop]
    refine ⟨fun hnone => absurd (hnone.symm.trans (after_stream.trans hst)) (by simp), fun st' hst' => ?_⟩
    rw [after_stream] at hst'
    obtain rfl := Option.some.inj (hst.symm.trans hst')
    refine ⟨(hh.apart hi hin).2, Or.inr ?_⟩
    have hsilent : writesOn st w.log = [] :=
      hi.silent st (Or.inl (hh.waiting ▸ List.mem_append_left _ hin))
    obtain ⟨resp, ok, hwrites, hnack⟩ := (hr.response st hin).resolve_left fun ⟨id, rec, hid, heq⟩ =>
      hnone id rec hid heq
    rw [hh.writes, hsilent, List.nil_append, hwrites]
    rintro ⟨peers, ns, heq⟩
    obtain ⟨hresp, hok⟩ := Prod.ext_iff.mp (List.cons.inj heq).1
    obtain ⟨reason, rfl⟩ := hnack hok
    cases hresp

/-- **A stream that was watched** is so still, or its connection departed for a reason. -/
lemma minded_of_conn (hi : Inv w) (h : Tended w streams)
    (hh : Handled e (w.state.handleEvent o e) w w') (ha : a ∈ streams) (hconn : a.IsConn w id)
    (htask : a.task = .watcher id ∨ a.task = .ended id) :
    (a.after (w.state.handleEvent o e).2).Minded w' := by
  obtain ⟨st, r, hst, hreg, hid⟩ := hconn
  have hr := handling_of_inv hi hh
  by_cases he : e = .departed id
  · have hnone : ∀ id' rec, (w.state.handleEvent o e).1.conns.lookup id' = some rec →
        rec.stream ≠ st := by
      intro id' rec hid' heq
      rcases hr.conns id' rec hid' with ⟨hbefore, hne, -⟩ | ⟨he', -⟩
      · obtain rfl := hi.streams id' rec id _ hbefore hid heq
        exact hne he
      · rw [he] at he'
        cases he'
    have hdrop : .drop st ∈ (w.state.handleEvent o e).2 :=
      (hr.drops st).mpr ⟨Or.inr ⟨id, _, hid, rfl⟩, hnone⟩
    have hqueued : .departed id ∈ w.queue := by
      obtain ⟨rest, hqueue, -⟩ := hh.queue
      rw [hqueue, he]
      exact List.mem_cons_self
    have hhandled := hi.handled id _ hid
    unfold Accepted.Minded
    rw [after_of_drop hst hdrop]
    refine ⟨fun hnone => absurd (hnone.symm.trans (after_stream.trans hst)) (by simp), fun st' hst' => ?_⟩
    rw [after_stream] at hst'
    obtain rfl := Option.some.inj (hst.symm.trans hst')
    refine ⟨fun hin => hhandled.2 ?_, ?_⟩
    · rw [hh.waiting]
      exact List.mem_append_right _ hin
    · rw [after_src]
      rcases (h.leaving id hqueued).2 _ hid with ⟨b, hb, hbst, hend⟩ | hlost
      · exact Or.inl (h.eq_of_stream hb ha hbst hst ▸ hend)
      · exact Or.inr (hh.not_heard hi hhandled.1 hhandled.2 hlost)
  · have hid' : w'.state.conns.lookup id = some ⟨r.slug, r.group, st⟩ := by
      rw [hh.state]
      exact lookup_handleEvent_of_ne hi.maps hid he
    rw [after_of_conn hi hh hst hid hid']
    have hm := h.minded a ha
    unfold Accepted.Minded at hm ⊢
    rcases htask with htask | htask
    · rw [htask]
      exact ⟨st, r, hst, hreg, hid'⟩
    · rw [htask] at hm ⊢
      exact ⟨⟨st, r, hst, hreg, hid'⟩, hm.2.1, hh.mem_queue_of_ne hm.2.2 (Ne.symm he)⟩

/-- What a task is about after a handler. -/
lemma minded_after (hi : Inv w) (h : Tended w streams)
    (hh : Handled e (w.state.handleEvent o e) w w') (ha : a ∈ streams) :
    (a.after (w.state.handleEvent o e).2).Minded w' := by
  have hm := h.minded a ha
  unfold Accepted.Minded at hm
  cases htask : a.task with
  | registration fut =>
    rw [htask] at hm
    have hafter : a.after (w.state.handleEvent o e).2 = a :=
      after_eq_self (fun st hst => by simp [hm.1] at hst) fun st hst => by simp [hm.1] at hst
    unfold Accepted.Minded
    rw [hafter, htask]
    exact hm
  | held =>
    rw [htask] at hm
    obtain ⟨st, r, hst, hreg, hin⟩ := hm
    by_cases he : e = .registered st r
    · exact minded_of_held hi hh hst hreg htask he
    · have hin' := hh.mem_queue_of_ne hin (Ne.symm he)
      rw [after_of_waiting hi hh hst (mem_waiting.mpr ⟨r, hin'⟩)]
      unfold Accepted.Minded
      rw [htask]
      exact ⟨st, r, hst, hreg, hin'⟩
  | watcher id =>
    rw [htask] at hm
    exact minded_of_conn hi h hh ha hm (Or.inl htask)
  | ended id =>
    rw [htask] at hm
    exact minded_of_conn hi h hh ha hm.1 (Or.inr htask)
  | dropped =>
    rw [htask] at hm
    rw [after_of_dropped htask]
    unfold Accepted.Minded
    rw [htask]
    refine ⟨hm.1, fun st hst => ?_⟩
    obtain ⟨hnot, hreason⟩ := hm.2 st hst
    refine ⟨fun hin => hnot ?_, hreason.imp_right (hh.not_heard hi (h.known a ha st hst).1 hnot)⟩
    rw [hh.waiting]
    exact List.mem_append_right _ hin

lemma Lost.after (hi : Inv w) (hh : Handled e (w.state.handleEvent o e) w w')
    (hid : w.state.conns.lookup id = some rec) (h : Lost w streams rec.stream) :
    Lost w' (streams.map (Accepted.after (w.state.handleEvent o e).2)) rec.stream := by
  rcases h with ⟨b, hb, hst, hend⟩ | h
  · exact Or.inl ⟨_, List.mem_map_of_mem hb, by rw [after_stream, hst], by rwa [after_src]⟩
  · obtain ⟨hlt, hnot⟩ := hi.handled id rec hid
    exact Or.inr (hh.not_heard hi hlt hnot h)

/-- **A handler** keeps the invariant. -/
theorem tended_handled (hi : Inv w) (h : Tended w streams)
    (hh : Handled e (w.state.handleEvent o e) w w') :
    Tended w' (streams.map (Accepted.after (w.state.handleEvent o e).2)) := by
  have hr := handling_of_inv hi hh
  have hindex : ∀ {j : ℕ} {b : Accepted},
      (streams.map (Accepted.after (w.state.handleEvent o e).2))[j]? = some b →
      ∃ b₀, streams[j]? = some b₀ ∧ b = b₀.after (w.state.handleEvent o e).2 := by
    intro j b hb
    rw [List.getElem?_map] at hb
    obtain ⟨b₀, hb₀, rfl⟩ := Option.map_eq_some_iff.mp hb
    exact ⟨b₀, hb₀, rfl⟩
  refine ⟨fun b hb => ?_, fun j k b c st hb hc hbst hcst => ?_, fun b hb st hst => ?_,
    fun st r hin => ?_, fun id rec hid => ?_, fun id hin => ?_⟩
  · obtain ⟨a, ha, rfl⟩ := List.mem_map.mp hb
    exact minded_after hi h hh ha
  · obtain ⟨b₀, hb₀, rfl⟩ := hindex hb
    obtain ⟨c₀, hc₀, rfl⟩ := hindex hc
    rw [after_stream] at hbst hcst
    exact h.own j k b₀ c₀ st hb₀ hc₀ hbst hcst
  · obtain ⟨a, ha, rfl⟩ := List.mem_map.mp hb
    rw [after_stream] at hst
    rw [hh.next, Accepted.register, after_got]
    exact h.known a ha st hst
  · rcases hh.mem_queue hin with hin₀ | ⟨id, heq, -⟩
    · obtain ⟨a, ha, hst, hreg, hheld⟩ := h.held st r hin₀
      refine ⟨_, List.mem_map_of_mem ha, ?_⟩
      rw [after_of_waiting hi hh hst (mem_waiting.mpr ⟨r, hin⟩)]
      exact ⟨hst, hreg, hheld⟩
    · cases heq
  · have hid' := hid
    rw [hh.state] at hid
    rcases hr.conns id rec hid with ⟨hbefore, -, -⟩ | ⟨he, -⟩
    · obtain ⟨a, ha, hst, htask⟩ := h.watched id rec hbefore
      refine ⟨_, List.mem_map_of_mem ha, ?_⟩
      rw [after_of_conn hi hh hst hbefore hid']
      exact ⟨hst, htask⟩
    · have hqueued : .registered rec.stream ⟨rec.slug, rec.group⟩ ∈ w.queue := by
        obtain ⟨rest, hqueue, -⟩ := hh.queue
        rw [hqueue, he]
        exact List.mem_cons_self
      obtain ⟨a, ha, hst, -, hheld⟩ := h.held _ _ hqueued
      have hnew : id = w.state.nextId := by
        rcases conns_handleEvent hid with hbefore | ⟨hnew, -⟩
        · exact absurd (mem_waiting.mpr ⟨_, hqueued⟩) (hi.handled id rec hbefore).2
        · exact hnew
      have hwatch : .watch rec.stream id ∈ (w.state.handleEvent o e).2 :=
        (watch_mem_handleEvent hi.maps).mpr ⟨hnew, rec, hid, rfl⟩
      have hafter := after_of_watch hst hheld hwatch
        (fun id' hin' => ((watch_mem_handleEvent hi.maps).mp hin').1.trans hnew.symm)
        fun hdrop => ((hr.drops _).mp hdrop).2 id rec hid rfl
      exact ⟨_, List.mem_map_of_mem ha, by rw [after_stream, hst], Or.inl (by rw [hafter])⟩
  · have hle := nextId_le_handleEvent o w.state e
    rw [hh.state]
    rcases hh.mem_queue hin with hin₀ | ⟨id', heq, hsend⟩
    · obtain ⟨hlt, hlost⟩ := h.leaving id hin₀
      refine ⟨lt_of_lt_of_le hlt hle, fun rec hid => ?_⟩
      rcases conns_handleEvent hid with hbefore | ⟨hnew, -⟩
      · exact (hlost rec hbefore).after hi hh hbefore
      · exact absurd hnew hlt.ne
    · obtain rfl := Event.departed.inj heq
      obtain ⟨rec₀, n, hbefore, hne, hwrite⟩ := exists_write_of_send hi.maps hsend
      refine ⟨lt_of_lt_of_le (hi.maps.fresh id rec₀ hbefore) hle, fun rec hid => Or.inr fun hheard => ?_⟩
      rw [lookup_handleEvent_of_ne hi.maps hbefore hne] at hid
      obtain rfl := Option.some.inj hid
      rw [hh.writes] at hheard
      exact absurd (hheard.true_of_mem (List.mem_append_right _ (mem_writesOn.mpr hwrite))) (by simp)

end Handle

/-! ### The runs -/

section Run

variable {f f' : Running} {baseDir : Path} {as : List Running.Action} {a : Accepted} {i : ℕ}
  {st : StreamId} {id : ConnId}

lemma SameLoop.inv {w v : World} (h : SameLoop w v) (hi : Inv w) : Inv v := by
  obtain ⟨hstate, hqueue, hnext, hlog⟩ := h
  obtain ⟨maps, streams, handled, lt, nodup, silent, form, view, doomed⟩ := hi
  rw [hstate] at maps streams handled view doomed
  rw [hqueue] at handled lt nodup silent form doomed
  rw [hnext] at handled lt silent form
  rw [hlog] at silent form view doomed
  exact ⟨maps, streams, handled, lt, nodup, silent, form, view, doomed⟩

/-- What holds of the event loop holds of the supervisor. -/
lemma Reached.inv (h : Reached baseDir f) : Inv f.world := by
  obtain ⟨bs, w, hrun, hsame⟩ := h.exists_sameLoop
  exact hsame.inv (exec_inv (fun _ _ _ h hs => inv_step h hs) (inv_init baseDir) hrun)

/-- The messages that the departures in the log are not. -/
@[simp] lemma writesOn_world : writesOn st f.world.log = writesOn st f.log := by
  have hsends : ∀ ids : List ConnId, writesOn st (ids.map .send) = [] := fun ids =>
    List.filterMap_eq_nil_iff.mpr fun x hx => by
      obtain ⟨id, -, rfl⟩ := List.mem_map.mp hx
      rfl
  show writesOn st (f.log ++ _) = _
  rw [writesOn_append, hsends, List.append_nil]

lemma mem_world_enqueue {x y : Event} {next : StreamId} {streams : List Accepted} :
    x ∈ ({ f with queue := f.queue ++ [y], nextStream := next, streams := streams } : Running).world.queue ↔
      x ∈ f.world.queue ∨ x = y := by
  show x ∈ f.queue ++ [y] ++ _ ↔ x ∈ f.queue ++ _ ∨ x = y
  simp only [Running.unsent, List.mem_append, List.mem_singleton]
  tauto

/-- What a reader that comes to a result says of the bytes of its stream. -/
lemma register_of_poll {fut : ReadMessage} {src : Source} {r : Register} (hw : fut.Waiting)
    (hgot : a.got = fut.bytes ++ a.src.buf)
    (hpoll : poll Postcard.register fut a.src = .ready (.ok r) src) : a.register = some r := by
  obtain ⟨-, ending, hr, -⟩ := Streams.poll_ready_outcome hw hpoll
  rw [← hgot] at hr
  exact Streams.outcome_eq_ok.mp hr.symm

lemma register_of_poll_error {fut : ReadMessage} {src : Source} {e : Error} (hw : fut.Waiting)
    (hgot : a.got = fut.bytes ++ a.src.buf)
    (hpoll : poll Postcard.register fut a.src = .ready (.error e) src) : a.register = none := by
  obtain ⟨-, ending, hr, -⟩ := Streams.poll_ready_outcome hw hpoll
  rw [← hgot] at hr
  cases hreg : a.register with
  | none => rfl
  | some r =>
    rw [Streams.outcome_eq_ok.mpr hreg] at hr
    cases hr

lemma register_of_poll_pending {fut fut' : ReadMessage} {src : Source} (hw : fut.Waiting)
    (hgot : a.got = fut.bytes ++ a.src.buf)
    (hpoll : poll Postcard.register fut a.src = .pending fut' src) : a.register = none := by
  have hhead := Streams.head_of_poll_pending hw hpoll
  rw [← hgot] at hhead
  unfold Accepted.register first
  rcases hhead with hhead | hhead <;> rw [hhead]

/-- **Bytes arrive.** -/
lemma tended_arrive (h : Tended f.world f.streams) (ha : f.streams[i]? = some a)
    (hopen : a.src.ending = none) (hkept : a.task ≠ .dropped) (bs : Bytes) :
    Tended f.world (f.streams.set i { a with got := a.got ++ bs, src := ⟨a.src.buf ++ bs, none⟩ }) := by
  refine h.set ha rfl (fun hend => absurd hopen hend) (fun r hr => first_append hr bs) id
    (fun _ => id) ?_
  have hm := h.minded a (List.mem_of_getElem? ha)
  unfold Accepted.Minded Accepted.IsConn at hm ⊢
  cases htask : a.task with
  | registration fut =>
    rw [htask] at hm
    exact ⟨hm.1, hm.2.1, by rw [hm.2.2, List.append_assoc]⟩
  | held =>
    rw [htask] at hm
    obtain ⟨st, r, hst, hr, hin⟩ := hm
    exact ⟨st, r, hst, first_append hr bs, hin⟩
  | watcher id =>
    rw [htask] at hm
    obtain ⟨st, r, hst, hr, hid⟩ := hm
    exact ⟨st, r, hst, first_append hr bs, hid⟩
  | ended id =>
    rw [htask] at hm
    exact absurd hopen hm.2.1
  | dropped => exact absurd htask hkept

/-- **A stream comes to its end.** -/
lemma tended_close (h : Tended f.world f.streams) (ha : f.streams[i]? = some a)
    (hopen : a.src.ending = none) (kind : IoErrorKind) :
    Tended f.world (f.streams.set i { a with src := ⟨a.src.buf, some kind⟩ }) := by
  refine h.set ha rfl (fun _ => by simp) (fun r hr => hr) id (fun _ => id) ?_
  have hm := h.minded a (List.mem_of_getElem? ha)
  unfold Accepted.Minded Accepted.IsConn at hm ⊢
  cases htask : a.task with
  | registration fut | held | watcher id =>
    rw [htask] at hm
    exact hm
  | ended id =>
    rw [htask] at hm
    exact absurd hopen hm.2.1
  | dropped =>
    rw [htask] at hm
    exact ⟨hm.1, fun st hst => ⟨(hm.2 st hst).1, Or.inl (by simp)⟩⟩

/-- What the task of a registration is about. -/
lemma Tended.registration (h : Tended f.world f.streams) (ha : f.streams[i]? = some a)
    {fut : ReadMessage} (htask : a.task = .registration fut) :
    a.stream = none ∧ fut.Waiting ∧ a.got = fut.bytes ++ a.src.buf := by
  have hm := h.minded a (List.mem_of_getElem? ha)
  unfold Accepted.Minded at hm
  rwa [htask] at hm

/-- What the watcher of a connection is about. -/
lemma Tended.watcher (h : Tended f.world f.streams) (ha : f.streams[i]? = some a)
    (htask : a.task = .watcher id) : a.IsConn f.world id := by
  have hm := h.minded a (List.mem_of_getElem? ha)
  unfold Accepted.Minded at hm
  rwa [htask] at hm

/-- **A registration reader waits.** -/
lemma tended_waits (h : Tended f.world f.streams) (ha : f.streams[i]? = some a)
    {fut fut' : ReadMessage} {src : Source} (htask : a.task = .registration fut)
    (hpoll : poll Postcard.register fut a.src = .pending fut' src) :
    Tended f.world (f.streams.set i { a with src := src, task := .registration fut' }) := by
  obtain ⟨hnone, hw, hgot⟩ := h.registration ha htask
  obtain ⟨rfl, hw', hbytes⟩ := poll_pending_bytes hw hpoll
  refine h.set ha rfl (fun hend => absurd (ending_of_poll_pending hpoll) hend) (fun r hr => hr)
    (fun hheld => by simp [htask] at hheld) (fun id hid => by simp [htask] at hid) ?_
  exact ⟨hnone, hw', by rw [List.append_nil, hbytes, hgot]⟩

/-- **A registration reader fails**, and drops its stream. -/
lemma tended_fails (h : Tended f.world f.streams) (ha : f.streams[i]? = some a) {fut : ReadMessage}
    {src : Source} {e : Error} (htask : a.task = .registration fut)
    (hpoll : poll Postcard.register fut a.src = .ready (.error e) src) :
    Tended f.world (f.streams.set i { a with src := src, task := .dropped }) := by
  obtain ⟨hnone, hw, hgot⟩ := h.registration ha htask
  have hend := Streams.ending_of_poll_ready hpoll
  refine h.set ha rfl (fun hne => by rwa [hend]) (fun r hr => hr)
    (fun hheld => by simp [htask] at hheld) (fun id hid => by simp [htask] at hid) ?_
  refine ⟨fun _ => register_of_poll_error (a := a) hw hgot hpoll, fun st hst => ?_⟩
  rw [show a.stream = some st from hst] at hnone
  cases hnone

/-- **A watcher sees the end** of its stream. -/
lemma tended_ends (hi : Inv f.world) (h : Tended f.world f.streams) (ha : f.streams[i]? = some a)
    (htask : a.task = .watcher id) (hend : a.src.ending ≠ none) :
    Tended ({ f with
      streams := f.streams.set i { a with task := .ended id }
      queue := f.queue ++ [.departed id] } : Running).world
      (f.streams.set i { a with task := .ended id }) := by
  obtain ⟨st, r, hst, hr, hid⟩ := h.watcher ha htask
  have hlater : Tended ({ f with
      streams := f.streams.set i { a with task := .ended id }
      queue := f.queue ++ [.departed id] } : Running).world f.streams := by
    refine h.depart rfl rfl rfl (fun x => mem_world_enqueue) (hi.maps.fresh id _ hid)
      fun rec hid' => Or.inl ⟨a, List.mem_of_getElem? ha, ?_, hend⟩
    rw [hid] at hid'
    rw [hst, ← Option.some.inj hid']
  refine hlater.set ha rfl (fun hne => hne) (fun r hr => hr) (fun hheld => by simp [htask] at hheld)
    (fun id' hid' => ?_) ?_
  · rcases hid' with hid' | hid'
    · rw [htask] at hid'
      exact Or.inr (congrArg StreamTask.ended (StreamTask.watcher.inj hid'))
    · rw [htask] at hid'
      cases hid'
  · exact ⟨⟨st, r, hst, hr, hid⟩, hend, mem_world_enqueue.mpr (Or.inr rfl)⟩

/-- **A watcher ignores** what the stream sends. -/
lemma tended_ignores (h : Tended f.world f.streams) (ha : f.streams[i]? = some a)
    (htask : a.task = .watcher id) (buf : Bytes) :
    Tended f.world (f.streams.set i { a with src := ⟨buf, a.src.ending⟩ }) := by
  refine h.set ha rfl (fun hend => hend) (fun r hr => hr) (fun hheld => hheld) (fun _ h => h) ?_
  have hconn := h.watcher ha htask
  unfold Accepted.Minded
  simp only [htask]
  exact hconn

/-- **A handler** does what it does but for its departures. -/
lemma tended_handle (hi : Inv f.world) (h : Tended f.world f.streams) (o : Outcomes) {e : Event}
    {queue : List Event} (hsending : f.sending = none) (hqueue : f.queue = e :: queue) :
    Tended ({ f with
      state := (f.state.handleEvent o e).1
      queue := queue
      log := f.log ++ (f.state.handleEvent o e).2.filter fun x => !x.isSend
      streams := f.streams.map (Accepted.after (f.state.handleEvent o e).2)
      sending := some (sentIds (f.state.handleEvent o e).2) } : Running).world
      (f.streams.map (Accepted.after (f.state.handleEvent o e).2)) := by
  refine tended_handled hi h ⟨⟨queue, ?_, ?_⟩, rfl, rfl, ?_⟩
  · show f.queue ++ _ = _
    rw [hqueue, Running.unsent, hsending, Option.getD_none, List.map_nil, List.append_nil]
  · show queue ++ _ = _
    rw [sentEvents_eq]
    rfl
  · show f.log ++ _ ++ _ = f.log ++ _ ++ _
    rw [Running.unsent, Running.unsent, hsending, Option.getD_none, List.map_nil, List.append_nil,
      List.append_assoc, Option.getD_some, ← handleEvent_sends_last]
    rfl

/-- **One step** keeps the invariant. -/
theorem tended_step {x : Running.Action} (hi : Inv f.world) (h : Tended f.world f.streams)
    (hstep : Running.step f x = some f') : Tended f'.world f'.streams := by
  cases Running.stepped_of_step hstep with
  | accept hsending => exact h.accept
  | arrive i bs a ha hopen hkept => exact tended_arrive h ha hopen hkept bs
  | close i kind a ha hopen => exact tended_close h ha hopen kind
  | idle i a ha hreg hwatch => exact h
  | waits i a fut fut' src ha htask hpoll => exact tended_waits h ha htask hpoll
  | fails i a fut src e ha htask hpoll => exact tended_fails h ha htask hpoll
  | registers i a fut src r ha htask hpoll =>
    obtain ⟨-, hw, hgot⟩ := h.registration ha htask
    exact h.register ha htask (register_of_poll hw hgot hpoll) rfl rfl rfl rfl rfl rfl
      fun x => mem_world_enqueue
  | ends i a id ha htask hbuf hend => exact tended_ends hi h ha htask hend
  | ignores i a id ha htask => exact tended_ignores h ha htask _
  | handle o e queue hsending hqueue => exact tended_handle hi h o hsending hqueue
  | send ids hids =>
    have hworld : ({ f with
        queue := f.queue ++ ids.map .departed
        log := f.log ++ ids.map .send
        sending := none } : Running).world = f.world := by
      simp [Running.world, Running.unsent, hids]
    rw [hworld]
    exact h

/-- **The streams are tended** in every run. -/
theorem tended_of_run (h : exec Running.step (Running.init baseDir) as = some f) :
    Inv f.world ∧ Tended f.world f.streams := by
  have hinv : Reached baseDir f ∧ Tended f.world f.streams :=
    exec_inv (I := fun f => Reached baseDir f ∧ Tended f.world f.streams)
      (fun _ _ _ hf hstep => ⟨reached_step hf.1 hstep, tended_step hf.1.inv hf.2 hstep⟩)
      ⟨reached_init baseDir, tended_init baseDir⟩ h
  exact ⟨hinv.1.inv, hinv.2⟩

end Run

/-! ### What the maps hold -/

/-- Nothing can go on: no event is left, and no task has anything to do. -/
def Running.Quiet (f : Running) : Prop :=
  f.sending = none ∧ f.queue = [] ∧ ∀ i f', Running.step f (.poll i) = some f' → f' = f

section Maps

variable {f : Running} {a : Accepted} {st : StreamId} {r : Register}

/-- A stream that is open and was told everything is in the maps, or waits to be. -/
lemma conn_of_heard (hi : Inv f.world) (h : Tended f.world f.streams) (ha : a ∈ f.streams)
    (hopen : a.src.ending = none) (hst : a.stream = some st) (hheard : Heard (writesOn st f.log)) :
    ∃ id r, a.register = some r ∧ f.state.conns.lookup id = some ⟨r.slug, r.group, st⟩ := by
  rw [← writesOn_world] at hheard
  have hm := h.minded a ha
  unfold Accepted.Minded Accepted.IsConn at hm
  cases htask : a.task with
  | registration fut =>
    rw [htask] at hm
    rw [hm.1] at hst
    cases hst
  | held =>
    rw [htask] at hm
    obtain ⟨st', r, hst', -, hin⟩ := hm
    obtain rfl := Option.some.inj (hst.symm.trans hst')
    rw [hi.silent st (Or.inl (mem_waiting.mpr ⟨r, hin⟩))] at hheard
    exact absurd hheard not_heard_nil
  | watcher id =>
    rw [htask] at hm
    obtain ⟨st', r, hst', hr, hid⟩ := hm
    obtain rfl := Option.some.inj (hst.symm.trans hst')
    exact ⟨id, r, hr, hid⟩
  | ended id =>
    rw [htask] at hm
    exact absurd hopen hm.2.1
  | dropped =>
    rw [htask] at hm
    rcases (hm.2 st hst).2 with hend | hlost
    · exact absurd hopen hend
    · exact absurd hheard hlost

lemma isConn_of_task {w : World} {id : ConnId} (h : a.Minded w)
    (htask : a.task = .watcher id ∨ a.task = .ended id) : a.IsConn w id := by
  unfold Accepted.Minded at h
  rcases htask with htask | htask
  · rw [htask] at h
    exact h
  · rw [htask] at h
    exact h.1

/-- The stream of a connection, when nothing can go on. -/
lemma exists_stream_of_quiet (h : Tended f.world f.streams) (hq : f.Quiet)
    {id : ConnId} {rec : ConnRecord} (hid : f.state.conns.lookup id = some rec) :
    ∃ a ∈ f.streams, a.src.ending = none ∧ a.register = some ⟨rec.slug, rec.group⟩ ∧
      a.stream = some rec.stream := by
  obtain ⟨hsending, hqueue, hpolls⟩ := hq
  have hempty : f.world.queue = [] := by
    show f.queue ++ _ = _
    rw [hqueue, Running.unsent, hsending]
    rfl
  obtain ⟨a, ha, hst, htask⟩ := h.watched id rec hid
  have hm := h.minded a ha
  unfold Accepted.Minded Accepted.IsConn at hm
  rcases htask with htask | htask
  · rw [htask] at hm
    obtain ⟨st, r, hst', hr, hid'⟩ := hm
    have hrec : rec = ⟨r.slug, r.group, st⟩ := Option.some.inj (hid.symm.trans hid')
    refine ⟨a, ha, ?_, by rw [hr, hrec], hst⟩
    by_contra hend
    obtain ⟨i, hi'⟩ := List.mem_iff_getElem?.mp ha
    have hstep : Running.step f (.poll i) = some (f.polled i a) := by rw [Running.step, hi']; rfl
    have hsame := hpolls i _ hstep
    rw [Running.polled, htask] at hsame
    simp only at hsame
    split at hsame
    · rename_i hnone
      exact hend hnone
    · -- the watcher would send its event
      have := congrArg Running.queue hsame
      simp at this
    · -- or read on
      rename_i b buf ending hbuf
      have hstreams := congrArg (fun g : Running => (g.streams[i]?).map fun x => x.src.buf.length) hsame
      obtain ⟨hlt, -⟩ := List.getElem?_eq_some_iff.mp hi'
      simp only [List.getElem?_set_self hlt, hi', Option.map_some, hbuf, Option.some.injEq,
        List.length_drop, List.length_cons] at hstreams
      omega
  · rw [htask, hempty] at hm
    exact absurd hm.2.2 List.not_mem_nil

/-- A stream that begins with a `Register` has been taken up, when nothing can go on. -/
lemma exists_stream_of_register (h : Tended f.world f.streams) (hq : f.Quiet) (ha : a ∈ f.streams)
    (hr : a.register = some r) : ∃ st, a.stream = some st := by
  cases hst : a.stream with
  | some st => exact ⟨st, rfl⟩
  | none =>
    have hm := h.minded a ha
    unfold Accepted.Minded Accepted.IsConn at hm
    cases htask : a.task with
    | registration fut =>
      rw [htask] at hm
      obtain ⟨-, hw, hgot⟩ := hm
      obtain ⟨i, hi⟩ := List.mem_iff_getElem?.mp ha
      have hstep : Running.step f (.poll i) = some (f.polled i a) := by rw [Running.step, hi]; rfl
      have hsame := hq.2.2 i _ hstep
      rw [Running.polled, htask] at hsame
      cases hpoll : poll Postcard.register fut a.src with
      | pending fut' src =>
        rw [register_of_poll_pending hw hgot hpoll] at hr
        cases hr
      | ready res src =>
        cases res with
        | error e =>
          rw [register_of_poll_error hw hgot hpoll] at hr
          cases hr
        | ok r' =>
          -- the reader would send its event
          simp only [hpoll] at hsame
          have hqueue := congrArg Running.queue hsame
          simp at hqueue
    | held => simp [htask, hst] at hm
    | watcher id => simp [htask, hst] at hm
    | ended id => simp [htask, hst] at hm
    | dropped =>
      rw [htask] at hm
      rw [hm.1 hst] at hr
      cases hr

/-- The maps of a supervisor are those of its streams. -/
structure MapsExact (f : Running) : Prop where
  /-- What registers is the first frame of a stream. -/
  registers : ∀ st r, .registered st r ∈ f.queue →
    ∃ a ∈ f.streams, a.stream = some st ∧ a.register = some r
  /-- So is what is registered. -/
  registered : ∀ id rec, f.state.conns.lookup id = some rec →
    ∃ a ∈ f.streams, a.stream = some rec.stream ∧ a.register = some ⟨rec.slug, rec.group⟩
  /-- A stream that is open and was told everything is in the maps. -/
  kept : ∀ a ∈ f.streams, ∀ st, a.src.ending = none → a.stream = some st →
    Heard (writesOn st f.log) →
    ∃ id r, a.register = some r ∧ f.state.conns.lookup id = some ⟨r.slug, r.group, st⟩
  /-- When nothing can go on, each stream that begins with a `Register` has had its response. -/
  answered : f.Quiet → ∀ a ∈ f.streams, ∀ r, a.register = some r →
    ∃ st, a.stream = some st ∧ Conversation (writesOn st f.log)
  /-- And the maps hold the streams that are open and were told everything. -/
  exact : f.Quiet → ∀ g slug, slug ∈ f.state.group g ↔ ∃ a ∈ f.streams, a.src.ending = none ∧
    a.register = some ⟨slug, g⟩ ∧ ∃ st, a.stream = some st ∧ Heard (writesOn st f.log)

/-- **The maps hold exactly the live streams**, in every run. -/
theorem maps_exact {baseDir : Path} {as : List Running.Action}
    (hrun : exec Running.step (Running.init baseDir) as = some f) : MapsExact f := by
  obtain ⟨hi, h⟩ := tended_of_run hrun
  have hqueue : f.Quiet → f.world.queue = [] := by
    rintro ⟨hsending, hqueue, -⟩
    show f.queue ++ _ = _
    rw [hqueue, Running.unsent, hsending]
    rfl
  refine ⟨fun st r hin => ?_, fun id rec hid => ?_,
    fun a ha st hopen hst hheard => conn_of_heard hi h ha hopen hst hheard, fun hq a ha r hr => ?_,
    fun hq g slug => ?_⟩
  · obtain ⟨a, ha, hst, hr, -⟩ := h.held st r (List.mem_append_left _ hin)
    exact ⟨a, ha, hst, hr⟩
  · obtain ⟨a, ha, hst, htask⟩ := h.watched id rec hid
    refine ⟨a, ha, hst, ?_⟩
    obtain ⟨st, r, hst', hr, hid'⟩ := isConn_of_task (h.minded a ha) htask
    rw [hr, Option.some.inj (hid.symm.trans hid')]
  · obtain ⟨st, hst⟩ := exists_stream_of_register h hq ha hr
    refine ⟨st, hst, ?_⟩
    have hform := hi.form st (h.known a ha st hst).1 (by rw [hqueue hq]; exact List.not_mem_nil)
    rwa [writesOn_world] at hform
  · have hgroup : slug ∈ f.state.group g ↔ ∃ id st, f.state.conns.lookup id = some ⟨slug, g, st⟩ :=
      hi.maps.mem_group
    constructor
    · intro hin
      obtain ⟨id, st, hid⟩ := hgroup.mp hin
      obtain ⟨a, ha, hopen, hr, hst⟩ := exists_stream_of_quiet h hq hid
      refine ⟨a, ha, hopen, hr, st, hst, ?_⟩
      have hagree := hi.viewsAgree
      obtain ⟨peers, ns, hws, -⟩ := hagree.view id _ hid (hagree.settled (hqueue hq) id _ hid)
      rw [writesOn_world] at hws
      exact ⟨peers, ns, hws⟩
    · rintro ⟨a, ha, hopen, hr, st, hst, hheard⟩
      obtain ⟨id, r, hr', hid⟩ := conn_of_heard hi h ha hopen hst hheard
      obtain rfl := Option.some.inj (hr.symm.trans hr')
      exact hgroup.mpr ⟨id, st, hid⟩

/-- After the two streams nothing can go on, and the first is in the maps. -/
theorem maps_exact_twoStreams : ∃ f, exec Running.step (Running.init ["run"]) twoStreams = some f ∧
    f.Quiet ∧ "a" ∈ f.state.group "g" ∧ MapsExact f := by
  have hrun : exec Running.step (Running.init ["run"]) twoStreams = some _ := rfl
  refine ⟨_, hrun, ⟨rfl, rfl, fun i f' h => ?_⟩, by decide, maps_exact hrun⟩
  rcases i with _ | _ | i
  · exact (Option.some.inj h).symm
  · exact (Option.some.inj h).symm
  · cases h

end Maps

end Crossbridge.Supervisor
