import Crossbridge.Supervisor.EventLoop

/-!
The maps of the supervisor over whole runs.

A run is a list of events, each with what the operating system decides while it is handled. The maps
stay `Consistent` (`consistent_handleEvents`), and the counter of ids only grows, so that an id that
was given out once is never given to another connection (`conn_of_issued`). The counter has 64 bits in
the source, which fewer than `2 ^ 64` registrations do not exhaust (`nextId_lt_two_pow`). A registration
that is turned away, by a `Nack` or because its `Ack` could not be written, leaves no trace.
-/

namespace Crossbridge.Supervisor

open Crossbridge.Protocol Crossbridge.Runs

/-- The maps after a list of events. -/
def State.handleEvents (s : State) (es : List (Outcomes × Event)) : State :=
  es.foldl (fun s e => (s.handleEvent e.1 e.2).1) s

/-- A registration ended with a `Nack`, or with an `Ack` that could not be written. -/
def TurnedAway (es : List Effect) : Prop :=
  ∃ st, (∃ reason ok, .write st (.registerResponse (.nack reason)) ok ∈ es) ∨
    ∃ peers, .write st (.registerResponse (.ack peers)) false ∈ es

section Runs

variable {s : State}

lemma handleEvents_append (es fs : List (Outcomes × Event)) :
    s.handleEvents (es ++ fs) = (s.handleEvents es).handleEvents fs := List.foldl_append ..

/-- **The maps stay consistent**, whatever events come and whatever fails. -/
theorem consistent_handleEvents (h : Consistent s) (es : List (Outcomes × Event)) :
    Consistent (s.handleEvents es) := by
  induction es generalizing s with
  | nil => exact h
  | cons e es ih => exact ih (consistent_handleEvent h e.1 e.2)

/-- **No id is used again**: what has an id that was given out before had it then. -/
theorem conn_of_issued {es : List (Outcomes × Event)} {id : ConnId} {rec : ConnRecord}
    (hid : id < s.nextId) (hrec : (s.handleEvents es).conns.lookup id = some rec) :
    s.conns.lookup id = some rec := by
  induction es generalizing s with
  | nil => exact hrec
  | cons e es ih =>
    have hlater := ih (hid.trans_le (nextId_le_handleEvent e.1 s e.2)) hrec
    rcases conns_handleEvent hlater with hbefore | ⟨hnew, -⟩
    · exact hbefore
    · -- the connection that registered has the id of the counter
      exact absurd hnew hid.ne

/-- The registrations among the events. -/
def registrations (es : List (Outcomes × Event)) : ℕ :=
  es.countP fun e =>
    match e.2 with
    | .registered .. => true
    | .departed _ => false

/-- The counter grows by one at most, and only when a registration is handled. -/
lemma nextId_handleEvent_le (o : Outcomes) (s : State) (e : Event) :
    (s.handleEvent o e).1.nextId ≤ s.nextId + registrations [(o, e)] := by
  cases e with
  | registered st r =>
    rw [State.handleEvent]
    show _ ≤ s.nextId + 1
    rcases handleRegistration_cases o s st r with ⟨-, hr⟩ | hu | ha
    · rw [hr.state]
      exact Nat.le_succ _
    · rw [hu.state]
      exact Nat.le_succ _
    · rw [ha.state]
      exact le_rfl
  | departed id =>
    rw [State.handleEvent]
    rcases handleDeparture_cases o s id with ⟨-, heq⟩ | ⟨rec, hd⟩
    · rw [heq]
      exact Nat.le_add_right _ _
    · rw [hd.state]
      exact Nat.le_add_right _ _

lemma nextId_handleEvents_le (s : State) (es : List (Outcomes × Event)) :
    (s.handleEvents es).nextId ≤ s.nextId + registrations es := by
  induction es generalizing s with
  | nil => exact le_rfl
  | cons e es ih =>
    have hsplit : registrations ([e] ++ es) = registrations [e] + registrations es := List.countP_append
    calc ((s.handleEvents (e :: es))).nextId
        ≤ (s.handleEvent e.1 e.2).1.nextId + registrations es := ih _
      _ ≤ s.nextId + registrations [e] + registrations es :=
          Nat.add_le_add_right (nextId_handleEvent_le e.1 s e.2) _
      _ = s.nextId + registrations ([e] ++ es) := by rw [hsplit, Nat.add_assoc]

/-- **The counter of ids fits 64 bits**, as in the source, as long as fewer than `2 ^ 64` registrations
were handled. -/
theorem nextId_lt_two_pow {baseDir : Path} {es : List (Outcomes × Event)}
    (h : registrations es < 2 ^ 64) : ((State.new baseDir).handleEvents es).nextId < 2 ^ 64 := by
  have hle := nextId_handleEvents_le (State.new baseDir) es
  rw [State.new, Nat.zero_add] at hle
  exact lt_of_le_of_lt hle h

/-- The maps of the event loop are those of the events that it handled. -/
lemma exists_handleEvents {w : World} {baseDir : Path} {as : List Action}
    (h : exec step (World.init baseDir) as = some w) :
    ∃ es, w.state = (State.new baseDir).handleEvents es := by
  refine exec_inv (I := fun w => ∃ es, w.state = (State.new baseDir).handleEvents es)
    (fun w a w' hw hstep => ?_) ⟨[], rfl⟩ h
  obtain ⟨es, hes⟩ := hw
  cases stepped_of_step hstep with
  | accept r | depart id => exact ⟨es, hes⟩
  | handle o e queue hqueue => exact ⟨es ++ [(o, e)], by rw [handleEvents_append, ← hes]; rfl⟩
  | place p node | unlink p =>
    -- others change the tree, not the maps
    exact ⟨es, hes⟩

end Runs

/-! ### Registrations that are turned away -/

section TurnedAway

variable {o : Outcomes} {s : State} {st : StreamId} {r : Register} {es : List Effect}

lemma mem_writesOn {msg : SupervisorMessage} {ok : Bool} :
    (msg, ok) ∈ writesOn st es ↔ .write st msg ok ∈ es := by
  unfold writesOn
  rw [List.mem_filterMap]
  constructor
  · rintro ⟨e, he, heq⟩
    cases e with
    | write st' msg' ok' =>
      simp only at heq
      split at heq
      · rename_i hst
        obtain ⟨rfl, rfl⟩ := Prod.ext_iff.mp (Option.some.inj heq)
        exact hst ▸ he
      · cases heq
    | createDirAll | removeDirAll | watch | drop | send => cases heq
  · intro he
    exact ⟨_, he, if_pos rfl⟩

/-- A registration that gets into the maps was not turned away. -/
lemma not_turnedAway_of_admitted {res : State × List Effect} (h : Admitted o s st r res) :
    ¬ TurnedAway res.2 := by
  have hwrite : ∀ {st' resp ok}, .write st' (.registerResponse resp) ok ∈ res.2 →
      resp = .ack (ackPeers o s r.group) ∧ ok = true := by
    intro st' resp ok hmem
    rw [← mem_writesOn, h.writes, writesOn_fanOut, List.mem_append] at hmem
    rcases hmem with hmem | hmem
    · split at hmem
      · obtain ⟨hresp, hok⟩ := Prod.ext_iff.mp (List.mem_singleton.mp hmem)
        exact ⟨SupervisorMessage.registerResponse.inj hresp, hok⟩
      · cases hmem
    · obtain ⟨p, -, heq⟩ := List.mem_map.mp hmem
      cases (Prod.ext_iff.mp heq).1
  rintro ⟨st', ⟨reason, ok, hmem⟩ | ⟨peers, hmem⟩⟩
  · cases (hwrite hmem).1
  · cases (hwrite hmem).2

/-- **A registration that is turned away** changes nothing, and no peer hears of it. -/
theorem handleRegistration_of_turnedAway (h : TurnedAway (s.handleRegistration o st r).2) :
    (s.handleRegistration o st r).1 = s ∧
      ∀ st' n ok, .write st' (.notification n) ok ∉ (s.handleRegistration o st r).2 := by
  rcases handleRegistration_cases o s st r with ⟨-, hr⟩ | hu | ha
  · refine ⟨hr.state, fun st' n ok hmem => ?_⟩
    obtain ⟨reason, ok', hwrites⟩ := hr.writes
    rw [← mem_writesOn, hwrites] at hmem
    split at hmem
    · cases (Prod.ext_iff.mp (List.mem_singleton.mp hmem)).1
    · cases hmem
  · refine ⟨hu.state, fun st' n ok hmem => ?_⟩
    rw [← mem_writesOn, hu.writes] at hmem
    split at hmem
    · cases (Prod.ext_iff.mp (List.mem_singleton.mp hmem)).1
    · cases hmem
  · exact absurd h (not_turnedAway_of_admitted ha)

lemma handleDeparture_of_not_mem {id : ConnId} (h : id ∉ s.conns) :
    s.handleDeparture o id = (s, []) := by
  unfold State.handleDeparture
  rw [AList.lookup_eq_none.mpr h]

end TurnedAway

/-- **The maps of the supervisor are consistent** after any events, with any failures: a slug is in a
group under an id exactly if the connection with that id is one of that slug and group, no group is
empty, the ids in use are below the counter and never given to another connection, and so a slug of
a group is held by one connection. What is turned away, and the departure of a connection that is
gone, change nothing. -/
theorem maps_consistent (baseDir : Path) (es : List (Outcomes × Event)) :
    let s := (State.new baseDir).handleEvents es
    (∀ g slug id, ((s.groups.lookup g).bind fun m => m.lookup slug) = some id ↔
      ∃ st, s.conns.lookup id = some ⟨slug, g, st⟩) ∧
    (∀ g m, s.groups.lookup g = some m → m.keys ≠ []) ∧
    (∀ id ∈ s.conns, id < s.nextId) ∧
    (∀ es' id rec, id < s.nextId → (s.handleEvents es').conns.lookup id = some rec →
      s.conns.lookup id = some rec) ∧
    (∀ id id' rec rec', s.conns.lookup id = some rec → s.conns.lookup id' = some rec' →
      rec.slug = rec'.slug → rec.group = rec'.group → id = id') ∧
    (∀ o st r, TurnedAway (s.handleRegistration o st r).2 → (s.handleRegistration o st r).1 = s ∧
      ∀ st' n ok, .write st' (.notification n) ok ∉ (s.handleRegistration o st r).2) ∧
    ∀ o id, id ∉ s.conns → s.handleDeparture o id = (s, []) := by
  intro s
  have hs : Consistent s := consistent_handleEvents (consistent_new baseDir) es
  refine ⟨fun g slug id => ?_, hs.nonempty, fun id hid => ?_, fun es' id rec => conn_of_issued,
    fun id id' rec rec' => hs.unique, fun o st r => handleRegistration_of_turnedAway,
    fun o id => handleDeparture_of_not_mem⟩
  · rw [← hs.member, State.group]
    cases s.groups.lookup g with
    | none => simp
    | some m => rfl
  · obtain ⟨rec, hrec⟩ := Option.isSome_iff_exists.mp (AList.lookup_isSome.mpr hid)
    exact hs.fresh id rec hrec

end Crossbridge.Supervisor
