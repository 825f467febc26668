import Crossbridge.Supervisor.Effects

/-!
The news that an event brings to the connections that stay.

A server that follows notifications (`replay`) keeps a set of peers. What an event writes to a
connection is exactly what takes the others of its group before the event to those after it
(`Admitted.told`, `Departure.told`); if that write fails, the connection is sent away.
-/

namespace Crossbridge.Supervisor

open Crossbridge.Protocol

/-- A notification applied to the peers; a slug joins if it is new and leaves if it is there. -/
def follow (peers : Finset String) : Notification → Option (Finset String)
  | .peerJoined slug => if slug ∈ peers then none else some (insert slug peers)
  | .peerLeft slug => if slug ∈ peers then some (peers.erase slug) else none

/-- The notifications applied in order. -/
def replay (peers : Finset String) (ns : List Notification) : Option (Finset String) :=
  ns.foldlM follow peers

lemma replay_cons (peers : Finset String) (n : Notification) (ns : List Notification) :
    replay peers (n :: ns) = (follow peers n).bind fun v => replay v ns := rfl

/-- A peer that is lost on the way has left. -/
lemma left_of_replay {q : String} {v v' : Finset String} {ns : List Notification}
    (h : replay v ns = some v') (hq : q ∈ v) (hq' : q ∉ v') : .peerLeft q ∈ ns := by
  induction ns generalizing v with
  | nil => exact absurd (Option.some.inj h ▸ hq) hq'
  | cons n ns ih =>
    rw [replay_cons, Option.bind_eq_some_iff] at h
    obtain ⟨w, hw, h⟩ := h
    by_cases hqw : q ∈ w
    · exact List.mem_cons_of_mem _ (ih h hqw)
    · cases n with
      | peerJoined p =>
        rw [follow] at hw
        split at hw
        · cases hw
        · rw [← Option.some.inj hw] at hqw
          exact absurd (Finset.mem_insert_of_mem hq) hqw
      | peerLeft p =>
        rw [follow] at hw
        split at hw
        · rw [← Option.some.inj hw] at hqw
          have heq : q = p := by
            by_contra hne
            exact hqw (Finset.mem_erase.mpr ⟨hne, hq⟩)
          rw [heq]
          exact List.mem_cons_self
        · cases hw

lemma replay_append (peers : Finset String) (ns : List Notification) (n : Notification) :
    replay peers (ns ++ [n]) = (replay peers ns).bind fun v => follow v n := by
  unfold replay
  rw [List.foldlM_append]
  cases h : List.foldlM follow peers ns with
  | none => rfl
  | some v =>
    rw [Option.bind_some]
    cases hn : follow v n <;> simp [hn]

/-- A notification on the wire. -/
def note (n : Notification × Bool) : SupervisorMessage × Bool := (.notification n.1, n.2)

/-! ### The streams of connections and of the queue -/

/-- The streams whose registration is in the queue. -/
def waiting (q : List Event) : List StreamId :=
  q.filterMap fun
    | .registered st _ => some st
    | .departed _ => none

lemma waiting_sentEvents (es : List Effect) : waiting (sentEvents es) = [] := by
  unfold waiting sentEvents
  rw [List.filterMap_filterMap, List.filterMap_eq_nil_iff]
  intro e _
  cases e <;> rfl

lemma waiting_append (q q' : List Event) : waiting (q ++ q') = waiting q ++ waiting q' :=
  List.filterMap_append

lemma mem_waiting {st : StreamId} {q : List Event} : st ∈ waiting q ↔ ∃ r, .registered st r ∈ q := by
  unfold waiting
  rw [List.mem_filterMap]
  constructor
  · rintro ⟨e, he, hst⟩
    cases e with
    | registered st' r =>
      obtain rfl := Option.some.inj hst
      exact ⟨r, he⟩
    | departed id => cases hst
  · rintro ⟨r, hr⟩
    exact ⟨_, hr, rfl⟩

lemma mem_waiting_of_eq {st : StreamId} {r : Register} {e : Event} (h : e = .registered st r) :
    st ∈ waiting [e] := by
  rw [h]
  exact List.mem_cons_self

/-- Each connection has a stream of its own. -/
def OwnStreams (s : State) : Prop :=
  ∀ id rec id' rec', s.conns.lookup id = some rec → s.conns.lookup id' = some rec' →
    rec.stream = rec'.stream → id = id'

section Streams

variable {s : State} {o : Outcomes} {g : String} {n : Notification} {id : ConnId} {rec : ConnRecord}

lemma OwnStreams.insert (h : OwnStreams s)
    (hnew : ∀ id rec', s.conns.lookup id = some rec' → rec'.stream ≠ rec.stream) :
    OwnStreams (s.insert rec) := by
  intro id₁ rec₁ id₂ rec₂ h₁ h₂ heq
  rw [lookup_conns_insert] at h₁ h₂
  split at h₁ <;> split at h₂
  · rename_i hid₁ hid₂
    exact hid₁.trans hid₂.symm
  · rw [← Option.some.inj h₁] at heq
    exact absurd heq.symm (hnew id₂ rec₂ h₂)
  · rw [← Option.some.inj h₂] at heq
    exact absurd heq (hnew id₁ rec₁ h₁)
  · exact h id₁ rec₁ id₂ rec₂ h₁ h₂ heq

/-- A connection of a state with one connection removed is another one of the state before. -/
lemma mem_remove {id' : ConnId} {rec' : ConnRecord}
    (h : (s.remove id rec).conns.lookup id' = some rec') :
    id' ≠ id ∧ s.conns.lookup id' = some rec' := by
  rw [lookup_conns_remove] at h
  split at h
  · cases h
  · rename_i hne
    exact ⟨hne, h⟩

lemma OwnStreams.remove (h : OwnStreams s) : OwnStreams (s.remove id rec) :=
  fun id₁ rec₁ id₂ rec₂ h₁ h₂ => h id₁ rec₁ id₂ rec₂ (mem_remove h₁).2 (mem_remove h₂).2

/-- What a loop over the peers of a group writes to a connection. -/
lemma writesOn_peers (hs : Consistent s) (hstreams : OwnStreams s)
    (hid : s.conns.lookup id = some rec) :
    writesOn rec.stream (State.fanOut o (s.peers o g) n) =
      if rec.group = g then [note (n, o.write rec.stream)] else [] := by
  have hone : ∀ q ∈ s.peers o g, q.2.stream = rec.stream → q = (id, rec) := by
    rintro ⟨id', rec'⟩ hq hst
    have hid' := ((mem_peers hs).mp hq).1
    obtain rfl := hstreams id' rec' id rec hid' hid hst
    rw [hid] at hid'
    rw [Option.some.inj hid']
  split
  · rename_i hg
    exact writesOn_fanOut_of_mem (p := (id, rec)) ((mem_peers hs).mpr ⟨hid, hg⟩) (nodup_peers hs) hone
  · rename_i hg
    refine writesOn_fanOut_of_not_mem fun q hq hst => hg ?_
    rw [hone q hq hst] at hq
    exact ((mem_peers hs).mp hq).2

/-- It writes to no other stream. -/
lemma writesOn_peers_of_ne {st : StreamId} (hs : Consistent s)
    (hst : ∀ id rec, s.conns.lookup id = some rec → rec.stream ≠ st) :
    writesOn st (State.fanOut o (s.peers o g) n) = [] :=
  writesOn_fanOut_of_not_mem fun p hp => hst p.1 p.2 ((mem_peers hs).mp hp).1

/-- A peer whose write fails is sent away. -/
lemma departed_of_fail (hs : Consistent s) (hid : s.conns.lookup id = some rec)
    (hg : rec.group = g) (hfail : o.write rec.stream = false) :
    .departed id ∈ sentEvents (State.fanOut o (s.peers o g) n) :=
  departed_mem_sentEvents.mpr (send_mem_fanOut.mpr ⟨rec, (mem_peers hs).mpr ⟨hid, hg⟩, hfail⟩)

end Streams

/-! ### What a connection is told -/

/-- What an event does to a connection that stays: nothing, or the notification that its group asks
for; and if that could not be written, the connection is sent away. -/
def Told (s : State) (res : State × List Effect) (id : ConnId) (rec : ConnRecord) : Prop :=
  (writesOn rec.stream res.2 = [] ∧ others res.1 rec = others s rec) ∨
  ∃ n ok, writesOn rec.stream res.2 = [note (n, ok)] ∧
    follow (others s rec) n = some (others res.1 rec) ∧
    (ok = false → .departed id ∈ sentEvents res.2)

section Told

variable {o : Outcomes} {s : State} {st : StreamId} {r : Register} {res : State × List Effect}
  {id id₀ : ConnId} {rec rec₀ : ConnRecord}

/-- The peers of an `Ack` are the others of the new connection. -/
lemma Admitted.others (ha : Admitted o s st r res) :
    (ackPeers o s r.group).toFinset = Supervisor.others res.1 ⟨r.slug, r.group, st⟩ := by
  have hkeys : (ackPeers o s r.group).toFinset = (s.group r.group).keys.toFinset :=
    List.toFinset_eq_of_perm _ _ (o.slugs_perm _)
  have hnot : r.slug ∉ (s.group r.group).keys.toFinset := by
    rw [List.mem_toFinset, ← AList.mem_keys]
    exact ha.new
  rw [ha.state, others_insert, if_neg fun h => h.2 rfl, Supervisor.others,
    Finset.erase_eq_of_notMem hnot, hkeys]

/-- The new connection is told of its peers, and of nothing else. -/
lemma Admitted.ack (ha : Admitted o s st r res) (hs : Consistent s)
    (hst : ∀ id rec, s.conns.lookup id = some rec → rec.stream ≠ st) :
    writesOn st res.2 = [(.registerResponse (.ack (ackPeers o s r.group)), true)] := by
  rw [ha.writes, if_pos rfl, writesOn_peers_of_ne hs hst, List.append_nil]

/-- **A registration** is told to the connections of its group. -/
theorem Admitted.told (ha : Admitted o s st r res) (hs : Consistent s) (hstreams : OwnStreams s)
    (hst : ∀ id rec, s.conns.lookup id = some rec → rec.stream ≠ st)
    (hid : s.conns.lookup id = some rec) : Told s res id rec := by
  have hwrites := ha.writes rec.stream
  rw [if_neg (hst id rec hid), List.nil_append, writesOn_peers hs hstreams hid] at hwrites
  have hothers : Supervisor.others (s.insert ⟨r.slug, r.group, st⟩) rec = _ := others_insert
  rw [← ha.state] at hothers
  by_cases hg : rec.group = r.group
  · have hne : rec.slug ≠ r.slug := by
      intro heq
      exact ha.new (hg ▸ heq ▸ hs.mem_group.mpr ⟨id, rec.stream, hid⟩)
    rw [if_pos hg] at hwrites
    rw [if_pos ⟨hg, hne⟩] at hothers
    refine Or.inr ⟨_, _, hwrites, ?_, fun hfail => ?_⟩
    · have hfresh : r.slug ∉ Supervisor.others s rec := fun hin => ha.new (hg ▸ (mem_others.mp hin).2)
      rw [follow, if_neg hfresh, hothers]
    · rw [ha.sent]
      exact departed_of_fail hs hid hg hfail
  · rw [if_neg hg] at hwrites
    rw [if_neg fun h => hg h.1] at hothers
    exact Or.inl ⟨hwrites, hothers⟩

/-- **A departure** is told to the connections of its group. -/
theorem Departure.told (hd : Departure o s id₀ rec₀ res) (hs : Consistent s)
    (hstreams : OwnStreams s) (hid : res.1.conns.lookup id = some rec) : Told s res id rec := by
  rw [hd.state] at hid
  have hs' := consistent_remove hs hd.conn
  have hwrites := hd.writes rec.stream
  rw [writesOn_peers hs' hstreams.remove hid] at hwrites
  have hothers : Supervisor.others (s.remove id₀ rec₀) rec = _ := others_remove
  rw [← hd.state] at hothers
  obtain ⟨hne, hid₀⟩ := mem_remove hid
  by_cases hg : rec.group = rec₀.group
  · rw [if_pos hg] at hwrites hothers
    refine Or.inr ⟨_, _, hwrites, ?_, fun hfail => ?_⟩
    · have hin : rec₀.slug ∈ Supervisor.others s rec := by
        refine mem_others.mpr ⟨fun heq => hne (hs.unique hid₀ hd.conn heq.symm hg), ?_⟩
        rw [hg]
        exact hs.mem_group.mpr ⟨id₀, rec₀.stream, hd.conn⟩
      rw [follow, if_pos hin, hothers]
    · rw [hd.sent]
      exact departed_of_fail hs' hid hg hfail
  · rw [if_neg hg] at hwrites hothers
    exact Or.inl ⟨hwrites, hothers⟩

end Told

/-! ### What an event does to the connections -/

/-- What an event does to the connections and to their streams. -/
structure Handling (s : State) (e : Event) (res : State × List Effect) : Prop where
  base : res.1.baseDir = s.baseDir
  maps : Consistent res.1
  streams : OwnStreams res.1
  /-- A connection is one from before, that was told the news, or the new one, with its `Ack`. -/
  conns : ∀ id rec, res.1.conns.lookup id = some rec →
    (s.conns.lookup id = some rec ∧ e ≠ .departed id ∧ Told s res id rec) ∨
    e = .registered rec.stream ⟨rec.slug, rec.group⟩ ∧ ∃ peers : List String, peers.Nodup ∧
      peers.toFinset = others res.1 rec ∧
      writesOn rec.stream res.2 = [(.registerResponse (.ack peers), true)]
  /-- A registration that gets no connection gets a `Nack`, or nothing. -/
  response : ∀ st ∈ waiting [e], (∃ id rec, res.1.conns.lookup id = some rec ∧ rec.stream = st) ∨
    ∃ resp ok, writesOn st res.2 = [(.registerResponse resp, ok)] ∧
      (ok = true → ∃ reason, resp = .nack reason)
  /-- Nothing else is written. -/
  silent : ∀ st ∉ waiting [e], (∀ id rec, res.1.conns.lookup id = some rec → rec.stream ≠ st) →
    writesOn st res.2 = []
  /-- The streams that are left without a connection are dropped. -/
  drops : ∀ st, .drop st ∈ res.2 ↔
    (st ∈ waiting [e] ∨ ∃ id rec, s.conns.lookup id = some rec ∧ rec.stream = st) ∧
      ∀ id rec, res.1.conns.lookup id = some rec → rec.stream ≠ st

section Handling

variable {o : Outcomes} {s : State} {e : Event} {st : StreamId} {r : Register}
  {res : State × List Effect} {id₀ : ConnId} {rec₀ : ConnRecord}

/-- A response that leaves the maps as they are. -/
lemma handling_rejected {resp : RegisterResponse} {ok : Bool} (hs : Consistent s)
    (hstreams : OwnStreams s) (hst : ∀ id rec, s.conns.lookup id = some rec → rec.stream ≠ st)
    (hstate : res.1 = s)
    (hwrites : ∀ st', writesOn st' res.2 = if st' = st then [(.registerResponse resp, ok)] else [])
    (hnack : ok = true → ∃ reason, resp = .nack reason)
    (hdrops : ∀ st', .drop st' ∈ res.2 ↔ st' = st) : Handling s (.registered st r) res where
  base := by rw [hstate]
  maps := hstate ▸ hs
  streams := hstate ▸ hstreams
  conns id rec hid := by
    rw [hstate] at hid
    refine Or.inl ⟨hid, (fun heq => by cases heq), Or.inl ⟨?_, by rw [hstate]⟩⟩
    rw [hwrites, if_neg (hst id rec hid)]
  response st' hst' := by
    rw [hwrites, if_pos (List.mem_singleton.mp hst')]
    exact Or.inr ⟨resp, ok, rfl, hnack⟩
  silent st' hst' _ := by
    rw [hwrites, if_neg]
    rintro rfl
    exact hst' List.mem_cons_self
  drops st' := by
    rw [hdrops, hstate]
    constructor
    · rintro rfl
      exact ⟨Or.inl List.mem_cons_self, hst⟩
    · rintro ⟨hin | ⟨id, rec, hid, heq⟩, hnone⟩
      · exact List.mem_singleton.mp hin
      · exact absurd heq (hnone id rec hid)

lemma Admitted.handling (ha : Admitted o s st r res) (hs : Consistent s) (hstreams : OwnStreams s)
    (hst : ∀ id rec, s.conns.lookup id = some rec → rec.stream ≠ st) :
    Handling s (.registered st r) res where
  base := by rw [ha.state]; rfl
  maps := ha.state ▸ consistent_insert hs ha.new
  streams := ha.state ▸ OwnStreams.insert hstreams hst
  conns id rec hid := by
    rw [ha.state, lookup_conns_insert] at hid
    split at hid
    · obtain rfl := Option.some.inj hid
      exact Or.inr ⟨rfl, _, (o.slugs_perm _).nodup_iff.mpr (AList.keys_nodup _), ha.others,
        ha.ack hs hst⟩
    · exact Or.inl ⟨hid, (fun heq => by cases heq), ha.told hs hstreams hst hid⟩
  response st' hst' := by
    rw [List.mem_singleton.mp hst', ha.state]
    exact Or.inl ⟨s.nextId, ⟨r.slug, r.group, st⟩, lookup_conns_insert.trans (if_pos rfl), rfl⟩
  silent st' hst' hnone := by
    have hne : st' ≠ st := by
      rintro rfl
      exact hst' List.mem_cons_self
    rw [ha.writes, if_neg hne, List.nil_append]
    refine writesOn_peers_of_ne hs fun id rec hid => hnone id rec ?_
    rw [ha.state, lookup_conns_insert, if_neg (ne_of_lt (hs.fresh id rec hid)), hid]
  drops st' := by
    refine ⟨fun h => absurd h (ha.drops st'), ?_⟩
    rw [ha.state]
    rintro ⟨hin | ⟨id, rec, hid, heq⟩, hnone⟩
    · refine absurd (List.mem_singleton.mp hin).symm (hnone s.nextId ⟨r.slug, r.group, st⟩ ?_)
      rw [lookup_conns_insert, if_pos rfl]
    · refine absurd heq (hnone id rec ?_)
      rw [lookup_conns_insert, if_neg (ne_of_lt (hs.fresh id rec hid)), hid]

lemma Departure.handling (hd : Departure o s id₀ rec₀ res) (hs : Consistent s)
    (hstreams : OwnStreams s) : Handling s (.departed id₀) res where
  base := by rw [hd.state]; rfl
  maps := hd.state ▸ consistent_remove hs hd.conn
  streams := hd.state ▸ OwnStreams.remove hstreams
  conns id rec hid := by
    have ht := hd.told hs hstreams hid
    rw [hd.state] at hid
    obtain ⟨hne, hid⟩ := mem_remove hid
    exact Or.inl ⟨hid, fun heq => hne (Event.departed.inj heq).symm, ht⟩
  response st hst := by cases hst
  silent st _ hnone := by
    rw [hd.writes]
    exact writesOn_peers_of_ne (consistent_remove hs hd.conn) fun id rec hid =>
      hnone id rec (hd.state ▸ hid)
  drops st := by
    rw [hd.drops, hd.state]
    constructor
    · rintro rfl
      refine ⟨Or.inr ⟨id₀, rec₀, hd.conn, rfl⟩, fun id rec hid heq => ?_⟩
      obtain ⟨hne, hid⟩ := mem_remove hid
      exact hne (hstreams id rec id₀ rec₀ hid hd.conn heq)
    · rintro ⟨hin | ⟨id, rec, hid, heq⟩, hnone⟩
      · cases hin
      · by_cases hne : id = id₀
        · subst hne
          rw [hd.conn] at hid
          rw [Option.some.inj hid, heq]
        · refine absurd heq (hnone id rec ?_)
          rw [lookup_conns_remove, if_neg hne, hid]

/-- **Handling an event**, whose stream is new if it is a registration. -/
theorem handling (o : Outcomes) (hs : Consistent s) (hstreams : OwnStreams s)
    (hst : ∀ st ∈ waiting [e], ∀ id rec, s.conns.lookup id = some rec → rec.stream ≠ st) :
    Handling s e (s.handleEvent o e) := by
  cases e with
  | registered st r =>
    have hst := hst st List.mem_cons_self
    rw [State.handleEvent]
    rcases handleRegistration_cases o s st r with ⟨-, hr⟩ | hu | ha
    · obtain ⟨reason, ok, hwrites⟩ := hr.writes
      exact handling_rejected hs hstreams hst hr.state hwrites (fun _ => ⟨reason, rfl⟩) hr.drops
    · exact handling_rejected hs hstreams hst hu.state hu.writes (fun hok => by cases hok) hu.drops
    · exact ha.handling hs hstreams hst
  | departed id =>
    rw [State.handleEvent]
    rcases handleDeparture_cases o s id with ⟨hgone, heq⟩ | ⟨rec, hd⟩
    · rw [heq]
      refine ⟨rfl, hs, hstreams, fun id' rec hid => Or.inl ⟨hid, fun heq => ?_, Or.inl ⟨rfl, rfl⟩⟩,
        (fun st hst => by cases hst), fun _ _ _ => rfl, fun st => ?_⟩
      · rw [Event.departed.inj heq, hid] at hgone
        cases hgone
      · refine ⟨fun h => (List.not_mem_nil h).elim, ?_⟩
        rintro ⟨hin | ⟨id, rec, hid, heq⟩, hnone⟩
        · cases hin
        · exact absurd heq (hnone id rec hid)
    · exact hd.handling hs hstreams

end Handling

end Crossbridge.Supervisor
