import Crossbridge.Lib.FileTree
import Crossbridge.Supervisor.Maps

/-!
What the handlers do.

The effects of a handler are read in four ways: what they write on a stream (`writesOn`), which
events they send (`sentEvents`), which streams they drop, and what they make of a file tree
(`Effect.onTree`). A registration ends in one of three ways, `Refused`, `Unheard` or `Admitted`, and
a departure is a `Departure` or nothing; each of these says all that the handler did.
-/

namespace Crossbridge.Supervisor

open Crossbridge.Protocol

/-! ### What effects do -/

/-- The tree after an effect. -/
def Effect.onTree {ι : Type} (t : FileTree ι) : Effect → FileTree ι
  | .createDirAll dir true => t.createDirAll dir
  | .removeDirAll dir => t.removeDirAll dir
  | _ => t

/-- The events that effects send. -/
def sentEvents (es : List Effect) : List Event :=
  es.filterMap fun
    | .send id => some (.departed id)
    | _ => none

/-- The writes on a stream, with their outcomes. -/
def writesOn (st : StreamId) (es : List Effect) : List (SupervisorMessage × Bool) :=
  es.filterMap fun
    | .write st' msg ok => if st' = st then some (msg, ok) else none
    | _ => none

@[simp] lemma writesOn_append (st : StreamId) (es fs : List Effect) :
    writesOn st (es ++ fs) = writesOn st es ++ writesOn st fs := List.filterMap_append

@[simp] lemma sentEvents_append (es fs : List Effect) :
    sentEvents (es ++ fs) = sentEvents es ++ sentEvents fs := List.filterMap_append

section FanOut

variable {o : Outcomes} {n : Notification} {ps : List (ConnId × ConnRecord)} {st : StreamId}

lemma departed_mem_sentEvents {id : ConnId} {es : List Effect} :
    .departed id ∈ sentEvents es ↔ .send id ∈ es := by
  unfold sentEvents
  rw [List.mem_filterMap]
  constructor
  · rintro ⟨e, he, heq⟩
    cases e with
    | send id' =>
      obtain rfl := Event.departed.inj (Option.some.inj heq)
      exact he
    | createDirAll | removeDirAll | write | watch | drop => cases heq
  · intro h
    exact ⟨_, h, rfl⟩

/-- Those whose write failed are sent away. -/
lemma send_mem_fanOut {id : ConnId} : .send id ∈ State.fanOut o ps n ↔
    ∃ rec, (id, rec) ∈ ps ∧ o.write rec.stream = false := by
  unfold State.fanOut
  rw [List.mem_append, List.mem_map, List.mem_map]
  constructor
  · rintro (⟨p, -, heq⟩ | ⟨p, hp, heq⟩)
    · cases heq
    · obtain rfl := Effect.send.inj heq
      rw [List.mem_filter] at hp
      exact ⟨p.2, hp.1, by simpa using hp.2⟩
  · rintro ⟨rec, hmem, hfail⟩
    exact Or.inr ⟨(id, rec), List.mem_filter.mpr ⟨hmem, by simp [hfail]⟩, rfl⟩

lemma writesOn_fanOut : writesOn st (State.fanOut o ps n) =
    (ps.filter fun p => p.2.stream = st).map fun _ => (.notification n, o.write st) := by
  unfold State.fanOut
  rw [writesOn_append]
  have hsends : ∀ l : List (ConnId × ConnRecord), writesOn st (l.map fun p => .send p.1) = [] := by
    intro l
    unfold writesOn
    rw [List.filterMap_map]
    exact List.filterMap_eq_nil_iff.mpr fun _ _ => rfl
  rw [hsends, List.append_nil]
  induction ps with
  | nil => rfl
  | cons p ps ih =>
    rw [List.map_cons, writesOn, List.filterMap_cons, ← writesOn, ih]
    by_cases hp : p.2.stream = st
    · simp [hp]
    · simp [hp]

/-- A stream of none of the peers is left alone. -/
lemma writesOn_fanOut_of_not_mem (h : ∀ p ∈ ps, p.2.stream ≠ st) :
    writesOn st (State.fanOut o ps n) = [] := by
  rw [writesOn_fanOut, List.filter_eq_nil_iff.mpr, List.map_nil]
  intro p hp
  simpa using h p hp

/-- A peer is written to once. -/
lemma writesOn_fanOut_of_mem {p : ConnId × ConnRecord} (hp : p ∈ ps) (hnodup : ps.Nodup)
    (hstreams : ∀ q ∈ ps, q.2.stream = p.2.stream → q = p) :
    writesOn p.2.stream (State.fanOut o ps n) = [(.notification n, o.write p.2.stream)] := by
  have hfilter : ps.filter (fun q => q.2.stream = p.2.stream) = [p] := by
    refine List.perm_singleton.mp ((List.perm_ext_iff_of_nodup (hnodup.filter _)
      (List.nodup_singleton p)).mpr fun q => ?_)
    rw [List.mem_filter, List.mem_singleton, decide_eq_true_iff]
    constructor
    · rintro ⟨hq, hst⟩
      exact hstreams q hq hst
    · rintro rfl
      exact ⟨hp, rfl⟩
  rw [writesOn_fanOut, hfilter, List.map_singleton]

end FanOut

/-! ### How an event ends -/

section Events

variable {o : Outcomes} {s : State} {st : StreamId} {r : Register}

/-- The peers of an `Ack`. -/
def ackPeers (o : Outcomes) (s : State) (g : String) : List String := o.slugs (s.group g).keys

/-- A `Nack` is sent. -/
structure Refused (s : State) (st : StreamId) (res : State × List Effect) : Prop where
  state : res.1 = s
  writes : ∃ reason ok, ∀ st', writesOn st' res.2 =
    if st' = st then [(.registerResponse (.nack reason), ok)] else []
  sent : sentEvents res.2 = []
  drops : ∀ st', .drop st' ∈ res.2 ↔ st' = st
  tree : ∀ {ι : Type} (t : FileTree ι), res.2.foldl Effect.onTree t = t

/-- The `Ack` could not be written. -/
structure Unheard (o : Outcomes) (s : State) (st : StreamId) (r : Register)
    (res : State × List Effect) : Prop where
  new : r.slug ∉ s.group r.group
  made : o.createDir = .ok ()
  failed : o.write st = false
  state : res.1 = s
  writes : ∀ st', writesOn st' res.2 =
    if st' = st then [(.registerResponse (.ack (ackPeers o s r.group)), false)] else []
  sent : sentEvents res.2 = []
  drops : ∀ st', .drop st' ∈ res.2 ↔ st' = st
  tree : ∀ {ι : Type} (t : FileTree ι), res.2.foldl Effect.onTree t =
    (t.createDirAll (s.slugDir r.slug)).removeDirAll (s.slugDir r.slug)

/-- The connection is in the maps, and its peers are told. -/
structure Admitted (o : Outcomes) (s : State) (st : StreamId) (r : Register)
    (res : State × List Effect) : Prop where
  new : r.slug ∉ s.group r.group
  heard : o.write st = true
  state : res.1 = s.insert ⟨r.slug, r.group, st⟩
  writes : ∀ st', writesOn st' res.2 =
    (if st' = st then [(.registerResponse (.ack (ackPeers o s r.group)), true)] else []) ++
      writesOn st' (State.fanOut o (s.peers o r.group) (.peerJoined r.slug))
  sent : sentEvents res.2 = sentEvents (State.fanOut o (s.peers o r.group) (.peerJoined r.slug))
  drops : ∀ st', .drop st' ∉ res.2
  tree : ∀ {ι : Type} (t : FileTree ι), res.2.foldl Effect.onTree t =
    t.createDirAll (s.slugDir r.slug)

/-- The connection is out of the maps, and its peers are told. -/
structure Departure (o : Outcomes) (s : State) (id : ConnId) (rec : ConnRecord)
    (res : State × List Effect) : Prop where
  conn : s.conns.lookup id = some rec
  state : res.1 = s.remove id rec
  writes : ∀ st', writesOn st' res.2 =
    writesOn st' (State.fanOut o ((s.remove id rec).peers o rec.group) (.peerLeft rec.slug))
  sent : sentEvents res.2 =
    sentEvents (State.fanOut o ((s.remove id rec).peers o rec.group) (.peerLeft rec.slug))
  drops : ∀ st', .drop st' ∈ res.2 ↔ st' = rec.stream
  tree : ∀ {ι : Type} (t : FileTree ι), res.2.foldl Effect.onTree t =
    t.removeDirAll (s.slugDir rec.slug)

lemma foldl_onTree_eq {ι : Type} {t : FileTree ι} {es : List Effect} (h : ∀ e ∈ es, e.onTree t = t) :
    es.foldl Effect.onTree t = t := by
  induction es with
  | nil => rfl
  | cons e es ih =>
    obtain ⟨he, hes⟩ := List.forall_mem_cons.mp h
    rw [List.foldl_cons, he]
    exact ih hes

lemma onTree_fanOut {ι : Type} (t : FileTree ι) (ps : List (ConnId × ConnRecord)) (n : Notification) :
    (State.fanOut o ps n).foldl Effect.onTree t = t := by
  refine foldl_onTree_eq fun e he => ?_
  unfold State.fanOut at he
  rw [List.mem_append, List.mem_map, List.mem_map] at he
  rcases he with ⟨p, -, rfl⟩ | ⟨p, -, rfl⟩ <;> rfl

lemma drop_not_mem_fanOut (st : StreamId) (ps : List (ConnId × ConnRecord)) (n : Notification) :
    .drop st ∉ State.fanOut o ps n := by
  unfold State.fanOut
  rw [List.mem_append, List.mem_map, List.mem_map]
  rintro (⟨p, -, heq⟩ | ⟨p, -, heq⟩) <;> cases heq

lemma writesOn_nack (st' : StreamId) (reason : String) : writesOn st' (State.nack o st reason) =
    if st' = st then [(.registerResponse (.nack reason), o.write st)] else [] := by
  unfold State.nack writesOn
  by_cases h : st = st'
  · simp [h]
  · simp [h, Ne.symm h]

/-- **How a registration ends**. -/
theorem handleRegistration_cases (o : Outcomes) (s : State) (st : StreamId) (r : Register) :
    ((r.slug ∈ s.group r.group ∨ o.createDir ≠ .ok ()) ∧
      Refused s st (s.handleRegistration o st r)) ∨
    Unheard o s st r (s.handleRegistration o st r) ∨
    Admitted o s st r (s.handleRegistration o st r) := by
  unfold State.handleRegistration
  by_cases hdup : r.slug ∈ s.group r.group
  · rw [if_pos hdup]
    refine Or.inl ⟨Or.inl hdup, rfl, ⟨_, _, fun st' => writesOn_nack st' _⟩, rfl, fun st' => ?_,
      fun _ => rfl⟩
    simp [State.nack]
  · rw [if_neg hdup]
    simp only
    split
    · rename_i e he
      have hfail : o.createDir ≠ .ok () := by
        rw [he]
        intro h
        cases h
      refine Or.inl ⟨Or.inr hfail, rfl, ⟨_, _, fun st' => writesOn_nack st' _⟩, rfl, fun st' => ?_,
        fun _ => rfl⟩
      simp [State.nack]
    · rename_i hmade
      split
      · rename_i hheard
        refine Or.inr (Or.inr ⟨hdup, hheard, rfl, fun st' => ?_, rfl, fun st' => ?_, fun t => ?_⟩)
        · by_cases h : st' = st
          · simp [writesOn, h, ackPeers]
          · simp [writesOn, h, Ne.symm h]
        · simp [drop_not_mem_fanOut]
        · exact onTree_fanOut _ _ _
      · rename_i hfailed
        refine Or.inr (Or.inl ⟨hdup, hmade, by simpa using hfailed, rfl, fun st' => ?_, rfl,
          fun st' => ?_, fun _ => rfl⟩)
        · by_cases h : st' = st
          · simp [writesOn, h, ackPeers]
          · simp [writesOn, h, Ne.symm h]
        · simp

/-- **How a departure ends**. -/
theorem handleDeparture_cases (o : Outcomes) (s : State) (id : ConnId) :
    (s.conns.lookup id = none ∧ s.handleDeparture o id = (s, [])) ∨
    ∃ rec, Departure o s id rec (s.handleDeparture o id) := by
  unfold State.handleDeparture
  cases h : s.conns.lookup id with
  | none => exact Or.inl ⟨rfl, rfl⟩
  | some rec =>
    refine Or.inr ⟨rec, h, rfl, fun _ => rfl, rfl, fun st' => ?_, fun _ => onTree_fanOut _ _ _⟩
    simp [drop_not_mem_fanOut]

lemma consistent_handleEvent (h : Consistent s) (o : Outcomes) (e : Event) :
    Consistent (s.handleEvent o e).1 := by
  cases e with
  | registered st r =>
    rw [State.handleEvent]
    rcases handleRegistration_cases o s st r with ⟨-, hr⟩ | hu | ha
    · rwa [hr.state]
    · rwa [hu.state]
    · exact ha.state ▸ consistent_insert h ha.new
  | departed id =>
    rw [State.handleEvent]
    rcases handleDeparture_cases o s id with ⟨-, heq⟩ | ⟨rec, hd⟩
    · rwa [heq]
    · exact hd.state ▸ consistent_remove h hd.conn

/-- A connection after an event is from before, or the one that registered. -/
lemma conns_handleEvent {e : Event} {id : ConnId} {rec : ConnRecord}
    (hid : (s.handleEvent o e).1.conns.lookup id = some rec) : s.conns.lookup id = some rec ∨
      id = s.nextId ∧ ∃ st r, e = .registered st r ∧ rec = ⟨r.slug, r.group, st⟩ := by
  cases e with
  | registered st r =>
    rw [State.handleEvent] at hid
    rcases handleRegistration_cases o s st r with ⟨-, hr⟩ | hu | ha
    · exact Or.inl (hr.state ▸ hid)
    · exact Or.inl (hu.state ▸ hid)
    · rw [ha.state, lookup_conns_insert] at hid
      split at hid
      · rename_i heq
        exact Or.inr ⟨heq, st, r, rfl, (Option.some.inj hid).symm⟩
      · exact Or.inl hid
  | departed id₀ =>
    rw [State.handleEvent] at hid
    rcases handleDeparture_cases o s id₀ with ⟨-, heq⟩ | ⟨rec₀, hd⟩
    · rw [heq] at hid
      exact Or.inl hid
    · rw [hd.state, lookup_conns_remove] at hid
      split at hid
      · cases hid
      · exact Or.inl hid

/-- Only its departure takes a connection out of the maps. -/
lemma lookup_handleEvent_of_ne {e : Event} {id : ConnId} {rec : ConnRecord} (hs : Consistent s)
    (hid : s.conns.lookup id = some rec) (hne : e ≠ .departed id) :
    (s.handleEvent o e).1.conns.lookup id = some rec := by
  cases e with
  | registered st r =>
    rw [State.handleEvent]
    rcases handleRegistration_cases o s st r with ⟨-, hr⟩ | hu | ha
    · rw [hr.state, hid]
    · rw [hu.state, hid]
    · rw [ha.state, lookup_conns_insert, if_neg (ne_of_lt (hs.fresh id rec hid)), hid]
  | departed id₀ =>
    rw [State.handleEvent]
    rcases handleDeparture_cases o s id₀ with ⟨-, heq⟩ | ⟨rec₀, hd⟩
    · rw [heq, hid]
    · have hne' : id ≠ id₀ := by
        rintro rfl
        exact hne rfl
      rw [hd.state, lookup_conns_remove, if_neg hne', hid]

lemma nextId_le_handleEvent (o : Outcomes) (s : State) (e : Event) :
    s.nextId ≤ (s.handleEvent o e).1.nextId := by
  cases e with
  | registered st r =>
    rw [State.handleEvent]
    rcases handleRegistration_cases o s st r with ⟨-, hr⟩ | hu | ha
    · rw [hr.state]
    · rw [hu.state]
    · rw [ha.state]
      exact Nat.le_succ _
  | departed id =>
    rw [State.handleEvent]
    rcases handleDeparture_cases o s id with ⟨-, heq⟩ | ⟨rec, hd⟩
    · rw [heq]
    · rw [hd.state]
      exact le_rfl

lemma baseDir_handleEvent (o : Outcomes) (s : State) (e : Event) :
    (s.handleEvent o e).1.baseDir = s.baseDir := by
  cases e with
  | registered st r =>
    rw [State.handleEvent]
    rcases handleRegistration_cases o s st r with ⟨-, hr⟩ | hu | ha
    · rw [hr.state]
    · rw [hu.state]
    · rw [ha.state]
      rfl
  | departed id =>
    rw [State.handleEvent]
    rcases handleDeparture_cases o s id with ⟨-, heq⟩ | ⟨rec, hd⟩
    · rw [heq]
    · rw [hd.state]
      rfl

/-- The slug and the group that an event is about. -/
def registrant (s : State) : Event → Option Register
  | .registered _ r => some r
  | .departed id => (s.conns.lookup id).map fun rec => ⟨rec.slug, rec.group⟩

/-- What is there stays as it is, unless the slug that the event is about is not registered then. -/
theorem lookup_handleEvent {ι : Type} {t : FileTree ι} {q : Path} {e : Event} (hq : q ∈ t)
    (h : ∀ r ∈ registrant s e, r.slug ∉ (s.handleEvent o e).1.group r.group →
      ¬ s.slugDir r.slug <+: q) :
    ((s.handleEvent o e).2.foldl Effect.onTree t).lookup q = t.lookup q := by
  cases e with
  | registered st r =>
    have hout := h r rfl
    rw [State.handleEvent] at hout ⊢
    rcases handleRegistration_cases o s st r with ⟨-, hr⟩ | hu | ha
    · rw [hr.tree]
    · rw [hu.state] at hout
      rw [hu.tree, FileTree.lookup_removeDirAll, if_neg (hout hu.new),
        FileTree.lookup_createDirAll_of_mem hq]
    · rw [ha.tree, FileTree.lookup_createDirAll_of_mem hq]
  | departed id =>
    rw [State.handleEvent] at h ⊢
    rcases handleDeparture_cases o s id with ⟨-, heq⟩ | ⟨rec, hd⟩
    · rw [heq]
      rfl
    · rw [hd.tree, FileTree.lookup_removeDirAll, if_neg (h ⟨rec.slug, rec.group⟩ ?_ ?_)]
      · rw [registrant, hd.conn]
        rfl
      · rw [hd.state, ← AList.lookup_isSome, lookup_group_remove, if_pos ⟨rfl, rfl⟩]
        exact fun hsome => by cases hsome

/-- A slug that gets registered gets its directory. -/
lemma dir_handleEvent {ι : Type} {t : FileTree ι} (hnew : r.slug ∉ s.group r.group)
    (hin : r.slug ∈ (s.handleEvent o (.registered st r)).1.group r.group)
    (hfile : ∀ x, t.lookup (s.slugDir r.slug) ≠ some (.file x)) :
    ((s.handleEvent o (.registered st r)).2.foldl Effect.onTree t).lookup (s.slugDir r.slug) =
      some .dir := by
  rw [State.handleEvent] at hin ⊢
  rcases handleRegistration_cases o s st r with ⟨-, hr⟩ | hu | ha
  · rw [hr.state] at hin
    exact absurd hin hnew
  · rw [hu.state] at hin
    exact absurd hin hnew
  · rw [ha.tree, FileTree.lookup_createDirAll]
    split
    · rfl
    · rename_i hsome
      cases hnode : t.lookup (s.slugDir r.slug) with
      | none => exact absurd ⟨List.prefix_refl _, hnode⟩ hsome
      | some node =>
        cases node with
        | dir => rfl
        | file x => exact absurd hnode (hfile x)

/-- The directories made are those that lead to the directory of the slug. -/
lemma new_dir_handleEvent {ι : Type} {t : FileTree ι} {q : Path} {e : Event}
    (hq : ((s.handleEvent o e).2.foldl Effect.onTree t).lookup q = some .dir) :
    t.lookup q = some .dir ∨ ∃ r ∈ registrant s e, q <+: s.slugDir r.slug := by
  have hmade : ∀ d : Path, (t.createDirAll d).lookup q = some .dir →
      t.lookup q = some .dir ∨ q <+: d := by
    intro d hd
    rw [FileTree.lookup_createDirAll] at hd
    split at hd
    · rename_i h
      exact Or.inr h.1
    · exact Or.inl hd
  cases e with
  | registered st r =>
    rw [State.handleEvent] at hq
    rcases handleRegistration_cases o s st r with ⟨-, hr⟩ | hu | ha
    · rw [hr.tree] at hq
      exact Or.inl hq
    · rw [hu.tree, FileTree.lookup_removeDirAll] at hq
      split at hq
      · cases hq
      · exact (hmade _ hq).imp_right fun hpre => ⟨r, rfl, hpre⟩
    · rw [ha.tree] at hq
      exact (hmade _ hq).imp_right fun hpre => ⟨r, rfl, hpre⟩
  | departed id =>
    rw [State.handleEvent] at hq
    rcases handleDeparture_cases o s id with ⟨-, heq⟩ | ⟨rec, hd⟩
    · rw [heq] at hq
      exact Or.inl hq
    · rw [hd.tree, FileTree.lookup_removeDirAll] at hq
      split at hq
      · cases hq
      · exact Or.inl hq

end Events

end Crossbridge.Supervisor
