import Crossbridge.Supervisor.EventLoop
import Crossbridge.Supervisor.News

/-!
What a server knows of its peers.

A server that starts from the peers of its `Ack` and follows the notifications (`replay`) has at
every time the others of its group, as the supervisor has them. The invariant (`Inv`) ties the
writes on each stream to the maps: a stream gets one response, and notifications only while it
belongs to a connection; a connection with a failed write has its departure in the queue.
-/

namespace Crossbridge.Supervisor

open Crossbridge.Protocol Crossbridge.Runs

/-! ### The invariant -/

/-- One response, and notifications only after an `Ack` that was written. -/
def Conversation (ws : List (SupervisorMessage × Bool)) : Prop :=
  ∃ resp ok, ∃ notes : List (Notification × Bool),
    ws = (.registerResponse resp, ok) :: notes.map note ∧
      (notes = [] ∨ ok = true ∧ ∃ peers, resp = .ack peers)

/-- An `Ack` and notifications that lead, if all of them were written, from its peers to `v`. -/
def View (ws : List (SupervisorMessage × Bool)) (v : Finset String) : Prop :=
  ∃ (peers : List String) (notes : List (Notification × Bool)),
    ws = (.registerResponse (.ack peers), true) :: notes.map note ∧ peers.Nodup ∧
      ((∀ n ∈ notes, n.2 = true) → replay peers.toFinset (notes.map Prod.fst) = some v)

structure Inv (w : World) : Prop where
  maps : Consistent w.state
  streams : OwnStreams w.state
  /-- The registration of a connection has been handled. -/
  handled : ∀ id rec, w.state.conns.lookup id = some rec →
    rec.stream < w.nextStream ∧ rec.stream ∉ waiting w.queue
  waiting_lt : ∀ st ∈ waiting w.queue, st < w.nextStream
  waiting_nodup : (waiting w.queue).Nodup
  /-- Nothing is written on a stream before its registration is handled. -/
  silent : ∀ st, st ∈ waiting w.queue ∨ w.nextStream ≤ st → writesOn st w.log = []
  /-- Then there is one response, and there are notifications if it was an `Ack`. -/
  form : ∀ st < w.nextStream, st ∉ waiting w.queue → Conversation (writesOn st w.log)
  /-- A connection whose writes succeeded knows the others of its group. -/
  view : ∀ id rec, w.state.conns.lookup id = some rec →
    View (writesOn rec.stream w.log) (others w.state rec)
  /-- A connection with a failed write is about to depart. -/
  doomed : ∀ id rec, w.state.conns.lookup id = some rec →
    ∀ x ∈ writesOn rec.stream w.log, x.2 = false → .departed id ∈ w.queue

lemma inv_init (baseDir : Path) : Inv (World.init baseDir) where
  maps := consistent_new baseDir
  streams id rec id' rec' h := by simp [World.init, State.new] at h
  handled id rec h := by simp [World.init, State.new] at h
  waiting_lt st h := by simp [World.init, waiting] at h
  waiting_nodup := List.nodup_nil
  silent st _ := rfl
  form st h := absurd h (Nat.not_lt_zero st)
  view id rec h := by simp [World.init, State.new] at h
  doomed id rec h := by simp [World.init, State.new] at h

section Keep

variable {w w' : World} {e : Event} {res : State × List Effect}

/-- The step of the loop that handles an event. -/
structure Handled (e : Event) (res : State × List Effect) (w w' : World) : Prop where
  queue : ∃ rest, w.queue = e :: rest ∧ w'.queue = rest ++ sentEvents res.2
  state : w'.state = res.1
  next : w'.nextStream = w.nextStream
  log : w'.log = w.log ++ res.2

lemma Handled.waiting (hh : Handled e res w w') :
    waiting w.queue = Supervisor.waiting [e] ++ Supervisor.waiting w'.queue := by
  obtain ⟨rest, hqueue, hqueue'⟩ := hh.queue
  rw [hqueue, hqueue', waiting_append rest, waiting_sentEvents, List.append_nil, ← waiting_append]
  rfl

lemma Handled.writes (hh : Handled e res w w') (st : StreamId) :
    writesOn st w'.log = writesOn st w.log ++ writesOn st res.2 := by
  rw [hh.log, writesOn_append]

/-- The stream of an event is no longer in the queue. -/
lemma Handled.apart (hh : Handled e res w w') (h : Inv w) {st : StreamId}
    (hst : st ∈ Supervisor.waiting [e]) : st < w.nextStream ∧ st ∉ Supervisor.waiting w'.queue := by
  have hnodup := h.waiting_nodup
  rw [hh.waiting] at hnodup
  refine ⟨h.waiting_lt st (hh.waiting ▸ List.mem_append_left _ hst), fun hin => ?_⟩
  exact (List.disjoint_of_nodup_append hnodup) hst hin

/-- A connection that is told what its group asks for still knows the others of its group. -/
lemma Inv.view_keep (h : Inv w) (hh : Handled e res w w') {id : ConnId} {rec : ConnRecord}
    (hid : w.state.conns.lookup id = some rec) (ht : Told w.state res id rec) :
    View (writesOn rec.stream w'.log) (others w'.state rec) := by
  obtain ⟨peers, notes, hwrites, hnodup, hreplay⟩ := h.view id rec hid
  rw [hh.writes, hh.state]
  rcases ht with ⟨hsame, hothers⟩ | ⟨n, ok, hmore, hfollow, -⟩
  · refine ⟨peers, notes, ?_, hnodup, fun hok => ?_⟩
    · rw [hsame, List.append_nil, hwrites]
    · rw [hothers]
      exact hreplay hok
  · refine ⟨peers, notes ++ [(n, ok)], ?_, hnodup, fun hok => ?_⟩
    · rw [hmore, hwrites, List.map_append, List.map_singleton, List.cons_append]
    · have hbefore := hreplay fun m hm => hok m (List.mem_append_left _ hm)
      rw [List.map_append, List.map_singleton, replay_append, hbefore, Option.bind_some]
      exact hfollow

/-- And if it could not be told, it is about to depart. -/
lemma Inv.doomed_keep (h : Inv w) (hh : Handled e res w w') {id : ConnId} {rec : ConnRecord}
    (hid : w.state.conns.lookup id = some rec) (hne : e ≠ .departed id)
    (ht : Told w.state res id rec) (x : SupervisorMessage × Bool)
    (hx : x ∈ writesOn rec.stream w'.log) (hf : x.2 = false) : .departed id ∈ w'.queue := by
  obtain ⟨rest, hqueue, hqueue'⟩ := hh.queue
  rw [hh.writes, List.mem_append] at hx
  rw [hqueue', List.mem_append]
  rcases hx with hx | hx
  · have hin := h.doomed id rec hid x hx hf
    rw [hqueue] at hin
    exact Or.inl ((List.mem_cons.mp hin).resolve_left hne.symm)
  · rcases ht with ⟨hsame, -⟩ | ⟨n, ok, hmore, -, hsent⟩
    · rw [hsame] at hx
      cases hx
    · rw [hmore, List.mem_singleton] at hx
      rw [hx] at hf
      exact Or.inr (hsent hf)

/-- An event that writes nothing and changes no map. -/
lemma inv_enqueue {q : List Event} (next : StreamId) (h : Inv w)
    (hstate : w'.state = w.state) (hlog : w'.log = w.log) (hqueue : w'.queue = w.queue ++ q)
    (hnext : w'.nextStream = next) (hle : w.nextStream ≤ next)
    (hnew : ∀ st, st ∈ waiting q ↔ w.nextStream ≤ st ∧ st < next) (hnodup : (waiting q).Nodup) :
    Inv w' := by
  have hwaiting : waiting w'.queue = waiting w.queue ++ waiting q := by
    rw [hqueue, waiting_append]
  have hmem : ∀ st, st ∈ waiting w'.queue ↔ st ∈ waiting w.queue ∨ w.nextStream ≤ st ∧ st < next := by
    intro st
    rw [hwaiting, List.mem_append, hnew]
  refine ⟨hstate ▸ h.maps, hstate ▸ h.streams, fun id rec hid => ?_, fun st hst => ?_, ?_,
    fun st hst => ?_, fun st hlt hst => ?_, fun id rec hid => ?_, fun id rec hid x hx hf => ?_⟩
  · rw [hstate] at hid
    obtain ⟨hlt, hnot⟩ := h.handled id rec hid
    refine ⟨hnext ▸ lt_of_lt_of_le hlt hle, fun hin => ?_⟩
    rcases (hmem _).mp hin with hin | hin
    · exact hnot hin
    · exact absurd hlt (Nat.not_lt.mpr hin.1)
  · rw [hnext]
    rcases (hmem st).mp hst with hst | hst
    · exact lt_of_lt_of_le (h.waiting_lt st hst) hle
    · exact hst.2
  · rw [hwaiting]
    refine List.Nodup.append h.waiting_nodup hnodup fun st hst hst' => ?_
    exact absurd (h.waiting_lt st hst) (Nat.not_lt.mpr ((hnew st).mp hst').1)
  · rw [hlog]
    refine h.silent st ?_
    rcases hst with hst | hst
    · exact ((hmem st).mp hst).imp_right And.left
    · exact Or.inr (hle.trans (hnext ▸ hst))
  · rw [hlog]
    have hold : st ∉ waiting w.queue := fun hin => hst ((hmem st).mpr (Or.inl hin))
    by_cases hst' : st < w.nextStream
    · exact h.form st hst' hold
    · exact absurd ((hmem st).mpr (Or.inr ⟨Nat.not_lt.mp hst', hnext ▸ hlt⟩)) hst
  · rw [hstate] at hid ⊢
    rw [hlog]
    exact h.view id rec hid
  · rw [hstate] at hid
    rw [hlog] at hx
    rw [hqueue]
    exact List.mem_append_left _ (h.doomed id rec hid x hx hf)

lemma View.conversation {ws : List (SupervisorMessage × Bool)} {v : Finset String} (h : View ws v) :
    Conversation ws := by
  obtain ⟨peers, notes, hws, -, -⟩ := h
  exact ⟨_, _, notes, hws, Or.inr ⟨rfl, peers, rfl⟩⟩

/-- **Handling an event** keeps the invariant. -/
theorem inv_handled (h : Inv w) (hh : Handled e res w w') (hr : Handling w.state e res) : Inv w' := by
  have hbefore : ∀ st ∈ waiting [e], writesOn st w.log = [] := fun st hst =>
    h.silent st (Or.inl (hh.waiting ▸ List.mem_append_left _ hst))
  have hview : ∀ id rec, res.1.conns.lookup id = some rec →
      View (writesOn rec.stream w'.log) (others w'.state rec) := by
    intro id rec hid
    rcases hr.conns id rec hid with ⟨hid, -, ht⟩ | ⟨heq, peers, hnodup, hothers, hwrites⟩
    · exact h.view_keep hh hid ht
    · have hst := mem_waiting_of_eq heq
      rw [hh.writes, hh.state, hbefore _ hst, List.nil_append, hwrites]
      exact ⟨peers, [], rfl, hnodup, fun _ => congrArg some hothers⟩
  have hstate := hh.state
  refine ⟨hstate ▸ hr.maps, hstate ▸ hr.streams, fun id rec hid => ?_, fun st hst => ?_, ?_,
    fun st hst => ?_, fun st hlt hst => ?_, fun id rec hid => hview id rec (hstate ▸ hid),
    fun id rec hid x hx hf => ?_⟩
  · rw [hh.next]
    rcases hr.conns id rec (hstate ▸ hid) with ⟨hid, -, -⟩ | ⟨heq, -⟩
    · obtain ⟨hlt, hnot⟩ := h.handled id rec hid
      rw [hh.waiting] at hnot
      exact ⟨hlt, fun hin => hnot (List.mem_append_right _ hin)⟩
    · exact hh.apart h (mem_waiting_of_eq heq)
  · rw [hh.next]
    exact h.waiting_lt st (hh.waiting ▸ List.mem_append_right _ hst)
  · have hnodup := h.waiting_nodup
    rw [hh.waiting] at hnodup
    exact hnodup.of_append_right
  · have hold : st ∈ waiting w.queue ∨ w.nextStream ≤ st := by
      rw [hh.waiting, ← hh.next]
      exact hst.imp_left (List.mem_append_right _)
    have hnot : st ∉ waiting [e] := by
      intro hin
      obtain ⟨hlt, hnew⟩ := hh.apart h hin
      rcases hst with hst | hst
      · exact hnew hst
      · exact absurd hlt (Nat.not_lt.mpr (hh.next ▸ hst))
    rw [hh.writes, h.silent st hold, List.nil_append]
    refine hr.silent st hnot fun id rec hid heq => ?_
    rcases hr.conns id rec hid with ⟨hid, -, -⟩ | ⟨he, -⟩
    · obtain ⟨hlt, hnew⟩ := h.handled id rec hid
      rcases hold with hin | hle
      · exact hnew (heq ▸ hin)
      · exact absurd hlt (Nat.not_lt.mpr (heq ▸ hle))
    · exact hnot (heq ▸ mem_waiting_of_eq he)
  · by_cases hex : ∃ id rec, res.1.conns.lookup id = some rec ∧ rec.stream = st
    · obtain ⟨id, rec, hid, rfl⟩ := hex
      exact (hview id rec hid).conversation
    · by_cases hin : st ∈ waiting [e]
      · obtain ⟨resp, ok, hwrites, -⟩ := (hr.response st hin).resolve_left hex
        rw [hh.writes, hbefore st hin, List.nil_append, hwrites]
        exact ⟨resp, ok, [], rfl, Or.inl rfl⟩
      · rw [hh.writes, hr.silent st hin fun id rec hid heq => hex ⟨id, rec, hid, heq⟩, List.append_nil]
        refine h.form st (hh.next ▸ hlt) fun hold => ?_
        rw [hh.waiting] at hold
        rcases List.mem_append.mp hold with hold | hold
        · exact hin hold
        · exact hst hold
  · rcases hr.conns id rec (hstate ▸ hid) with ⟨hid, hne, ht⟩ | ⟨heq, peers, -, -, hwrites⟩
    · exact h.doomed_keep hh hid hne ht x hx hf
    · have hst := mem_waiting_of_eq heq
      rw [hh.writes, hbefore _ hst, List.nil_append, hwrites, List.mem_singleton] at hx
      rw [hx] at hf
      cases hf

end Keep

/-! ### The runs -/

lemma handled_of_step {w w' : World} {o : Outcomes} (hstep : step w (.handle o) = some w') :
    ∃ e, Handled e (w.state.handleEvent o e) w w' := by
  cases stepped_of_step hstep with
  | handle _ e rest hqueue => exact ⟨e, ⟨rest, hqueue, rfl⟩, rfl, rfl, rfl⟩

/-- **One step** keeps the invariant. -/
theorem inv_step {w w' : World} {a : Action} (h : Inv w) (hstep : step w a = some w') : Inv w' := by
  cases stepped_of_step hstep with
  | accept r =>
    refine inv_enqueue (w.nextStream + 1) h rfl rfl rfl rfl (Nat.le_succ _) (fun st => ?_)
      (List.nodup_singleton _)
    simp only [waiting, List.filterMap_cons, List.filterMap_nil, List.mem_singleton]
    exact ⟨fun heq => heq ▸ ⟨le_rfl, Nat.lt_succ_self _⟩,
      fun hst => le_antisymm (Nat.lt_succ_iff.mp hst.2) hst.1⟩
  | depart id =>
    refine inv_enqueue w.nextStream h rfl rfl rfl rfl le_rfl (fun st => ?_) List.nodup_nil
    simp only [waiting, List.filterMap_cons, List.filterMap_nil, List.not_mem_nil, false_iff]
    exact fun hst => absurd hst.2 (Nat.not_lt.mpr hst.1)
  | handle o =>
    obtain ⟨e, hh⟩ := handled_of_step hstep
    refine inv_handled h hh (handling o h.maps h.streams fun st hst id rec hid heq => ?_)
    refine (h.handled id rec hid).2 ?_
    rw [hh.waiting, heq]
    exact List.mem_append_left _ hst
  | place p node | unlink p =>
    exact ⟨h.maps, h.streams, h.handled, h.waiting_lt, h.waiting_nodup, h.silent, h.form, h.view,
      h.doomed⟩

/-- What the supervisor has told its servers agrees with its maps. -/
structure ViewsAgree (w : World) : Prop where
  /-- On a stream whose registration was handled there is one response, and then notifications. -/
  form : ∀ st < w.nextStream, (∀ r, .registered st r ∉ w.queue) →
    Conversation (writesOn st w.log)
  /-- A connection whose writes succeeded can follow them to the others of its group. -/
  view : ∀ id rec, w.state.conns.lookup id = some rec →
    (∀ x ∈ writesOn rec.stream w.log, x.2 = true) → ∃ (peers : List String) (ns : List Notification),
      writesOn rec.stream w.log =
        (.registerResponse (.ack peers), true) :: ns.map (fun n => (.notification n, true)) ∧
      peers.Nodup ∧ replay peers.toFinset ns = some (others w.state rec)
  /-- With no event left, no connection has a failed write. -/
  settled : w.queue = [] → ∀ id rec, w.state.conns.lookup id = some rec →
    ∀ x ∈ writesOn rec.stream w.log, x.2 = true

lemma Inv.viewsAgree {w : World} (h : Inv w) : ViewsAgree w where
  form st hlt hst := h.form st hlt fun hin => by
    obtain ⟨r, hr⟩ := mem_waiting.mp hin
    exact hst r hr
  view id rec hid hok := by
    obtain ⟨peers, notes, hws, hnodup, hreplay⟩ := h.view id rec hid
    rw [hws] at hok
    have hnotes : ∀ n ∈ notes, n.2 = true := fun n hn =>
      hok (note n) (List.mem_cons_of_mem _ (List.mem_map_of_mem hn))
    refine ⟨peers, notes.map Prod.fst, ?_, hnodup, hreplay hnotes⟩
    rw [hws, List.map_map]
    refine congrArg _ (List.map_congr_left fun n hn => ?_)
    rw [note, hnotes n hn, Function.comp]
  settled hqueue id rec hid x hx := by
    by_contra hf
    have hin := h.doomed id rec hid x hx (by simpa using hf)
    rw [hqueue] at hin
    cases hin

/-- **Peer views agree with the supervisor**, in every run. -/
theorem viewsAgree_of_run {baseDir : Path} {w : World} {as : List Action}
    (hrun : exec step (World.init baseDir) as = some w) : ViewsAgree w :=
  (exec_inv (fun _ _ _ h hs => inv_step h hs) (inv_init baseDir) hrun).viewsAgree

/-- Three servers register; the news of the third does not reach the first, which so departs. -/
def lostNews : List Action :=
  [.accept ⟨"repo-a", "g"⟩, .accept ⟨"repo-b", "g"⟩, .accept ⟨"repo-c", "g"⟩,
    .handle (failing []), .handle (failing []), .handle (failing [0]), .handle (failing [])]

theorem viewsAgree_of_run_lostNews : ∃ w, exec step (World.init ["run"]) lostNews = some w ∧
    w.queue = [] ∧ ViewsAgree w := by
  have hrun : exec step (World.init ["run"]) lostNews = some _ := rfl
  exact ⟨_, hrun, rfl, viewsAgree_of_run hrun⟩

end Crossbridge.Supervisor
