import Crossbridge.Client.Peers
import Crossbridge.Supervisor.News
import Crossbridge.Topology.Sockets

/-!
What a server makes of the messages it is sent.

The messages a server has not read lead from the peers it knows to those it is to know
(`Proc.Heeds`), and each of its listeners has its socket in place, or is about to be removed
(`Sys.Serves`). The steps of the server keep both, where every bind succeeds, as long as it keeps
its stream (`informed_of_step`); so do the steps of other servers that leave its sockets alone
(`informed_of_other`).
-/

namespace Crossbridge.Topology

open Crossbridge.Protocol Crossbridge.Server Crossbridge.Supervisor

/-- With the messages of the inbox acted on, the server will have the peers `v`. -/
def Proc.Heeds (p : Proc) (inbox : List SupervisorMessage) (v : Finset String) : Prop :=
  match p.phase with
  | .registering _ => ∃ peers ns, inbox =
      .registerResponse (.ack peers) :: ns.map SupervisorMessage.notification ∧
        replay peers.toFinset ns = some v
  | .session _ todo => ∃ ns, inbox = ns.map SupervisorMessage.notification ∧
      replay (p.listeners.entries.keys.toFinset ∪ todo.toFinset) ns = some v
  | .closing _ _ => True
  | _ => False

/-- In a session, a socket of the server is in place unless its peer has left. -/
def Sys.Serves (y : Sys) (x : ProcId) (inbox : List SupervisorMessage) : Prop :=
  ∀ st todo, (y.proc x).phase = .session st todo → ∀ q ∈ (y.proc x).listeners.entries,
    y.InPlace x q ∨ .notification (.peerLeft q) ∈ inbox

/-- The server that holds the stream knows its peers, and its sockets are in place. -/
structure Informed (y : Sys) (x : ProcId) (st : StreamId) (v : Finset String) : Prop where
  heeds : (y.proc x).Heeds (y.stream st).inbox v
  serves : y.Serves x (y.stream st).inbox

section Own

variable {f : String → String} {R : Entry → Prop} {y y' : Sys} {x : ProcId} {a : Action}
  {st : StreamId} {v : Finset String} {n : Notification} {inbox : List SupervisorMessage}

lemma mem_keys_union {p : Proc} {todo : List String} {q : String} :
    q ∈ p.listeners.entries.keys.toFinset ∪ todo.toFinset ↔ q ∈ p.listeners.entries ∨ q ∈ todo := by
  rw [Finset.mem_union, List.mem_toFinset, List.mem_toFinset, AList.mem_keys]

/-- Two peers have two sockets of one server. -/
lemma Ordered.socket_ne (h : Ordered f R y) (hlive : (y.proc x).phase.Live) {p q : String}
    (hp : Path.IsName p) (hq : Path.IsName q) (hne : q ≠ p) :
    listenerSocket y.root q (y.proc x).slug ≠ listenerSocket y.root p (y.proc x).slug := by
  rw [listenerSocket_of_isName hp (h.own hlive), listenerSocket_of_isName hq (h.own hlive)]
  intro heq
  obtain ⟨hdir, -⟩ := List.append_inj' heq rfl
  exact hne (by simpa using hdir)

/-- A server that acts on a notification of its session: its sockets stay in place. -/
lemma Sys.Serves.act {inbox' : List SupervisorMessage} (hs : y.Serves x inbox)
    (hin : ∀ m ∈ inbox, m = .notification n ∨ m ∈ inbox') (h : Ordered f R y) {todo : List String}
    (hph : (y.proc x).phase = .session st todo) (hn : Fits f (y.proc x).group (peerOf n)) (out : AddOutcome)
    (hout : ∀ p, n = .peerJoined p → out = .bound)
    (hact : ((y'.proc x).listeners, y'.tree) =
      (y.proc x).listeners.act y.root y.tree out y.nextSock n) : y'.Serves x inbox' := by
  intro st' todo' _ q hq
  have hself : (y'.proc x).listeners =
      ((y.proc x).listeners.act y.root y.tree out y.nextSock n).1 := congrArg Prod.fst hact
  have htree : y'.tree = ((y.proc x).listeners.act y.root y.tree out y.nextSock n).2 :=
    congrArg Prod.snd hact
  have hplaced := h.sockets.placed x
  have hlive : (y.proc x).phase.Live := by rw [hph]; trivial
  unfold Sys.InPlace
  rw [htree]
  by_cases hpeer : q = peerOf n
  · subst hpeer
    cases n with
    | peerJoined p =>
      obtain rfl := hout p rfl
      refine Or.inl ⟨_, (congrArg (fun ls => ls.entries.lookup p) hself).trans
        ListenerSet.lookup_act_joined, ListenerSet.file_act_joined⟩
    | peerLeft p =>
      rw [hself, ListenerSet.mem_act_left] at hq
      exact absurd rfl hq.1
  · have hold : q ∈ (y.proc x).listeners.entries := by
      rw [hself] at hq
      exact (mem_act hq).resolve_left hpeer
    have hfits := h.named.peers x q (Or.inl hold)
    rcases hs st todo hph q hold with ⟨e, he, hfile⟩ | hleft
    · refine Or.inl ⟨e, ?_, ((ListenerSet.sameBut_act hplaced).files _ ?_ _).mpr hfile⟩
      · rw [hself, ListenerSet.lookup_act_ne hpeer, he]
      · rw [hplaced q e he]
        exact h.socket_ne hlive hn.1 hfits.1 hpeer
    · refine Or.inr ((hin _ hleft).resolve_left fun heq => hpeer ?_)
      rw [← SupervisorMessage.notification.inj heq]
      rfl

/-- A server follows a notification that it acts on. -/
lemma Proc.Heeds.act {p : Proc} {todo : List String} {ns : List Notification} {root : Path}
    {t : FileTree SockId} {out : AddOutcome} {sock : SockId}
    (hreplay : replay (p.listeners.entries.keys.toFinset ∪ todo.toFinset) (n :: ns) = some v)
    (hout : ∀ q, n = .peerJoined q → out = .bound)
    (hleft : ∀ q, n = .peerLeft q → q ∉ todo) :
    replay ((p.listeners.act root t out sock n).1.entries.keys.toFinset ∪ todo.toFinset) ns =
      some v := by
  rw [replay_cons, Option.bind_eq_some_iff] at hreplay
  obtain ⟨w, hw, hreplay⟩ := hreplay
  refine Eq.trans (congrArg (replay · ns) ?_) hreplay
  cases n with
  | peerJoined q =>
    obtain rfl := hout q rfl
    rw [follow] at hw
    split at hw
    · cases hw
    · rw [← Option.some.inj hw]
      ext q'
      rw [Finset.mem_insert, mem_keys_union, Finset.mem_union, List.mem_toFinset, List.mem_toFinset,
        ← AList.mem_keys, ListenerSet.mem_act_joined, or_assoc]
  | peerLeft q =>
    rw [follow] at hw
    split at hw
    · rw [← Option.some.inj hw]
      ext q'
      rw [Finset.mem_erase, mem_keys_union, Finset.mem_union, List.mem_toFinset, List.mem_toFinset,
        ← AList.mem_keys, ListenerSet.mem_act_left]
      constructor
      · rintro (⟨hne, hin⟩ | hin)
        · exact ⟨hne, Or.inl hin⟩
        · exact ⟨fun heq => hleft q rfl (heq ▸ hin), Or.inr hin⟩
      · rintro ⟨hne, hin | hin⟩
        · exact Or.inl ⟨hne, hin⟩
        · exact Or.inr hin
    · cases hw

lemma Proc.heeds_registering {p : Proc} (hph : p.phase = .registering st) : p.Heeds inbox v ↔
    ∃ peers ns, inbox = .registerResponse (.ack peers) :: ns.map SupervisorMessage.notification ∧
      replay peers.toFinset ns = some v := by
  rw [Proc.Heeds, hph]

lemma Proc.heeds_session {p : Proc} {todo : List String} (hph : p.phase = .session st todo) :
    p.Heeds inbox v ↔ ∃ ns, inbox = ns.map SupervisorMessage.notification ∧
      replay (p.listeners.entries.keys.toFinset ∪ todo.toFinset) ns = some v := by
  rw [Proc.Heeds, hph]

lemma Proc.heeds_of_session {p : Proc} (st : StreamId) (todo : List String) (ns : List Notification)
    (hph : p.phase = .session st todo) (hinbox : inbox = ns.map SupervisorMessage.notification)
    (hreplay : replay (p.listeners.entries.keys.toFinset ∪ todo.toFinset) ns = some v) :
    p.Heeds inbox v := (Proc.heeds_session hph).mpr ⟨ns, hinbox, hreplay⟩

/-- A server that closes its listeners has nothing to know. -/
lemma informed_closing (st' : Option StreamId) (exit : Bool)
    (hph : (y.proc x).phase = .closing st' exit) : Informed y x st v := by
  refine ⟨?_, fun st todo hph' => ?_⟩
  · rw [Proc.Heeds, hph]
    trivial
  · rw [hph] at hph'
    cases hph'

/-- An accept loop that stops leaves its entry and its socket. -/
lemma Informed.acceptError (hi : Informed y x st v) {peer : String} {e : Entry}
    (he : (y.proc x).listeners.entries.lookup peer = some e) :
    Informed (y.setProc x { y.proc x with listeners := ⟨(y.proc x).slug,
      (y.proc x).listeners.entries.insert peer { e with running := false }⟩ }) x st v := by
  have hmem : peer ∈ (y.proc x).listeners.entries := AList.lookup_isSome.mp (by rw [he]; rfl)
  have hkeys : ∀ q, q ∈ (y.proc x).listeners.entries.insert peer { e with running := false } ↔
      q ∈ (y.proc x).listeners.entries := fun q => by
    rw [AList.mem_insert]
    exact or_iff_right_of_imp fun hq => hq ▸ hmem
  have hset : ((y.proc x).listeners.entries.insert peer { e with running := false }).keys.toFinset =
      (y.proc x).listeners.entries.keys.toFinset := by
    ext q
    rw [List.mem_toFinset, List.mem_toFinset, ← AList.mem_keys, ← AList.mem_keys, hkeys]
  have hheeds := hi.heeds
  refine ⟨?_, fun st todo hph q hq => ?_⟩
  · unfold Proc.Heeds at hheeds ⊢
    rw [Sys.setProc_proc, if_pos rfl]
    simp only [hset]
    exact hheeds
  · rw [Sys.setProc_proc, if_pos rfl] at hph hq
    refine (hi.serves st todo hph q ((hkeys q).mp hq)).imp_left fun hin => ?_
    obtain ⟨e', he', hfile⟩ := hin
    rw [Sys.InPlace, Sys.setProc_proc, if_pos rfl]
    by_cases hpeer : q = peer
    · subst hpeer
      obtain rfl := Option.some.inj (he.symm.trans he')
      exact ⟨_, AList.lookup_insert _, hfile⟩
    · exact ⟨e', by rw [AList.lookup_insert_ne hpeer, he'], hfile⟩

/-- **The steps of a server** that keeps its stream, with binds that succeed. -/
theorem informed_of_step (h : Ordered f R y) (ha : a.actor = some x) (hout : a.out = .bound)
    (hst : (y.proc x).phase.stream = some st) (hst' : (y'.proc x).phase.stream = some st)
    (hi : Informed y x st v) (hstep : step y a = some y') : Informed y' x st v := by
  cases ownStep_of_step ha hstep with
  | @ack st₀ peers rest out hph hinbox =>
    obtain rfl : st₀ = st := by
      rw [hph] at hst
      exact Option.some.inj hst
    obtain ⟨peers', ns, hin, hreplay⟩ := (Proc.heeds_registering hph).mp hi.heeds
    obtain ⟨hack, rfl⟩ := List.cons.inj (hinbox.symm.trans hin)
    obtain rfl := RegisterResponse.ack.inj (SupervisorMessage.registerResponse.inj hack)
    -- the session starts with the peers of the `Ack`, and without listeners
    have hnone : (y.proc x).listeners.entries = ∅ := by
      refine h.links.idle x ?_
      rw [hph]
      trivial
    refine ⟨?_, fun st todo _ q hq => ?_⟩
    · refine Proc.heeds_of_session st₀ peers ns (by simp) (by simp) ?_
      simpa [hnone] using hreplay
    · have hempty : q ∈ (y.proc x).listeners.entries := by simpa using hq
      rw [hnone] at hempty
      exact absurd hempty (AList.notMem_empty q)
  | @news st₀ n rest out hph hinbox =>
    obtain rfl : st₀ = st := by
      rw [hph] at hst
      exact Option.some.inj hst
    obtain rfl : out = .bound := hout
    obtain ⟨ns, hin, hreplay⟩ := (Proc.heeds_session hph).mp hi.heeds
    cases ns with
    | nil => cases hinbox.symm.trans hin
    | cons n' ns =>
      obtain ⟨hn', rfl⟩ := List.cons.inj (hinbox.symm.trans hin)
      obtain rfl := SupervisorMessage.notification.inj hn'
      have hn : Fits f (y.proc x).group (peerOf n) := by
        refine h.known (Or.inr (Or.inr ⟨st₀, .notification n, hst, ?_, List.mem_singleton_self _⟩))
        rw [hin]
        exact List.mem_cons_self
      refine ⟨Proc.heeds_of_session st₀ [] ns ?_ (by simp) ?_, ?_⟩
      · rw [Sys.act_proc, if_pos rfl]
        exact hph
      · rw [Sys.act_proc, if_pos rfl]
        exact Proc.Heeds.act hreplay (fun _ _ => rfl) fun q _ => List.not_mem_nil
      · refine hi.serves.act (n := n) (fun m hm => ?_) h hph hn .bound (fun _ _ => rfl) ?_
        · rw [hin, List.map_cons, List.mem_cons] at hm
          simpa using hm
        · rw [Sys.act_proc, if_pos rfl]
          rfl
  | @addNext st₀ peer todo out hph =>
    obtain rfl : st₀ = st := by
      rw [hph] at hst
      exact Option.some.inj hst
    obtain rfl : out = .bound := hout
    obtain ⟨ns, hin, hreplay⟩ := (Proc.heeds_session hph).mp hi.heeds
    have hn : Fits f (y.proc x).group peer := by
      refine h.named.peers x peer (Or.inr ?_)
      rw [hph]
      exact List.mem_cons_self
    refine ⟨Proc.heeds_of_session st₀ todo ns (by simp) hin ?_, ?_⟩
    · refine Eq.trans (congrArg (replay · ns) ?_) hreplay
      ext q
      rw [Sys.setPhase_proc, if_pos rfl, Sys.act_proc, if_pos rfl, mem_keys_union, mem_keys_union,
        List.mem_cons, ListenerSet.mem_act_joined, or_assoc, or_left_comm]
    · refine hi.serves.act (n := .peerJoined peer) (fun m hm => Or.inr hm) h hph hn .bound
        (fun _ _ => rfl) ?_
      rw [Sys.setPhase_proc, if_pos rfl, Sys.act_proc, if_pos rfl]
      rfl
  | @clearOne st₀ exit peer hph =>
    exact informed_closing st₀ exit (by rw [Sys.act_proc, if_pos rfl]; exact hph)
  | leave hz htree hheard hlive hstream =>
    rw [Sys.setPhase_proc, if_pos rfl, hstream] at hst'
    cases hst'
  | @close st₀ => exact informed_closing st₀ true (by simp)
  | kill =>
    rw [Sys.setProc_proc, if_pos rfl] at hst'
    cases hst'
  | acceptError he => exact hi.acceptError he

/-- **The steps of other servers** that leave its sockets alone. -/
theorem informed_of_other {x' : ProcId} (h : Ordered f R y) (ha : a.actor = some x') (hx : x ≠ x')
    (hst : (y.proc x).phase.stream = some st)
    (hspares : ∀ n, y.heard a = some n → (y.proc x).slug = (y.proc x').slug → ¬ y.InPlace x (peerOf n))
    (hi : Informed y x st v) (hstep : step y a = some y') : Informed y' x st v := by
  have hp := procStep_of_step ha (h.links.idle x') hstep
  have hstream : y'.stream st = y.stream st := hp.stream st fun hst' =>
    hx ((h.links.holds x st hst).2.1.symm.trans (h.links.holds x' st hst').2.1)
  refine ⟨?_, fun st' todo hph q hq => ?_⟩
  · rw [hp.other x hx, hstream]
    exact hi.heeds
  · rw [hp.other x hx] at hph hq
    rw [hstream]
    refine (hi.serves st' todo hph q hq).imp_left fun hin => ?_
    obtain ⟨e, he, hfile⟩ := hin
    refine ⟨e, by rw [hp.other x hx, he], ?_⟩
    rcases listeners_of_step ha hstep with ⟨-, htree, -⟩ | ⟨n, hheard, hact, hknown⟩ | ⟨-, htree, -⟩ |
      ⟨-, -, -, htree, -⟩
    · rw [htree, hfile]
    · have htree : y'.tree = ((y.proc x').listeners.act y.root y.tree a.out y.nextSock n).2 :=
        congrArg Prod.snd hact
      rw [htree, (ListenerSet.sameBut_act (h.sockets.placed x')).files]
      · exact hfile
      · -- the same socket would be one that is spared
        rw [(h.path he).1, listenerSocket_of_isName (h.known hknown).1 (h.own hp.live)]
        intro heq
        obtain ⟨hdir, hname⟩ := List.append_inj' heq rfl
        obtain rfl : q = peerOf n := by simpa using hdir
        exact hspares n hheard (Client.append_right_injective (List.singleton_inj.mp hname))
          ⟨e, he, hfile⟩
    · rw [htree, hfile]
    · rw [htree, hfile]

/-- One more notification that a server is sent. -/
lemma Proc.Heeds.told {p : Proc} {w : Finset String} (hh : p.Heeds inbox v) (hn : follow v n = some w) :
    p.Heeds (inbox ++ [.notification n]) w := by
  unfold Proc.Heeds at hh ⊢
  split at hh
  · obtain ⟨peers, ns, rfl, hreplay⟩ := hh
    refine ⟨peers, ns ++ [n], by simp, ?_⟩
    rw [replay_append, hreplay, Option.bind_some, hn]
  · obtain ⟨ns, rfl, hreplay⟩ := hh
    refine ⟨ns ++ [n], by simp, ?_⟩
    rw [replay_append, hreplay, Option.bind_some, hn]
  · trivial
  · exact hh

end Own

end Crossbridge.Topology
