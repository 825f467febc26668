import Crossbridge.Topology.Informed
import Crossbridge.Topology.Isolation

/-!
Peer discovery against registration.

When everything is read and handled (`Quiescent`), the client of a registered server lists the others
of its group (`Discovers`). The invariant behind it (`Synced`) says of every server that is
connected that the messages it has not read lead from the peers it knows to the others of its group,
and that the sockets in the tree are those of its listeners. It needs that no server is killed with
sockets in place, and that a server whose session has ended does not unlink what the next one of its
slug has bound (`Spares`); the socket of a killed server stays in the directories of its peers
(`killed_listed`).

Messages are read whole here; that a session can lose its place in the stream shows as a read that
fails.
-/

namespace Crossbridge.Topology

open Crossbridge.Protocol Crossbridge.Server Crossbridge.Supervisor Crossbridge.Runs

/-- Nothing is left to be read or handled, and every server that runs is in a session. -/
structure Quiescent (y : Sys) (s : Sup) : Prop where
  queue : s.queue = []
  /-- The end of a stream is noticed. -/
  noticed : ∀ id rec, s.state.conns.lookup id = some rec → (y.stream rec.stream).srvOpen = true
  session : ∀ x, (y.proc x).phase.Live → ∃ st, (y.proc x).phase = .session st [] ∧
    (y.stream st).inbox = [] ∧ (y.stream st).supOpen = true

/-- The clients of a registered server find the others of its group, sorted. -/
def Discovers (y : Sys) (s : Sup) : Prop :=
  ∀ id rec, s.state.conns.lookup id = some rec →
    Client.listPeers y.tree (Client.socketDir y.root rec.slug) =
      .ok ((others s.state rec).sort (· ≤ ·))

/-- The supervisor has a connection on the stream that the process holds. -/
def Sys.Registered (y : Sys) (x : ProcId) : Prop :=
  ∃ s id rec, y.sup = some s ∧ s.state.conns.lookup id = some rec ∧
    (y.proc x).phase.stream = some rec.stream

/-- What a server does to its listeners leaves the sockets alone that another one of its slug, which
is registered, has bound. -/
def Spares (y : Sys) (a : Action) : Prop :=
  ∀ x n, a.actor = some x → y.heard a = some n → ∀ x' ≠ x, (y.proc x').slug = (y.proc x).slug →
    y.Registered x' → ¬ y.InPlace x' (peerOf n)

structure Synced (f : String → String) (y : Sys) : Prop where
  ordered : Ordered f (fun _ => True) y
  /-- A registered server has its directory. -/
  dirs : ∀ s, y.sup = some s → ∀ id rec, s.state.conns.lookup id = some rec →
    y.tree.lookup (y.root ++ [rec.slug]) = some .dir
  /-- There are no directories below it. -/
  noDir : ∀ n m, y.tree.lookup (y.root ++ [n] ++ [m]) ≠ some .dir
  /-- A server that is connected is on its way to knowing its peers. -/
  informed : ∀ s, y.sup = some s → ∀ id rec, s.state.conns.lookup id = some rec →
    .departed id ∉ s.queue → (y.stream rec.stream).srvOpen = true →
    Informed y (y.stream rec.stream).owner rec.stream (others s.state rec)

section Discovery

variable {f : String → String} {y y' : Sys} {x : ProcId} {a : Action} {s : Sup}

lemma not_prefix_child {root : Path} {n m k : String} : ¬ root ++ [n] ++ [m] <+: root ++ [k] := by
  intro h
  have hlen := h.length_le
  simp at hlen

lemma synced_init (f : String → String) (root : Path) : Synced f (Sys.init root) where
  ordered := ordered_init f _ root
  dirs s h := by cases h
  noDir n m h := by
    simp only [Sys.init] at h
    rw [FileTree.lookup_createDirAll, AList.lookup_empty, if_neg] at h
    · cases h
    · intro hpre
      have hlen := hpre.1.length_le
      simp at hlen
  informed s h := by cases h

/-- Every file is two levels below the root. -/
lemma Synced.no_file (h : Synced f y) (n : String) (k : SockId) :
    y.tree.lookup (y.root ++ [n]) ≠ some (.file k) := by
  intro hfile
  obtain ⟨x, p, e, he, hpath, -, -⟩ := h.ordered.sockets.owner _ k hfile
  rw [(h.ordered.path he).1] at hpath
  have hlen := congrArg List.length hpath
  simp at hlen

/-! ### The steps of a server -/

/-- The directories are left alone. -/
lemma Ordered.dirs_proc {R : Entry → Prop} (h : Ordered f R y) (ha : a.actor = some x)
    (hstep : step y a = some y') :
    (∀ n, y.tree.lookup (y.root ++ [n]) = some .dir → y'.tree.lookup (y.root ++ [n]) = some .dir) ∧
      ∀ n m, y'.tree.lookup (y.root ++ [n] ++ [m]) = some .dir →
        y.tree.lookup (y.root ++ [n] ++ [m]) = some .dir := by
  have hp := procStep_of_step ha (h.links.idle x) hstep
  rcases listeners_of_step ha hstep with ⟨-, htree, -⟩ | ⟨n, -, hact, hknown⟩ | ⟨-, htree, -⟩ |
    ⟨-, -, -, htree, -⟩
  · rw [htree]
    exact ⟨fun _ hd => hd, fun _ _ hd => hd⟩
  · have hfits := h.known hknown
    have htree : y'.tree = ((y.proc x).listeners.act y.root y.tree a.out y.nextSock n).2 :=
      congrArg Prod.snd hact
    have hsame : SameBut _ _ y.tree
        ((y.proc x).listeners.act y.root y.tree a.out y.nextSock n).2 :=
      ListenerSet.sameBut_act (h.sockets.placed x)
    rw [listenerSocket_of_isName hfits.1 (h.own hp.live), peerDir, Path.join_of_isName hfits.1] at hsame
    rw [htree]
    refine ⟨fun k hd => hsame.dirs _ (fun heq => ?_) hd, fun k m hd => ?_⟩
    · have hlen := congrArg List.length heq
      simp at hlen
    · exact (hsame.new _ hd).resolve_right not_prefix_child
  · rw [htree]
    exact ⟨fun _ hd => hd, fun _ _ hd => hd⟩
  · rw [htree]
    exact ⟨fun _ hd => hd, fun _ _ hd => hd⟩

/-- **A step of a server** keeps the peers in sync. -/
lemma Synced.proc (h : Synced f y) (ha : a.actor = some x) (hf : StartsFit f a) (hout : a.out = .bound)
    (hkill : LeavesNone y a) (hspares : Spares y a) (hstep : step y a = some y') : Synced f y' := by
  have hp := procStep_of_step ha (h.ordered.links.idle x) hstep
  obtain ⟨hdirs, hnoDir⟩ := h.ordered.dirs_proc ha hstep
  refine ⟨ordered_step h.ordered (fun _ _ => trivial) hf hkill (fun _ _ _ _ _ => trivial) hstep,
    fun s hs id rec hid => ?_, fun n m hd => ?_, fun s hs id rec hid hdoomed hopen => ?_⟩
  · rw [hp.root]
    exact hdirs _ (h.dirs s (hp.sup ▸ hs) id rec hid)
  · rw [hp.root] at hd
    exact h.noDir n m (hnoDir n m hd)
  · obtain ⟨hopen, hkept⟩ := hp.srvOpen _ hopen
    have hi := h.informed s (hp.sup ▸ hs) id rec hid hdoomed hopen
    have hst := h.ordered.links.held _ hopen
    rw [hp.owner]
    by_cases hx : (y.stream rec.stream).owner = x
    · rw [hx] at hi hst ⊢
      exact informed_of_step h.ordered ha hout hst (hkept hst) hi hstep
    · exact informed_of_other h.ordered ha hx hst (fun n hn hslug => hspares x n ha hn _ hx hslug
        ⟨s, id, rec, hp.sup ▸ hs, hid, hst⟩) hi hstep

/-! ### The other steps -/

/-- A step that changes no file and no connection, and not what connected servers know. -/
lemma Synced.still (h : Synced f y) (hordered : Ordered f (fun _ => True) y') (hroot : y'.root = y.root)
    (htree : y'.tree = y.tree)
    (hsup : ∀ s', y'.sup = some s' → ∃ s, y.sup = some s ∧ s'.state = s.state ∧
      ∀ id, .departed id ∈ s.queue → .departed id ∈ s'.queue)
    (hstream : ∀ st < y.nextStream, (y'.stream st).inbox = (y.stream st).inbox ∧
      (y'.stream st).owner = (y.stream st).owner ∧ (y'.stream st).srvOpen = (y.stream st).srvOpen)
    (hproc : ∀ st, (y.stream st).srvOpen = true →
      y'.proc (y.stream st).owner = y.proc (y.stream st).owner) : Synced f y' := by
  refine ⟨hordered, fun s' hs' id rec hid => ?_, fun n m => ?_,
    fun s' hs' id rec hid hdoomed hopen => ?_⟩
  · obtain ⟨s, hs, hstate, -⟩ := hsup s' hs'
    rw [hroot, htree]
    exact h.dirs s hs id rec (hstate ▸ hid)
  · rw [hroot, htree]
    exact h.noDir n m
  · obtain ⟨s, hs, hstate, hqueue⟩ := hsup s' hs'
    rw [hstate] at hid ⊢
    obtain ⟨hinbox, howner, hopen'⟩ := hstream _ ((h.ordered.links.sup s hs).conns id rec hid).1
    rw [hopen'] at hopen
    rw [howner]
    have hi := h.informed s hs id rec hid (fun hin => hdoomed (hqueue id hin)) hopen
    have hsame := hproc _ hopen
    refine ⟨?_, fun st todo hph q hq => ?_⟩
    · rw [hsame, hinbox]
      exact hi.heeds
    · rw [hsame] at hph hq
      rw [Sys.InPlace, hsame, htree, hinbox]
      exact hi.serves st todo hph q hq

/-- **A step of no server, but for its start**, and of no event. -/
lemma Synced.env (h : Synced f y) (hordered : Ordered f (fun _ => True) y') (ha : a.actor = none)
    (hhandle : ∀ o, a ≠ .handle o) (hstep : step y a = some y') : Synced f y' := by
  cases a with
  | start x slug group =>
    obtain ⟨habsent, rfl⟩ := step_start hstep
    refine h.still hordered rfl rfl (fun s hs => ⟨s, hs, rfl, fun _ hin => hin⟩)
      (fun _ _ => ⟨rfl, rfl, rfl⟩) fun st hopen => ?_
    have hlt := (h.ordered.links.holds _ st (h.ordered.links.held st hopen)).1
    rw [Sys.setProc_proc, if_neg (h.ordered.links.owner_ne habsent hlt)]
  | connect x =>
    have hc := step_connect hstep
    refine h.still hordered hc.root hc.tree (fun s hs => ⟨s, hc.sup ▸ hs, rfl, fun _ hin => hin⟩)
      (fun st hst => ?_) fun st hopen => ?_
    · rw [hc.old st (hc.lt hst).2]
      exact ⟨rfl, rfl, rfl⟩
    · rw [hc.proc, if_neg]
      intro hx
      have hst := h.ordered.links.held st hopen
      rw [hx, hc.offline] at hst
      cases hst
  | read st =>
    obtain ⟨s, r, hs, -, -, rfl⟩ := step_read hstep
    refine h.still hordered rfl rfl (fun s' hs' => ?_) (fun st' _ => ?_) fun _ _ => rfl
    · obtain rfl := Option.some.inj hs'
      exact ⟨s, hs, rfl, fun _ hin => List.mem_append_left _ hin⟩
    · rw [Sys.setStream_stream]
      split
      · rename_i hst
        rw [hst]
        exact ⟨rfl, rfl, rfl⟩
      · exact ⟨rfl, rfl, rfl⟩
  | eof id =>
    obtain ⟨s, rec, hs, -, -, rfl⟩ := step_eof hstep
    refine h.still hordered rfl rfl (fun s' hs' => ?_) (fun _ _ => ⟨rfl, rfl, rfl⟩) fun _ _ => rfl
    obtain rfl := Option.some.inj hs'
    exact ⟨s, hs, rfl, fun _ hin => List.mem_append_left _ hin⟩
  | supKill =>
    obtain ⟨-, rfl⟩ := step_supKill hstep
    exact h.still hordered rfl rfl (fun s' hs' => by cases hs') (fun _ _ => ⟨rfl, rfl, rfl⟩)
      fun _ _ => rfl
  | supStart =>
    obtain ⟨-, rfl⟩ := step_supStart hstep
    refine ⟨hordered, fun s hs id rec hid => ?_, fun n m hd => ?_, fun s hs id rec hid => ?_⟩
    · obtain rfl := Option.some.inj hs
      simp [State.new] at hid
    · simp only [prepareBaseDir] at hd
      rw [FileTree.lookup_createDirAll] at hd
      split at hd
      · rename_i hpre
        have hlen := hpre.1.length_le
        simp at hlen
      · rw [FileTree.lookup_clearDir] at hd
        split at hd
        · cases hd
        · exact h.noDir n m hd
    · obtain rfl := Option.some.inj hs
      simp [State.new] at hid
  | handle o => exact absurd rfl (hhandle o)
  | recv | addNext | recvEof | fail | shutdown | clearOne | finish | kill | acceptError => cases ha

/-! ### Handling an event -/

section Handle

variable {o : Outcomes} {e : Event} {rest : List Event}

/-- What is below the directory of a slug that is registered after the event stays. -/
lemma Synced.kept (h : Synced f y) (hs : y.sup = some s) (hqueue : s.queue = e :: rest)
    {g p : String} {q : Path} (hp : Fits f g p) (hin : p ∈ (s.state.handleEvent o e).1.group g)
    (hq : q ∈ y.tree) (hpre : y.root ++ [p] <+: q) :
    (handled y (s.state.handleEvent o e) rest).tree.lookup q = y.tree.lookup q := by
  refine lookup_handleEvent hq fun r hr hnot => ?_
  have hslug := h.ordered.named.registrant h.ordered.links hs hqueue r hr
  rw [slugDir_of_isName hslug.1, (h.ordered.links.sup s hs).base]
  refine Path.not_prefix_of_ne (fun heq => hnot ?_) hpre
  rwa [heq, ← hslug.2, heq, hp.2]

/-- A connection that is told what its group asks for. -/
lemma Synced.informed_handle (h : Synced f y) (hs : y.sup = some s) (hqueue : s.queue = e :: rest)
    {id : ConnId} {rec : ConnRecord}
    (hid : (s.state.handleEvent o e).1.conns.lookup id = some rec)
    (hdoomed : .departed id ∉ rest ++ sentEvents (s.state.handleEvent o e).2)
    (hopen : (y.stream rec.stream).srvOpen = true) :
    Informed (handled y (s.state.handleEvent o e) rest) (y.stream rec.stream).owner rec.stream
      (others (s.state.handleEvent o e).1 rec) := by
  have hl := h.ordered.links.sup s hs
  have hr := hl.handling hs hqueue o
  rcases hr.conns id rec hid with ⟨hid₀, hne, ht⟩ | ⟨he, peers, -, hpeers, hwrites⟩
  · have hdoomed₀ : .departed id ∉ s.queue := by
      rw [hqueue]
      intro hin
      rcases List.mem_cons.mp hin with heq | hin
      · exact hne heq.symm
      · exact hdoomed (List.mem_append_left _ hin)
    have hi := h.informed s hs id rec hid₀ hdoomed₀ hopen
    -- what is delivered, and what it makes of the peers
    have hheeds : ((y.proc (y.stream rec.stream).owner)).Heeds
        ((handled y (s.state.handleEvent o e) rest).stream rec.stream).inbox
        (others (s.state.handleEvent o e).1 rec) := by
      rcases ht with ⟨hnone, hothers⟩ | ⟨n, ok, hone, hfollow, hsent⟩
      · simp only [handled, streamsAfter, hnone, List.filter_nil, List.map_nil, List.append_nil, hothers]
        exact hi.heeds
      · have hok : ok = true := by
          cases ok with
          | true => rfl
          | false => exact absurd (List.mem_append_right _ (hsent rfl)) hdoomed
        simp only [handled, streamsAfter, hone, note, hok, List.filter_cons_of_pos, List.filter_nil,
          List.map_cons, List.map_nil]
        exact hi.heeds.told hfollow
    refine ⟨hheeds, fun st todo hph q hq => ?_⟩
    obtain ⟨ns, hinbox, hreplay⟩ := (Proc.heeds_session hph).mp hheeds
    by_cases hin : q ∈ others (s.state.handleEvent o e).1 rec
    · rcases hi.serves st todo hph q hq with ⟨e', he', hfile⟩ | hleft
      · have hgroup : (y.proc (y.stream rec.stream).owner).group = rec.group :=
          (congrArg Register.group (hl.conns id rec hid₀).2.1).symm
        have hfits := h.ordered.named.peers _ q (Or.inl hq)
        refine Or.inl ⟨e', he', (h.kept hs hqueue hfits (hgroup ▸ (mem_others.mp hin).2)
          (FileTree.mem_of_lookup hfile) ?_).trans hfile⟩
        rw [(h.ordered.path he').1]
        exact List.prefix_append _ _
      · exact Or.inr (List.mem_append_left _ hleft)
    · refine Or.inr ?_
      rw [hinbox]
      exact List.mem_map_of_mem (left_of_replay hreplay (mem_keys_union.mpr (Or.inl hq)) hin)
  · -- the new connection has its `Ack` before it
    have hin : .registered rec.stream ⟨rec.slug, rec.group⟩ ∈ s.queue := by
      rw [hqueue, he]
      exact List.mem_cons_self
    obtain ⟨hinbox, hph⟩ := h.ordered.links.quiet rec.stream (Or.inr ⟨s, hs, mem_waiting.mpr ⟨_, hin⟩⟩)
    have hph := hph hopen
    refine ⟨(Proc.heeds_registering hph).mpr ⟨peers, [], ?_, congrArg some hpeers⟩,
      fun st todo hph' => ?_⟩
    · simp only [handled, streamsAfter, hinbox, hwrites, List.filter_cons_of_pos, List.filter_nil,
        List.map_cons, List.map_nil, List.nil_append]
    · rw [show ((handled y (s.state.handleEvent o e) rest).proc (y.stream rec.stream).owner).phase =
        .registering rec.stream from hph] at hph'
      cases hph'

/-- **Handling an event** keeps the peers in sync. -/
lemma Synced.handle (h : Synced f y) (hs : y.sup = some s) (hqueue : s.queue = e :: rest)
    (hordered : Ordered f (fun _ => True) (handled y (s.state.handleEvent o e) rest)) :
    Synced f (handled y (s.state.handleEvent o e) rest) := by
  have hl := h.ordered.links.sup s hs
  have hr := hl.handling hs hqueue o
  refine ⟨hordered, fun s' hs' id rec hid => ?_, fun n m hd => ?_,
    fun s' hs' id rec hid hdoomed hopen => ?_⟩
  · have hfits := hordered.named.conn hordered.links hs' hid
    obtain rfl := Option.some.inj hs'
    have hin := hr.maps.mem_group.mpr ⟨id, rec.stream, hid⟩
    by_cases hold : rec.slug ∈ s.state.group rec.group
    · obtain ⟨id₀, st₀, hid₀⟩ := hl.maps.mem_group.mp hold
      have hd := h.dirs s hs id₀ _ hid₀
      exact (h.kept hs hqueue hfits hin (FileTree.mem_of_lookup hd) (List.prefix_refl _)).trans hd
    · rcases hr.conns id rec hid with ⟨hid₀, -⟩ | ⟨rfl, -⟩
      · exact absurd (hl.maps.mem_group.mpr ⟨id, rec.stream, hid₀⟩) hold
      · have hdir : s.state.slugDir rec.slug = y.root ++ [rec.slug] := by
          rw [slugDir_of_isName hfits.1, hl.base]
        have hmade := dir_handleEvent (t := y.tree) hold hin
          (fun k => by rw [hdir]; exact h.no_file rec.slug k)
        rw [hdir] at hmade
        exact hmade
  · rcases new_dir_handleEvent hd with hd | ⟨r, hr, hpre⟩
    · exact h.noDir n m hd
    · have hslug := h.ordered.named.registrant h.ordered.links hs hqueue r hr
      rw [slugDir_of_isName hslug.1, hl.base] at hpre
      exact not_prefix_child hpre
  · obtain rfl := Option.some.inj hs'
    exact h.informed_handle hs hqueue hid hdoomed hopen

end Handle

/-- **One step** keeps the peers in sync. -/
theorem synced_step (h : Synced f y) (hf : StartsFit f a) (hout : a.out = .bound)
    (hkill : LeavesNone y a) (hspares : Spares y a) (hstep : step y a = some y') : Synced f y' := by
  have hordered : Ordered f (fun _ => True) y' :=
    ordered_step h.ordered (fun _ _ => trivial) hf hkill (fun _ _ _ _ _ => trivial) hstep
  cases ha : a.actor with
  | some x => exact h.proc ha hf hout hkill hspares hstep
  | none =>
    by_cases hhandle : ∃ o, a = .handle o
    · obtain ⟨o, rfl⟩ := hhandle
      obtain ⟨s, e, rest, hs, hqueue, rfl⟩ := step_handle hstep
      exact h.handle hs hqueue hordered
    · exact h.env hordered ha (fun o heq => hhandle ⟨o, heq⟩) hstep

/-! ### When everything is settled -/

/-- A server that runs is registered then, and has a listener for each of the others of its group, with
its socket in place. -/
lemma Synced.settled (h : Synced f y) (hs : y.sup = some s) (hq : Quiescent y s)
    (hlive : (y.proc x).phase.Live) :
    (∃ id st, s.state.conns.lookup id = some ⟨(y.proc x).slug, (y.proc x).group, st⟩) ∧
    ∀ p, (p ∈ (y.proc x).listeners.entries ↔
        p ≠ (y.proc x).slug ∧ p ∈ s.state.group (y.proc x).group) ∧
      (p ∈ (y.proc x).listeners.entries →
        ∃ k, y.tree.lookup (listenerSocket y.root p (y.proc x).slug) = some (.file k)) := by
  have hl := h.ordered.links.sup s hs
  obtain ⟨st, hph, hinbox, hup⟩ := hq.session x hlive
  obtain ⟨hlt, howner, hopen⟩ := h.ordered.links.holds x st (by rw [hph]; rfl)
  have hread : ¬ y.Waits st := by
    intro hw
    have hreg := (h.ordered.links.quiet st hw).2 hopen
    rw [howner, hph] at hreg
    cases hreg
  obtain ⟨id, rec, hid, rfl⟩ := hl.opened st hlt hup hread
  have hreg := (hl.conns id rec hid).2.1
  rw [Sys.registerOf, howner] at hreg
  obtain ⟨hslug, hgroup⟩ := Register.mk.inj hreg
  have hi := h.informed s hs id rec hid (by rw [hq.queue]; exact List.not_mem_nil) hopen
  rw [howner] at hi
  obtain ⟨ns, hns, hreplay⟩ := (Proc.heeds_session hph).mp hi.heeds
  rw [hinbox] at hns
  obtain rfl := List.map_eq_nil_iff.mp hns.symm
  -- nothing is left to be replayed
  have hpeers := Option.some.inj hreplay
  refine ⟨⟨id, rec.stream, ?_⟩, fun p => ⟨?_, fun hp => ?_⟩⟩
  · rw [← hslug, ← hgroup]
    exact hid
  · rw [← hslug, ← hgroup, ← mem_others, ← hpeers, mem_keys_union]
    exact ⟨Or.inl, fun hp => hp.resolve_right List.not_mem_nil⟩
  · rcases hi.serves rec.stream [] hph p hp with ⟨e, he, hfile⟩ | hleft
    · exact ⟨e.sock, h.ordered.sockets.placed x p e he ▸ hfile⟩
    · rw [hinbox] at hleft
      cases hleft

lemma Synced.discovers (h : Synced f y) (hs : y.sup = some s) (hq : Quiescent y s) :
    Discovers y s := by
  intro id rec hid
  have hl := h.ordered.links.sup s hs
  have hfits := h.ordered.named.conn h.ordered.links hs hid
  have hdir : Client.socketDir y.root rec.slug = y.root ++ [rec.slug] := Path.join_of_isName hfits.1 _
  rw [hdir]
  refine Client.listPeers_eq (h.dirs s hs id rec hid) fun slug => ⟨fun hmem => ?_, fun hfile => ?_⟩
  · -- the other server has its socket there
    obtain ⟨hne, hin⟩ := mem_others.mp hmem
    obtain ⟨id', st', hid'⟩ := hl.maps.mem_group.mp hin
    have hfits' := h.ordered.named.conn h.ordered.links hs hid'
    obtain ⟨-, hreg, -⟩ := hl.conns id' _ hid'
    obtain ⟨hslug, hgroup⟩ := Register.mk.inj hreg
    simp only at hslug hgroup
    have hst := h.ordered.links.held st' (hq.noticed id' _ hid')
    have hlive : (y.proc (y.stream st').owner).phase.Live := by
      refine Phase.live_of_stream ?_
      rw [hst]
      exact Option.some_ne_none _
    obtain ⟨-, hlist⟩ := h.settled hs hq hlive
    have hp : rec.slug ∈ (y.proc (y.stream st').owner).listeners.entries := by
      refine (hlist rec.slug).1.mpr ⟨hslug ▸ hne.symm, ?_⟩
      rw [← hgroup]
      exact hl.maps.mem_group.mpr ⟨id, rec.stream, hid⟩
    obtain ⟨k, hk⟩ := (hlist rec.slug).2 hp
    rw [← hslug, listenerSocket_of_isName hfits.1 hfits'.1] at hk
    exact ⟨hfits'.1.1, FileTree.mem_of_lookup hk⟩
  · -- the socket there is one of a server that runs
    obtain ⟨-, hin⟩ := hfile
    obtain ⟨node, hnode⟩ := Option.isSome_iff_exists.mp (AList.lookup_isSome.mpr hin)
    cases node with
    | dir => exact absurd hnode (h.noDir _ _)
    | file k =>
      obtain ⟨x, p, e, he, hpath, -, -⟩ := h.ordered.sockets.owner _ k hnode
      rw [(h.ordered.path he).1] at hpath
      obtain ⟨hparent, hname⟩ := List.append_inj' hpath rfl
      obtain rfl : p = rec.slug := by simpa using hparent
      obtain rfl := Client.append_right_injective (List.singleton_inj.mp hname)
      have hlive := Phase.live_of_not_idle (h.ordered.not_idle he)
      obtain ⟨⟨id', st', hid'⟩, hlist⟩ := h.settled hs hq hlive
      obtain ⟨hne, -⟩ := (hlist rec.slug).1.mp (AList.lookup_isSome.mp (by rw [he]; rfl))
      refine mem_others.mpr ⟨hne.symm, ?_⟩
      rw [← hfits.2, (h.ordered.path he).2.2]
      exact hl.maps.mem_group.mpr ⟨id', st', hid'⟩

/-- **Peer discovery matches registration** whenever everything is settled, in every run with plain
slugs, each of one group, and with binds that succeed, in which no server is killed with sockets in
place, or takes away those of a registered server of its slug. -/
theorem discovers_of_run {root : Path} {as : List Action} (hplain : PlainSlugs as)
    (hone : OneGroupEach as) (hbind : ∀ a ∈ as, a.out = .bound)
    (hkill : Meets step LeavesNone (Sys.init root) as)
    (hspares : Meets step Spares (Sys.init root) as)
    (hrun : exec step (Sys.init root) as = some y) (hs : y.sup = some s) (hq : Quiescent y s) :
    Discovers y s := by
  obtain ⟨f, hf⟩ := exists_fits hplain hone
  have hmeets : Meets step (fun _ a => StartsFit f a ∧ a.out = .bound) (Sys.init root) as :=
    meets_of_forall fun a ha => ⟨hf a ha, hbind a ha⟩
  have hsynced : Synced f y := by
    refine exec_inv_of_meets ?_ (synced_init f root) (hmeets.and (hkill.and hspares)) hrun
    intro y a y' h hc hstep
    exact synced_step h hc.1.1 hc.1.2 hc.2.1 hc.2.2 hstep
  exact hsynced.discovers hs hq

end Discovery

/-! ### Servers that spare each other, and runs -/

/-- No slug is used by two servers. -/
def OneServerEach (as : List Action) : Prop :=
  ∀ a ∈ as, ∀ p ∈ a.starts, ∀ a' ∈ as, ∀ p' ∈ a'.starts, p.2.slug = p'.2.slug → p.1 = p'.1

instance : DecidablePred OneServerEach := fun _ => by unfold OneServerEach; infer_instance

/-- Every server has been started by one of the actions. -/
def Started (as : List Action) (y : Sys) : Prop :=
  ∀ x, (y.proc x).phase ≠ .absent → ∃ g, .start x (y.proc x).slug g ∈ as

section Started

variable {as : List Action} {y y' : Sys} {x : ProcId} {a : Action}

lemma Started.of_proc (h : Started as y) (hproc : ∀ x, (y'.proc x).phase ≠ .absent →
    (y.proc x).phase ≠ .absent ∧ (y'.proc x).slug = (y.proc x).slug) : Started as y' := by
  intro x hx
  rw [(hproc x hx).2]
  exact h x (hproc x hx).1

lemma started_step (h : Started as y) (hl : Linked y) (ha : a ∈ as) (hstep : step y a = some y') :
    Started as y' := by
  cases hactor : a.actor with
  | some x =>
    have hp := procStep_of_step hactor (hl.idle x) hstep
    refine h.of_proc fun x' hx' => ?_
    by_cases hx : x' = x
    · subst hx
      refine ⟨fun habsent => ?_, hp.slug⟩
      have hlive := hp.live
      rw [habsent] at hlive
      exact hlive
    · rw [hp.other x' hx] at hx' ⊢
      exact ⟨hx', rfl⟩
  | none =>
    cases a with
    | start x slug group =>
      obtain ⟨-, rfl⟩ := step_start hstep
      intro x' hx'
      rw [Sys.setProc_proc] at hx' ⊢
      split
      · rename_i hx
        exact ⟨group, hx ▸ ha⟩
      · rename_i hx
        rw [if_neg hx] at hx'
        exact h x' hx'
    | connect x =>
      have hc := step_connect hstep
      refine h.of_proc fun x' hx' => ⟨fun habsent => ?_, by rw [Proc.slug, (hc.owned x').1]⟩
      rw [hc.proc] at hx'
      split at hx'
      · rename_i hx
        rw [hx, hc.offline] at habsent
        cases habsent
      · exact hx' habsent
    | handle o =>
      obtain ⟨s, e, rest, -, -, rfl⟩ := step_handle hstep
      exact h
    | read st =>
      obtain ⟨s, r, -, -, -, rfl⟩ := step_read hstep
      exact h
    | eof id =>
      obtain ⟨s, rec, -, -, -, rfl⟩ := step_eof hstep
      exact h
    | supKill =>
      obtain ⟨-, rfl⟩ := step_supKill hstep
      exact h
    | supStart =>
      obtain ⟨-, rfl⟩ := step_supStart hstep
      exact h
    | recv | addNext | recvEof | fail | shutdown | clearOne | finish | kill | acceptError => cases hactor

lemma Phase.Live.ne_absent {ph : Phase} (h : ph.Live) : ph ≠ .absent := by
  rintro rfl
  exact h

/-- Where each slug has one server, servers spare each other. -/
lemma meets_spares {root : Path} (hone : OneServerEach as) :
    Meets step Spares (Sys.init root) as := by
  refine Meets.of_inv (I := fun y => Linked y ∧ Started as y) (C := fun _ a => a ∈ as)
    (fun y a y' h ha hstep => ⟨linked_step h.1 hstep, started_step h.2 h.1 ha hstep⟩)
    (fun y a h _ x n hactor hn x' hne hslug hreg _ => ?_)
    ⟨linked_init root, fun x habsent => absurd rfl habsent⟩ (meets_of_forall fun _ ha => ha)
  obtain ⟨s, id, rec, -, -, hst⟩ := hreg
  have hlive' : (y.proc x').phase.Live := by
    refine Phase.live_of_stream ?_
    rw [hst]
    exact Option.some_ne_none _
  obtain ⟨g, hg⟩ := h.2 x (live_of_heard hactor hn).ne_absent
  obtain ⟨g', hg'⟩ := h.2 x' hlive'.ne_absent
  exact hne (hone _ hg' _ rfl _ hg _ rfl hslug)

end Started

lemma meets_leavesNone {root : Path} {as : List Action} (h : ∀ a ∈ as, NoCrash a) :
    Meets step LeavesNone (Sys.init root) as :=
  (meets_of_forall h).mono fun _ _ hc => (leavesNone_of_noCrash hc).1

lemma quiescent_of_entries {y : Sys} {s : Sup} (hqueue : s.queue = [])
    (hconns : ∀ e ∈ s.state.conns.entries, (y.stream e.2.stream).srvOpen = true)
    (hsession : ∀ x, (y.proc x).phase.Live → ∃ st, (y.proc x).phase = .session st [] ∧
      (y.stream st).inbox = [] ∧ (y.stream st).supOpen = true) : Quiescent y s :=
  ⟨hqueue, fun id rec hid => hconns ⟨id, rec⟩ (AList.mem_lookup_iff.mp hid), hsession⟩

/-- A peer that is listed and not registered, or the other way round. -/
lemma not_discovers {y : Sys} {s : Sup} (id : ConnId) {rec : ConnRecord} (p : String)
    (peers : List String) (hid : s.state.conns.lookup id = some rec)
    (hlist : Client.listPeers y.tree (Client.socketDir y.root rec.slug) = .ok peers)
    (hp : ¬ (p ∈ peers ↔ p ∈ others s.state rec)) : ¬ Discovers y s := by
  intro h
  have heq := Except.ok.inj (hlist.symm.trans (h id rec hid))
  refine hp ?_
  rw [heq, Finset.mem_sort]

/-- `repo-a` and `repo-b` in one group, each with a socket in the directory of the other one. -/
def metPeers : List Action :=
  [.supStart] ++ enters 0 0 "repo-a" "g" ++ enters 1 1 "repo-b" "g" ++
    [.addNext 1 .bound, .recv 0 .bound]

set_option maxRecDepth 4000 in
theorem discovers_of_run_metPeers : ∃ y s, exec step (Sys.init ["run"]) metPeers = some y ∧
    y.sup = some s ∧ "repo-b" ∈ s.state.group "g" ∧ Discovers y s := by
  have hrun : exec step (Sys.init ["run"]) metPeers = some _ := rfl
  refine ⟨_, _, hrun, rfl, by decide, discovers_of_run (by decide) (by decide) (by decide)
    (meets_leavesNone (by decide)) (meets_spares (by decide)) hrun rfl
    (quiescent_of_entries rfl (by decide) fun x hx => ?_)⟩
  rcases x with _ | _ | x
  · exact ⟨0, rfl, rfl, rfl⟩
  · exact ⟨1, rfl, rfl, rfl⟩
  · exact hx.elim

/-- Then `repo-b` is killed. -/
def killedPeer : List Action :=
  metPeers ++ [.kill 1, .eof 1, .handle (failing []), .recv 0 .bound]

set_option maxRecDepth 4000 in
/-- **The socket of a server that was killed** stays in the directory of `repo-a`, whose clients go on
listing it. -/
theorem killed_listed : PlainSlugs killedPeer ∧ OneGroupEach killedPeer ∧
    (∀ a ∈ killedPeer, a.out = .bound) ∧ Meets step Spares (Sys.init ["run"]) killedPeer ∧
    ∃ y s, exec step (Sys.init ["run"]) killedPeer = some y ∧ y.sup = some s ∧ Quiescent y s ∧
      ¬ Discovers y s := by
  have hrun : exec step (Sys.init ["run"]) killedPeer = some _ := rfl
  refine ⟨by decide, by decide, by decide, meets_spares (by decide), _, _, hrun, rfl,
    quiescent_of_entries rfl (by decide) fun x hx => ?_,
    not_discovers 0 "repo-b" ["repo-b"] rfl (by decide) (by decide)⟩
  rcases x with _ | _ | x
  · exact ⟨0, rfl, rfl, rfl⟩
  · exact hx.elim
  · exact hx.elim

/-- The supervisor is started anew, and another `repo-b` registers before the first one has noticed. -/
def takenOver : List Action :=
  metPeers ++ [.supKill, .supStart, .recvEof 0, .clearOne 0 "repo-b", .finish 0, .connect 0, .read 2,
    .handle (failing []), .recv 0 .bound] ++ enters 2 3 "repo-b" "g" ++
    [.addNext 2 .bound, .recv 0 .bound, .recvEof 1, .clearOne 1 "repo-a", .finish 1, .connect 1,
      .read 4, .handle (failing []), .recv 1 .bound, .finish 1]

set_option maxRecDepth 8000 in
/-- **Two servers of one slug**: the first one unlinks what the second one has bound, and no client of
`repo-a` finds it. -/
theorem takenOver_unlisted : PlainSlugs takenOver ∧ OneGroupEach takenOver ∧
    (∀ a ∈ takenOver, a.out = .bound) ∧ Meets step LeavesNone (Sys.init ["run"]) takenOver ∧
    ∃ y s, exec step (Sys.init ["run"]) takenOver = some y ∧ y.sup = some s ∧ Quiescent y s ∧
      ¬ Discovers y s := by
  have hrun : exec step (Sys.init ["run"]) takenOver = some _ := rfl
  refine ⟨by decide, by decide, by decide, meets_leavesNone (by decide), _, _, hrun, rfl,
    quiescent_of_entries rfl (by decide) fun x hx => ?_,
    not_discovers 0 "repo-b" [] rfl (by decide) (by decide)⟩
  rcases x with _ | _ | _ | x
  · exact ⟨2, rfl, rfl, rfl⟩
  · exact hx.elim
  · exact ⟨3, rfl, rfl, rfl⟩
  · exact hx.elim

end Crossbridge.Topology
