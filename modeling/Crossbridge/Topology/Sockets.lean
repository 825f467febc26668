import Crossbridge.Topology.Links
import Crossbridge.Topology.ListenerSteps

/-!
Which sockets are where.

Where each slug belongs to one group (`Named`), a server hears only of slugs of its own group. Every
socket in the tree is one that a server listens on (`Owned`), as long as no server dies, and no
accept loop stops, with its sockets in place (`LeavesNone`).
-/

namespace Crossbridge.Topology

open Crossbridge.Protocol Crossbridge.Server Crossbridge.Supervisor

/-! ### Slugs and their groups -/

/-- A slug of the group `g`, where `f` gives each slug its group. -/
def Fits (f : String → String) (g slug : String) : Prop := Path.IsName slug ∧ f slug = g

/-- Servers have slugs of their group, and hear of no others. -/
structure Named (f : String → String) (y : Sys) : Prop where
  slug : ∀ x, (y.proc x).phase ≠ .absent → Fits f (y.proc x).group (y.proc x).slug
  peers : ∀ x p, p ∈ (y.proc x).listeners.entries ∨ p ∈ (y.proc x).phase.todo →
    Fits f (y.proc x).group p
  inbox : ∀ st < y.nextStream, ∀ m ∈ (y.stream st).inbox, ∀ p ∈ namesOf m,
    Fits f (y.registerOf st).group p

/-- The process that starts, and what it is to register. -/
def Action.starts : Action → Option (ProcId × Register)
  | .start x slug group => some (x, ⟨slug, group⟩)
  | _ => none

/-- The server that starts has a slug of its group. -/
def StartsFit (f : String → String) (a : Action) : Prop :=
  ∀ p ∈ a.starts, Fits f p.2.group p.2.slug

/-- All slugs are plain file names. -/
def PlainSlugs (as : List Action) : Prop := ∀ a ∈ as, ∀ p ∈ a.starts, Path.IsName p.2.slug

/-- No slug is used in two groups. -/
def OneGroupEach (as : List Action) : Prop :=
  ∀ a ∈ as, ∀ p ∈ a.starts, ∀ a' ∈ as, ∀ p' ∈ a'.starts, p.2.slug = p'.2.slug →
    p.2.group = p'.2.group

instance : DecidablePred PlainSlugs := fun _ => by unfold PlainSlugs; infer_instance

instance : DecidablePred OneGroupEach := fun _ => by unfold OneGroupEach; infer_instance

/-- Then each slug has its group. -/
lemma exists_fits {as : List Action} (hplain : PlainSlugs as) (hone : OneGroupEach as) :
    ∃ f, ∀ a ∈ as, StartsFit f a := by
  have hgroup : ∀ slug, ∃ g, ∀ a ∈ as, ∀ p ∈ a.starts, p.2.slug = slug → p.2.group = g := by
    intro slug
    by_cases hex : ∃ a ∈ as, ∃ p ∈ a.starts, p.2.slug = slug
    · obtain ⟨a, ha, p, hp, rfl⟩ := hex
      exact ⟨p.2.group, fun a' ha' p' hp' heq => hone a' ha' p' hp' a ha p hp heq⟩
    · exact ⟨"", fun a ha p hp heq => absurd ⟨a, ha, p, hp, heq⟩ hex⟩
  choose f hf using hgroup
  exact ⟨f, fun a ha p hp => ⟨hplain a ha p hp, (hf p.2.slug a ha p hp rfl).symm⟩⟩

section Named

variable {f : String → String} {y y' : Sys} {x : ProcId} {st : StreamId} {s : Sup}

lemma named_init (f : String → String) (root : Path) : Named f (Sys.init root) where
  slug x h := absurd rfl h
  peers x p h := by
    rcases h with h | h
    · exact absurd h (AList.notMem_empty p)
    · cases h
  inbox st h := absurd h (Nat.not_lt_zero st)

/-- So have the connections. -/
lemma fits_conn (h : ∀ x, (y.proc x).phase ≠ .absent → Fits f (y.proc x).group (y.proc x).slug)
    (hl : Linked y) (hs : y.sup = some s) {id : ConnId} {rec : ConnRecord}
    (hid : s.state.conns.lookup id = some rec) : Fits f rec.group rec.slug := by
  obtain ⟨hlt, heq, -⟩ := (hl.sup s hs).conns id rec hid
  have hfits := h _ (hl.started rec.stream hlt)
  obtain ⟨hslug, hgroup⟩ := Register.mk.inj heq
  rwa [← hslug, ← hgroup] at hfits

lemma Named.own (h : Named f y) (hlive : (y.proc x).phase.Live) : Path.IsName (y.proc x).slug := by
  refine (h.slug x fun habsent => ?_).1
  rw [habsent] at hlive
  exact hlive

/-- The peer of a notification that a process acts on is a slug of its group. -/
lemma Named.known (h : Named f y) (hl : Linked y) {n : Notification}
    (hknown : peerOf n ∈ (y.proc x).listeners.entries ∨ peerOf n ∈ (y.proc x).phase.todo ∨
      ∃ st m, (y.proc x).phase.stream = some st ∧ m ∈ (y.stream st).inbox ∧ peerOf n ∈ namesOf m) :
    Fits f (y.proc x).group (peerOf n) := by
  rcases hknown with hin | hin | ⟨st, m, hst, hm, hin⟩
  · exact h.peers x _ (Or.inl hin)
  · exact h.peers x _ (Or.inr hin)
  · obtain ⟨hlt, rfl, -⟩ := hl.holds x st hst
    exact h.inbox st hlt m hm _ hin

lemma Named.conn (h : Named f y) (hl : Linked y) (hs : y.sup = some s) {id : ConnId}
    {rec : ConnRecord} (hid : s.state.conns.lookup id = some rec) : Fits f rec.group rec.slug :=
  fits_conn h.slug hl hs hid

lemma Named.others (h : Named f y) (hl : Linked y) (hs : y.sup = some s) {rec : ConnRecord}
    {p : String} (hp : p ∈ Supervisor.others s.state rec) : Fits f rec.group p := by
  obtain ⟨id, st, hid⟩ := (hl.sup s hs).maps.mem_group.mp (mem_others.mp hp).2
  exact h.conn hl hs hid

lemma Named.proc (h : Named f y) (hl : Linked y) (hp : ProcStep x y y') : Named f y' where
  slug x' hx' := by
    by_cases hx : x' = x
    · rw [hx, hp.slug, hp.group]
      refine h.slug x fun habsent => ?_
      have hlive := hp.live
      rw [habsent] at hlive
      exact hlive
    · rw [hp.other x' hx] at hx' ⊢
      exact h.slug x' hx'
  peers x' p hmem := by
    by_cases hx : x' = x
    · subst hx
      rw [hp.group]
      rcases hp.names p hmem with hmem | hmem | ⟨st, m, hst, hm, hmem⟩
      · exact h.peers x' p (Or.inl hmem)
      · exact h.peers x' p (Or.inr hmem)
      · obtain ⟨hlt, howner, -⟩ := hl.holds x' st hst
        have hfits := h.inbox st hlt m hm p hmem
        rw [Sys.registerOf, howner] at hfits
        exact hfits
    · rw [hp.other x' hx] at hmem ⊢
      exact h.peers x' p hmem
  inbox st hlt m hm p hmem := by
    rw [hp.registerOf]
    exact h.inbox st (hp.next ▸ hlt) m ((hp.inbox st).subset hm) p hmem

lemma Named.registrant (h : Named f y) (hl : Linked y) (hs : y.sup = some s) {e : Event}
    {rest : List Event} (hqueue : s.queue = e :: rest) :
    ∀ r ∈ registrant s.state e, Fits f r.group r.slug := by
  intro r hr
  cases e with
  | registered st r₀ =>
    obtain rfl := Option.some.inj hr
    obtain ⟨hlt, heq, -⟩ := (hl.sup s hs).queue st r₀ (hqueue ▸ List.mem_cons_self)
    rw [heq]
    exact h.slug _ (hl.started st hlt)
  | departed id =>
    obtain ⟨rec, hid, rfl⟩ := Option.map_eq_some_iff.mp hr
    exact h.conn hl hs hid

/-- What the supervisor tells a server are slugs of its group. -/
lemma Named.news (h : Named f y) (hl : Linked y) {e : Event} {rest : List Event}
    {res : State × List Effect} (hs : y.sup = some s) (hqueue : s.queue = e :: rest)
    (hr : Handling s.state e res) {m : SupervisorMessage} (hm : (m, true) ∈ writesOn st res.2)
    {p : String} (hp : p ∈ namesOf m) : Fits f (y.registerOf st).group p := by
  have hl' := hl.handled hs hqueue hr
  have hothers' : ∀ rec : ConnRecord, ∀ q ∈ Supervisor.others res.1 rec, Fits f rec.group q := by
    intro rec q hq
    obtain ⟨id, st, hid⟩ := hr.maps.mem_group.mp (mem_others.mp hq).2
    have hfits := fits_conn (y := handled y res rest) h.slug hl' rfl hid
    exact hfits
  by_cases hex : ∃ id rec, res.1.conns.lookup id = some rec ∧ rec.stream = st
  · obtain ⟨id, rec, hid, rfl⟩ := hex
    obtain ⟨hlt, heq, -⟩ := (hl'.sup _ rfl).conns id rec hid
    have hgroup : rec.group = (y.registerOf rec.stream).group := congrArg Register.group heq
    rw [← hgroup]
    rcases hr.conns id rec hid with ⟨hid, -, ht⟩ | ⟨-, peers, -, hpeers, hwrites⟩
    · rcases ht with ⟨hnone, -⟩ | ⟨n, ok, hone, hfollow, -⟩
      · rw [hnone] at hm
        cases hm
      · rw [hone, List.mem_singleton] at hm
        obtain ⟨rfl, -⟩ := Prod.mk.inj hm
        obtain rfl := List.mem_singleton.mp hp
        cases n with
        | peerJoined q =>
          rw [follow] at hfollow
          split at hfollow
          · cases hfollow
          · refine hothers' rec q ?_
            rw [← Option.some.inj hfollow]
            exact Finset.mem_insert_self q _
        | peerLeft q =>
          rw [follow] at hfollow
          split at hfollow
          · rename_i hin
            exact h.others hl hs hin
          · cases hfollow
    · rw [hwrites, List.mem_singleton] at hm
      obtain ⟨rfl, -⟩ := Prod.mk.inj hm
      refine hothers' rec p ?_
      rw [← hpeers]
      exact List.mem_toFinset.mpr hp
  · by_cases hin : st ∈ waiting [e]
    · obtain ⟨resp, ok, hwrites, hnack⟩ := (hr.response st hin).resolve_left hex
      rw [hwrites, List.mem_singleton] at hm
      obtain ⟨rfl, rfl⟩ := Prod.mk.inj hm
      obtain ⟨reason, rfl⟩ := hnack rfl
      cases hp
    · rw [hr.silent st hin fun id rec hid heq => hex ⟨id, rec, hid, heq⟩] at hm
      cases hm

/-- **One step** keeps the slugs in their groups. -/
theorem named_step {a : Action} (h : Named f y) (hl : Linked y) (ha : StartsFit f a)
    (hstep : step y a = some y') : Named f y' := by
  cases a with
  | start x slug group =>
    obtain ⟨habsent, rfl⟩ := step_start hstep
    refine ⟨fun x' hx' => ?_, fun x' p hmem => ?_, fun st hst m hm p hp => ?_⟩
    · rw [Sys.setProc_proc] at hx' ⊢
      split
      · exact ha (x, ⟨slug, group⟩) rfl
      · rename_i hx
        rw [if_neg hx] at hx'
        exact h.slug x' hx'
    · rw [Sys.setProc_proc] at hmem ⊢
      split at hmem
      · rcases hmem with hmem | hmem
        · exact absurd hmem (AList.notMem_empty p)
        · cases hmem
      · rename_i hx
        rw [if_neg hx]
        exact h.peers x' p hmem
    · have hfits := h.inbox st hst m hm p hp
      rw [Sys.registerOf] at hfits ⊢
      rwa [Sys.setProc_stream, Sys.setProc_proc, if_neg (hl.owner_ne habsent hst)]
  | connect x =>
    have hc := step_connect hstep
    refine ⟨fun x' hx' => ?_, fun x' p hmem => ?_, fun st hst m hm p hp => ?_⟩
    · rw [Proc.slug, (hc.owned x').1, (hc.owned x').2]
      refine h.slug x' fun habsent => ?_
      rw [hc.proc] at hx'
      split at hx'
      · rename_i hx
        rw [hx, hc.offline] at habsent
        cases habsent
      · exact hx' habsent
    · rw [(hc.owned x').2]
      rw [(hc.owned x').1] at hmem
      refine h.peers x' p (hmem.imp_right fun hin => ?_)
      rw [hc.proc] at hin
      split at hin
      · cases hin
      · exact hin
    · by_cases hne : st = y.nextStream
      · rw [hne, hc.new] at hm
        cases hm
      · rw [hc.old st hne] at hm
        rw [hc.registerOf hne]
        exact h.inbox st (hc.back hst hne) m hm p hp
  | read st =>
    obtain ⟨s, r, -, -, -, rfl⟩ := step_read hstep
    have hstream : ∀ st', ((y.setStream st { y.stream st with register := none }).stream st').inbox =
        (y.stream st').inbox ∧ ((y.setStream st { y.stream st with register := none }).stream
          st').owner = (y.stream st').owner := by
      intro st'
      rw [Sys.setStream_stream]
      split
      · rename_i hst
        rw [hst]
        exact ⟨rfl, rfl⟩
      · exact ⟨rfl, rfl⟩
    refine ⟨h.slug, h.peers, fun st' hst m hm p hp => ?_⟩
    rw [(hstream st').1] at hm
    rw [Sys.registerOf, (hstream st').2]
    exact h.inbox st' hst m hm p hp
  | eof id =>
    obtain ⟨s, rec, -, -, -, rfl⟩ := step_eof hstep
    exact ⟨h.slug, h.peers, h.inbox⟩
  | handle o =>
    obtain ⟨s, e, rest, hs, hqueue, rfl⟩ := step_handle hstep
    have hr := (hl.sup s hs).handling hs hqueue o
    refine ⟨h.slug, h.peers, fun st hst m hm p hp => ?_⟩
    rcases List.mem_append.mp hm with hm | hm
    · exact h.inbox st hst m hm p hp
    · obtain ⟨w, hw, rfl⟩ := List.mem_map.mp hm
      rw [List.mem_filter] at hw
      obtain ⟨hw, hok⟩ := hw
      have hw' : (w.1, true) ∈ writesOn st (s.state.handleEvent o e).2 := by
        rwa [← show w.2 = true from hok]
      exact h.news hl hs hqueue hr hw' hp
  | supKill =>
    obtain ⟨-, rfl⟩ := step_supKill hstep
    exact ⟨h.slug, h.peers, h.inbox⟩
  | supStart =>
    obtain ⟨-, rfl⟩ := step_supStart hstep
    exact ⟨h.slug, h.peers, h.inbox⟩
  | recv x | addNext x | recvEof x | fail x | shutdown x | clearOne x | finish x | kill x
  | acceptError x => exact h.proc hl (procStep_of_step rfl (hl.idle x) hstep)

end Named

/-- The process `x` starts, and registers on the stream `st`. -/
def enters (x : ProcId) (st : StreamId) (slug group : String) : List Action :=
  [.start x slug group, .connect x, .read st, .handle (failing []), .recv x .bound]

/-! ### The sockets in the tree -/

/-- The process has a listener for the peer, and its socket is in the tree. -/
def Sys.InPlace (y : Sys) (x : ProcId) (p : String) : Prop :=
  ∃ e, (y.proc x).listeners.entries.lookup p = some e ∧ y.tree.lookup e.path = some (.file e.sock)

/-- No process is killed with sockets in place. -/
def LeavesNone (y : Sys) : Action → Prop
  | .kill x => ∀ p, ¬ y.InPlace x p
  | _ => True

/-- Every file of the tree is the socket of a listener, and one with the property `R`. -/
structure Owned (R : Entry → Prop) (y : Sys) : Prop where
  placed : ∀ x, ListenerSet.Placed y.root (y.proc x).listeners
  owner : ∀ q k, y.tree.lookup q = some (.file k) → ∃ x p e,
    (y.proc x).listeners.entries.lookup p = some e ∧ e.path = q ∧ e.sock = k ∧ R e

lemma foldl_onTree_file {t : FileTree SockId} {es : List Effect} {q : Path} {k : SockId}
    (h : (es.foldl Effect.onTree t).lookup q = some (.file k)) : t.lookup q = some (.file k) := by
  induction es generalizing t with
  | nil => exact h
  | cons e es ih =>
    rw [List.foldl_cons] at h
    have he := ih h
    cases e with
    | createDirAll dir ok =>
      cases ok with
      | false => exact he
      | true =>
        rw [Effect.onTree, FileTree.lookup_createDirAll] at he
        split at he
        · cases he
        · exact he
    | removeDirAll dir =>
      rw [Effect.onTree, FileTree.lookup_removeDirAll] at he
      split at he
      · cases he
      · exact he
    | write | watch | drop | send => exact he

lemma prepareBaseDir_file {t : FileTree SockId} {root q : Path} {k : SockId}
    (h : (prepareBaseDir t root).lookup q = some (.file k)) : t.lookup q = some (.file k) := by
  rw [prepareBaseDir, FileTree.lookup_createDirAll] at h
  split at h
  · cases h
  · rw [FileTree.lookup_clearDir] at h
    split at h
    · cases h
    · exact h

section Owned

variable {R : Entry → Prop} {y y' : Sys} {x : ProcId} {a : Action}

lemma owned_init (R : Entry → Prop) (root : Path) : Owned R (Sys.init root) where
  placed x p e h := by cases h
  owner q k h := by
    simp only [Sys.init] at h
    rw [FileTree.lookup_createDirAll, AList.lookup_empty] at h
    split at h <;> cases h

/-- A step that takes files away, if anything. -/
lemma Owned.of_files (h : Owned R y) (hroot : y'.root = y.root)
    (hproc : ∀ x, (y'.proc x).listeners = (y.proc x).listeners)
    (hfiles : ∀ q k, y'.tree.lookup q = some (.file k) → y.tree.lookup q = some (.file k)) :
    Owned R y' where
  placed x := by
    rw [hroot, hproc]
    exact h.placed x
  owner q k hq := by
    obtain ⟨x, p, e, he, hrest⟩ := h.owner q k (hfiles q k hq)
    exact ⟨x, p, e, by rw [hproc, he], hrest⟩

/-- A step that leaves the files as they are, and changes the entries of one process. -/
lemma Owned.of_entries (h : Owned R y) (hroot : y'.root = y.root) (htree : y'.tree = y.tree)
    (hother : ∀ x' ≠ x, (y'.proc x').listeners = (y.proc x').listeners)
    (hplaced : ListenerSet.Placed y.root (y'.proc x).listeners)
    (hself : ∀ p e, (y.proc x).listeners.entries.lookup p = some e →
      y.tree.lookup e.path = some (.file e.sock) → R e →
      ∃ e', (y'.proc x).listeners.entries.lookup p = some e' ∧ e'.path = e.path ∧ e'.sock = e.sock ∧ R e') :
    Owned R y' where
  placed x' := by
    rw [hroot]
    by_cases hx : x' = x
    · rw [hx]
      exact hplaced
    · rw [hother x' hx]
      exact h.placed x'
  owner q k hq := by
    rw [htree] at hq
    obtain ⟨x', p, e, he, hpath, hsock, hR⟩ := h.owner q k hq
    by_cases hx : x' = x
    · subst hx
      obtain ⟨e', he', hpath', hsock', hR'⟩ := hself p e he (by rw [hpath, hsock, hq]) hR
      exact ⟨x', p, e', he', hpath'.trans hpath, hsock'.trans hsock, hR'⟩
    · exact ⟨x', p, e, by rw [hother x' hx, he], hpath, hsock, hR⟩

/-- **A notification** that a process acts on. -/
lemma Owned.act (h : Owned R y) (hR : ∀ path sock, R ⟨path, sock, true⟩) {out : AddOutcome}
    {n : Notification} (hroot : y'.root = y.root)
    (hother : ∀ x' ≠ x, (y'.proc x').listeners = (y.proc x').listeners)
    (hact : ((y'.proc x).listeners, y'.tree) =
      (y.proc x).listeners.act y.root y.tree out y.nextSock n) : Owned R y' := by
  have hself : (y'.proc x).listeners =
      ((y.proc x).listeners.act y.root y.tree out y.nextSock n).1 := congrArg Prod.fst hact
  have htree : y'.tree = ((y.proc x).listeners.act y.root y.tree out y.nextSock n).2 :=
    congrArg Prod.snd hact
  have hplaced := h.placed x
  refine ⟨fun x' => ?_, fun q k hq => ?_⟩
  · rw [hroot]
    by_cases hx : x' = x
    · rw [hx, hself]
      exact hplaced.act
    · rw [hother x' hx]
      exact h.placed x'
  · rw [htree] at hq
    have hcases := ListenerSet.act_cases y.root (y.proc x).listeners y.tree out y.nextSock n hplaced
    by_cases hpath : q = listenerSocket y.root (peerOf n) (y.proc x).listeners.ownSlug
    · rcases hcases with hsame | ⟨hentry, hfile⟩ | ⟨-, hnone⟩
      · rw [hsame] at hq hself
        have hold : Owned R { y' with tree := y.tree } := by
          refine h.of_files hroot (fun x' => ?_) fun _ _ hq => hq
          by_cases hx : x' = x
          · rw [hx]
            exact hself
          · exact hother x' hx
        exact hold.owner q k hq
      · rw [hpath, hfile] at hq
        obtain rfl := Node.file.inj (Option.some.inj hq)
        rw [← hself] at hentry
        exact ⟨x, peerOf n, _, hentry, hpath.symm, rfl, hR _ _⟩
      · rw [hpath] at hq
        exact absurd hq (hnone k)
    · rw [(ListenerSet.sameBut_act hplaced).files q hpath] at hq
      obtain ⟨x', p, e, he, hq', hrest⟩ := h.owner q k hq
      refine ⟨x', p, e, ?_, hq', hrest⟩
      by_cases hx : x' = x
      · subst hx
        rw [hself, ListenerSet.lookup_act_ne, he]
        rintro rfl
        exact hpath (hq'.symm.trans (hplaced _ e he))
      · rw [hother x' hx, he]

/-- **The sockets in the tree** stay owned in a step of a process. -/
lemma Owned.proc (h : Owned R y) (hR : ∀ path sock, R ⟨path, sock, true⟩) (ha : a.actor = some x)
    (hl : Linked y) (hkill : LeavesNone y a)
    (herror : ∀ x p, a = .acceptError x p → y.InPlace x p → ∀ e : Entry,
      R { e with running := false })
    (hstep : step y a = some y') : Owned R y' := by
  have hp := procStep_of_step ha (hl.idle x) hstep
  have hother : ∀ x' ≠ x, (y'.proc x').listeners = (y.proc x').listeners := fun x' hx => by
    rw [hp.other x' hx]
  rcases listeners_of_step ha hstep with ⟨-, htree, hsame⟩ | ⟨n, -, hact, -⟩ | ⟨rfl, htree, hnone⟩ |
    ⟨p, e, rfl, htree, he, hstopped⟩
  · refine h.of_files hp.root (fun x' => ?_) fun q k hq => htree ▸ hq
    by_cases hx : x' = x
    · rw [hx, hsame]
    · exact hother x' hx
  · exact h.act hR hp.root hother hact
  · refine h.of_entries hp.root htree hother (fun p e he => ?_) fun p e he hfile _ => ?_
    · rw [hnone, AList.lookup_empty] at he
      cases he
    · exact absurd ⟨e, he, hfile⟩ (hkill p)
  · refine h.of_entries hp.root htree hother (fun p' e' he' => ?_) fun p' e' he' hfile hR' => ?_
    · rw [hstopped] at he' ⊢
      by_cases hpeer : p' = p
      · rw [hpeer, AList.lookup_insert] at he'
        rw [← Option.some.inj he', hpeer]
        exact h.placed x p e he
      · rw [AList.lookup_insert_ne hpeer] at he'
        exact h.placed x p' e' he'
    · rw [hstopped]
      by_cases hpeer : p' = p
      · subst hpeer
        obtain rfl := Option.some.inj (he.symm.trans he')
        exact ⟨_, AList.lookup_insert _, rfl, rfl, herror x p' rfl ⟨e, he, hfile⟩ e⟩
      · exact ⟨e', by rw [AList.lookup_insert_ne hpeer, he'], rfl, rfl, hR'⟩

/-- **One step** keeps the sockets owned. -/
theorem owned_step (h : Owned R y) (hR : ∀ path sock, R ⟨path, sock, true⟩) (hl : Linked y)
    (hkill : LeavesNone y a)
    (herror : ∀ x p, a = .acceptError x p → y.InPlace x p → ∀ e : Entry,
      R { e with running := false })
    (hstep : step y a = some y') : Owned R y' := by
  cases a with
  | start x slug group =>
    obtain ⟨habsent, rfl⟩ := step_start hstep
    have hnone := hl.idle x (by rw [habsent]; trivial)
    refine h.of_entries (x := x) rfl rfl (fun x' hx => ?_) (fun p e he => ?_) fun p e he => ?_
    · rw [Sys.setProc_proc, if_neg hx]
    · rw [Sys.setProc_proc, if_pos rfl, AList.lookup_empty] at he
      cases he
    · rw [hnone, AList.lookup_empty] at he
      cases he
  | connect x =>
    have hc := step_connect hstep
    exact h.of_files hc.root (fun x' => (hc.owned x').1) fun q k hq => hc.tree ▸ hq
  | read st =>
    obtain ⟨s, r, -, -, -, rfl⟩ := step_read hstep
    exact h.of_files rfl (fun _ => rfl) fun _ _ hq => hq
  | eof id =>
    obtain ⟨s, rec, -, -, -, rfl⟩ := step_eof hstep
    exact h.of_files rfl (fun _ => rfl) fun _ _ hq => hq
  | handle o =>
    obtain ⟨s, e, rest, hs, hqueue, rfl⟩ := step_handle hstep
    exact h.of_files rfl (fun _ => rfl) fun _ _ hq => foldl_onTree_file hq
  | supKill =>
    obtain ⟨-, rfl⟩ := step_supKill hstep
    exact h.of_files rfl (fun _ => rfl) fun _ _ hq => hq
  | supStart =>
    obtain ⟨-, rfl⟩ := step_supStart hstep
    exact h.of_files rfl (fun _ => rfl) fun _ _ hq => prepareBaseDir_file hq
  | recv x | addNext x | recvEof x | fail x | shutdown x | clearOne x | finish x | kill x
  | acceptError x => exact h.proc hR rfl hl hkill herror hstep

end Owned

/-! ### Servers and their sockets -/

/-- Streams, slugs and sockets are in order. -/
structure Ordered (f : String → String) (R : Entry → Prop) (y : Sys) : Prop where
  links : Linked y
  named : Named f y
  sockets : Owned R y

section Ordered

variable {f : String → String} {R : Entry → Prop} {y y' : Sys} {x : ProcId} {a : Action} {p : String}
  {e : Entry}

lemma ordered_init (f : String → String) (R : Entry → Prop) (root : Path) :
    Ordered f R (Sys.init root) :=
  ⟨linked_init root, named_init f root, owned_init R root⟩

lemma Ordered.not_idle (h : Ordered f R y)
    (he : (y.proc x).listeners.entries.lookup p = some e) : ¬ (y.proc x).phase.Idle := by
  intro hidle
  rw [h.links.idle x hidle] at he
  cases he

lemma Ordered.own (h : Ordered f R y) (hlive : (y.proc x).phase.Live) :
    Path.IsName (y.proc x).slug := h.named.own hlive

/-- The socket of an entry is in the directory of a slug of the group. -/
lemma Ordered.path (h : Ordered f R y) (he : (y.proc x).listeners.entries.lookup p = some e) :
    e.path = y.root ++ [p] ++ [(y.proc x).slug ++ ".socket"] ∧ Fits f (y.proc x).group p := by
  have hfits := h.named.peers x p (Or.inl (AList.lookup_isSome.mp (by rw [he]; rfl)))
  refine ⟨?_, hfits⟩
  rw [h.sockets.placed x p e he]
  exact listenerSocket_of_isName hfits.1 (h.own (Phase.live_of_not_idle (h.not_idle he)))

lemma Ordered.known (h : Ordered f R y) {n : Notification}
    (hknown : peerOf n ∈ (y.proc x).listeners.entries ∨ peerOf n ∈ (y.proc x).phase.todo ∨
      ∃ st m, (y.proc x).phase.stream = some st ∧ m ∈ (y.stream st).inbox ∧ peerOf n ∈ namesOf m) :
    Fits f (y.proc x).group (peerOf n) := h.named.known h.links hknown

/-- **One step** keeps the order. -/
theorem ordered_step (h : Ordered f R y) (hR : ∀ path sock, R ⟨path, sock, true⟩)
    (ha : StartsFit f a) (hkill : LeavesNone y a)
    (herror : ∀ x p, a = .acceptError x p → y.InPlace x p → ∀ e : Entry,
      R { e with running := false }) (hstep : step y a = some y') : Ordered f R y' where
  links := linked_step h.links hstep
  named := named_step h.named h.links ha hstep
  sockets := owned_step h.sockets hR h.links hkill herror hstep

end Ordered

end Crossbridge.Topology
