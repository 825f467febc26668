import Crossbridge.Topology.Discovery

/-!
The directories of the slugs that are not registered.

The supervisor makes the directory of a slug before it registers it, and removes it when it departs.
A server makes it, too, when it adds a listener for a peer, and removes nothing but its socket; so the
directory of a peer that has departed in between comes back, and stays (`ghost_listed`). As long as
servers find the directory in place (`Timely`), the children of the base directory are those of the
registered slugs (`noGhosts_of_run`).
-/

namespace Crossbridge.Supervisor

/-- The slugs that are registered. -/
def State.slugs (s : State) : List String := s.conns.entries.map fun e => e.2.slug

section Slugs

variable {s : State} {o : Outcomes} {e : Event} {n : String}

lemma mem_slugs : n ∈ s.slugs ↔ ∃ id rec, s.conns.lookup id = some rec ∧ rec.slug = n := by
  unfold State.slugs
  rw [List.mem_map]
  constructor
  · rintro ⟨e, he, rfl⟩
    exact ⟨e.1, e.2, AList.mem_lookup_iff.mpr he, rfl⟩
  · rintro ⟨id, rec, hid, rfl⟩
    exact ⟨⟨id, rec⟩, AList.mem_lookup_iff.mp hid, rfl⟩

lemma mem_slugs_insert {rec : ConnRecord} (h : Consistent s) :
    n ∈ (s.insert rec).slugs ↔ n = rec.slug ∨ n ∈ s.slugs := by
  rw [mem_slugs, mem_slugs]
  constructor
  · rintro ⟨id, rec', hid, rfl⟩
    rw [lookup_conns_insert] at hid
    split at hid
    · rw [Option.some.inj hid]
      exact Or.inl rfl
    · exact Or.inr ⟨id, rec', hid, rfl⟩
  · rintro (rfl | ⟨id, rec', hid, rfl⟩)
    · exact ⟨s.nextId, rec, by rw [lookup_conns_insert, if_pos rfl], rfl⟩
    · refine ⟨id, rec', ?_, rfl⟩
      rw [lookup_conns_insert, if_neg (ne_of_lt (h.fresh id rec' hid)), hid]

/-- A connection whose slug no other one has. -/
lemma mem_slugs_remove {id : ConnId} {rec : ConnRecord} (hid : s.conns.lookup id = some rec)
    (hsole : ∀ id' rec', s.conns.lookup id' = some rec' → rec'.slug = rec.slug → id' = id) :
    n ∈ (s.remove id rec).slugs ↔ n ≠ rec.slug ∧ n ∈ s.slugs := by
  rw [mem_slugs, mem_slugs]
  constructor
  · rintro ⟨id', rec', hid', rfl⟩
    rw [lookup_conns_remove] at hid'
    split at hid'
    · cases hid'
    · rename_i hne
      exact ⟨fun heq => hne (hsole id' rec' hid' heq), id', rec', hid', rfl⟩
  · rintro ⟨hne, id', rec', hid', rfl⟩
    refine ⟨id', rec', ?_, rfl⟩
    rw [lookup_conns_remove, if_neg, hid']
    rintro rfl
    rw [hid] at hid'
    exact hne (congrArg _ (Option.some.inj hid').symm)

/-- **An event** keeps the directories of the registered slugs, and no others, where the slug that it
is about is used in one group. -/
theorem dirs_handleEvent {ι : Type} {t : FileTree ι} (hmaps : Consistent s)
    (hfile : ∀ n x, t.lookup (s.baseDir ++ [n]) ≠ some (.file x))
    (hplain : ∀ r ∈ registrant s e, Path.IsName r.slug)
    (hone : ∀ r ∈ registrant s e, ∀ id rec, s.conns.lookup id = some rec → rec.slug = r.slug →
      rec.group = r.group)
    (h : ∀ n, t.lookup (s.baseDir ++ [n]) = some .dir ↔ n ∈ s.slugs) (n : String) :
    ((s.handleEvent o e).2.foldl Effect.onTree t).lookup (s.baseDir ++ [n]) = some .dir ↔
      n ∈ (s.handleEvent o e).1.slugs := by
  cases e with
  | registered st r =>
    have hdir : s.slugDir r.slug = s.baseDir ++ [r.slug] := slugDir_of_isName (hplain r rfl)
    rw [State.handleEvent]
    rcases handleRegistration_cases o s st r with ⟨-, hr⟩ | hu | ha
    · rw [hr.state, hr.tree]
      exact h n
    · rw [hu.state, hu.tree, hdir, FileTree.lookup_removeDirAll_child, FileTree.lookup_createDirAll_child hfile, h]
      refine ⟨fun hn => hn.2.resolve_left hn.1, fun hn => ⟨?_, Or.inr hn⟩⟩
      rintro rfl
      obtain ⟨id, rec, hid, heq⟩ := mem_slugs.mp hn
      refine hu.new (hmaps.mem_group.mpr ⟨id, rec.stream, ?_⟩)
      rw [hid, ← heq, ← hone r rfl id rec hid heq]
    · rw [ha.state, ha.tree, hdir, FileTree.lookup_createDirAll_child hfile, h, mem_slugs_insert hmaps]
  | departed id =>
    rw [State.handleEvent]
    rcases handleDeparture_cases o s id with ⟨-, heq⟩ | ⟨rec, hd⟩
    · rw [heq]
      exact h n
    · have hr : ⟨rec.slug, rec.group⟩ ∈ registrant s (.departed id) := by
        rw [registrant, hd.conn]
        rfl
      have hsole : ∀ id' rec', s.conns.lookup id' = some rec' → rec'.slug = rec.slug → id' = id :=
        fun id' rec' hid' heq => hmaps.unique hid' hd.conn heq (hone _ hr id' rec' hid' heq)
      rw [hd.state, hd.tree, slugDir_of_isName (hplain _ hr), FileTree.lookup_removeDirAll_child, h,
        mem_slugs_remove hd.conn hsole]

end Slugs

end Crossbridge.Supervisor

namespace Crossbridge.Topology

open Crossbridge.Protocol Crossbridge.Server Crossbridge.Supervisor Crossbridge.Runs

/-- The directories of the plain slugs are those of the registered ones. -/
def NoGhosts (y : Sys) (s : Sup) : Prop :=
  ∀ n, Path.IsName n →
    (y.tree.lookup (Client.socketDir y.root n) = some .dir ↔ n ∈ s.state.slugs)

/-- The peer for which a server adds a listener. -/
def Sys.joined (y : Sys) (a : Action) : Option String :=
  (y.heard a).bind fun
    | .peerJoined p => some p
    | .peerLeft _ => none

/-- While a supervisor runs, a server that adds a listener for a peer finds the directory of the peer
in place, or fails to make one. -/
def Timely (y : Sys) (a : Action) : Prop :=
  y.sup.isSome → a.out ≠ .dirFails → ∀ p ∈ y.joined a, y.tree.lookup (peerDir y.root p) = some .dir

instance (y : Sys) (a : Action) : Decidable (Timely y a) := by unfold Timely; infer_instance

/-- The base directory has the directories of the registered slugs in it, and nothing else. -/
structure Tidy (f : String → String) (y : Sys) : Prop where
  links : Linked y
  named : Named f y
  noFile : ∀ n k, y.tree.lookup (y.root ++ [n]) ≠ some (.file k)
  dirs : ∀ s, y.sup = some s → ∀ n,
    (y.tree.lookup (y.root ++ [n]) = some .dir ↔ n ∈ s.state.slugs)

section Ghosts

variable {f : String → String} {y y' : Sys} {x : ProcId} {a : Action} {s : Sup}

lemma Sys.joined_eq_some {p : String} : y.joined a = some p ↔ y.heard a = some (.peerJoined p) := by
  unfold Sys.joined
  cases h : y.heard a with
  | none => simp
  | some n => cases n <;> simp

/-- Only a server adds listeners. -/
lemma Sys.joined_of_actor (h : a.actor = none) : y.joined a = none := by
  cases a with
  | start | connect | read | eof | handle | supKill | supStart => rfl
  | recv | addNext | recvEof | fail | shutdown | clearOne | finish | kill | acceptError => cases h

lemma tidy_init (f : String → String) (root : Path) : Tidy f (Sys.init root) where
  links := linked_init root
  named := named_init f root
  noFile n k h := by
    simp only [Sys.init] at h
    rw [FileTree.lookup_createDirAll, AList.lookup_empty] at h
    split at h <;> cases h
  dirs s h := by cases h

lemma Tidy.isName_of_joined (h : Tidy f y) (ha : a.actor = some x) (hstep : step y a = some y')
    {p : String} (hp : y.joined a = some p) : Path.IsName p := by
  have hheard := Sys.joined_eq_some.mp hp
  rcases listeners_of_step ha hstep with ⟨hnone, -, -⟩ | ⟨n, hn, -, hknown⟩ | ⟨rfl, -, -⟩ |
    ⟨q, e, rfl, -, -⟩
  · rw [hnone] at hheard
    cases hheard
  · rw [hheard] at hn
    obtain rfl := Option.some.inj hn
    exact (h.named.known h.links hknown).1
  · cases hheard
  · cases hheard

/-- **A step of a server**: no file comes into the base directory, and no directory but that of the
peer for which it adds a listener. -/
lemma Tidy.children (h : Tidy f y) (ha : a.actor = some x) (hstep : step y a = some y') :
    (∀ n k, y'.tree.lookup (y.root ++ [n]) ≠ some (.file k)) ∧
      ∀ n, y'.tree.lookup (y.root ++ [n]) = some .dir ↔
        (y.joined a = some n ∧ a.out ≠ .dirFails) ∨ y.tree.lookup (y.root ++ [n]) = some .dir := by
  have hp := procStep_of_step ha (h.links.idle x) hstep
  have hsame : y'.tree = y.tree → y.joined a = none →
      (∀ n k, y'.tree.lookup (y.root ++ [n]) ≠ some (.file k)) ∧
        ∀ n, y'.tree.lookup (y.root ++ [n]) = some .dir ↔
          (y.joined a = some n ∧ a.out ≠ .dirFails) ∨ y.tree.lookup (y.root ++ [n]) = some .dir := by
    intro htree hnone
    rw [htree, hnone]
    exact ⟨h.noFile, fun n => ⟨Or.inr, fun hd => hd.resolve_left fun hj => by cases hj.1⟩⟩
  rcases listeners_of_step ha hstep with ⟨hnone, htree, -⟩ | ⟨n, hn, hact, hknown⟩ |
    ⟨rfl, htree, -⟩ | ⟨p, e, rfl, htree, -⟩
  · exact hsame htree (by rw [Sys.joined, hnone]; rfl)
  · have hfits := h.named.known h.links hknown
    have htree : y'.tree = ((y.proc x).listeners.act y.root y.tree a.out y.nextSock n).2 :=
      congrArg Prod.snd hact
    have hsocket : ∀ k, y.root ++ [k] ≠
        listenerSocket y.root (peerOf n) (y.proc x).listeners.ownSlug := by
      intro k heq
      rw [listenerSocket_of_isName hfits.1 (h.named.own hp.live)] at heq
      have hlen := congrArg List.length heq
      simp at hlen
    rw [htree]
    refine ⟨fun k i hk => h.noFile k i (ListenerSet.file_act (hsocket k) hk), fun k => ?_⟩
    cases n with
    | peerLeft slug =>
      have hnone : y.joined a ≠ some k := by
        rw [Ne, Sys.joined_eq_some, hn]
        exact fun hj => by cases hj
      rw [ListenerSet.act, ListenerSet.dir_remove]
      exact ⟨Or.inr, fun hd => hd.resolve_left fun hj => hnone hj.1⟩
    | peerJoined slug =>
      simp only [peerOf] at hfits hsocket
      rw [ListenerSet.act, ListenerSet.dir_add (hsocket k), Sys.joined_eq_some, hn]
      by_cases hout : a.out = .dirFails
      · rw [if_pos hout]
        exact ⟨Or.inr, fun hd => hd.resolve_left fun hj => hj.2 hout⟩
      · rw [if_neg hout, peerDir, Path.join_of_isName hfits.1,
          FileTree.lookup_createDirAll_child h.noFile]
        simp [hout, eq_comm]
  · exact hsame htree rfl
  · exact hsame htree rfl

lemma Tidy.proc (h : Tidy f y) (ha : a.actor = some x) (hf : StartsFit f a) (hc : Timely y a)
    (hstep : step y a = some y') : Tidy f y' := by
  have hp := procStep_of_step ha (h.links.idle x) hstep
  obtain ⟨hfile, hdirs⟩ := h.children ha hstep
  refine ⟨linked_step h.links hstep, named_step h.named h.links hf hstep, fun n k => ?_,
    fun s hs n => ?_⟩
  · rw [hp.root]
    exact hfile n k
  · rw [hp.sup] at hs
    rw [hp.root, hdirs, ← h.dirs s hs]
    refine or_iff_right_of_imp fun hj => ?_
    have hpeer := hc (by rw [hs]; rfl) hj.2 n hj.1
    rwa [peerDir, Path.join_of_isName (h.isName_of_joined ha hstep hj.1)] at hpeer

/-- **The supervisor handles an event.** -/
lemma Tidy.handle (h : Tidy f y) {o : Outcomes} (hstep : step y (.handle o) = some y') : Tidy f y' := by
  refine ⟨linked_step h.links hstep, named_step h.named h.links (fun _ hp => by cases hp) hstep, ?_, ?_⟩
  · obtain ⟨s, e, rest, hs, hqueue, rfl⟩ := step_handle hstep
    exact fun n k hk => h.noFile n k (foldl_onTree_file hk)
  · obtain ⟨s, e, rest, hs, hqueue, rfl⟩ := step_handle hstep
    have hl := h.links.sup s hs
    have hfits := h.named.registrant h.links hs hqueue
    have hbase : y.root = s.state.baseDir := hl.base.symm
    intro s' hs' n
    obtain rfl := Option.some.inj hs'
    have hnoFile := h.noFile
    have hdirs := h.dirs s hs
    rw [hbase] at hnoFile hdirs
    have hone : ∀ r ∈ registrant s.state e, ∀ id rec, s.state.conns.lookup id = some rec →
        rec.slug = r.slug → rec.group = r.group := by
      intro r hr id rec hid heq
      rw [← (h.named.conn h.links hs hid).2, heq, (hfits r hr).2]
    have hkept := dirs_handleEvent (o := o) hl.maps hnoFile (fun r hr => (hfits r hr).1) hone hdirs n
    rwa [← hbase] at hkept

/-- **One step** that meets the condition leaves no ghosts. -/
theorem tidy_step (h : Tidy f y) (hf : StartsFit f a) (hc : Timely y a) (hstep : step y a = some y') :
    Tidy f y' := by
  have hkeep : y'.root = y.root → y'.tree = y.tree → (∀ s', y'.sup = some s' → ∃ s, y.sup = some s ∧
      s'.state = s.state) → Tidy f y' := by
    intro hroot htree hsup
    refine ⟨linked_step h.links hstep, named_step h.named h.links hf hstep, ?_, fun s' hs' => ?_⟩
    · rw [hroot, htree]
      exact h.noFile
    · obtain ⟨s, hs, hstate⟩ := hsup s' hs'
      rw [hroot, htree, hstate]
      exact h.dirs s hs
  cases a with
  | start x slug group =>
    obtain ⟨-, rfl⟩ := step_start hstep
    exact hkeep rfl rfl fun s hs => ⟨s, hs, rfl⟩
  | connect x =>
    have hc := step_connect hstep
    exact hkeep hc.root hc.tree fun s hs => ⟨s, hc.sup ▸ hs, rfl⟩
  | read st =>
    obtain ⟨s, r, hs, -, -, rfl⟩ := step_read hstep
    exact hkeep rfl rfl fun s' hs' => ⟨s, hs, by rw [← Option.some.inj hs']⟩
  | eof id =>
    obtain ⟨s, rec, hs, -, -, rfl⟩ := step_eof hstep
    exact hkeep rfl rfl fun s' hs' => ⟨s, hs, by rw [← Option.some.inj hs']⟩
  | handle o => exact h.handle hstep
  | supKill =>
    obtain ⟨-, rfl⟩ := step_supKill hstep
    exact hkeep rfl rfl fun s hs => by cases hs
  | supStart =>
    refine ⟨linked_step h.links hstep, named_step h.named h.links hf hstep, ?_, ?_⟩
    all_goals obtain ⟨-, rfl⟩ := step_supStart hstep
    · exact fun n k hk => h.noFile n k (prepareBaseDir_file hk)
    · intro s hs n
      obtain rfl := Option.some.inj hs
      -- the base directory is wiped, and no slug is registered
      refine iff_of_false (fun hd => ?_) fun hn => by cases hn
      rw [prepareBaseDir, FileTree.lookup_createDirAll, FileTree.lookup_clearDir, if_neg, if_pos] at hd
      · cases hd
      · exact ⟨List.prefix_append _ _, by simp⟩
      · intro hpre
        have hlen := hpre.1.length_le
        simp at hlen
  | recv x | addNext x | recvEof x | fail x | shutdown x | clearOne x | finish x | kill x
  | acceptError x => exact h.proc rfl hf hc hstep

lemma Tidy.noGhosts (h : Tidy f y) (hs : y.sup = some s) : NoGhosts y s := by
  intro n hn
  rw [Client.socketDir, Path.join_of_isName hn]
  exact h.dirs s hs n

/-- The client of a repo that is not registered is told so. -/
lemma Tidy.listPeers (h : Tidy f y) (hs : y.sup = some s) {n : String} (hn : Path.IsName n) :
    Client.listPeers y.tree (Client.socketDir y.root n) =
      .error "not registered with crossbridge (no socket dir)" ↔ n ∉ s.state.slugs := by
  rw [← h.noGhosts hs n hn, Client.listPeers]
  cases hnode : y.tree.lookup (Client.socketDir y.root n) with
  | none => simp
  | some node =>
    cases node with
    | dir => simp
    | file k =>
      rw [Client.socketDir, Path.join_of_isName hn] at hnode
      exact absurd hnode (h.noFile n k)

/-- A step against the condition makes the directory of a slug that is not registered. -/
lemma Tidy.timely_of_noGhosts (h : Tidy f y) (hs : y.sup = some s) {s' : Sup} (hs' : y'.sup = some s')
    (hstep : step y a = some y') (hkept : NoGhosts y' s') : Timely y a := by
  intro _ hout p hp
  cases ha : a.actor with
  | none =>
    rw [Sys.joined_of_actor ha] at hp
    cases hp
  | some x =>
    have hproc := procStep_of_step ha (h.links.idle x) hstep
    have hname := h.isName_of_joined ha hstep hp
    rw [hproc.sup, hs] at hs'
    obtain rfl := Option.some.inj hs'
    have hmade := ((h.children ha hstep).2 p).mpr (Or.inl ⟨hp, hout⟩)
    have hreg := hkept p hname
    rw [Client.socketDir, Path.join_of_isName hname, hproc.root] at hreg
    rw [peerDir, Path.join_of_isName hname]
    exact (h.dirs s hs p).mpr (hreg.mp hmade)

/-- **No ghost directories**, in every run in which servers find the directories of their peers in
place: then the plain slugs with a directory are those that are registered, and the clients of the
others are told that they are not; and after such a run a step leaves it so exactly if it meets this
condition, too. -/
theorem noGhosts_of_run {root : Path} {as : List Action} (hplain : PlainSlugs as)
    (hone : OneGroupEach as) (htimely : Meets step Timely (Sys.init root) as)
    (hrun : exec step (Sys.init root) as = some y) (hs : y.sup = some s) :
    NoGhosts y s ∧
    (∀ n, Path.IsName n → (Client.listPeers y.tree (Client.socketDir y.root n) =
      .error "not registered with crossbridge (no socket dir)" ↔ n ∉ s.state.slugs)) ∧
    ∀ a y' s', PlainSlugs (as ++ [a]) → OneGroupEach (as ++ [a]) → step y a = some y' →
      y'.sup = some s' → (NoGhosts y' s' ↔ Timely y a) := by
  have htidy : ∀ f, (∀ a ∈ as, StartsFit f a) → Tidy f y := by
    intro f hf
    refine exec_inv_of_meets ?_ (tidy_init f root) ((meets_of_forall hf).and htimely) hrun
    intro y a y' h ha hstep
    exact tidy_step h ha.1 ha.2 hstep
  obtain ⟨f, hf⟩ := exists_fits hplain hone
  refine ⟨(htidy f hf).noGhosts hs, fun n hn => (htidy f hf).listPeers hs hn, ?_⟩
  intro a y' s' hplain' hone' hstep hs'
  obtain ⟨f', hf'⟩ := exists_fits hplain' hone'
  have h' := htidy f' fun a ha => hf' a (List.mem_append_left _ ha)
  have hfit := hf' a (List.mem_append_right _ (List.mem_singleton_self a))
  exact ⟨h'.timely_of_noGhosts hs hs' hstep, fun hc => (tidy_step h' hfit hc hstep).noGhosts hs'⟩

end Ghosts

theorem noGhosts_of_run_metPeers : ∃ y s, exec step (Sys.init ["run"]) metPeers = some y ∧
    y.sup = some s ∧ NoGhosts y s := by
  have hmeets : Meets step Timely (Sys.init ["run"]) metPeers := by decide
  have hrun : exec step (Sys.init ["run"]) metPeers = some _ := rfl
  exact ⟨_, _, hrun, rfl, (noGhosts_of_run (by decide) (by decide) hmeets hrun rfl).1⟩

/-- `repo-b` joins and departs before `repo-a` has read of either. -/
def lateJoin : List Action :=
  [.supStart] ++ enters 0 0 "repo-a" "g" ++ enters 1 1 "repo-b" "g" ++
    [.addNext 1 .bound, .shutdown 1, .clearOne 1 "repo-a", .finish 1, .eof 1, .handle (failing []),
      .recv 0 .bound, .recv 0 .bound]

/-- **The directory of a slug that has departed** is made anew for the stale notification, and stays:
its clients find it, and no peers. -/
theorem ghost_listed : PlainSlugs lateJoin ∧ OneGroupEach lateJoin ∧ OneServerEach lateJoin ∧
    (∀ a ∈ lateJoin, a.out = .bound) ∧
    ∃ y s, exec step (Sys.init ["run"]) lateJoin = some y ∧ y.sup = some s ∧ Quiescent y s ∧
      "repo-b" ∉ s.state.slugs ∧ ¬ NoGhosts y s ∧
      Client.listPeers y.tree (Client.socketDir y.root "repo-b") = .ok [] := by
  have hrun : exec step (Sys.init ["run"]) lateJoin = some _ := rfl
  refine ⟨by decide, by decide, by decide, by decide, _, _, hrun, rfl,
    quiescent_of_entries rfl (by decide) fun x hx => ?_, by decide, fun h => ?_, by decide⟩
  · rcases x with _ | _ | x
    · exact ⟨0, rfl, rfl, rfl⟩
    · exact hx.elim
    · exact hx.elim
  · have hghost := (h "repo-b" (by decide)).mp (by decide)
    revert hghost
    decide

end Crossbridge.Topology
