import Crossbridge.Topology.Sockets

/-!
What groups share of the socket tree.

The path of a socket has the two slugs in it, and no group. Where each slug is used in one group
only, the sockets in the directory of a server are those of registered servers of its own group
(`Isolated`), and what happens in other groups does not touch them (`Undisturbed`); a slug that is used
in two groups breaks both (`shared_slug`).

A server listens on for a while after its registration has ended, and it hears of peers that join as
long as it has not read the end of the stream. So it also takes that no connection goes while its server
has a socket in place, and that no server puts one in place without a connection (`KeepsRegistered`);
otherwise the sockets are still those of the group, but nobody is registered there (`session_failed`).
-/

namespace Crossbridge.Topology

open Crossbridge.Protocol Crossbridge.Server Crossbridge.Supervisor Crossbridge.Runs

/-- The process listens at the path, on the socket that is there. -/
def Sys.Listens (y : Sys) (x : ProcId) (q : Path) : Prop :=
  ∃ p e, (y.proc x).listeners.entries.lookup p = some e ∧ e.path = q ∧ e.running = true ∧
    y.tree.lookup q = some (.file e.sock)

/-- The process is registered in the group: the supervisor has a connection on a stream of it. -/
def Sys.RegisteredIn (y : Sys) (x : ProcId) (g : String) : Prop :=
  ∃ s ∈ y.sup, ∃ e ∈ s.state.conns.entries, (y.stream e.2.stream).owner = x ∧
    e.2.slug = (y.proc x).slug ∧ e.2.group = g

/-- Every socket in the directory of a server, registered or not, is one on which a server listens that
is registered in its group. -/
def Isolated (y : Sys) : Prop :=
  ∀ s, (y.proc s).phase ≠ .absent → ∀ name k,
    y.tree.lookup (Client.socketDir y.root (y.proc s).slug ++ [name]) = some (.file k) →
    ∃ x, y.Listens x (Client.socketDir y.root (y.proc s).slug ++ [name]) ∧
      y.RegisteredIn x (y.proc s).group

/-- A registration or a departure in another group than `g`, or a step of a server of another group. -/
def Foreign (y : Sys) (g : String) (a : Action) : Prop :=
  (∃ x, a.actor = some x ∧ (y.proc x).group ≠ g) ∨
  ∃ o s e rest, a = .handle o ∧ y.sup = some s ∧ s.queue = e :: rest ∧
    ∀ r ∈ registrant s.state e, r.group ≠ g

/-- What happens in other groups leaves the sockets alone on which a server listens. -/
def Undisturbed (y : Sys) : Prop :=
  ∀ a y', step y a = some y' → ∀ x q, y.Listens x q → Foreign y (y.proc x).group a →
    y'.tree.lookup q = y.tree.lookup q

/-- The process whose departure the supervisor handles next. -/
def Sys.departing (y : Sys) : Option ProcId :=
  match y.sup with
  | none => none
  | some s =>
    match s.queue with
    | .departed id :: _ => (s.state.conns.lookup id).map fun rec => (y.stream rec.stream).owner
    | _ => none

/-- The process has no socket in place. -/
def Sys.Bare (y : Sys) (x : ProcId) : Prop :=
  ∀ e ∈ (y.proc x).listeners.entries.entries, y.tree.lookup e.2.path ≠ some (.file e.2.sock)

/-- No connection goes while its server has a socket in place, and no server adds a listener without a
connection. -/
def KeepsRegistered (y : Sys) : Action → Prop
  | .handle _ => ∀ x ∈ y.departing, y.Bare x
  | .supKill => ∀ e ∈ y.tree.entries, e.2 = .dir
  | .recv x out => ∀ p, y.heard (.recv x out) = some (.peerJoined p) → y.RegisteredIn x (y.proc x).group
  | .addNext x out =>
    ∀ p, y.heard (.addNext x out) = some (.peerJoined p) → y.RegisteredIn x (y.proc x).group
  | _ => True

instance (y : Sys) (x : ProcId) (g : String) : Decidable (y.RegisteredIn x g) := by
  unfold Sys.RegisteredIn; infer_instance

instance (y : Sys) (x : ProcId) : Decidable (y.Bare x) := by unfold Sys.Bare; infer_instance

instance (o : Option Notification) (P : Prop) [Decidable P] :
    Decidable (∀ p, o = some (.peerJoined p) → P) :=
  match o with
  | some (.peerJoined p) => decidable_of_iff P ⟨fun h _ _ => h, fun h => h p rfl⟩
  | some (.peerLeft _) | none => isTrue fun _ h => by cases h

instance (y : Sys) (a : Action) : Decidable (KeepsRegistered y a) := by
  unfold KeepsRegistered; split <;> infer_instance

/-- No process is killed, and no listener stops, with a socket in place, and those who have one are
registered. -/
def Graceful (y : Sys) (a : Action) : Prop :=
  LeavesNone y a ∧ (∀ x p, a = .acceptError x p → ¬ y.InPlace x p) ∧ KeepsRegistered y a

/-! ### Who is registered -/

/-- Who has a socket in place is registered; the numbers of the sockets are in use. -/
structure Members (y : Sys) : Prop where
  fresh : ∀ x p e, (y.proc x).listeners.entries.lookup p = some e → e.sock < y.nextSock
  registered : ∀ x p, y.InPlace x p → y.RegisteredIn x (y.proc x).group

section Members

variable {f : String → String} {R : Entry → Prop} {y y' : Sys} {x : ProcId} {a : Action}

lemma members_init (root : Path) : Members (Sys.init root) where
  fresh x p e h := by cases h
  registered x p h := by
    obtain ⟨e, he, -⟩ := h
    cases he

lemma registeredIn_iff (h : Linked y) : y.RegisteredIn x (y.proc x).group ↔
    ∃ s id rec, y.sup = some s ∧ s.state.conns.lookup id = some rec ∧ (y.stream rec.stream).owner = x := by
  constructor
  · rintro ⟨s, hs, ⟨id, rec⟩, he, howner, -⟩
    exact ⟨s, id, rec, hs, AList.mem_lookup_iff.mpr he, howner⟩
  · rintro ⟨s, id, rec, hs, hid, rfl⟩
    obtain ⟨hslug, hgroup⟩ := Register.mk.inj ((h.sup s hs).conns id rec hid).2.1
    exact ⟨s, hs, ⟨id, rec⟩, AList.mem_lookup_iff.mp hid, rfl, hslug, hgroup⟩

lemma bare_iff : y.Bare x ↔ ∀ p, ¬ y.InPlace x p := by
  constructor
  · rintro h p ⟨e, he, hfile⟩
    exact h ⟨p, e⟩ (AList.mem_lookup_iff.mp he) hfile
  · rintro h ⟨p, e⟩ he hfile
    exact h p ⟨e, AList.mem_lookup_iff.mpr he, hfile⟩

/-- The connections stay, and so do their owners. -/
lemma registered_of_conns (h : Linked y) (h' : Linked y')
    (hconns : ∀ s id rec, y.sup = some s → s.state.conns.lookup id = some rec →
      (y.stream rec.stream).owner = x → ∃ s', y'.sup = some s' ∧ s'.state.conns.lookup id = some rec ∧
        (y'.stream rec.stream).owner = x)
    (hreg : y.RegisteredIn x (y.proc x).group) : y'.RegisteredIn x (y'.proc x).group := by
  obtain ⟨s, id, rec, hs, hid, howner⟩ := (registeredIn_iff h).mp hreg
  obtain ⟨s', hs', hid', howner'⟩ := hconns s id rec hs hid howner
  exact (registeredIn_iff h').mpr ⟨s', id, rec, hs', hid', howner'⟩

/-- A step that puts no socket in place. -/
lemma Members.of_files (h : Members y) (hsock : y'.nextSock = y.nextSock)
    (hentries : ∀ x p e, (y'.proc x).listeners.entries.lookup p = some e →
      ∃ e₀, (y.proc x).listeners.entries.lookup p = some e₀ ∧ e₀.path = e.path ∧ e₀.sock = e.sock)
    (hfiles : ∀ q k, y'.tree.lookup q = some (.file k) → y.tree.lookup q = some (.file k))
    (hreg : ∀ x p, y.InPlace x p → y.RegisteredIn x (y.proc x).group →
      y'.RegisteredIn x (y'.proc x).group) : Members y' where
  fresh x p e he := by
    obtain ⟨e₀, he₀, -, hk⟩ := hentries x p e he
    rw [hsock, ← hk]
    exact h.fresh x p e₀ he₀
  registered x p hin := by
    obtain ⟨e, he, hfile⟩ := hin
    obtain ⟨e₀, he₀, hpath, hk⟩ := hentries x p e he
    have hin' : y.InPlace x p := by
      refine ⟨e₀, he₀, ?_⟩
      rw [hpath, hk]
      exact hfiles _ _ hfile
    exact hreg x p hin' (h.registered x p hin')

/-- The listeners are left alone. -/
lemma Members.frame (h : Members y) (hsock : y'.nextSock = y.nextSock)
    (hproc : ∀ x, (y'.proc x).listeners = (y.proc x).listeners)
    (hfiles : ∀ q k, y'.tree.lookup q = some (.file k) → y.tree.lookup q = some (.file k))
    (hreg : ∀ x p, y.InPlace x p → y.RegisteredIn x (y.proc x).group →
      y'.RegisteredIn x (y'.proc x).group) : Members y' := by
  refine h.of_files hsock (fun x p e he => ⟨e, ?_, rfl, rfl⟩) hfiles hreg
  rwa [hproc] at he

lemma registeredIn_of_joined {p : String} (hkeep : KeepsRegistered y a) (ha : a.actor = some x)
    (hn : y.heard a = some (.peerJoined p)) : y.RegisteredIn x (y.proc x).group := by
  cases a with
  | recv x₀ | addNext x₀ =>
    obtain rfl : x₀ = x := Option.some.inj ha
    exact hkeep p hn
  | clearOne x₀ =>
    rw [Sys.heard] at hn
    split at hn <;> cases hn
  | start | connect | recvEof | fail | shutdown | finish | kill | acceptError | read | eof | handle
  | supKill | supStart => cases hn

/-- A notification is acted on: a socket in place was in place, or it is of a peer that joins. -/
lemma inPlace_act {n : Notification} (h : Members y)
    (hplaced : ListenerSet.Placed y.root (y.proc x).listeners)
    (hother : ∀ x' ≠ x, (y'.proc x').listeners = (y.proc x').listeners)
    (hact : ((y'.proc x).listeners, y'.tree) =
      (y.proc x).listeners.act y.root y.tree a.out y.nextSock n) {x' : ProcId} {p : String}
    (hin : y'.InPlace x' p) : y.InPlace x' p ∨ x' = x ∧ ∃ q, n = .peerJoined q := by
  have hself : (y'.proc x).listeners =
      ((y.proc x).listeners.act y.root y.tree a.out y.nextSock n).1 := congrArg Prod.fst hact
  have htree : y'.tree = ((y.proc x).listeners.act y.root y.tree a.out y.nextSock n).2 :=
    congrArg Prod.snd hact
  have hcases := ListenerSet.act_cases y.root (y.proc x).listeners y.tree a.out y.nextSock n hplaced
  obtain ⟨e, he, hfile⟩ := hin
  -- the file of an entry from before is not the new one
  have hold : (y.proc x').listeners.entries.lookup p = some e → y.InPlace x' p := by
    intro he₀
    refine ⟨e, he₀, ?_⟩
    by_cases hpath : e.path = listenerSocket y.root (peerOf n) (y.proc x).listeners.ownSlug
    · rcases hcases with hsame | ⟨-, hnew⟩ | ⟨-, hnone⟩
      · rwa [htree, hsame] at hfile
      · rw [htree, hpath, hnew] at hfile
        have hlt := h.fresh x' p e he₀
        rw [← Node.file.inj (Option.some.inj hfile)] at hlt
        exact absurd hlt (lt_irrefl _)
      · rw [htree, hpath] at hfile
        exact absurd hfile (hnone _)
    · rw [htree] at hfile
      exact ((ListenerSet.sameBut_act hplaced).files e.path hpath e.sock).mp hfile
  by_cases hx : x' = x
  · subst hx
    by_cases hp : p = peerOf n
    · cases n with
      | peerJoined q => exact Or.inr ⟨rfl, q, rfl⟩
      | peerLeft q =>
        have hpq : p = q := hp
        rw [hself, ListenerSet.act, ListenerSet.lookup_remove, if_pos hpq] at he
        cases he
    · rw [hself, ListenerSet.lookup_act_ne hp] at he
      exact Or.inl (hold he)
  · rw [hother x' hx] at he
    exact Or.inl (hold he)

lemma fresh_act {n : Notification} (h : Members y)
    (hplaced : ListenerSet.Placed y.root (y.proc x).listeners)
    (hother : ∀ x' ≠ x, (y'.proc x').listeners = (y.proc x').listeners)
    (hself : (y'.proc x).listeners =
      ((y.proc x).listeners.act y.root y.tree a.out y.nextSock n).1) {x' : ProcId} {p : String}
    {e : Entry} (he : (y'.proc x').listeners.entries.lookup p = some e) : e.sock < y.nextSock + 1 := by
  by_cases hx : x' = x
  · subst hx
    rw [hself] at he
    by_cases hp : p = peerOf n
    · subst hp
      rcases ListenerSet.act_cases y.root (y.proc x').listeners y.tree a.out y.nextSock n hplaced with
        hsame | ⟨hnew, -⟩ | ⟨hnone, -⟩
      · rw [hsame] at he
        exact Nat.lt_succ_of_lt (h.fresh x' _ e he)
      · rw [hnew] at he
        obtain rfl := Option.some.inj he
        exact Nat.lt_succ_self _
      · rw [hnone] at he
        cases he
    · rw [ListenerSet.lookup_act_ne hp] at he
      exact Nat.lt_succ_of_lt (h.fresh x' p e he)
  · rw [hother x' hx] at he
    exact Nat.lt_succ_of_lt (h.fresh x' p e he)

/-- **A step of a process**: it puts a socket in place only when it is registered. -/
lemma Members.proc (h : Members y) (hl : Linked y)
    (hplaced : ListenerSet.Placed y.root (y.proc x).listeners) (ha : a.actor = some x)
    (hkeep : KeepsRegistered y a) (hstep : step y a = some y') : Members y' := by
  have hp := procStep_of_step ha (hl.idle x) hstep
  have hl' := linked_step hl hstep
  have hother : ∀ x' ≠ x, (y'.proc x').listeners = (y.proc x').listeners := fun x' hx => by
    rw [hp.other x' hx]
  have hreg : ∀ x', y.RegisteredIn x' (y.proc x').group → y'.RegisteredIn x' (y'.proc x').group := by
    intro x'
    refine registered_of_conns hl hl' fun s id rec hs hid howner => ⟨s, ?_, hid, ?_⟩
    · rw [hp.sup, hs]
    · rw [hp.owner, howner]
  have hsock := nextSock_of_step ha hstep
  rcases listeners_of_step ha hstep with ⟨hnone, htree, hsame⟩ | ⟨n, hn, hact, -⟩ |
    ⟨rfl, htree, hnone⟩ | ⟨p, e, rfl, htree, he, hstopped⟩
  · rw [if_pos hnone] at hsock
    refine h.frame hsock (fun x' => ?_) (fun q k hq => htree ▸ hq) fun x' _ _ => hreg x'
    by_cases hx : x' = x
    · rw [hx, hsame]
    · exact hother x' hx
  · rw [hn, if_neg (Option.some_ne_none n)] at hsock
    refine ⟨fun x' p e he => ?_, fun x' p hin => hreg x' ?_⟩
    · rw [hsock]
      exact fresh_act h hplaced hother (congrArg Prod.fst hact) he
    · rcases inPlace_act h hplaced hother hact hin with hin | ⟨rfl, q, rfl⟩
      · exact h.registered x' p hin
      · exact registeredIn_of_joined hkeep ha hn
  · refine h.of_files hsock (fun x' p e he => ⟨e, ?_, rfl, rfl⟩) (fun q k hq => htree ▸ hq)
      fun x' _ _ => hreg x'
    by_cases hx : x' = x
    · rw [hx, hnone, AList.lookup_empty] at he
      cases he
    · rwa [hother x' hx] at he
  · refine h.of_files hsock (fun x' p' e' he' => ?_) (fun q k hq => htree ▸ hq) fun x' _ _ => hreg x'
    by_cases hx : x' = x
    · subst hx
      rw [hstopped] at he'
      by_cases hpeer : p' = p
      · subst hpeer
        rw [AList.lookup_insert] at he'
        exact ⟨e, he, by rw [← Option.some.inj he'], by rw [← Option.some.inj he']⟩
      · rw [AList.lookup_insert_ne hpeer] at he'
        exact ⟨e', he', rfl, rfl⟩
    · rw [hother x' hx] at he'
      exact ⟨e', he', rfl, rfl⟩

/-- **The supervisor handles an event**: a connection that goes has no socket in place. -/
lemma Members.handle {o : Outcomes} (h : Members y) (hl : Linked y) (hkeep : KeepsRegistered y (.handle o))
    (hstep : step y (.handle o) = some y') : Members y' := by
  have hl' := linked_step hl hstep
  obtain ⟨s, e, rest, hs, hqueue, rfl⟩ := step_handle hstep
  refine h.frame rfl (fun _ => rfl) (fun q k hq => foldl_onTree_file hq) fun x p hin hreg => ?_
  refine registered_of_conns hl hl' (fun s' id rec hs' hid howner => ?_) hreg
  obtain rfl := Option.some.inj (hs.symm.trans hs')
  refine ⟨_, rfl, lookup_handleEvent_of_ne (hl.sup s hs).maps hid ?_, howner⟩
  rintro rfl
  refine bare_iff.mp (hkeep x ?_) p hin
  simp only [Sys.departing, hs, hqueue, hid, Option.map_some, howner, Option.mem_def]

/-- **One step**: who has a socket in place is registered. -/
theorem members_step (h : Members y) (hl : Linked y)
    (hplaced : ∀ x, ListenerSet.Placed y.root (y.proc x).listeners) (hkeep : KeepsRegistered y a)
    (hstep : step y a = some y') : Members y' := by
  have hl' := linked_step hl hstep
  cases a with
  | start x slug group =>
    obtain ⟨-, rfl⟩ := step_start hstep
    have hempty : ∀ p e, ((y.setProc x ⟨group, ⟨slug, ∅⟩, .offline⟩).proc x).listeners.entries.lookup p ≠
        some e := by
      intro p e he
      rw [Sys.setProc_proc, if_pos rfl, AList.lookup_empty] at he
      cases he
    refine h.of_files rfl (fun x' p e he => ⟨e, ?_, rfl, rfl⟩) (fun _ _ hq => hq) fun x' p hin hreg => ?_
    · by_cases hx : x' = x
      · exact absurd (hx ▸ he) (hempty p e)
      · rwa [Sys.setProc_proc, if_neg hx] at he
    · exact registered_of_conns hl hl' (fun s id rec hs hid howner => ⟨s, hs, hid, howner⟩) hreg
  | connect x =>
    have hc := step_connect hstep
    refine h.frame ?_ (fun x' => (hc.owned x').1) (fun q k hq => hc.tree ▸ hq) fun x' p hin hreg => ?_
    · simp only [step] at hstep
      split at hstep
      · obtain rfl := Option.some.inj hstep
        rfl
      · cases hstep
    · refine registered_of_conns hl hl' (fun s id rec hs hid howner => ⟨s, hc.sup.trans hs, hid, ?_⟩) hreg
      rw [hc.old _ (hc.lt ((hl.sup s hs).conns id rec hid).1).2, howner]
  | read st =>
    obtain ⟨s, r, hs, -, -, rfl⟩ := step_read hstep
    refine h.frame rfl (fun _ => rfl) (fun _ _ hq => hq) fun x' p hin hreg => ?_
    refine registered_of_conns hl hl' (fun s' id rec hs' hid howner => ⟨_, rfl, ?_, ?_⟩) hreg
    · obtain rfl := Option.some.inj (hs.symm.trans hs')
      exact hid
    · rw [← howner, Sys.setStream_stream]
      split
      · rename_i heq
        rw [heq]
      · rfl
  | eof id₀ =>
    obtain ⟨s, rec₀, hs, -, -, rfl⟩ := step_eof hstep
    refine h.frame rfl (fun _ => rfl) (fun _ _ hq => hq) fun x' p hin hreg => ?_
    refine registered_of_conns hl hl' (fun s' id rec hs' hid howner => ⟨_, rfl, ?_, howner⟩) hreg
    obtain rfl := Option.some.inj (hs.symm.trans hs')
    exact hid
  | handle o => exact h.handle hl hkeep hstep
  | supKill =>
    obtain ⟨-, rfl⟩ := step_supKill hstep
    refine h.frame rfl (fun _ => rfl) (fun _ _ hq => hq) fun x' p hin _ => ?_
    obtain ⟨e, -, hfile⟩ := hin
    cases hkeep ⟨e.path, .file e.sock⟩ (AList.mem_lookup_iff.mp hfile)
  | supStart =>
    obtain ⟨hnone, rfl⟩ := step_supStart hstep
    refine h.frame rfl (fun _ => rfl) (fun _ _ hq => prepareBaseDir_file hq) fun x' p _ hreg => ?_
    obtain ⟨s, hs, -⟩ := hreg
    rw [hnone] at hs
    cases hs
  | recv x | addNext x | recvEof x | fail x | shutdown x | clearOne x | finish x | kill x
  | acceptError x => exact h.proc hl (hplaced x) rfl hkeep hstep

end Members

section Apart

variable {f : String → String} {y y' : Sys} {x : ProcId} {q : Path} {a : Action}

lemma isolated_of_ordered (h : Ordered f (fun e => e.running = true) y) (hmembers : Members y) :
    Isolated y := by
  intro s hs name k hfile
  have hslug := h.named.slug s hs
  obtain ⟨x, p, e, he, hq, rfl, hrun⟩ := h.sockets.owner _ k hfile
  obtain ⟨hpath, hfits⟩ := h.path he
  refine ⟨x, ⟨p, e, he, hq, hrun, hfile⟩, ?_⟩
  rw [hq, Client.socketDir, Path.join_of_isName hslug.1] at hpath
  -- the directory is that of the peer
  obtain ⟨hdir, -⟩ := List.append_inj' hpath rfl
  obtain rfl : (y.proc s).slug = p := by simpa using hdir
  rw [← hfits.2.symm.trans hslug.2]
  exact hmembers.registered x _ ⟨e, he, hq.symm ▸ hfile⟩

/-- A listener of a process of another group has another directory. -/
lemma undisturbed_proc {R : Entry → Prop} (h : Ordered f R y) {x' : ProcId} (ha : a.actor = some x')
    (hgroup : (y.proc x').group ≠ (y.proc x).group) (hq : y.Listens x q)
    (hstep : step y a = some y') : y'.tree.lookup q = y.tree.lookup q := by
  obtain ⟨p, e, he, rfl, hrun, hfile⟩ := hq
  obtain ⟨hpath, hfits⟩ := h.path he
  rcases listeners_of_step ha hstep with ⟨-, htree, -⟩ | ⟨n, -, hact, hknown⟩ | ⟨-, htree, -⟩ |
    ⟨-, -, -, htree, -⟩
  · rw [htree]
  · have hpeer := h.known hknown
    have hplaced := h.sockets.placed x'
    have htree : y'.tree = ((y.proc x').listeners.act y.root y.tree a.out y.nextSock n).2 :=
      congrArg Prod.snd hact
    have hlive := (procStep_of_step ha (h.links.idle x') hstep).live
    rw [htree, hfile, (ListenerSet.sameBut_act hplaced).files]
    · exact hfile
    · rw [hpath, listenerSocket_of_isName hpeer.1 (h.own hlive)]
      intro heq
      obtain ⟨hdir, -⟩ := List.append_inj' heq rfl
      have hp : p = peerOf n := by simpa using hdir
      exact hgroup (hpeer.2.symm.trans ((congrArg f hp).symm.trans hfits.2))
  · rw [htree]
  · rw [htree]

/-- An event of another group changes nothing below the directories of the group. -/
lemma undisturbed_handle {R : Entry → Prop} (h : Ordered f R y) {o : Outcomes} {s : Sup} {e : Event}
    {rest : List Event} (hs : y.sup = some s) (hqueue : s.queue = e :: rest)
    (hgroup : ∀ r ∈ registrant s.state e, r.group ≠ (y.proc x).group) (hq : y.Listens x q) :
    (handled y (s.state.handleEvent o e) rest).tree.lookup q = y.tree.lookup q := by
  obtain ⟨p, e', he', rfl, hrun, hfile⟩ := hq
  obtain ⟨hpath, hfits⟩ := h.path he'
  refine lookup_handleEvent (FileTree.mem_of_lookup hfile) fun r hr _ => ?_
  have hslug := h.named.registrant h.links hs hqueue r hr
  rw [slugDir_of_isName hslug.1, (h.links.sup s hs).base, hpath]
  refine Path.not_prefix_of_ne (b := p) (fun heq => ?_) (List.prefix_append _ _)
  exact hgroup r hr (hslug.2.symm.trans (heq ▸ hfits.2))

lemma undisturbed_of_ordered {R : Entry → Prop} (h : Ordered f R y) : Undisturbed y := by
  intro a y' hstep x q hq hforeign
  rcases hforeign with ⟨x', ha, hgroup⟩ | ⟨o, s, e, rest, rfl, hs, hqueue, hgroup⟩
  · exact undisturbed_proc h ha hgroup hq hstep
  · obtain ⟨s', e', rest', hs', hqueue', rfl⟩ := step_handle hstep
    obtain rfl := Option.some.inj (hs.symm.trans hs')
    obtain ⟨rfl, rfl⟩ := List.cons.inj (hqueue.symm.trans hqueue')
    exact undisturbed_handle h hs hqueue hgroup hq

end Apart

/-! ### A slug of two groups -/

/-- A step that is no crash of a server. -/
def NoCrash : Action → Prop
  | .kill _ | .acceptError _ _ => False
  | _ => True

instance : DecidablePred NoCrash
  | .kill _ | .acceptError _ _ => isFalse id
  | .start _ _ _ | .connect _ | .recv _ _ | .addNext _ _ | .recvEof _ | .fail _ | .shutdown _
  | .clearOne _ _ | .finish _ | .read _ | .eof _ | .handle _ | .supKill | .supStart => isTrue trivial

lemma leavesNone_of_noCrash {y : Sys} {a : Action} (h : NoCrash a) :
    LeavesNone y a ∧ ∀ x p, a = .acceptError x p → ¬ y.InPlace x p := by
  cases a with
  | kill | acceptError => exact h.elim
  | start | connect | recv | addNext | recvEof | fail | shutdown | clearOne | finish | read | eof
  | handle | supKill | supStart => exact ⟨trivial, fun x p heq => by cases heq⟩

lemma meets_graceful {root : Path} {as : List Action} (h : ∀ a ∈ as, NoCrash a)
    (hkeep : Meets step KeepsRegistered (Sys.init root) as) : Meets step Graceful (Sys.init root) as :=
  ((meets_of_forall h).and hkeep).mono fun _ _ hc =>
    ⟨(leavesNone_of_noCrash hc.1).1, (leavesNone_of_noCrash hc.1).2, hc.2⟩

/-- `repo-a` and `repo-b` in one group, and then `repo-a` and `repo-c` in another one; the first
`repo-a` has a socket of each in its directory. -/
def sharedSlug : List Action :=
  [.supStart] ++ enters 0 0 "repo-a" "g" ++ enters 1 1 "repo-b" "g" ++ [.addNext 1 .bound] ++
    enters 2 2 "repo-a" "h" ++ enters 3 3 "repo-c" "h" ++ [.addNext 3 .bound] ++
    [.shutdown 2, .finish 2, .eof 2]

/-- `repo-b` has a socket in the directory of `repo-a`, its session fails, and its departure is handled
before it clears its listeners. -/
def sessionFailed : List Action :=
  [.supStart] ++ enters 0 0 "repo-a" "g" ++ enters 1 1 "repo-b" "g" ++ [.addNext 1 .bound] ++
    [.fail 1, .eof 1, .handle (failing [])]

set_option maxRecDepth 4000 in
/-- **A server that listens on** after its registration has ended, in one group alone. -/
theorem session_failed : PlainSlugs sessionFailed ∧ OneGroupEach sessionFailed ∧
    (∀ a ∈ sessionFailed, NoCrash a) ∧
    ∃ y, exec step (Sys.init ["run"]) sessionFailed = some y ∧
      y.Listens 1 ["run", "repo-a", "repo-b.socket"] ∧ ¬ Isolated y := by
  have hrun : exec step (Sys.init ["run"]) sessionFailed = some _ := rfl
  refine ⟨by decide, by decide, by decide, _, hrun, ⟨"repo-a", _, rfl, rfl, rfl, rfl⟩, fun h => ?_⟩
  obtain ⟨x, ⟨p, e, he, -⟩, hin⟩ := h 0 (by decide) "repo-b.socket" 0 rfl
  rcases x with _ | _ | x
  · cases AList.mem_lookup_iff.mp he
  · exact absurd hin (by decide)
  · cases AList.mem_lookup_iff.mp he

/-- Two groups without a common slug; the first one has a socket in place, and the other one's server
comes and goes. -/
def apartSlugs : List Action :=
  [.supStart] ++ enters 0 0 "repo-a" "g" ++ enters 1 1 "repo-b" "g" ++ [.addNext 1 .bound] ++
    enters 2 2 "repo-c" "h" ++ [.shutdown 2, .finish 2, .eof 2, .handle (failing [])]

end Crossbridge.Topology
