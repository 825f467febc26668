import Crossbridge.Bridge.Network

/-!
One carrier for every reference.

`find_issue_with_label` takes the first issue it meets with a label `xb-ref:<u>`. The invariant
`Inv` says that within a repo there is no choice: the label is on one issue at most, and on the one
whose UUID it names if that is in the repo. It is kept by every step of the network but one:
`submit_cmd` forwards all labels, and a submission may bring along a reference that the receiver has
on another issue, or that names one of its own (`NoClash`).
-/

namespace Crossbridge.Bridge.RefLabels

open Crossbridge.Protocol Crossbridge.Crosslink Crossbridge.Client Crossbridge.Server Crossbridge.Runs

/-- The issues of a repo. -/
def rows (n : Network) (r : String) : List Issue := (n.repo r).db.issues

/-- A command under way speaks of an issue that is there, and of no other. -/
def FlightOk (n : Network) : Flight → Prop
  | .submit src id target request =>
    (∃ i ∈ rows n src, i.id = id ∧ i.uuid = request.sourceUuid) ∧ target ≠ src ∧
      ∀ u, Server.refLabel u ∈ request.labels → ∃ s, ∃ j ∈ rows n s, j.uuid = u
  | .labels src id todo =>
    ∃ i ∈ rows n src, i.id = id ∧ ∀ u, Server.refLabel u ∈ todo → u = i.uuid
  | _ => True

/-- The invariant of the network. -/
structure Inv (n : Network) : Prop where
  /-- A UUID names one issue of one repo. -/
  uuids : ∀ r s, ∀ i ∈ rows n r, ∀ j ∈ rows n s, i.uuid = j.uuid → r = s ∧ i.id = j.id
  /-- A reference names an issue that exists. -/
  known : ∀ r, ∀ i ∈ rows n r, ∀ u, Server.refLabel u ∈ i.labels → ∃ s, ∃ j ∈ rows n s, j.uuid = u
  /-- The reference to an issue of the same repo is on that issue. -/
  own : ∀ r, ∀ i ∈ rows n r, ∀ j ∈ rows n r, Server.refLabel j.uuid ∈ i.labels → i.id = j.id
  /-- A reference is carried once. -/
  once : ∀ r, ∀ i ∈ rows n r, ∀ j ∈ rows n r, ∀ u, Server.refLabel u ∈ i.labels →
    Server.refLabel u ∈ j.labels → i.id = j.id
  /-- An issue with a reference to another one is open or closed. -/
  visible : ∀ r, ∀ i ∈ rows n r, ∀ u, Server.refLabel u ∈ i.labels → u ≠ i.uuid →
    i.status = "open" ∨ i.status = "closed"
  flights : ∀ f ∈ n.flights, FlightOk n f

/-- A network at its beginning: no references, no two issues with a UUID, no command under way. -/
structure Initial (n : Network) : Prop where
  uuids : ∀ r s, ∀ i ∈ rows n r, ∀ j ∈ rows n s, i.uuid = j.uuid → r = s ∧ i.id = j.id
  noRefs : ∀ r, ∀ i ∈ rows n r, ∀ u, Server.refLabel u ∉ i.labels
  flights : n.flights = []

lemma inv_of_initial {n : Network} (h : Initial n) : Inv n where
  uuids := h.uuids
  known r i hi u hu := absurd hu (h.noRefs r i hi u)
  own r i hi _ _ hu := absurd hu (h.noRefs r i hi _)
  once r i hi _ _ u hu _ := absurd hu (h.noRefs r i hi u)
  visible r i hi u hu _ := absurd hu (h.noRefs r i hi u)
  flights f hf := by
    rw [h.flights] at hf
    cases hf

section Keep

variable {n n' : Network}

/-- Every issue is still there, under its id and UUID. -/
def Persists (n n' : Network) : Prop :=
  ∀ r, ∀ i ∈ rows n r, ∃ i' ∈ rows n' r, i'.id = i.id ∧ i'.uuid = i.uuid

lemma FlightOk.mono {f : Flight} (h : FlightOk n f) (hp : Persists n n') : FlightOk n' f := by
  cases f with
  | submit src id target request =>
    obtain ⟨⟨i, hi, hid, huuid⟩, hne, hrefs⟩ := h
    obtain ⟨i', hi', hid', huuid'⟩ := hp src i hi
    refine ⟨⟨i', hi', hid'.trans hid, huuid'.trans huuid⟩, hne, fun u hu => ?_⟩
    obtain ⟨s, j, hj, hju⟩ := hrefs u hu
    obtain ⟨j', hj', -, hju'⟩ := hp s j hj
    exact ⟨s, j', hj', hju'.trans hju⟩
  | labels src id todo =>
    obtain ⟨i, hi, hid, hrefs⟩ := h
    obtain ⟨i', hi', hid', huuid'⟩ := hp src i hi
    exact ⟨i', hi', hid'.trans hid, fun u hu => (hrefs u hu).trans huuid'.symm⟩
  | answer => trivial
  | answered => trivial

/-- The databases of a network evolve. -/
def AllEvolve (n n' : Network) : Prop := ∀ r, Evolves (n.repo r).db (n'.repo r).db

lemma AllEvolve.persists (h : AllEvolve n n') : Persists n n' := by
  intro r i hi
  obtain ⟨g, hg, hold⟩ := h r
  refine ⟨g i, ?_, (hold i hi).1, (hold i hi).2.1⟩
  unfold rows
  rw [hg]
  exact List.mem_map_of_mem hi

/-- Where an issue comes from when the databases evolve. -/
lemma AllEvolve.origin (h : AllEvolve n n') {r : String} {i' : Issue} (hi' : i' ∈ rows n' r) :
    ∃ i ∈ rows n r, i'.id = i.id ∧ i'.uuid = i.uuid ∧
      (∀ u, Server.refLabel u ∈ i'.labels → Server.refLabel u ∈ i.labels ∨ u = i.uuid) ∧
      (i'.status = i.status ∨ i'.status = "open" ∨ i'.status = "closed") := by
  obtain ⟨g, hg, hold⟩ := h r
  unfold rows at hi'
  rw [hg] at hi'
  obtain ⟨i, hi, rfl⟩ := List.mem_map.mp hi'
  exact ⟨i, hi, hold i hi⟩

/-- **Touching issues** keeps the invariant. -/
theorem inv_evolve (h : Inv n) (he : AllEvolve n n') (hf : ∀ f ∈ n'.flights, FlightOk n f) :
    Inv n' where
  uuids r s i' hi' j' hj' huuid := by
    obtain ⟨i, hi, hid, hiu, -⟩ := he.origin hi'
    obtain ⟨j, hj, hjd, hju, -⟩ := he.origin hj'
    rw [hiu, hju] at huuid
    rw [hid, hjd]
    exact h.uuids r s i hi j hj huuid
  known r i' hi' u hu := by
    obtain ⟨i, hi, -, -, hrefs, -⟩ := he.origin hi'
    obtain ⟨s, j, hj, hju⟩ : ∃ s, ∃ j ∈ rows n s, j.uuid = u := by
      rcases hrefs u hu with hold | rfl
      · exact h.known r i hi u hold
      · exact ⟨r, i, hi, rfl⟩
    obtain ⟨j', hj', -, hju'⟩ := he.persists s j hj
    exact ⟨s, j', hj', hju'.trans hju⟩
  own r i' hi' j' hj' hu := by
    obtain ⟨i, hi, hid, -, hrefs, -⟩ := he.origin hi'
    obtain ⟨j, hj, hjd, hju, -⟩ := he.origin hj'
    rw [hid, hjd]
    rw [hju] at hu
    rcases hrefs _ hu with hold | heq
    · exact h.own r i hi j hj hold
    · exact (h.uuids r r i hi j hj heq.symm).2
  once r i' hi' j' hj' u hiu hju := by
    obtain ⟨i, hi, hid, -, hirefs, -⟩ := he.origin hi'
    obtain ⟨j, hj, hjd, -, hjrefs, -⟩ := he.origin hj'
    rw [hid, hjd]
    rcases hirefs u hiu with hi₀ | hi₀ <;> rcases hjrefs u hju with hj₀ | hj₀
    · exact h.once r i hi j hj u hi₀ hj₀
    · exact h.own r i hi j hj (hj₀ ▸ hi₀)
    · exact (h.own r j hj i hi (hi₀ ▸ hj₀)).symm
    · exact (h.uuids r r i hi j hj (hi₀.symm.trans hj₀)).2
  visible r i' hi' u hu hne := by
    obtain ⟨i, hi, -, hiu, hrefs, hst⟩ := he.origin hi'
    rw [hiu] at hne
    rcases hst with hst | hst
    · rw [hst]
      exact h.visible r i hi u ((hrefs u hu).resolve_right hne) hne
    · exact hst
  flights f hfl := (hf f hfl).mono he.persists

/-- A repo gets one more issue, with a UUID of its own and references to issues of other repos that
nothing in this one carries. -/
structure Adds (n n' : Network) (r : String) (i : Issue) : Prop where
  rows : rows n' r = rows n r ++ [i]
  others : ∀ s ≠ r, RefLabels.rows n' s = RefLabels.rows n s
  fresh : ∀ s, ∀ j ∈ RefLabels.rows n s, j.uuid ≠ i.uuid
  refs : ∀ u, Server.refLabel u ∈ i.labels → (∃ s, ∃ j ∈ RefLabels.rows n s, j.uuid = u) ∧
    ∀ j ∈ RefLabels.rows n r, Server.refLabel u ∉ j.labels ∧ j.uuid ≠ u
  status : i.status = "open"

lemma Adds.origin {r : String} {i : Issue} (h : Adds n n' r i) {s : String} {j : Issue}
    (hj : j ∈ RefLabels.rows n' s) : j ∈ RefLabels.rows n s ∨ (s = r ∧ j = i) := by
  by_cases hs : s = r
  · subst hs
    rw [h.rows] at hj
    rcases List.mem_append.mp hj with hj | hj
    · exact Or.inl hj
    · exact Or.inr ⟨rfl, List.mem_singleton.mp hj⟩
  · rw [h.others s hs] at hj
    exact Or.inl hj

lemma Adds.persists {r : String} {i : Issue} (h : Adds n n' r i) : Persists n n' := by
  intro s j hj
  refine ⟨j, ?_, rfl, rfl⟩
  by_cases hs : s = r
  · subst hs
    rw [h.rows]
    exact List.mem_append_left _ hj
  · rwa [h.others s hs]

/-- **Adding an issue** keeps the invariant. -/
theorem inv_adds {r : String} {i : Issue} (h : Inv n) (ha : Adds n n' r i)
    (hf : ∀ f ∈ n'.flights, FlightOk n f) : Inv n' where
  uuids s t j hj k hk huuid := by
    rcases ha.origin hj with hj | ⟨rfl, rfl⟩ <;> rcases ha.origin hk with hk | ⟨rfl, rfl⟩
    · exact h.uuids s t j hj k hk huuid
    · exact absurd huuid (ha.fresh s j hj)
    · exact absurd huuid.symm (ha.fresh t k hk)
    · exact ⟨rfl, rfl⟩
  known s j hj u hu := by
    obtain ⟨t, k, hk, hku⟩ : ∃ t, ∃ k ∈ RefLabels.rows n t, k.uuid = u := by
      rcases ha.origin hj with hj | ⟨rfl, rfl⟩
      · exact h.known s j hj u hu
      · exact (ha.refs u hu).1
    obtain ⟨k', hk', -, hku'⟩ := ha.persists t k hk
    exact ⟨t, k', hk', hku'.trans hku⟩
  own s j hj k hk hu := by
    rcases ha.origin hj with hj | ⟨rfl, rfl⟩ <;> rcases ha.origin hk with hk | ⟨hs, rfl⟩
    · exact h.own s j hj k hk hu
    · -- nothing speaks of the new issue yet
      obtain ⟨t, l, hl, hlu⟩ := h.known s j hj _ hu
      exact absurd hlu (ha.fresh t l hl)
    · exact absurd rfl ((ha.refs _ hu).2 k hk).2
    · rfl
  once s j hj k hk u hju hku := by
    rcases ha.origin hj with hj | ⟨rfl, rfl⟩ <;> rcases ha.origin hk with hk | ⟨hs, rfl⟩
    · exact h.once s j hj k hk u hju hku
    · subst hs
      exact absurd hju ((ha.refs u hku).2 j hj).1
    · exact absurd hku ((ha.refs u hju).2 k hk).1
    · rfl
  visible s j hj u hu hne := by
    rcases ha.origin hj with hj | ⟨rfl, rfl⟩
    · exact h.visible s j hj u hu hne
    · exact Or.inl ha.status
  flights f hfl := (hf f hfl).mono ha.persists

end Keep

/-! ### The steps -/

/-- The UUID that a step gives to a new issue is in use nowhere, and a user does not write references
by hand. -/
def Fresh (n : Network) : Action → Prop
  | .create r cl _ _ _ labels => (∀ s, ∀ i ∈ rows n s, i.uuid ≠ cl.newUuid (n.repo r).db) ∧
      ∀ u, Server.refLabel u ∉ labels
  | .handleSubmit cl _ k => ∀ src id target request,
      n.flights[k]? = some (.submit src id target request) →
        ∀ s, ∀ i ∈ rows n s, i.uuid ≠ cl.newUuid (n.repo target).db
  | _ => True

/-- A submission that is received as a new issue brings along no reference to another issue that the
receiver carries already, or that names an issue of the receiver. -/
def NoClash (n : Network) : Action → Prop
  | .handleSubmit cl _ k => ∀ src id target request,
      n.flights[k]? = some (.submit src id target request) →
      findIssueWithLabel cl noFaults (n.repo target).db (Server.refLabel request.sourceUuid) = .ok none →
        ∀ u, Server.refLabel u ∈ request.labels → u ≠ request.sourceUuid →
          ∀ j ∈ rows n target, Server.refLabel u ∉ j.labels ∧ j.uuid ≠ u
  | _ => True

section Steps

variable {n n' : Network}

lemma allEvolve_setRepo {r : String} {repo : Repo} (h : Evolves (n.repo r).db repo.db)
    (fl : List Flight) : AllEvolve n { n.setRepo r repo with flights := fl } := by
  intro s
  by_cases hs : s = r
  · subst hs
    simp only [Network.setRepo, Function.update_self]
    exact h
  · simp only [Network.setRepo, Function.update_of_ne hs]
    exact Evolves.refl _

lemma allEvolve_setDb {r : String} {db : Db} (h : Evolves (n.repo r).db db) (fl : List Flight) :
    AllEvolve n { n.setDb r db with flights := fl } :=
  allEvolve_setRepo h fl

lemma adds_setRepo {r : String} {repo : Repo} {i : Issue} (hrows : repo.db.issues = rows n r ++ [i])
    (hfresh : ∀ s, ∀ j ∈ rows n s, j.uuid ≠ i.uuid)
    (hrefs : ∀ u, Server.refLabel u ∈ i.labels → (∃ s, ∃ j ∈ rows n s, j.uuid = u) ∧
      ∀ j ∈ rows n r, Server.refLabel u ∉ j.labels ∧ j.uuid ≠ u)
    (hst : i.status = "open") (fl : List Flight) :
    Adds n { n.setRepo r repo with flights := fl } r i where
  rows := by simp only [rows, Network.setRepo, Function.update_self]; exact hrows
  others s hs := by simp only [rows, Network.setRepo, Function.update_of_ne hs]
  fresh := hfresh
  refs := hrefs
  status := hst

/-- **A new local issue.** -/
lemma adds_create {r : String} {cl : Choices} {title priority : String} {description : Option String}
    {labels : List String} {id : IssueId} {db : Db}
    (hc : (n.repo r).db.createIssue cl title description priority = .ok (id, db))
    (hfresh : Fresh n (.create r cl title description priority labels)) :
    ∃ i, Adds n { n.setDb r (addAll db id labels) with flights := n.flights } r i := by
  have hrows := Db.issues_modify_append (g := fun i => { i with labels := i.labels ∪ labels.toFinset })
    (Db.createIssue_ok hc).2
  refine ⟨_, adds_setRepo hrows hfresh.1 (fun u hu => ?_) rfl _⟩
  have hmem : Server.refLabel u ∈ labels := by simpa [Db.newIssue] using hu
  exact absurd hmem (hfresh.2 u)

/-- **A submission that is received.** -/
lemma adds_received (h : Inv n) {cl : Choices} {src target : String} {id : IssueId}
    {request : SubmitIssue} {repo : Repo} {i : Issue}
    (hok : FlightOk n (.submit src id target request))
    (hfresh : ∀ s, ∀ j ∈ rows n s, j.uuid ≠ cl.newUuid (n.repo target).db)
    (hnone : findIssueWithLabel cl noFaults (n.repo target).db (Server.refLabel request.sourceUuid) =
      .ok none)
    (hclash : ∀ u, Server.refLabel u ∈ request.labels → u ≠ request.sourceUuid →
      ∀ j ∈ rows n target, Server.refLabel u ∉ j.labels ∧ j.uuid ≠ u)
    (hrec : Received cl request (n.repo target) repo i) (fl : List Flight) :
    Adds n { n.setRepo target repo with flights := fl } target i := by
  obtain ⟨⟨j, hj, -, hju⟩, hne, hrefs⟩ := hok
  refine adds_setRepo hrec.issues (fun s k hk => ?_) (fun u hu => ?_) hrec.status fl
  · rw [hrec.uuid]
    exact hfresh s k hk
  · rw [hrec.labels, List.mem_toFinset, refLabel_mem_inboundLabels] at hu
    by_cases hu' : u = request.sourceUuid
    · subst hu'
      refine ⟨⟨src, j, hj, hju⟩, fun k hk => ?_⟩
      have hother : k.uuid ≠ request.sourceUuid := by
        intro heq
        exact hne (h.uuids src target j hj k hk (hju.trans heq.symm)).1.symm
      refine ⟨fun hku => ?_, hother⟩
      -- a carrier would be open or closed, and found
      have hhidden := find_none hnone hk hku
      exact (h.visible target k hk _ hku hother.symm).elim hhidden.1 hhidden.2
    · have hmem := hu.resolve_left hu'
      exact ⟨hrefs u hmem, hclash u hmem hu'⟩

lemma flightOk_of_getElem (h : Inv n) {k : ℕ} {f : Flight} (hk : n.flights[k]? = some f) :
    FlightOk n f :=
  h.flights f (List.mem_of_getElem? hk)

lemma flightOk_eraseIdx (h : Inv n) (k : ℕ) : ∀ f ∈ n.flights.eraseIdx k, FlightOk n f :=
  fun f hf => h.flights f (List.mem_of_mem_eraseIdx hf)

lemma flightOk_set (h : Inv n) {k : ℕ} {g : Flight} (hg : FlightOk n g) :
    ∀ f ∈ n.flights.set k g, FlightOk n f := by
  intro f hf
  rcases List.mem_or_eq_of_mem_set hf with hf | rfl
  · exact h.flights f hf
  · exact hg

/-- The labels of an outbound issue refer to the issue itself. -/
lemma refLabel_mem_outboundLabels {u uuid : String}
    (h : Server.refLabel u ∈ outboundLabels uuid) : u = uuid := by
  have ho : Server.refLabel u ≠ outbound := refLabel_ne_of_prefix (by decide)
  have hp : Server.refLabel u ≠ statusPending := refLabel_ne_of_prefix (by decide)
  unfold outboundLabels at h
  rw [List.mem_cons, List.mem_cons, List.mem_singleton] at h
  rcases h with h | h | h
  · exact absurd h ho
  · exact absurd h hp
  · exact refLabel_injective h

lemma flightOk_labels {src target : String} {id : IssueId} {request : SubmitIssue}
    (h : FlightOk n (.submit src id target request)) :
    FlightOk n (.labels src id (outboundLabels request.sourceUuid)) := by
  obtain ⟨⟨i, hi, hid, huuid⟩, -, -⟩ := h
  exact ⟨i, hi, hid, fun u hu => (refLabel_mem_outboundLabels hu).trans huuid.symm⟩

/-- **One step** keeps the invariant. -/
theorem inv_step {a : Action} (h : Inv n) (hfresh : Fresh n a) (hclash : NoClash n a)
    (hstep : step n a = some n') : Inv n' := by
  cases a with
  | create r cl title description priority labels =>
    simp only [step] at hstep
    split at hstep
    · cases hstep
    · rename_i id db hc
      obtain rfl := Option.some.inj hstep
      obtain ⟨i, ha⟩ := adds_create hc hfresh
      exact inv_adds h ha h.flights
  | setStatus r id closed =>
    obtain rfl := Option.some.inj hstep
    exact inv_evolve h (allEvolve_setDb (evolves_setStatus closed) n.flights) h.flights
  | submit env cl src id target =>
    simp only [step] at hstep
    split at hstep
    · cases hstep
    · rename_i hne
      split at hstep
      · cases hstep
      · rename_i out hout
        obtain rfl := Option.some.inj hstep
        obtain ⟨i, hi, -, huuid, hlabels⟩ := submitRequest_ok hout
        have hflight : FlightOk n (.submit src id target out.request) := by
          refine ⟨⟨i, Db.mem_of_getIssue hi, Db.id_of_getIssue hi, huuid.symm⟩, hne, fun u hu => ?_⟩
          exact h.known src i (Db.mem_of_getIssue hi) u ((hlabels _).mp hu)
        refine inv_evolve h (fun r => Evolves.refl _) fun f hf => ?_
        rcases List.mem_append.mp hf with hf | hf
        · exact h.flights f hf
        · rwa [List.mem_singleton.mp hf]
  | handleSubmit cl mat k =>
    simp only [step] at hstep
    split at hstep
    · rename_i src id target request hk
      have hok := flightOk_of_getElem h hk
      have hset := flightOk_set (k := k) h (flightOk_labels hok)
      rcases handleSubmit_cases cl mat request (n.repo target) with
        ⟨id', -, heq⟩ | ⟨hnone, ⟨e, -, heq⟩ | ⟨i, repo, heq, hrec⟩⟩
      · rw [heq] at hstep
        obtain rfl := Option.some.inj hstep
        exact inv_evolve h (allEvolve_setRepo (Evolves.refl _) _) hset
      · rw [heq] at hstep
        obtain rfl := Option.some.inj hstep
        exact inv_evolve h (allEvolve_setRepo (Evolves.refl _) _) (flightOk_eraseIdx h k)
      · rw [heq] at hstep
        obtain rfl := Option.some.inj hstep
        have hnew := hfresh src id target request hk
        have hno := hclash src id target request hk hnone
        exact inv_adds h (adds_received h hok hnew hnone hno hrec _) hset
    · cases hstep
  | writeLabel k =>
    simp only [step] at hstep
    split at hstep
    · rename_i src id l todo hk
      obtain rfl := Option.some.inj hstep
      obtain ⟨i, hi, hid, hrefs⟩ := flightOk_of_getElem h hk
      have hev : Evolves (n.repo src).db ((n.repo src).db.addLabel id l) := by
        refine evolves_addLabel fun j hj hjd u hu => ?_
        rw [Db.eq_of_id_eq hj hi (hjd.trans hid.symm)]
        exact hrefs u (hu ▸ List.mem_cons_self)
      refine inv_evolve h (allEvolve_setDb hev _) (flightOk_set h ?_)
      exact ⟨i, hi, hid, fun u hu => hrefs u (List.mem_cons_of_mem _ hu)⟩
    · cases hstep
  | answer env cl src id =>
    simp only [step] at hstep
    split at hstep
    · cases hstep
    · obtain rfl := Option.some.inj hstep
      refine inv_evolve h (fun r => Evolves.refl _) fun f hf => ?_
      rcases List.mem_append.mp hf with hf | hf
      · exact h.flights f hf
      · rw [List.mem_singleton.mp hf]
        trivial
  | handleAnswer cl k =>
    simp only [step] at hstep
    split at hstep
    · rename_i src id target request hk
      have hev := evolves_handleAnswer cl src request (n.repo target).db
      split at hstep
      · obtain rfl := Option.some.inj hstep
        exact inv_evolve h (allEvolve_setDb hev _) (flightOk_eraseIdx h k)
      · obtain rfl := Option.some.inj hstep
        exact inv_evolve h (allEvolve_setDb hev _) (flightOk_set h trivial)
    · cases hstep
  | finishAnswer k =>
    simp only [step] at hstep
    split at hstep
    · obtain rfl := Option.some.inj hstep
      exact inv_evolve h (allEvolve_setDb evolves_answerFinish _) (flightOk_eraseIdx h k)
    · cases hstep
  | lose k =>
    obtain rfl := Option.some.inj hstep
    exact inv_evolve h (fun r => Evolves.refl _) (flightOk_eraseIdx h k)

end Steps

/-- A reference is carried by one issue of a repo at most: the one whose UUID it names, if the repo
has it. That is the issue that is found. -/
def Unambiguous (n : Network) : Prop :=
  ∀ r u, ((n.repo r).db.carriers (Server.refLabel u)).length ≤ 1 ∧
    (∀ i ∈ rows n r, i.uuid = u → ∀ id ∈ (n.repo r).db.carriers (Server.refLabel u), id = i.id) ∧
    ∀ cl id, findIssueWithLabel cl noFaults (n.repo r).db (Server.refLabel u) = .ok (some id) →
      (n.repo r).db.carriers (Server.refLabel u) = [id]

lemma length_le_one_of_nodup {α : Type} {l : List α} (hn : l.Nodup)
    (h : ∀ x ∈ l, ∀ y ∈ l, x = y) : l.length ≤ 1 := by
  rcases l with _ | ⟨x, _ | ⟨y, l⟩⟩
  · simp
  · simp
  · obtain rfl := h x (by simp) y (by simp)
    simp at hn

lemma Inv.unambiguous {n : Network} (h : Inv n) : Unambiguous n := by
  intro r u
  have hnodup : ((n.repo r).db.carriers (Server.refLabel u)).Nodup :=
    (List.filter_sublist.map _).nodup (n.repo r).db.ids_nodup
  have hle : ((n.repo r).db.carriers (Server.refLabel u)).length ≤ 1 := by
    refine length_le_one_of_nodup hnodup fun x hx y hy => ?_
    obtain ⟨i, hi, hiu⟩ := Db.mem_carriers.mp hx
    obtain ⟨j, hj, hju⟩ := Db.mem_carriers.mp hy
    rw [← Db.id_of_getIssue hi, ← Db.id_of_getIssue hj]
    exact h.once r i (Db.mem_of_getIssue hi) j (Db.mem_of_getIssue hj) u hiu hju
  refine ⟨hle, fun i hi hiu id hid => ?_, fun cl id hfind => ?_⟩
  · obtain ⟨j, hj, hju⟩ := Db.mem_carriers.mp hid
    rw [← Db.id_of_getIssue hj]
    exact h.own r j (Db.mem_of_getIssue hj) i hi (hiu ▸ hju)
  · obtain ⟨i, hi, hl, -⟩ := find_some hfind
    have hmem := Db.mem_carriers.mpr ⟨i, hi, hl⟩
    obtain ⟨x, hx⟩ := List.length_eq_one_iff.mp (le_antisymm hle (List.length_pos_of_mem hmem))
    rw [hx] at hmem ⊢
    rw [List.mem_singleton.mp hmem]

/-- **References stay unambiguous** in every run in which no submission brings along a reference that
clashes with the receiver's. -/
theorem unambiguous_of_run {n n' : Network} {as : List Action} (hinit : Initial n)
    (hfresh : Meets step Fresh n as) (hclash : Meets step NoClash n as)
    (hrun : exec step n as = some n') : Unambiguous n' := by
  refine Inv.unambiguous (exec_inv_of_meets ?_ (inv_of_initial hinit) (hfresh.and hclash) hrun)
  intro n a n' h hc hs
  exact inv_step h hc.1 hc.2 hs

/-- **A clash shows at once.** After a submission that brings along a reference which the receiver
has on another issue, or which names one of its own, the references are ambiguous. -/
theorem ambiguous_of_clash {n n' : Network} {cl : Choices} {mat : Materialize} {k : ℕ}
    {src target u : String} {id id' : IssueId} {request : SubmitIssue} {j : Issue}
    (hk : n.flights[k]? = some (.submit src id target request))
    (hnone : findIssueWithLabel cl noFaults (n.repo target).db (Server.refLabel request.sourceUuid) =
      .ok none) (hid : cl.newId (n.repo target).db = .ok id')
    (hu : Server.refLabel u ∈ request.labels) (hj : j ∈ rows n target)
    (hclash : Server.refLabel u ∈ j.labels ∨ j.uuid = u)
    (hstep : step n (.handleSubmit cl mat k) = some n') : ¬ Unambiguous n' := by
  intro hun
  simp only [step, hk] at hstep
  rcases handleSubmit_cases cl mat request (n.repo target) with
    ⟨id'', hfind, -⟩ | ⟨-, ⟨e, he, -⟩ | ⟨i, repo, heq, hrec⟩⟩
  · rw [hnone] at hfind
    cases hfind
  · rw [hid] at he
    cases he
  · rw [heq] at hstep
    obtain rfl := Option.some.inj hstep
    obtain ⟨hle, hown, -⟩ := hun target u
    simp only [rows, Network.setRepo, Function.update_self] at hle hown
    have hrows : repo.db.issues = (n.repo target).db.issues ++ [i] := hrec.issues
    have hij : j.id ≠ i.id := by
      intro hid
      have hnodup := repo.db.ids_nodup
      rw [hrows, List.map_append, List.nodup_append] at hnodup
      exact hnodup.2.2 _ (List.mem_map_of_mem hj) _ (List.mem_singleton_self _) hid
    have hmem : Server.refLabel u ∈ i.labels := by
      rw [hrec.labels, List.mem_toFinset, refLabel_mem_inboundLabels]
      exact Or.inr hu
    have hcarry : repo.db.carriers (Server.refLabel u) =
        (n.repo target).db.carriers (Server.refLabel u) ++ [i.id] := by
      rw [Db.carriers_append hrows, if_pos hmem]
    rcases hclash with hju | hju
    · have hjmem : j.id ∈ (n.repo target).db.carriers (Server.refLabel u) :=
        Db.mem_carriers.mpr ⟨j, Db.getIssue_of_mem hj, hju⟩
      have hpos := List.length_pos_of_mem hjmem
      rw [hcarry, List.length_append, List.length_singleton] at hle
      omega
    · have hjrow : j ∈ repo.db.issues := by
        rw [hrows]
        exact List.mem_append_left _ hj
      refine hij (hown j hjrow hju i.id ?_).symm
      rw [hcarry]
      exact List.mem_append_right _ (List.mem_singleton_self _)

/-! ### There and back -/

/-- A root under which every peer is connected. -/
def everyone : Env := ⟨["run", "crossbridge"], fun _ => true⟩

/-- Nothing is attached, so `jj` is not run. -/
def withoutJj : Materialize := fun _ => .error ""

/-- Two repos, one of them with an issue. -/
def twoRepos : Network where
  repo r :=
    if r = "repo-a" then
      ⟨⟨[⟨1, "uuid-1", "Need answer X", none, "high", "open", ∅, []⟩], List.nodup_singleton _⟩, []⟩
    else ⟨Db.empty, []⟩
  flights := []

/-- The issue is submitted. -/
def there : List Action :=
  [.submit everyone (sorted fun _ => "") "repo-a" 1 "repo-b",
    .handleSubmit (sorted fun _ => "uuid-2") withoutJj 0, .writeLabel 0, .writeLabel 0, .writeLabel 0]

/-- The inbound issue is submitted back. -/
def back : List Action :=
  [.submit everyone (sorted fun _ => "") "repo-b" 1 "repo-a",
    .handleSubmit (sorted fun _ => "uuid-3") withoutJj 1]

lemma initial_twoRepos : Initial twoRepos where
  uuids r s i hi j hj _ := by
    have hone : ∀ r, ∀ i ∈ rows twoRepos r, r = "repo-a" ∧ i.id = 1 := by
      intro r i hi
      unfold rows twoRepos at hi
      by_cases hr : r = "repo-a"
      · simp only [hr, if_true, List.mem_singleton] at hi
        exact ⟨hr, by rw [hi]⟩
      · simp only [hr, if_false, Db.empty, List.not_mem_nil] at hi
    exact ⟨(hone r i hi).1.trans (hone s j hj).1.symm, (hone r i hi).2.trans (hone s j hj).2.symm⟩
  noRefs r i hi u := by
    unfold rows twoRepos at hi
    by_cases hr : r = "repo-a"
    · simp only [hr, if_true, List.mem_singleton] at hi
      rw [hi]
      exact Finset.notMem_empty _
    · simp only [hr, if_false, Db.empty, List.not_mem_nil] at hi
  flights := rfl

/-- Only two repos have issues, and none of these has the UUID that is given next. -/
lemma fresh_of_two {n : Network} {u : String} {mat : Materialize} {k : ℕ}
    (helse : ∀ s, s ≠ "repo-a" → s ≠ "repo-b" → rows n s = [])
    (ha : ∀ i ∈ rows n "repo-a", i.uuid ≠ u) (hb : ∀ i ∈ rows n "repo-b", i.uuid ≠ u) :
    Fresh n (.handleSubmit (sorted fun _ => u) mat k) := by
  intro src id target request _ s i hi
  by_cases hsa : s = "repo-a"
  · subst hsa
    exact ha i hi
  · by_cases hsb : s = "repo-b"
    · subst hsb
      exact hb i hi
    · rw [helse s hsa hsb] at hi
      cases hi

lemma rows_twoRepos {s : String} (hs : s ≠ "repo-a") : rows twoRepos s = [] := by
  simp only [rows, twoRepos, if_neg hs, Db.empty]

/-- The network after the first submission. -/
def submitted : Network := (exec step twoRepos there).getD twoRepos

lemma exec_there : exec step twoRepos there = some submitted := rfl

lemma rows_submitted {s : String} (ha : s ≠ "repo-a") (hb : s ≠ "repo-b") : rows submitted s = [] := by
  obtain ⟨b, a₁, a₂, a₃, hrepo⟩ : ∃ b a₁ a₂ a₃, submitted.repo =
      Function.update (Function.update (Function.update (Function.update twoRepos.repo
        "repo-b" b) "repo-a" a₁) "repo-a" a₂) "repo-a" a₃ := ⟨_, _, _, _, rfl⟩
  rw [rows, hrepo, Function.update_of_ne ha, Function.update_of_ne ha, Function.update_of_ne ha,
    Function.update_of_ne hb]
  exact rows_twoRepos ha

lemma fresh_there : Meets step Fresh twoRepos there := by
  refine ⟨trivial, fun n hn => ?_⟩
  obtain rfl := Option.some.inj hn
  refine ⟨fresh_of_two (fun s ha _ => rows_twoRepos ha) (by decide) (by decide), fun n hn => ?_⟩
  exact ⟨trivial, fun _ _ => ⟨trivial, fun _ _ => ⟨trivial, fun _ _ => trivial⟩⟩⟩

lemma fresh_back : Meets step Fresh submitted back := by
  refine ⟨trivial, fun n hn => ?_⟩
  obtain rfl := Option.some.inj hn
  exact ⟨fresh_of_two (fun s ha hb => rows_submitted ha hb) (by decide) (by decide),
    fun _ _ => trivial⟩

lemma noClash_there : Meets step NoClash twoRepos there := by
  refine ⟨trivial, fun n hn => ?_⟩
  obtain rfl := Option.some.inj hn
  refine ⟨fun src id target request hk _ u hu => ?_, fun n hn => ?_⟩
  · -- the issue of a user has no references
    obtain ⟨rfl, rfl, rfl, rfl⟩ := Flight.submit.inj (Option.some.inj hk)
    exact absurd hu (List.not_mem_nil)
  · exact ⟨trivial, fun _ _ => ⟨trivial, fun _ _ => ⟨trivial, fun _ _ => trivial⟩⟩⟩

theorem unambiguous_of_run_there : Unambiguous submitted :=
  unambiguous_of_run initial_twoRepos fresh_there noClash_there exec_there

/-- **A reference on two issues.** The inbound issue of `repo-b` is submitted back to `repo-a`: the
reference to `uuid-1` is then on the issue 1, whose UUID it is, and on the new inbound issue 2. -/
theorem reference_on_two_issues : Initial twoRepos ∧ Meets step Fresh twoRepos (there ++ back) ∧
    ∃ n, exec step twoRepos (there ++ back) = some n ∧
      (n.repo "repo-a").db.carriers (Server.refLabel "uuid-1") = [1, 2] ∧ ¬ Unambiguous n := by
  have hfresh : Meets step Fresh twoRepos (there ++ back) := by
    refine fresh_there.trans fun n hn => ?_
    obtain rfl := Option.some.inj (exec_there.symm.trans hn)
    exact fresh_back
  refine ⟨initial_twoRepos, hfresh, _, rfl, by decide, fun hun => ?_⟩
  have hle := (hun "repo-a" "uuid-1").1
  revert hle
  decide

end Crossbridge.Bridge.RefLabels
