import Crossbridge.Client.Commands
import Crossbridge.Server.HandlerEffect

/-!
The way of an answer: from an inbound issue back to the issue it was submitted as.

The route is read off the labels of the inbound issue, and `submit_cmd` forwards all labels of the
local one. The answer reaches the issue it belongs to, however labels and issues are listed, exactly
when the forwarded labels name no other source and no other issue, and the issue is the one that
`find_issue_with_label` comes to (`answer_routed_iff`).
-/

namespace Crossbridge.Bridge.Routing

open Crossbridge.Protocol Crossbridge.Crosslink Crossbridge.Client Crossbridge.Server

/-! ### Which issue is found -/

/-- The issue `id` carries the label, and no other that does is listed with it or before it. -/
def OnlyHit (db : Db) (label : String) (id : IssueId) : Prop :=
  ∃ i, db.getIssue id = some i ∧ label ∈ i.labels ∧
    ((i.status = "open" ∧ ∀ j ∈ db.issues, label ∈ j.labels → j.status = "open" → j.id = id) ∨
      (i.status = "closed" ∧
        ∀ j ∈ db.issues, label ∈ j.labels → j.status = "open" ∨ j.status = "closed" → j.id = id))

section Find

variable {db : Db} {label : String} {id : IssueId}

/-- **Found in any order.** Every way of listing the issues leads to `id` exactly when it is the only
hit. -/
theorem forall_find_iff : (∀ cl, findIssueWithLabel cl noFaults db label = .ok (some id)) ↔
    OnlyHit db label id := by
  constructor
  · intro h
    obtain ⟨i, hi, hl, hst⟩ := find_some (h (sorted fun _ => ""))
    obtain rfl := Db.id_of_getIssue hi
    have hdb := Db.mem_of_getIssue hi
    -- an open issue that is listed first is the one that is found
    have hopen : ∀ j ∈ db.issues, label ∈ j.labels → j.status = "open" → j.id = i.id := by
      intro j hj hjl hjs
      have hfind := find_open (head?_listIssues_listingFirst (l := "") hj hjs hjl)
      rw [h] at hfind
      simpa using hfind.symm
    refine ⟨i, hi, hl, ?_⟩
    rcases hst with hst | hst
    · exact Or.inl ⟨hst, hopen⟩
    · refine Or.inr ⟨hst, fun j hj hjl hjs => ?_⟩
      rcases hjs with hjs | hjs
      · exact hopen j hj hjl hjs
      · have hnone : ∀ k ∈ db.issues, label ∈ k.labels → k.status ≠ "open" := by
          intro k hk hkl hks
          have hki := Db.eq_of_id_eq hk hdb (hopen k hk hkl hks)
          rw [hki, hst] at hks
          exact absurd hks (by decide)
        have hfind := find_closed (head?_eq_none_of_forall hnone)
          (head?_listIssues_listingFirst (l := "") hj hjs hjl)
        rw [h] at hfind
        simpa using hfind.symm
  · rintro ⟨i, hi, hl, hst⟩ cl
    obtain rfl := Db.id_of_getIssue hi
    have hdb := Db.mem_of_getIssue hi
    rcases hst with ⟨hst, honly⟩ | ⟨hst, honly⟩
    · cases hhead : (db.listIssues cl "open" label).head? with
      | none =>
        have hmem : i ∈ db.listIssues cl "open" label := Db.mem_listIssues.mpr ⟨hdb, hst, hl⟩
        rw [List.head?_eq_none_iff.mp hhead] at hmem
        cases hmem
      | some j =>
        obtain ⟨hj, hjs, hjl⟩ := Db.mem_listIssues.mp (List.mem_of_head? hhead)
        rw [find_open hhead, honly j hj hjl hjs]
    · have hnone : ∀ k ∈ db.issues, label ∈ k.labels → k.status ≠ "open" := by
        intro k hk hkl hks
        have hki := Db.eq_of_id_eq hk hdb (honly k hk hkl (Or.inl hks))
        rw [hki, hst] at hks
        exact absurd hks (by decide)
      cases hhead : (db.listIssues cl "closed" label).head? with
      | none =>
        have hmem : i ∈ db.listIssues cl "closed" label := Db.mem_listIssues.mpr ⟨hdb, hst, hl⟩
        rw [List.head?_eq_none_iff.mp hhead] at hmem
        cases hmem
      | some j =>
        obtain ⟨hj, hjs, hjl⟩ := Db.mem_listIssues.mp (List.mem_of_head? hhead)
        rw [find_closed (head?_eq_none_of_forall hnone) hhead, honly j hj hjl (Or.inr hjs)]

end Find

/-! ### Where an answer goes -/

/-- The answer is applied to the issue `id`, and to no other. -/
def Updates (cl : Choices) (peer : String) (answer : SubmitAnswer) (db : Db) (id : IssueId) : Prop :=
  (handleAnswer cl noFaults peer answer db).1 = .ok id ∧
    (∃ i, (handleAnswer cl noFaults peer answer db).2.getIssue id = some i ∧ i.status = "closed" ∧
      "xb-status:resolved" ∈ i.labels) ∧
    ∀ j ≠ id, (handleAnswer cl noFaults peer answer db).2.getIssue j = db.getIssue j

/-- An answer updates the issue that is found for it. -/
theorem updates_iff {cl : Choices} {peer : String} {answer : SubmitAnswer} {db : Db} {id : IssueId} :
    Updates cl peer answer db id ↔
      findIssueWithLabel cl noFaults db (Server.refLabel answer.sourceUuid) = .ok (some id) := by
  unfold Updates
  rcases handleAnswer_cases cl peer answer db with ⟨hnone, e, heq⟩ | ⟨i, hfind, hi, heq⟩
  · rw [heq, hnone]
    simp
  · rw [heq, hfind]
    constructor
    · rintro ⟨hok, -⟩
      rw [Except.ok.inj hok]
    · intro hok
      obtain rfl : i.id = id := by simpa using hok
      have hmod := Db.getIssue_modify_self (g := answered (toCopy peer answer i.comments)) hi
      refine ⟨rfl, ⟨_, Db.getIssue_modify_self hmod, rfl, Finset.mem_insert_self _ _⟩, fun j hj => ?_⟩
      exact (Db.getIssue_modify_of_ne hj).trans (Db.getIssue_modify_of_ne hj)

/-- The answer of `b` on the issue `idB` goes to the socket of `a` and updates the issue `idA` there,
whose UUID it names. -/
def Routed (env : Env) (clB clA : Choices) (a b : String) (dbB : Db) (idB : IssueId) (uuid : String)
    (dbA : Db) (idA : IssueId) : Prop :=
  ∃ out, answerRequest env clB dbB b idB = .ok out ∧ out.peer = a ∧
    out.socket = socketPath env.root b a ∧ out.request.sourceUuid = uuid ∧
    Updates clA b out.request dbA idA

/-- The labels of an issue name `own` as the only source, and `uuid` as the only issue. -/
def OwnRoute (own uuid : String) (labels : Finset String) : Prop :=
  (∀ slug, sourceLabel slug ∈ labels → slug = own) ∧
    ∀ u, Server.refLabel u ∈ labels → u = uuid

/-- Each label is looked at once. -/
lemma ownRoute_iff {own uuid : String} {labels : Finset String} : OwnRoute own uuid labels ↔
    ∀ l ∈ labels, (∀ slug ∈ stripPrefix "xb-source:" l, slug = own) ∧
      ∀ u ∈ stripPrefix "xb-ref:" l, u = uuid := by
  constructor
  · rintro ⟨hsource, href⟩ l hl
    constructor
    · intro slug hs
      rw [stripPrefix_eq_some.mp hs] at hl
      exact hsource slug hl
    · intro u hu
      rw [stripPrefix_eq_some.mp hu] at hl
      exact href u hl
  · intro h
    exact ⟨fun slug hs => (h _ hs).1 slug (stripPrefix_append _ _),
      fun u hu => (h _ hu).2 u (stripPrefix_append _ _)⟩

instance (own uuid : String) (labels : Finset String) : Decidable (OwnRoute own uuid labels) :=
  decidable_of_iff' _ ownRoute_iff

section Route

variable {env : Env} {dbB dbA : Db} {idA idB : IssueId} {a b uuid : String} {i : Issue}

/-- The labels of an inbound issue, whatever else was forwarded. -/
structure Inbound (a uuid : String) (labels : Finset String) : Prop where
  inbound : inbound ∈ labels
  source : sourceLabel a ∈ labels
  ref : Server.refLabel uuid ∈ labels

lemma inbound_received {cl : Choices} {submit : SubmitIssue} {repo repo' : Repo}
    (h : Received cl submit repo repo' i) : Inbound submit.sourceSlug submit.sourceUuid i.labels := by
  rw [h.labels]
  refine ⟨?_, ?_, ?_⟩
  · rw [List.mem_toFinset, mem_inboundLabels]
    left
    simp [Client.inbound]
  · rw [List.mem_toFinset, sourceLabel_mem_inboundLabels]
    exact Or.inl rfl
  · rw [List.mem_toFinset, refLabel_mem_inboundLabels]
    exact Or.inl rfl

/-- What the route of an inbound issue is, as far as it was forwarded. -/
lemma ownRoute_received {cl : Choices} {submit : SubmitIssue} {repo repo' : Repo}
    (h : Received cl submit repo repo' i) : OwnRoute submit.sourceSlug submit.sourceUuid i.labels ↔
      OwnRoute submit.sourceSlug submit.sourceUuid submit.labels.toFinset := by
  unfold OwnRoute
  simp only [h.labels, List.mem_toFinset, sourceLabel_mem_inboundLabels, refLabel_mem_inboundLabels]
  refine and_congr (forall_congr' fun x => ?_) (forall_congr' fun x => ?_)
  · exact ⟨fun hx hl => hx (Or.inr hl), fun hx hl => hl.elim id hx⟩
  · exact ⟨fun hx hl => hx (Or.inr hl), fun hx hl => hl.elim id hx⟩

/-- **The route of an inbound issue.** In every order of labels and issues the answer is routed to
`a` and `idA` exactly when the labels name nothing else and `idA` is the only hit. -/
theorem forall_routed_iff (hi : dbB.getIssue idB = some i) (hin : Inbound a uuid i.labels)
    (hsock : env.fileExists (socketPath env.root b a) = true) :
    (∀ clB clA, Routed env clB clA a b dbB idB uuid dbA idA) ↔
      OwnRoute a uuid i.labels ∧ OnlyHit dbA (Server.refLabel uuid) idA := by
  constructor
  · intro h
    refine ⟨⟨fun slug hslug => ?_, fun u hu => ?_⟩, ?_⟩
    · -- a second source may be listed first
      obtain ⟨out, hout, hpeer, -⟩ := h (listingFirst (sourceLabel slug) 0) (sorted fun _ => "")
      have hfound := (answerRequest_ok hi hout).1
      obtain ⟨rest, hrest⟩ := labelOrder_listingFirst hslug 0
      simp only [Db.getLabels, hi, hrest] at hfound
      have hfirst : findPrefixed (sourceLabel slug :: rest) sourcePrefix = some slug :=
        findPrefixed_cons _ _ _
      rw [hfirst, hpeer] at hfound
      exact Option.some.inj hfound
    · -- and so may a second reference
      obtain ⟨out, hout, -, -, huuid, -⟩ := h (listingFirst (Server.refLabel u) 0) (sorted fun _ => "")
      have hfound := (answerRequest_ok hi hout).2
      obtain ⟨rest, hrest⟩ := labelOrder_listingFirst hu 0
      simp only [Db.getLabels, hi, hrest] at hfound
      have hfirst : findPrefixed (Server.refLabel u :: rest) refPrefix = some u :=
        findPrefixed_cons _ _ _
      rw [hfirst, huuid] at hfound
      exact Option.some.inj hfound
    · rw [← forall_find_iff]
      intro clA
      obtain ⟨out, -, -, -, huuid, hup⟩ := h (sorted fun _ => "") clA
      rw [updates_iff, huuid] at hup
      exact hup
  · rintro ⟨⟨hslugs, huuids⟩, honly⟩ clB clA
    obtain ⟨out, hout, hpeer, hsocket, huuid⟩ := answerRequest_of_unique clB hi hin.inbound
      hin.source hslugs hin.ref huuids hsock
    refine ⟨out, hout, hpeer, hsocket, huuid, ?_⟩
    rw [updates_iff, huuid]
    exact forall_find_iff.mpr honly clA

end Route

/-- No issue of `db` but `id` carries the label and is listed with it or before it. -/
def Findable (db : Db) (label : String) (id : IssueId) : Prop :=
  ∃ i, db.getIssue id = some i ∧
    ((i.status = "open" ∧ ∀ j ∈ db.issues, j.id ≠ id → label ∈ j.labels → j.status ≠ "open") ∨
      (i.status = "closed" ∧
        ∀ j ∈ db.issues, j.id ≠ id → label ∈ j.labels → j.status ≠ "open" ∧ j.status ≠ "closed"))

lemma mem_submitFinish {db : Db} {id : IssueId} {uuid : String} {j : Issue} (h : j.id ≠ id) :
    j ∈ (submitFinish db id uuid).issues ↔ j ∈ db.issues := by
  unfold submitFinish Db.addLabel
  rw [Db.mem_modify_of_ne h, Db.mem_modify_of_ne h, Db.mem_modify_of_ne h]

/-- The issue is the only hit, if it carries the label and no other is in its place. -/
lemma onlyHit_iff {db : Db} {label : String} {id : IssueId} {i : Issue} (hi : db.getIssue id = some i) :
    OnlyHit db label id ↔ label ∈ i.labels ∧ Findable db label id := by
  constructor
  · rintro ⟨k, hk, hl, hst⟩
    obtain rfl := Option.some.inj (hi.symm.trans hk)
    refine ⟨hl, i, hi, hst.imp (And.imp_right fun honly => ?_) (And.imp_right fun honly => ?_)⟩
    · exact fun j hj hne hjl hjs => hne (honly j hj hjl hjs)
    · exact fun j hj hne hjl => ⟨fun hjs => hne (honly j hj hjl (Or.inl hjs)),
        fun hjs => hne (honly j hj hjl (Or.inr hjs))⟩
  · rintro ⟨hl, k, hk, hst⟩
    obtain rfl := Option.some.inj (hi.symm.trans hk)
    refine ⟨i, hi, hl, hst.imp (And.imp_right fun honly => ?_) (And.imp_right fun honly => ?_)⟩
    · intro j hj hjl hjs
      by_contra hne
      exact honly j hj hne hjl hjs
    · intro j hj hjl hjs
      by_contra hne
      exact hjs.elim (honly j hj hne hjl).1 (honly j hj hne hjl).2

/-- No other issue is touched by `submit_cmd`. -/
lemma findable_submitFinish {db : Db} {id : IssueId} {i : Issue} (hi : db.getIssue id = some i)
    (uuid label : String) : Findable (submitFinish db id uuid) label id ↔ Findable db label id := by
  have hi' := getIssue_submitFinish hi uuid
  constructor
  · rintro ⟨k, hk, hst⟩
    obtain rfl := Option.some.inj (hi'.symm.trans hk)
    exact ⟨i, hi, hst.imp
      (And.imp_right fun honly j hj hne => honly j ((mem_submitFinish hne).mpr hj) hne)
      (And.imp_right fun honly j hj hne => honly j ((mem_submitFinish hne).mpr hj) hne)⟩
  · rintro ⟨k, hk, hst⟩
    obtain rfl := Option.some.inj (hi.symm.trans hk)
    exact ⟨_, hi', hst.imp
      (And.imp_right fun honly j hj hne => honly j ((mem_submitFinish hne).mp hj) hne)
      (And.imp_right fun honly j hj hne => honly j ((mem_submitFinish hne).mp hj) hne)⟩

/-- What `submit_cmd` leaves behind makes its issue the only hit, if no other is in the way. -/
lemma onlyHit_submitFinish {db : Db} {id : IssueId} {i : Issue} (hi : db.getIssue id = some i)
    (uuid : String) : OnlyHit (submitFinish db id uuid) (Server.refLabel uuid) id ↔
      Findable db (Server.refLabel uuid) id := by
  rw [onlyHit_iff (getIssue_submitFinish hi uuid), findable_submitFinish hi]
  exact and_iff_right (Finset.mem_insert_self _ _)

/-- **An answer finds its way.** A repo `a` submits its issue `idA` to `b`, which receives it as a new
issue. The answer of `b` on that issue, its labels unchanged and listed in any order, is routed back
to the issue `idA` of `a` exactly when the labels of that issue name no other source than `a` and no
other issue than it, and no other issue of `a` is found in its place. -/
theorem answer_routed_iff {env envB : Env} {clA clB : Choices} {mat : Materialize} {a b : String}
    {dbA dbB : Db} {repoB repoB' : Repo} {idA idB : IssueId} {i iB iB' : Issue}
    {out : Outgoing SubmitIssue}
    (hi : dbA.getIssue idA = some i) (hsubmit : submitRequest env clA dbA a idA b = .ok out)
    (hnew : findIssueWithLabel clB noFaults repoB.db (Server.refLabel out.request.sourceUuid) = .ok none)
    (hok : handleSubmit clB noFaults mat out.request repoB = (.ok idB, repoB'))
    (hiB : repoB'.db.getIssue idB = some iB) (hiB' : dbB.getIssue idB = some iB')
    (hsame : iB'.labels = iB.labels) (hsock : envB.fileExists (socketPath envB.root b a) = true) :
    (∀ clB' clA', Routed envB clB' clA' a b dbB idB i.uuid (submitFinish dbA idA i.uuid) idA) ↔
      OwnRoute a i.uuid i.labels ∧ Findable dbA (Server.refLabel i.uuid) idA := by
  obtain ⟨i', hi', hslug, huuid, hlabels⟩ := submitRequest_ok hsubmit
  obtain rfl : i = i' := Option.some.inj (hi.symm.trans hi')
  rcases handleSubmit_cases clB mat out.request repoB with
    ⟨id, hfind, -⟩ | ⟨-, ⟨e, -, heq⟩ | ⟨k, r, heq, hrec⟩⟩
  · rw [hnew] at hfind
    cases hfind
  · rw [heq] at hok
    cases hok
  · obtain ⟨rfl, rfl⟩ : k.id = idB ∧ r = repoB' := by simpa [heq] using hok
    have hk : r.db.getIssue k.id = some k := by
      refine Db.getIssue_of_mem ?_
      rw [hrec.issues]
      exact List.mem_append_right _ (List.mem_singleton_self k)
    obtain rfl : k = iB := Option.some.inj (hk.symm.trans hiB)
    have hroute : OwnRoute a i.uuid iB'.labels ↔ OwnRoute a i.uuid i.labels := by
      have h := ownRoute_received hrec
      rw [hslug, huuid, ← hsame] at h
      rw [h]
      unfold OwnRoute
      simp only [List.mem_toFinset, hlabels]
    have hin := inbound_received hrec
    rw [hslug, huuid, ← hsame] at hin
    rw [forall_routed_iff hiB' hin hsock, hroute, onlyHit_submitFinish hi]

/-! ### Two submissions -/

/-- A root under which every peer is connected. -/
def env : Env := ⟨["run", "crossbridge"], fun _ => true⟩

/-- Nothing is attached, so `jj` is not run. -/
def noJj : Materialize := fun _ => .error ""

/-- A database with one issue, which is open. -/
def oneIssue (uuid : String) (labels : Finset String) : Db :=
  ⟨[⟨1, uuid, "Need answer X", some "Question body here.", "high", "open", labels, []⟩],
    List.nodup_singleton _⟩

/-- What `a` sends for its issue. -/
def sent (db : Db) : SubmitIssue :=
  ⟨"Need answer X", "Question body here.", db.getLabels (sorted fun _ => "") 1, "repo-a", "uuid-2", []⟩

/-- The repo `b` after the submission. -/
def receiver (db : Db) : Repo :=
  (handleSubmit (sorted fun _ => "uuid-3") noFaults noJj (sent db) ⟨Db.empty, []⟩).2

/-- `a` has submitted its issue before, to a third repo, and has answered one from there. -/
def submittedBefore : Db :=
  ⟨[⟨1, "uuid-2", "Need answer X", some "Question body here.", "high", "open",
      {"type:request", "area:parser", "xb:outbound", "xb-status:pending", "xb-ref:uuid-2"}, []⟩,
    ⟨2, "uuid-4", "Need answer Y", none, "low", "closed",
      {"xb:inbound", "xb-source:repo-c", "xb-ref:uuid-1", "xb-status:answered"}, []⟩], by decide⟩

/-- Its labels name no other source and no other issue: every answer finds its way. -/
theorem answer_routed_submittedBefore : (receiver submittedBefore).db.carriers "xb-ref:uuid-2" = [1] ∧
    ∀ clB' clA', Routed env clB' clA' "repo-a" "repo-b" (receiver submittedBefore).db 1 "uuid-2"
      (submitFinish submittedBefore 1 "uuid-2") 1 := by
  have hsubmit : submitRequest env (sorted fun _ => "") submittedBefore "repo-a" 1 "repo-b" =
      .ok ⟨"repo-b", socketPath env.root "repo-a" "repo-b", sent submittedBefore⟩ := rfl
  have hok : handleSubmit (sorted fun _ => "uuid-3") noFaults noJj (sent submittedBefore)
      ⟨Db.empty, []⟩ = (.ok 1, receiver submittedBefore) := Prod.ext rfl rfl
  have hsock : env.fileExists (socketPath env.root "repo-b" "repo-a") = true := rfl
  obtain ⟨iB, hiB⟩ : ∃ iB, (receiver submittedBefore).db.getIssue 1 = some iB := ⟨_, rfl⟩
  have hroute : OwnRoute "repo-a" "uuid-2"
      {"type:request", "area:parser", "xb:outbound", "xb-status:pending", "xb-ref:uuid-2"} := by decide
  have hfind : Findable submittedBefore (Server.refLabel "uuid-2") 1 :=
    ⟨_, rfl, Or.inl ⟨rfl, by decide⟩⟩
  exact ⟨by decide, (answer_routed_iff rfl hsubmit rfl hok hiB hiB rfl hsock).mpr ⟨hroute, hfind⟩⟩

/-- An issue that `a` has itself received, from a third repo. -/
def forwarded : Db := oneIssue "uuid-2"
  {"type:request", "xb:inbound", "xb-status:open", "xb-source:origin", "xb-ref:uuid-1"}

/-- **An answer that goes astray.** `a` submits an issue it has itself received. The issue of `b`
carries two sources and two references, and listed in alphabetical order the older ones come first:
the answer goes to the third repo, and does not name the issue of `a`. -/
theorem answer_astray :
    submitRequest env (sorted fun _ => "") forwarded "repo-a" 1 "repo-b" =
      .ok ⟨"repo-b", socketPath env.root "repo-a" "repo-b", sent forwarded⟩ ∧
    (handleSubmit (sorted fun _ => "uuid-3") noFaults noJj (sent forwarded) ⟨Db.empty, []⟩).1 = .ok 1 ∧
    (∃ out, answerRequest env (sorted fun _ => "") (receiver forwarded).db "repo-b" 1 = .ok out ∧
      out.peer = "origin" ∧ out.request.sourceUuid = "uuid-1") ∧
    ¬ Routed env (sorted fun _ => "") (sorted fun _ => "") "repo-a" "repo-b" (receiver forwarded).db 1
      "uuid-2" (submitFinish forwarded 1 "uuid-2") 1 := by
  refine ⟨rfl, rfl, ⟨_, rfl, rfl, rfl⟩, ?_⟩
  rintro ⟨out, hout, hpeer, -⟩
  obtain rfl : _ = out := Except.ok.inj hout
  revert hpeer
  decide

end Crossbridge.Bridge.Routing
