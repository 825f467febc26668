import Crossbridge.Lib.Runs
import Crossbridge.Server.HandlerEffect

/-!
One issue for one submission.

After a submission has succeeded the database holds one issue with its `xb-ref` label (`Carries`).
Answers and changes of status leave the labels of references alone, and so does a submission that
does not forward the label itself. A later submission then finds that issue, and changes nothing,
as long as it looks where the issue is: among the open and the closed ones.
-/

namespace Crossbridge.Server.Idempotency

open Crossbridge.Protocol Crossbridge.Crosslink Crossbridge.Runs

/-- What happens to a repo: requests from its peers, and changes of a status made locally. The order
in which crosslink lists things, and the outcome of `jj`, may differ from one to the next. -/
inductive Action where
  | submit (cl : Choices) (mat : Materialize) (submit : SubmitIssue)
  | answer (cl : Choices) (peer : String) (answer : SubmitAnswer)
  | setStatus (id : IssueId) (status : String)

def step (repo : Repo) : Action → Option Repo
  | .submit cl mat submit => some (handleSubmit cl noFaults mat submit repo).2
  | .answer cl peer answer => some { repo with db := (handleAnswer cl noFaults peer answer repo.db).2 }
  | .setStatus id status => some { repo with db := repo.db.setStatus id status }

/-- The issue is where `find_issue_with_label` looks. -/
def Visible (db : Db) (id : IssueId) : Prop :=
  ∃ i, db.getIssue id = some i ∧ (i.status = "open" ∨ i.status = "closed")

/-- A submission of `u` comes while its issue `id` is open or closed, and one of another issue does
not forward the label of `u`. -/
def Clear (u : String) (id : IssueId) (repo : Repo) : Action → Prop
  | .submit _ _ submit =>
    if submit.sourceUuid = u then Visible repo.db id else refLabel u ∉ submit.labels
  | _ => True

/-- The issue `id`, and no other, carries the label of `u`. -/
def Carries (u : String) (id : IssueId) (db : Db) : Prop := db.carriers (refLabel u) = [id]

/-- The label of `u` is carried by one issue at most, which is open or closed. -/
def Unambiguous (u : String) (db : Db) : Prop :=
  ∀ id ∈ db.carriers (refLabel u), Carries u id db ∧ Visible db id

section Steps

variable {u : String} {id : IssueId} {db : Db} {repo repo' : Repo} {i : Issue}

lemma Carries.eq (h : Carries u id db) (hi : db.getIssue i.id = some i) (hl : refLabel u ∈ i.labels) :
    i.id = id := by
  have hmem : i.id ∈ db.carriers (refLabel u) := Db.mem_carriers.mpr ⟨i, hi, hl⟩
  rw [h] at hmem
  exact List.mem_singleton.mp hmem

lemma Carries.mem_labels (h : Carries u id db) (hi : db.getIssue id = some i) :
    refLabel u ∈ i.labels := by
  obtain ⟨j, hj, hl⟩ := Db.mem_carriers.mp (h ▸ List.mem_singleton_self id)
  obtain rfl : i = j := by simpa [hi] using hj
  exact hl

/-- **A submission that is known.** It is found again, and nothing changes. -/
theorem handleSubmit_known (h : Carries u id repo.db) (hvis : Visible repo.db id) (cl : Choices)
    (mat : Materialize) {submit : SubmitIssue} (hu : submit.sourceUuid = u) :
    handleSubmit cl noFaults mat submit repo = (.ok id, repo) := by
  rcases handleSubmit_cases cl mat submit repo with ⟨id', hfind, heq⟩ | ⟨hnone, -⟩
  · obtain ⟨i, hi, hl, -⟩ := find_some hfind
    obtain rfl := Db.id_of_getIssue hi
    rw [heq, h.eq hi (hu ▸ hl)]
  · obtain ⟨i, hi, hst⟩ := hvis
    have hhidden := find_none hnone (Db.mem_of_getIssue hi) (hu ▸ h.mem_labels hi)
    rcases hst with hst | hst
    · exact absurd hst hhidden.1
    · exact absurd hst hhidden.2

lemma carriers_received {cl : Choices} {submit : SubmitIssue} (h : Received cl submit repo repo' i) :
    repo'.db.carriers (refLabel u) = repo.db.carriers (refLabel u) ++
      if u = submit.sourceUuid ∨ refLabel u ∈ submit.labels then [i.id] else [] := by
  rw [Db.carriers_append h.issues]
  congr 1
  refine if_congr ?_ rfl rfl
  rw [h.labels, List.mem_toFinset, refLabel_mem_inboundLabels]

/-- **An answer** leaves the labels of references alone. -/
theorem carriers_handleAnswer (cl : Choices) (peer : String) (answer : SubmitAnswer) (db : Db) :
    (handleAnswer cl noFaults peer answer db).2.carriers (refLabel u) = db.carriers (refLabel u) := by
  rcases handleAnswer_cases cl peer answer db with ⟨-, e, heq⟩ | ⟨i, -, -, heq⟩
  · rw [heq]
  · rw [heq]
    calc ((db.modify i.id _).closeIssue i.id).carriers (refLabel u)
        = (db.modify i.id _).carriers (refLabel u) := Db.carriers_setStatus _
      _ = db.carriers (refLabel u) := Db.carriers_modify fun _ => refLabel_mem_answered _

/-- **The first submission** that succeeds. -/
theorem carries_first (h : Unambiguous u repo.db) {cl : Choices} {mat : Materialize}
    {submit : SubmitIssue} (hu : submit.sourceUuid = u)
    (hok : handleSubmit cl noFaults mat submit repo = (.ok id, repo')) : Carries u id repo'.db := by
  rcases handleSubmit_cases cl mat submit repo with ⟨id', hfind, heq⟩ | ⟨hnone, ⟨e, -, heq⟩ | ⟨i, r, heq, hrec⟩⟩
  · obtain ⟨rfl, rfl⟩ : id' = id ∧ repo = repo' := by simpa [heq] using hok
    obtain ⟨i, hi, hl, -⟩ := find_some hfind
    exact (h id' (Db.mem_carriers.mpr ⟨i, hi, hu ▸ hl⟩)).1
  · rw [heq] at hok
    cases hok
  · obtain ⟨rfl, rfl⟩ : i.id = id ∧ r = repo' := by simpa [heq] using hok
    have hempty : repo.db.carriers (refLabel u) = [] := by
      rw [List.eq_nil_iff_forall_not_mem]
      intro id' hid'
      obtain ⟨j, hj, hst⟩ := (h id' hid').2
      have hhidden := find_none hnone (Db.mem_of_getIssue hj) (hu ▸ (h id' hid').1.mem_labels hj)
      rcases hst with hst | hst
      · exact hhidden.1 hst
      · exact hhidden.2 hst
    rw [Carries, carriers_received hrec, hempty, if_pos (Or.inl hu.symm), List.nil_append]

/-- **One step** keeps the label where it is. -/
theorem carries_step {a : Action} (h : Carries u id repo.db) (hc : Clear u id repo a)
    (hstep : step repo a = some repo') : Carries u id repo'.db := by
  cases a with
  | submit cl mat submit =>
    obtain rfl := Option.some.inj hstep
    by_cases hu : submit.sourceUuid = u
    · rw [Clear, if_pos hu] at hc
      rw [handleSubmit_known h hc cl mat hu]
      exact h
    · rw [Clear, if_neg hu] at hc
      rcases handleSubmit_cases cl mat submit repo with
        ⟨_, -, heq⟩ | ⟨-, ⟨e, -, heq⟩ | ⟨i, r, heq, hrec⟩⟩
      · rw [heq]
        exact h
      · rw [heq]
        exact h
      · have hother : ¬ (u = submit.sourceUuid ∨ refLabel u ∈ submit.labels) := by
          rintro (rfl | hl)
          · exact hu rfl
          · exact hc hl
        rw [heq, Carries, carriers_received hrec, if_neg hother, List.append_nil]
        exact h
  | answer cl peer answer =>
    obtain rfl := Option.some.inj hstep
    rw [Carries, carriers_handleAnswer]
    exact h
  | setStatus id' status =>
    obtain rfl := Option.some.inj hstep
    exact (Db.carriers_setStatus status).trans h

end Steps

/-- **At most one issue per submission.** After a submission has succeeded, and any further requests
and changes of status that are clear of it, a submission of the same issue returns the same id and
changes nothing. -/
theorem resubmission_unchanged {u : String} {id : IssueId} {repo repo₁ s : Repo} {cl cl' : Choices}
    {mat mat' : Materialize} {submit submit' : SubmitIssue} {as : List Action}
    (hu : submit.sourceUuid = u) (hfirst : Unambiguous u repo.db)
    (hok : handleSubmit cl noFaults mat submit repo = (.ok id, repo₁))
    (hrun : exec step repo₁ as = some s) (hu' : submit'.sourceUuid = u)
    (hclear : Meets step (Clear u id) repo₁ (as ++ [.submit cl' mat' submit'])) :
    handleSubmit cl' noFaults mat' submit' s = (.ok id, s) := by
  obtain ⟨hbefore, hlast⟩ := hclear.append
  have hcarries : Carries u id s.db :=
    exec_inv_of_meets (I := fun repo => Carries u id repo.db) (fun _ _ _ hI hc hs => carries_step hI hc hs)
      (carries_first hfirst hu hok) hbefore hrun
  have hvis := (hlast s hrun).1
  rw [Clear, if_pos hu'] at hvis
  exact handleSubmit_known hcarries hvis cl' mat' hu'

/-! ### Two runs of one repo -/

/-- A crosslink for the examples. -/
def crosslink : Choices := sorted fun db => if db.issues = [] then "uuid-2" else "uuid-3"

/-- A submission, and the same issue submitted again with another title. -/
def request (title : String) : SubmitIssue := ⟨title, "Question body here.", [], "repo-a", "uuid-1", []⟩

/-- Nothing is attached, so `jj` is not run. -/
def noJj : Materialize := fun _ => .error ""

/-- The repo that has received the submission. -/
def received : Repo :=
  (handleSubmit crosslink noFaults noJj (request "Need answer X") ⟨Db.empty, []⟩).2

lemma handleSubmit_received :
    handleSubmit crosslink noFaults noJj (request "Need answer X") ⟨Db.empty, []⟩ = (.ok 1, received) :=
  Prod.ext rfl rfl

/-- The issue is closed, and submitted again. -/
theorem resubmission_unchanged_closed :
    handleSubmit crosslink noFaults noJj (request "Answer X, please")
      { received with db := received.db.setStatus 1 "closed" } =
      (.ok 1, { received with db := received.db.setStatus 1 "closed" }) := by
  have hrun : exec step received [.setStatus 1 "closed"] =
      some { received with db := received.db.setStatus 1 "closed" } := rfl
  refine resubmission_unchanged (u := "uuid-1") rfl ?_ handleSubmit_received hrun rfl ?_
  · intro id hid
    cases hid
  · refine ⟨trivial, fun s hs => ⟨?_, fun _ _ => trivial⟩⟩
    obtain rfl := Option.some.inj hs
    exact ⟨_, rfl, Or.inr rfl⟩

/-- **A second issue.** The issue is archived, and submitted again: it is not found among the open and
the closed ones, and is created once more. -/
theorem archived_resubmission :
    handleSubmit crosslink noFaults noJj (request "Need answer X") ⟨Db.empty, []⟩ = (.ok 1, received) ∧
    exec step received [.setStatus 1 "archived"] =
      some { received with db := received.db.setStatus 1 "archived" } ∧
    ∃ repo, handleSubmit crosslink noFaults noJj (request "Need answer X")
        { received with db := received.db.setStatus 1 "archived" } = (.ok 2, repo) ∧
      repo.db.carriers (refLabel "uuid-1") = [1, 2] := by
  refine ⟨handleSubmit_received, rfl, _, Prod.ext rfl rfl, ?_⟩
  decide

end Crossbridge.Server.Idempotency
