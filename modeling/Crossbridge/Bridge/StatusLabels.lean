import Crossbridge.Bridge.AnswerScope

/-!
The status of an issue.

Four places write a status label, and one of them takes one away: an answer that is received replaces
`xb-status:pending`. So an issue keeps one status (`OneStatus`) as long as no other one is written to
an issue that has a status (`Clear`). An issue that was received is `xb-status:open` for good, and its
answer adds `xb-status:answered` (`open_and_answered`).
-/

namespace Crossbridge.Bridge.Local

open Crossbridge.Protocol Crossbridge.Crosslink Crossbridge.Client Crossbridge.Server
open Crossbridge.Runs

def statusOpen : String := "xb-status:open"

def statusResolved : String := "xb-status:resolved"

def IsStatus (l : String) : Prop := "xb-status:".toList <+: l.toList

instance : DecidablePred IsStatus := fun _ => by unfold IsStatus; infer_instance

/-- The status labels among some labels. -/
def statuses (labels : Finset String) : Finset String := labels.filter IsStatus

/-- Every issue has one status label at most. -/
def OneStatus (db : Db) : Prop := ∀ i ∈ db.issues, (statuses i.labels).card ≤ 1

instance : DecidablePred OneStatus := fun _ => by unfold OneStatus; infer_instance

/-- The labels hold no status but open. -/
def NoneButOpen (labels : List String) : Prop := ∀ l ∈ labels, IsStatus l → l = statusOpen

/-- A status is written to an issue that has no other one: a request that is received forwards none
but open, and its issue was not submitted in between; what is answered was not received; what is
submitted was neither received nor answered; and `answer_cmd` does not write its label. -/
def Clear (y : State) : Action → Prop
  | .label k =>
    match y.tasks[k]? with
    | some (.received id submit) =>
      NoneButOpen submit.labels ∧ ∀ i ∈ y.db.getIssue id, ∀ l ∈ i.labels, IsStatus l → l = statusOpen
    | _ => True
  | .apply k =>
    match y.tasks[k]? with
    | some (.found id _ _) => ∀ i ∈ y.db.getIssue id, statusOpen ∉ i.labels
    | _ => True
  | .writeLabel k =>
    match y.tasks[k]? with
    | some (.labelling id _ (l :: _)) => l = statusPending →
      ∀ i ∈ y.db.getIssue id, statusOpen ∉ i.labels ∧ statusResolved ∉ i.labels
    | _ => True
  | .writeAnswered _ => False
  | _ => True

instance (labels : List String) : Decidable (NoneButOpen labels) := by unfold NoneButOpen; infer_instance

instance (y : State) (a : Action) : Decidable (Clear y a) := by
  unfold Clear
  split
  · split <;> infer_instance
  · split <;> infer_instance
  · split <;> infer_instance
  · infer_instance
  · infer_instance

/-- The status of an issue is one of three. -/
def StatusOk (labels : Finset String) : Prop :=
  ∃ s ∈ [statusOpen, statusPending, statusResolved], statuses labels ⊆ {s}

section Statuses

variable {labels : Finset String} {l : String} {db db' : Db} {id : IssueId} {g : Issue → Issue}
  {y y' : State} {a : Action}

lemma mem_statuses : l ∈ statuses labels ↔ l ∈ labels ∧ IsStatus l := Finset.mem_filter

lemma StatusOk.card_le (h : StatusOk labels) : (statuses labels).card ≤ 1 := by
  obtain ⟨s, -, hs⟩ := h
  exact Finset.card_le_one_iff_subset_singleton.mpr ⟨s, hs⟩

/-- Two status labels are too many. -/
lemma eq_of_card_le (h : (statuses labels).card ≤ 1) {l l' : String} (hl : l ∈ labels)
    (hs : IsStatus l) (hl' : l' ∈ labels) (hs' : IsStatus l') : l = l' :=
  Finset.card_le_one.mp h l (mem_statuses.mpr ⟨hl, hs⟩) l' (mem_statuses.mpr ⟨hl', hs'⟩)

lemma statusOk_of_not_xb (h : ∀ l ∈ labels, ¬ IsXb l) : StatusOk labels := by
  refine ⟨statusOpen, List.mem_cons_self, fun l hl => absurd ?_ (h l (mem_statuses.mp hl).1)⟩
  exact List.IsPrefix.trans (by decide) (mem_statuses.mp hl).2

/-- A label that is no status makes no difference. -/
lemma StatusOk.insert_of_not (h : StatusOk labels) (hl : ¬ IsStatus l) : StatusOk (insert l labels) := by
  obtain ⟨s, hs, hsub⟩ := h
  refine ⟨s, hs, fun l' hl' => hsub ?_⟩
  obtain ⟨hmem, hstatus⟩ := mem_statuses.mp hl'
  refine mem_statuses.mpr ⟨(Finset.mem_insert.mp hmem).resolve_left ?_, hstatus⟩
  rintro rfl
  exact hl hstatus

/-- The only status is the one that is left. -/
lemma StatusOk.eq_pending (h : StatusOk labels) (hopen : statusOpen ∉ labels)
    (hresolved : statusResolved ∉ labels) (hl : l ∈ labels) (hs : IsStatus l) : l = statusPending := by
  obtain ⟨s, hs', hsub⟩ := h
  obtain rfl := Finset.mem_singleton.mp (hsub (mem_statuses.mpr ⟨hl, hs⟩))
  simp only [List.mem_cons, List.not_mem_nil, or_false] at hs'
  rcases hs' with rfl | rfl | rfl
  · exact absurd hl hopen
  · rfl
  · exact absurd hl hresolved

lemma forall_quiet (h : ∀ i ∈ db.issues, StatusOk i.labels) (hg : ∀ i, (g i).labels = i.labels) :
    ∀ i ∈ (db.modify id g).issues, StatusOk i.labels :=
  Db.forall_modify h fun i _ hi => by rwa [hg]

/-- **The label transaction of `handle_submit`** makes an issue open. -/
lemma statusOk_label {submit : SubmitIssue} (hnew : NoneButOpen submit.labels)
    (hold : ∀ l ∈ labels, IsStatus l → l = statusOpen) :
    StatusOk (labels ∪ (inboundLabels submit).toFinset) := by
  refine ⟨statusOpen, List.mem_cons_self, fun l hl => Finset.mem_singleton.mpr ?_⟩
  obtain ⟨hmem, hs⟩ := mem_statuses.mp hl
  rcases Finset.mem_union.mp hmem with hmem | hmem
  · exact hold l hmem hs
  · rcases mem_inboundLabels.mp (List.mem_toFinset.mp hmem) with hmem | hmem
    · simp only [List.mem_cons, List.not_mem_nil, or_false] at hmem
      rcases hmem with rfl | rfl | rfl | rfl | rfl
      · exact absurd hs (by decide)
      · exact absurd hs (by decide)
      · rfl
      · exact absurd hs (by unfold IsStatus sourceLabel; simp)
      · exact absurd hs (by unfold IsStatus Server.refLabel; simp)
    · exact hnew l hmem hs

/-- **The transaction of `handle_answer`** makes an issue that is not open resolved. -/
lemma statusOk_answered {i : Issue} (h : StatusOk i.labels) (hopen : statusOpen ∉ i.labels)
    (comments : List String) : StatusOk (answered comments i).labels := by
  refine ⟨statusResolved, by simp, fun l hl => Finset.mem_singleton.mpr ?_⟩
  obtain ⟨hmem, hs⟩ := mem_statuses.mp hl
  rcases Finset.mem_insert.mp hmem with rfl | hmem
  · rfl
  · by_contra hne
    obtain ⟨hpending, hmem⟩ := Finset.mem_erase.mp hmem
    refine hpending (h.eq_pending hopen (fun hresolved => hne ?_) hmem hs)
    exact eq_of_card_le h.card_le hmem hs hresolved (by decide)

/-- **`submit_cmd` marks an issue as pending** that has no other status. -/
lemma statusOk_pending (h : StatusOk labels) (hopen : statusOpen ∉ labels)
    (hresolved : statusResolved ∉ labels) : StatusOk (insert statusPending labels) := by
  refine ⟨statusPending, by simp, fun l hl => Finset.mem_singleton.mpr ?_⟩
  obtain ⟨hmem, hs⟩ := mem_statuses.mp hl
  rcases Finset.mem_insert.mp hmem with rfl | hmem
  · rfl
  · exact h.eq_pending hopen hresolved hmem hs

/-- **One step** that meets the condition keeps the statuses. -/
theorem statusOk_step (hinv : Inv y) (h : ∀ i ∈ y.db.issues, StatusOk i.labels) (hc : Clear y a)
    (hstep : step y a = some y') : ∀ i ∈ y'.db.issues, StatusOk i.labels := by
  cases stepped_of_step hstep with
  | @create cl title description priority labels id db hxb hnew =>
    have hrows := Db.issues_modify_append (g := fun i => { i with
      labels := i.labels ∪ labels.toFinset }) (Db.createIssue_ok hnew).2
    refine Db.forall_append h hrows (statusOk_of_not_xb fun l hl => hxb l ?_)
    simpa [Db.newIssue] using hl
  | setStatus | comment | close | closeAnswered => exact forall_quiet h fun _ => rfl
  | handleSubmit hnew =>
    exact Db.forall_append h (Db.createIssue_ok hnew).2
      (statusOk_of_not_xb fun l hl => absurd hl (Finset.notMem_empty l))
  | label hk =>
    simp only [Clear, hk] at hc
    exact Db.forall_modify h fun i hi _ => statusOk_label hc.1 (hc.2 i hi)
  | note =>
    simp only [attach_eq]
    exact forall_quiet h fun _ => rfl
  | @apply k id answer comments hk =>
    simp only [Clear, hk] at hc
    exact Db.forall_modify h fun i hi hok => statusOk_answered hok (hc i hi) comments
  | handleAnswer | submit | succeed | answer | stop => exact h
  | writeLabel hk =>
    obtain ⟨-, i, uuid, -, htodo, -⟩ := hinv.tasks _ (List.mem_of_getElem? hk)
    simp only [Clear, hk] at hc
    refine Db.forall_modify h fun j hj hok => ?_
    rcases head_outboundLabels htodo with ⟨rfl, -⟩ | ⟨rfl, -⟩ | ⟨rfl, -⟩
    · exact hok.insert_of_not (by decide)
    · obtain ⟨hopen, hresolved⟩ := hc rfl j hj
      exact statusOk_pending hok hopen hresolved
    · exact hok.insert_of_not (by unfold IsStatus Client.refLabel refPrefix; simp)
  | writeAnswered => exact hc.elim

/-- An issue after a change that has two statuses. -/
lemma not_oneStatus (hi : ∃ i, db.getIssue id = some i ∧ ∃ l ∈ (g i).labels, ∃ l' ∈ (g i).labels,
    IsStatus l ∧ IsStatus l' ∧ l ≠ l') : ¬ OneStatus (db.modify id g) := by
  obtain ⟨i, hi, l, hl, l', hl', hs, hs', hne⟩ := hi
  intro hone
  have hcard := hone _ (Db.mem_of_getIssue (Db.getIssue_modify_self hi))
  exact hne (eq_of_card_le hcard hl hs hl' hs')

/-- **A step against the condition** leaves an issue with two. -/
theorem clear_of_oneStatus (hinv : Inv y) (hstep : step y a = some y') (hone : OneStatus y'.db) :
    Clear y a := by
  have hopen : IsStatus statusOpen := by decide
  cases stepped_of_step hstep with
  | @label k id submit hk =>
    simp only [Clear, hk]
    have hmem : statusOpen ∈ inboundLabels submit := mem_inboundLabels.mpr (Or.inl (by simp [statusOpen]))
    obtain ⟨i, hi⟩ := hinv.tasks _ (List.mem_of_getElem? hk)
    have honly : ∀ j, y.db.getIssue id = some j → ∀ l ∈ j.labels ∪ (inboundLabels submit).toFinset,
        IsStatus l → l = statusOpen := by
      intro j hj l hl hs
      by_contra hne
      refine not_oneStatus ⟨j, hj, l, hl, statusOpen, ?_, hs, hopen, hne⟩ hone
      exact Finset.mem_union_right _ (List.mem_toFinset.mpr hmem)
    refine ⟨fun l hl hs => honly i hi l ?_ hs, fun j hj l hl hs =>
      honly j hj l (Finset.mem_union_left _ hl) hs⟩
    exact Finset.mem_union_right _ (List.mem_toFinset.mpr (mem_inboundLabels.mpr (Or.inr hl)))
  | apply hk =>
    simp only [Clear, hk]
    intro i hi hmem
    refine not_oneStatus ⟨i, hi, statusOpen, ?_, statusResolved, Finset.mem_insert_self _ _, hopen,
      by decide, by decide⟩ hone
    exact Finset.mem_insert_of_mem (Finset.mem_erase.mpr ⟨by decide, hmem⟩)
  | writeLabel hk =>
    simp only [Clear, hk]
    rintro rfl i hi
    have hnot : ∀ l, IsStatus l → l ≠ statusPending → l ∉ i.labels := fun l hs hne hmem =>
      not_oneStatus ⟨i, hi, l, Finset.mem_insert_of_mem hmem, statusPending,
        Finset.mem_insert_self _ _, hs, by decide, hne⟩ hone
    exact ⟨hnot _ hopen (by decide), hnot _ (by decide) (by decide)⟩
  | writeAnswered hk =>
    -- the issue was received, and is open
    obtain ⟨i, hi, hin⟩ := hinv.tasks _ (List.mem_of_getElem? hk)
    have hmem := (hinv.issues i (Db.mem_of_getIssue hi)).opened hin
    exact not_oneStatus ⟨i, hi, statusOpen, Finset.mem_insert_of_mem hmem, statusAnswered,
      Finset.mem_insert_self _ _, hopen, by decide, by decide⟩ hone
  | create | setStatus | comment | handleSubmit | note | handleAnswer | close | submit | succeed
  | answer | closeAnswered | stop => trivial

/-- **One status for each issue**, in every run from a database without labels of crossbridge in which
statuses are written to issues that have no other one; and after such a run a step keeps it so exactly
if it meets this condition, too. -/
theorem oneStatus_of_run {as : List Action} (hdb : Unmarked db)
    (hclear : Meets step Clear (State.init db) as)
    (hrun : exec step (State.init db) as = some y) :
    OneStatus y.db ∧ ∀ a y', step y a = some y' → (OneStatus y'.db ↔ Clear y a) := by
  have hkept : Inv y ∧ ∀ i ∈ y.db.issues, StatusOk i.labels := by
    refine exec_inv_of_meets (I := fun y => Inv y ∧ ∀ i ∈ y.db.issues, StatusOk i.labels) ?_ ?_ hclear
      hrun
    · intro y a y' h hc hstep
      exact ⟨inv_step h.1 hstep, statusOk_step h.1 h.2 hc hstep⟩
    · exact ⟨inv_init hdb, fun i hi => statusOk_of_not_xb (hdb i hi)⟩
  refine ⟨fun i hi => (hkept.2 i hi).card_le, fun a y' hstep => ⟨clear_of_oneStatus hkept.1 hstep, ?_⟩⟩
  exact fun hc i hi => (statusOk_step hkept.1 hkept.2 hc hstep i hi).card_le

end Statuses

theorem oneStatus_of_run_answered : ∃ y, exec step (State.init (Routing.oneIssue "uuid-1" ∅))
    (toRepoB ++ [.handleAnswer byRow "repo-b" answer42, .apply 0, .close 0]) = some y ∧
    OneStatus y.db := by
  have hrun : exec step (State.init (Routing.oneIssue "uuid-1" ∅))
    (toRepoB ++ [.handleAnswer byRow "repo-b" answer42, .apply 0, .close 0]) = some _ := rfl
  have hclear : Meets step Clear (State.init (Routing.oneIssue "uuid-1" ∅))
    (toRepoB ++ [.handleAnswer byRow "repo-b" answer42, .apply 0, .close 0]) := by decide
  exact ⟨_, hrun, (oneStatus_of_run (by decide) hclear hrun).1⟩

/-- **Open and answered.** An issue is received, and its answer is accepted. -/
theorem open_and_answered : Unmarked Db.empty ∧
    ∃ y, exec step (State.init Db.empty) [.handleSubmit byRow fromRepoB, .label 0, .stop 0,
      .answer Routing.env byRow "repo-a" 1, .writeAnswered 0, .closeAnswered 0] = some y ∧
    y.tasks = [] ∧ ¬ OneStatus y.db := by
  have hrun : exec step (State.init Db.empty) [.handleSubmit byRow fromRepoB, .label 0, .stop 0,
    .answer Routing.env byRow "repo-a" 1, .writeAnswered 0, .closeAnswered 0] = some _ := rfl
  exact ⟨by decide, _, hrun, rfl, by decide⟩

end Crossbridge.Bridge.Local
