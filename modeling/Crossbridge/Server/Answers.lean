import Crossbridge.Server.HandlerEffect

/-!
What an answer does, and what the same answer does once more.

An answer that succeeds changes one issue (`AnswerEffect`): the result comments that the issue does
not hold yet are copied, whatever kind the comment has that holds a content already; its status
label becomes `xb-status:resolved`, and it is closed.

The second time the issue is closed, and `find_issue_with_label` looks among the open issues first. So
the answer is a no-op the second time exactly when no other issue carries the reference
(`repeatable_iff`).
-/

namespace Crossbridge.Server

open Crossbridge.Protocol Crossbridge.Crosslink

/-! ### The effect of an answer -/

/-- The result comments of an answer as its receiver writes them. -/
def resultContents (peer : String) (answer : SubmitAnswer) : List String :=
  (answer.comments.filter fun c => c.kind = "result").map fun c => "[from " ++ peer ++ "] " ++ c.content

/-- The contents of the answer that no comment of the issue holds. -/
def newContents (peer : String) (answer : SubmitAnswer) (i : Issue) : List String :=
  (resultContents peer answer).filter fun c => c ∉ i.comments.map Comment.content

/-- The contents of the answer that no result comment of the issue holds. -/
def newResults (peer : String) (answer : SubmitAnswer) (i : Issue) : List String :=
  (resultContents peer answer).filter fun c => ⟨c, "result"⟩ ∉ i.comments

/-- What an answer makes of its issue. Every new content is copied, in the order in which they first
occur, and one that the answer holds once is copied once. -/
structure AnswerEffect (peer : String) (answer : SubmitAnswer) (i i' : Issue) : Prop where
  comments : ∃ cs : List String, i'.comments = i.comments ++ cs.map (fun c => ⟨c, "result"⟩) ∧
    cs.eraseDups = (newContents peer answer i).eraseDups ∧
    ∀ c, (resultContents peer answer).count c ≤ 1 → cs.count c ≤ 1
  labels : i'.labels = insert "xb-status:resolved" (i.labels.erase "xb-status:pending")
  status : i'.status = "closed"
  others : i' = { i with comments := i'.comments, labels := i'.labels, status := i'.status }

/-- The issue after the answer. -/
def applied (peer : String) (answer : SubmitAnswer) (i : Issue) : Issue :=
  { answered (newContents peer answer i) i with status := "closed" }

section Effect

variable {cl : Choices} {f : Faults} {peer : String} {answer : SubmitAnswer} {db db' : Db}
  {id : IssueId} {i : Issue}

lemma toCopy_eq (i : Issue) : toCopy peer answer i.comments = newContents peer answer i := rfl

lemma answerEffect_applied : AnswerEffect peer answer i (applied peer answer i) where
  comments := by
    refine ⟨newContents peer answer i, rfl, rfl, fun c hc => ?_⟩
    calc (newContents peer answer i).count c
        ≤ (resultContents peer answer).count c := List.filter_sublist.count_le c
      _ ≤ 1 := hc
  labels := rfl
  status := rfl
  others := rfl

lemma getIssue_applied (h : db.getIssue id = some i) :
    (db.modify id (applied peer answer)).getIssue id = some (applied peer answer i) := by
  rw [Db.getIssue_modify_self h, ← Db.id_of_getIssue h]
  rfl

/-- The transaction and the closing of `handle_answer` are one change of its issue. -/
lemma closeIssue_answered (h : db.getIssue id = some i) :
    (db.modify id (answered (newContents peer answer i))).closeIssue id =
      db.modify id (applied peer answer) := by
  rw [Db.closeIssue, Db.setStatus, Db.modify_modify]
  exact Db.modify_congr h rfl

/-- An answer that succeeds, whatever calls might have failed. -/
lemma handleAnswer_ok (h : handleAnswer cl f peer answer db = (.ok id, db')) :
    findIssueWithLabel cl f db (refLabel answer.sourceUuid) = .ok (some id) ∧
      db' = db.modify id (applied peer answer) := by
  unfold handleAnswer at h
  cases hfind : findIssueWithLabel cl f db (refLabel answer.sourceUuid) with
  | error e => simp [hfind] at h
  | ok r =>
    cases r with
    | none => simp [hfind] at h
    | some id' =>
      simp only [hfind] at h
      cases hcomments : f .getComments with
      | some e => simp [hcomments] at h
      | none =>
        obtain ⟨i, hi, -, -⟩ := find_some hfind
        have hold : db.getComments id' = i.comments := by simp only [Db.getComments, hi]
        simp only [hcomments, hold, toCopy_eq] at h
        by_cases htx : AnswerTxOk f (newContents peer answer i) i.labels
        · simp only [answerTx_ok hi htx] at h
          have hi' := Db.getIssue_modify_self (g := answered (newContents peer answer i)) hi
          by_cases hclose : CloseOk f i.status
          · rw [closeAnswered_ok hi' hclose, closeIssue_answered hi] at h
            obtain ⟨rfl, rfl⟩ : id' = id ∧ _ = db' := by simpa using h
            exact ⟨rfl, rfl⟩
          · obtain ⟨e, he⟩ := closeAnswered_error hi' hclose
            rw [he] at h
            cases h
        · obtain ⟨e, he⟩ := answerTx_error cl hi htx
          simp [he] at h

/-- An answer whose issue is found, no call failing. -/
lemma handleAnswer_of_find
    (h : findIssueWithLabel cl noFaults db (refLabel answer.sourceUuid) = .ok (some id)) :
    handleAnswer cl noFaults peer answer db = (.ok id, db.modify id (applied peer answer)) := by
  rcases handleAnswer_cases cl peer answer db with ⟨hnone, -⟩ | ⟨i, hfind, hi, heq⟩
  · rw [h] at hnone
    cases hnone
  · obtain rfl : id = i.id := by simpa [h] using hfind
    rw [heq, toCopy_eq, closeIssue_answered hi]

/-- **The effect of an answer** that succeeds. -/
theorem answer_effect (h : handleAnswer cl f peer answer db = (.ok id, db')) :
    ∃ i i', findIssueWithLabel cl f db (refLabel answer.sourceUuid) = .ok (some id) ∧
      db.getIssue id = some i ∧ db'.getIssue id = some i' ∧ AnswerEffect peer answer i i' ∧
      db'.issues.map Issue.id = db.issues.map Issue.id ∧ ∀ j ≠ id, db'.getIssue j = db.getIssue j := by
  obtain ⟨hfind, rfl⟩ := handleAnswer_ok h
  obtain ⟨i, hi, -, -⟩ := find_some hfind
  exact ⟨i, _, hfind, hi, getIssue_applied hi, answerEffect_applied, Db.map_id_modify,
    fun j hj => Db.getIssue_modify_of_ne hj⟩

/-! ### The same answer again -/

/-- The issue is where `find_issue_with_label` looks, and carries the label. -/
def Hit (db : Db) (label : String) (i : Issue) : Prop :=
  i ∈ db.issues ∧ label ∈ i.labels ∧ (i.status = "open" ∨ i.status = "closed")

/-- When the answer succeeds, it succeeds again on the same issue and changes nothing, however the
issues are listed the first and the second time. -/
def Repeatable (peer : String) (answer : SubmitAnswer) (db : Db) : Prop :=
  ∀ cl cl' f id db', handleAnswer cl f peer answer db = (.ok id, db') →
    handleAnswer cl' noFaults peer answer db' = (.ok id, db')

lemma hit_of_find {label : String} (h : findIssueWithLabel cl f db label = .ok (some id)) :
    ∃ i, i.id = id ∧ Hit db label i := by
  obtain ⟨i, hi, hl, hst⟩ := find_some h
  exact ⟨i, Db.id_of_getIssue hi, Db.mem_of_getIssue hi, hl, hst⟩

/-- An issue with the label that is listed first is found, unless it is closed and an open one is
found. -/
lemma find_of_hit {label : String} (h : Hit db label i) :
    ∃ cl j, findIssueWithLabel cl noFaults db label = .ok (some j.id) ∧ Hit db label j ∧
      (j = i ∨ j.status = "open") := by
  obtain ⟨hdb, hl, hst⟩ := h
  by_cases hopen : ∃ j ∈ db.issues, label ∈ j.labels ∧ j.status = "open"
  · obtain ⟨j, hj, hjl, hjs⟩ := hopen
    exact ⟨_, j, find_open (head?_listIssues_listingFirst (l := "") hj hjs hjl), ⟨hj, hjl, Or.inl hjs⟩,
      Or.inr hjs⟩
  · have hnone : ∀ j ∈ db.issues, label ∈ j.labels → j.status ≠ "open" := by
      intro j hj hjl hjs
      exact hopen ⟨j, hj, hjl, hjs⟩
    have hclosed : i.status = "closed" := hst.resolve_left (hnone i hdb hl)
    exact ⟨_, i, find_closed (head?_eq_none_of_forall hnone)
      (head?_listIssues_listingFirst (l := "") hdb hclosed hl), ⟨hdb, hl, hst⟩, Or.inl rfl⟩

/-- The contents of an answer are not new to the issue it was applied to. -/
lemma newContents_applied : newContents peer answer (applied peer answer i) = [] := by
  rw [newContents, List.filter_eq_nil_iff]
  intro c hc hnew
  rw [decide_eq_true_iff] at hnew
  refine hnew ?_
  unfold applied answered
  rw [List.map_append, List.mem_append]
  by_cases hold : c ∈ i.comments.map Comment.content
  · exact Or.inl hold
  · right
    rw [List.map_map, List.mem_map]
    exact ⟨c, List.mem_filter.mpr ⟨hc, by simpa using hold⟩, rfl⟩

/-- An answer changes nothing of the issue it was applied to. -/
lemma applied_applied : applied peer answer (applied peer answer i) = applied peer answer i := by
  have hsame : answered [] (applied peer answer i) = applied peer answer i := by
    rw [answered_eq_self_iff]
    refine ⟨rfl, ?_, Finset.mem_insert_self _ _⟩
    unfold applied answered
    simp
  conv_lhs => rw [applied, newContents_applied, hsame]
  rfl

/-- The issue an answer was applied to is a hit as before, and closed; the other hits are the same. -/
lemma hit_applied {u : String} {j : Issue} (hi : db.getIssue id = some i) (hit : Hit db (refLabel u) i) :
    Hit (db.modify id (applied peer answer)) (refLabel u) j ↔
      j = applied peer answer i ∨ (j.id ≠ id ∧ Hit db (refLabel u) j) := by
  have hi' : (db.modify id (applied peer answer)).getIssue id = some (applied peer answer i) :=
    getIssue_applied hi
  constructor
  · rintro ⟨hj, hl, hst⟩
    by_cases hid : j.id = id
    · left
      have hid' : j.id = (applied peer answer i).id := hid.trans (Db.id_of_getIssue hi').symm
      exact Db.eq_of_id_eq hj (Db.mem_of_getIssue hi') hid'
    · exact Or.inr ⟨hid, (Db.mem_modify_of_ne hid).mp hj, hl, hst⟩
  · rintro (rfl | ⟨hid, hj, hl, hst⟩)
    · exact ⟨Db.mem_of_getIssue hi', (refLabel_mem_answered (newContents peer answer i)).mpr hit.2.1, Or.inr rfl⟩
    · exact ⟨(Db.mem_modify_of_ne hid).mpr hj, hl, hst⟩

/-- **The same answer again** is a no-op exactly when at most one issue with its reference can be
found. -/
theorem repeatable_iff : Repeatable peer answer db ↔
    ∀ i j, Hit db (refLabel answer.sourceUuid) i → Hit db (refLabel answer.sourceUuid) j → i = j := by
  constructor
  · intro h
    by_contra hne
    push Not at hne
    obtain ⟨i, j, hi, hj, hij⟩ := hne
    obtain ⟨cl, a, hfind, ha, -⟩ := find_of_hit hi
    have hget := Db.getIssue_of_mem ha.1
    -- `b` is a hit that the first answer leaves alone
    obtain ⟨b, hb, hba⟩ : ∃ b, Hit db (refLabel answer.sourceUuid) b ∧ b.id ≠ a.id := by
      by_cases hia : i = a
      · exact ⟨j, hj, fun hid => hij (hia.trans (Db.eq_of_id_eq hj.1 ha.1 hid).symm)⟩
      · exact ⟨i, hi, fun hid => hia (Db.eq_of_id_eq hi.1 ha.1 hid)⟩
    obtain ⟨cl', c, hfind', hc, hcb⟩ := find_of_hit ((hit_applied hget ha).mpr (Or.inr ⟨hba, hb⟩))
    have hsecond := h cl cl' noFaults _ _ (handleAnswer_of_find hfind)
    rw [handleAnswer_of_find hfind'] at hsecond
    have hca : c.id = a.id := by simpa using congrArg Prod.fst hsecond
    -- the issue of the first answer is closed now, so it is not found before `b`
    rcases (hit_applied hget ha).mp hc with rfl | ⟨hid, -⟩
    · rcases hcb with rfl | hopen
      · exact hba hca
      · have hclosed : (applied peer answer a).status = "closed" := rfl
        rw [hclosed] at hopen
        exact absurd hopen (by decide)
    · exact hid hca
  · intro hone cl cl' f id db' hok
    obtain ⟨hfind, rfl⟩ := handleAnswer_ok hok
    obtain ⟨i, rfl, hit⟩ := hit_of_find hfind
    have hget := Db.getIssue_of_mem hit.1
    have hhit : Hit (db.modify i.id (applied peer answer)) (refLabel answer.sourceUuid)
        (applied peer answer i) := (hit_applied hget hit).mpr (Or.inl rfl)
    obtain ⟨r, hr⟩ := find_noFaults cl' (db.modify i.id (applied peer answer)) (refLabel answer.sourceUuid)
    cases r with
    | none => exact absurd rfl (find_none hr hhit.1 hhit.2.1).2
    | some id =>
      obtain ⟨j, rfl, hj⟩ := hit_of_find hr
      have hji : j.id = i.id := by
        rcases (hit_applied hget hit).mp hj with rfl | ⟨-, hj'⟩
        · rfl
        · exact congrArg Issue.id (hone j i hj' hit)
      rw [hji] at hr
      rw [handleAnswer_of_find hr, (Db.modify_eq_self_iff (getIssue_applied hget) rfl).mpr applied_applied]

end Effect

/-! ### Answers on three databases -/

/-- An issue that has been submitted as `uuid-1`. -/
def submitted (id : IssueId) (comments : List Comment) : Issue :=
  ⟨id, "uuid-1", "My question", none, "high", "open",
    {"type:request", "xb:outbound", "xb-status:pending", "xb-ref:uuid-1"}, comments⟩

/-- The answer to it: one result, given twice. -/
def answer42 : SubmitAnswer :=
  ⟨"uuid-1", [⟨"the answer is 42", "result"⟩, ⟨"internal", "note"⟩, ⟨"the answer is 42", "result"⟩], []⟩

/-- A crosslink for the runs. -/
def byRow : Choices := sorted fun _ => ""

/-- The issue, without comments. -/
def asked : Db := ⟨[submitted 1 []], by decide⟩

/-- The issue, with a note that reads like the answer. -/
def noted : Db := ⟨[submitted 1 [⟨"[from repo-b] the answer is 42", "note"⟩]], by decide⟩

/-- Two open issues with the same reference. -/
def askedTwice : Db := ⟨[submitted 1 [], submitted 2 []], by decide⟩

/-- The answer to the issue without comments. -/
theorem answer_effect_asked : ∃ i i', asked.getIssue 1 = some i ∧
    (handleAnswer byRow noFaults "repo-b" answer42 asked).2.getIssue 1 = some i' ∧
    AnswerEffect "repo-b" answer42 i i' := by
  have hok : handleAnswer byRow noFaults "repo-b" answer42 asked =
      (.ok 1, (handleAnswer byRow noFaults "repo-b" answer42 asked).2) := Prod.ext rfl rfl
  obtain ⟨i, i', -, hi, hi', heffect, -⟩ := answer_effect hok
  exact ⟨i, i', hi, hi', heffect⟩

/-- **A note in the way.** No result comment of the issue holds the answer, and it is not copied: a
note has the content already. -/
theorem note_blocks_result : ∃ i i', noted.getIssue 1 = some i ∧
    (handleAnswer byRow noFaults "repo-b" answer42 noted).1 = .ok 1 ∧
    (handleAnswer byRow noFaults "repo-b" answer42 noted).2.getIssue 1 = some i' ∧
    i'.comments = i.comments ∧
    i'.comments ≠ i.comments ++ (newResults "repo-b" answer42 i).eraseDups.map fun c => ⟨c, "result"⟩ :=
  ⟨_, _, rfl, rfl, rfl, rfl, by decide⟩

/-- **Another issue the second time.** The first answer closes an issue, and the second one finds the
issue that is still open. -/
theorem second_answer_astray : ∃ db' db'',
    handleAnswer byRow noFaults "repo-b" answer42 askedTwice = (.ok 1, db') ∧
    handleAnswer byRow noFaults "repo-b" answer42 db' = (.ok 2, db'') ∧ db'' ≠ db' :=
  ⟨_, _, Prod.ext rfl rfl, Prod.ext rfl rfl, by decide⟩

end Crossbridge.Server
