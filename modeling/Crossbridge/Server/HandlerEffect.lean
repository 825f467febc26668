import Crossbridge.Server.Handler

/-!
What the handlers do to the database, in closed form.

A loop of `add_label` or `add_comment` that goes through is one change of one issue, and so is the
transaction of `handle_answer` (`answered`). Each part of a handler gets two facts: what it returns
when the calls it makes succeed, and exactly which failures make it fail.
-/

namespace Crossbridge.Server

open Crossbridge.Protocol Crossbridge.Crosslink

variable {cl : Choices} {f : Faults} {db db' : Db} {id : IssueId}

/-! ### The labels of an inbound issue -/

lemma append_injective (p : String) : Function.Injective (p ++ ·) := by
  intro u v h
  have h' := congrArg String.toList h
  simp only [String.toList_append] at h'
  exact String.toList_inj.mp (List.append_cancel_left h')

lemma append_ne_of_prefix {p l u : String} (h : ¬ p.toList <+: l.toList) : p ++ u ≠ l := by
  rintro rfl
  refine h ?_
  rw [String.toList_append]
  exact List.prefix_append _ _

lemma refLabel_injective : Function.Injective refLabel := append_injective _

lemma sourceLabel_injective : Function.Injective sourceLabel := append_injective _

lemma refLabel_ne_of_prefix {l u : String} (h : ¬ "xb-ref:".toList <+: l.toList) : refLabel u ≠ l :=
  append_ne_of_prefix h

lemma sourceLabel_ne_of_prefix {l slug : String} (h : ¬ "xb-source:".toList <+: l.toList) :
    sourceLabel slug ≠ l :=
  append_ne_of_prefix h

lemma refLabel_ne_sourceLabel (u slug : String) : refLabel u ≠ sourceLabel slug := by
  refine refLabel_ne_of_prefix ?_
  unfold sourceLabel
  rw [String.toList_append]
  simp

lemma mem_foldl_dedup {l : String} (ls : List String) : ∀ acc : List String,
    l ∈ ls.foldl (fun labels l => if l ∈ labels then labels else labels ++ [l]) acc ↔
      l ∈ acc ∨ l ∈ ls := by
  induction ls with
  | nil => simp
  | cons x ls ih =>
    intro acc
    rw [List.foldl_cons, ih, List.mem_cons]
    split
    · rename_i hx
      constructor
      · tauto
      · rintro (h | rfl | h) <;> tauto
    · rw [List.mem_append, List.mem_singleton]
      tauto

lemma mem_inboundLabels {l : String} {submit : SubmitIssue} : l ∈ inboundLabels submit ↔
    l ∈ ["type:request", "xb:inbound", "xb-status:open", sourceLabel submit.sourceSlug,
      refLabel submit.sourceUuid] ∨ l ∈ submit.labels :=
  mem_foldl_dedup _ _

/-- The references among the labels: our own, and those the client sent. -/
lemma refLabel_mem_inboundLabels {u : String} {submit : SubmitIssue} :
    refLabel u ∈ inboundLabels submit ↔ u = submit.sourceUuid ∨ refLabel u ∈ submit.labels := by
  have h1 : refLabel u ≠ "type:request" := refLabel_ne_of_prefix (by decide)
  have h2 : refLabel u ≠ "xb:inbound" := refLabel_ne_of_prefix (by decide)
  have h3 : refLabel u ≠ "xb-status:open" := refLabel_ne_of_prefix (by decide)
  rw [mem_inboundLabels]
  simp only [List.mem_cons, h1, h2, h3, refLabel_ne_sourceLabel, refLabel_injective.eq_iff,
    List.not_mem_nil, false_or, or_false]

lemma sourceLabel_mem_inboundLabels {slug : String} {submit : SubmitIssue} :
    sourceLabel slug ∈ inboundLabels submit ↔
      slug = submit.sourceSlug ∨ sourceLabel slug ∈ submit.labels := by
  have h1 : sourceLabel slug ≠ "type:request" := sourceLabel_ne_of_prefix (by decide)
  have h2 : sourceLabel slug ≠ "xb:inbound" := sourceLabel_ne_of_prefix (by decide)
  have h3 : sourceLabel slug ≠ "xb-status:open" := sourceLabel_ne_of_prefix (by decide)
  rw [mem_inboundLabels]
  simp only [List.mem_cons, h1, h2, h3, (refLabel_ne_sourceLabel _ _).symm,
    sourceLabel_injective.eq_iff, List.not_mem_nil, false_or, or_false]

/-! ### Finding an issue by its label -/

section Find

variable {label : String} {statuses : List String}

lemma findIn_some (h : findIn cl f db label statuses = .ok (some id)) :
    ∃ i ∈ db.issues, i.id = id ∧ label ∈ i.labels ∧ i.status ∈ statuses := by
  induction statuses with
  | nil => cases h
  | cons status rest ih =>
    rw [findIn] at h
    split at h
    · cases h
    · split at h
      · rename_i i hi
        obtain ⟨hdb, hst, hl⟩ := Db.mem_listIssues.mp (List.mem_of_head? hi)
        simp only [Except.ok.injEq, Option.some.injEq] at h
        exact ⟨i, hdb, h, hl, hst ▸ List.mem_cons_self⟩
      · obtain ⟨i, hdb, hid, hl, hst⟩ := ih h
        exact ⟨i, hdb, hid, hl, List.mem_cons_of_mem _ hst⟩

lemma findIn_none (h : findIn cl f db label statuses = .ok none) :
    ∀ i ∈ db.issues, label ∈ i.labels → i.status ∉ statuses := by
  induction statuses with
  | nil => exact fun _ _ _ => List.not_mem_nil
  | cons status rest ih =>
    rw [findIn] at h
    split at h
    · cases h
    · split at h
      · simp at h
      · rename_i hnone
        intro i hi hl hst
        rcases List.mem_cons.mp hst with rfl | hrest
        · have hmem : i ∈ db.listIssues cl i.status label := Db.mem_listIssues.mpr ⟨hi, rfl, hl⟩
          rw [List.head?_eq_none_iff.mp hnone] at hmem
          cases hmem
        · exact ih h i hi hl hrest

lemma findIn_noFaults (cl : Choices) (db : Db) (label : String) :
    ∀ statuses, ∃ r, findIn cl noFaults db label statuses = .ok r
  | [] => ⟨none, rfl⟩
  | status :: rest => by
    rw [findIn]
    simp only [noFaults_apply]
    split
    · exact ⟨_, rfl⟩
    · exact findIn_noFaults cl db label rest

lemma find_some (h : findIssueWithLabel cl f db label = .ok (some id)) :
    ∃ i, db.getIssue id = some i ∧ label ∈ i.labels ∧ (i.status = "open" ∨ i.status = "closed") := by
  obtain ⟨i, hi, rfl, hl, hst⟩ := findIn_some h
  exact ⟨i, Db.getIssue_of_mem hi, hl, by simpa using hst⟩

lemma find_none (h : findIssueWithLabel cl f db label = .ok none) {i : Issue} (hi : i ∈ db.issues)
    (hl : label ∈ i.labels) : i.status ≠ "open" ∧ i.status ≠ "closed" := by
  simpa using findIn_none h i hi hl

lemma find_noFaults (cl : Choices) (db : Db) (label : String) :
    ∃ r, findIssueWithLabel cl noFaults db label = .ok r :=
  findIn_noFaults cl db label _

lemma find_open {i : Issue} (h : (db.listIssues cl "open" label).head? = some i) :
    findIssueWithLabel cl noFaults db label = .ok (some i.id) := by
  unfold findIssueWithLabel findIn
  simp only [noFaults_apply, h]

lemma find_closed {i : Issue} (h : (db.listIssues cl "open" label).head? = none)
    (h' : (db.listIssues cl "closed" label).head? = some i) :
    findIssueWithLabel cl noFaults db label = .ok (some i.id) := by
  unfold findIssueWithLabel findIn findIn
  simp only [noFaults_apply, h, h']

lemma head?_eq_none_of_forall {status : String}
    (h : ∀ j ∈ db.issues, label ∈ j.labels → j.status ≠ status) :
    (db.listIssues cl status label).head? = none := by
  rw [List.head?_eq_none_iff, List.eq_nil_iff_forall_not_mem]
  intro j hj
  obtain ⟨hdb, hst, hl⟩ := Db.mem_listIssues.mp hj
  exact h j hdb hl hst

end Find

/-! ### The loops -/

section Loop

variable {site : ℕ → Site} {write : String → Db → Db}

lemma writeEach_of_ok (xs : List String) : ∀ (k : ℕ) (db : Db),
    (∀ j < xs.length, f (site (k + j)) = none) →
      writeEach f site write k xs db = .ok (xs.foldl (fun db x => write x db) db) := by
  induction xs with
  | nil => exact fun _ _ _ => rfl
  | cons x xs ih =>
    intro k db h
    have hk : f (site k) = none := h 0 (by simp)
    have hks : ∀ j < xs.length, f (site (k + 1 + j)) = none := by
      intro j hj
      rw [Nat.add_right_comm, Nat.add_assoc]
      exact h (j + 1) (by simpa using hj)
    rw [writeEach, hk]
    exact ih (k + 1) _ hks

lemma writeEach_of_fault (xs : List String) : ∀ (k : ℕ) (db : Db),
    (∃ j < xs.length, f (site (k + j)) ≠ none) → ∃ e, writeEach f site write k xs db = .error e := by
  induction xs with
  | nil =>
    rintro k db ⟨j, hj, -⟩
    cases hj
  | cons x xs ih =>
    rintro k db ⟨j, hj, hf⟩
    rw [writeEach]
    cases hk : f (site k) with
    | some e => exact ⟨e, rfl⟩
    | none =>
      cases j with
      | zero => exact absurd hk hf
      | succ j =>
        refine ih (k + 1) _ ⟨j, by simpa using hj, ?_⟩
        rwa [Nat.add_right_comm, Nat.add_assoc]

end Loop

/-- The issue with more labels. -/
def addAll (db : Db) (id : IssueId) (ls : List String) : Db :=
  db.modify id fun i => { i with labels := i.labels ∪ ls.toFinset }

/-- The issue with more result comments. -/
def addResults (db : Db) (id : IssueId) (cs : List String) : Db :=
  db.modify id fun i => { i with comments := i.comments ++ cs.map fun c => ⟨c, "result"⟩ }

lemma foldl_addLabel (ls : List String) (db : Db) :
    ls.foldl (fun db l => db.addLabel id l) db = addAll db id ls := by
  induction ls generalizing db with
  | nil =>
    rw [addAll, Db.modify_eq_self]
    · rfl
    · intro i _ _
      simp
  | cons l ls ih =>
    rw [List.foldl_cons, ih, addAll, addAll, Db.addLabel, Db.modify_modify]
    congr 1
    funext i
    simp [Finset.insert_union]

lemma foldl_addComment (cs : List String) (db : Db) :
    cs.foldl (fun db c => db.addComment id ⟨c, "result"⟩) db = addResults db id cs := by
  induction cs generalizing db with
  | nil =>
    rw [addResults, Db.modify_eq_self]
    · rfl
    · intro i _ _
      simp
  | cons c cs ih =>
    rw [List.foldl_cons, ih, addResults, addResults, Db.addComment, Db.modify_modify]
    congr 1
    funext i
    simp

/-- No call of a loop over `n` values fails. -/
def LoopOk (f : Faults) (site : ℕ → Site) (n : ℕ) : Prop := ∀ k < n, f (site k) = none

instance (f : Faults) (site : ℕ → Site) (n : ℕ) : Decidable (LoopOk f site n) := by
  unfold LoopOk; infer_instance

lemma loopOk_noFaults (site : ℕ → Site) (n : ℕ) : LoopOk noFaults site n := fun _ _ => rfl

lemma addLabels_eq {ls : List String} (h : LoopOk f .addLabel ls.length) :
    addLabels f id ls db = .ok (addAll db id ls) := by
  rw [addLabels, writeEach_of_ok _ 0 db (fun j hj => by rw [Nat.zero_add]; exact h j hj),
    foldl_addLabel]

lemma addLabels_error (id : IssueId) (db : Db) {ls : List String} (h : ¬ LoopOk f .addLabel ls.length) :
    ∃ e, addLabels f id ls db = .error e := by
  unfold LoopOk at h
  push Not at h
  obtain ⟨j, hj, hf⟩ := h
  exact writeEach_of_fault _ 0 db ⟨j, hj, by rwa [Nat.zero_add]⟩

lemma addComments_eq {cs : List String} (h : LoopOk f .addComment cs.length) :
    addComments f id cs db = .ok (addResults db id cs) := by
  rw [addComments, writeEach_of_ok _ 0 db (fun j hj => by rw [Nat.zero_add]; exact h j hj),
    foldl_addComment]

lemma addComments_error (id : IssueId) (db : Db) {cs : List String} (h : ¬ LoopOk f .addComment cs.length) :
    ∃ e, addComments f id cs db = .error e := by
  unfold LoopOk at h
  push Not at h
  obtain ⟨j, hj, hf⟩ := h
  exact writeEach_of_fault _ 0 db ⟨j, hj, by rwa [Nat.zero_add]⟩

/-! ### The transactions -/

/-- The calls around the body of a transaction succeed. -/
def TxOk (f : Faults) : Prop := f .begin = none ∧ f .commit = none

instance (f : Faults) : Decidable (TxOk f) := by unfold TxOk; infer_instance

lemma transaction_ok {body : Db → Except String Db} (hf : TxOk f) (h : body db = .ok db') :
    transaction f body db = .ok db' := by
  simp only [transaction, hf.1, h, hf.2]

lemma transaction_error_of_body {body : Db → Except String Db} {e : String}
    (h : body db = .error e) : ∃ e, transaction f body db = .error e := by
  unfold transaction
  cases f .begin with
  | some e => exact ⟨e, rfl⟩
  | none => exact ⟨e, by simp only [h]⟩

lemma transaction_error_of_not_txOk {body : Db → Except String Db} (hf : ¬ TxOk f) :
    ∃ e, transaction f body db = .error e := by
  unfold transaction
  cases hb : f .begin with
  | some e => exact ⟨e, rfl⟩
  | none =>
    cases body db with
    | error e => exact ⟨e, rfl⟩
    | ok db' =>
      cases hc : f .commit with
      | some e => exact ⟨e, rfl⟩
      | none => exact absurd ⟨hb, hc⟩ hf

/-- The label transaction of `handle_submit` goes through. -/
def SubmitTxOk (f : Faults) (submit : SubmitIssue) : Prop :=
  TxOk f ∧ LoopOk f .addLabel (inboundLabels submit).length

instance (f : Faults) (submit : SubmitIssue) : Decidable (SubmitTxOk f submit) := by
  unfold SubmitTxOk; infer_instance

lemma submitTx_ok {submit : SubmitIssue} (h : SubmitTxOk f submit) :
    transaction f (addLabels f id (inboundLabels submit)) db =
      .ok (addAll db id (inboundLabels submit)) :=
  transaction_ok h.1 (addLabels_eq h.2)

lemma submitTx_error (id : IssueId) (db : Db) {submit : SubmitIssue} (h : ¬ SubmitTxOk f submit) :
    ∃ e, transaction f (addLabels f id (inboundLabels submit)) db = .error e := by
  by_cases hf : TxOk f
  · obtain ⟨e, he⟩ := addLabels_error id db fun hl => h ⟨hf, hl⟩
    exact transaction_error_of_body he
  · exact transaction_error_of_not_txOk hf

/-- An issue after an answer, but for its status. -/
def answered (cs : List String) (i : Issue) : Issue :=
  { i with
    comments := i.comments ++ cs.map fun c => ⟨c, "result"⟩
    labels := insert "xb-status:resolved" (i.labels.erase "xb-status:pending") }

/-- The transaction of `handle_answer` goes through, on an issue with the labels `ls`. -/
def AnswerTxOk (f : Faults) (cs : List String) (ls : Finset String) : Prop :=
  TxOk f ∧ LoopOk f .addComment cs.length ∧ f .getLabels = none ∧
    ("xb-status:pending" ∈ ls → f .removePending = none) ∧
    ("xb-status:resolved" ∉ ls → f .addResolved = none)

instance (f : Faults) (cs : List String) (ls : Finset String) : Decidable (AnswerTxOk f cs ls) := by
  unfold AnswerTxOk; infer_instance

section Answer

variable {cs : List String} {i : Issue}

lemma getIssue_addResults (h : db.getIssue id = some i) : (addResults db id cs).getIssue id =
    some { i with comments := i.comments ++ cs.map fun c => ⟨c, "result"⟩ } := by
  rw [addResults, Db.getIssue_modify_self h, ← Db.id_of_getIssue h]

lemma mem_getLabels_addResults (cl : Choices) (h : db.getIssue id = some i) (l : String) :
    l ∈ (addResults db id cs).getLabels cl id ↔ l ∈ i.labels :=
  Db.mem_getLabels (getIssue_addResults h)

lemma applyAnswer_eq (h : db.getIssue id = some i) (hf : AnswerTxOk f cs i.labels) :
    applyAnswer cl f id cs db = .ok (db.modify id (answered cs)) := by
  obtain ⟨-, hloop, hget, hpending, hresolved⟩ := hf
  have hp : "xb-status:pending" ∈ (addResults db id cs).getLabels cl id ↔ _ :=
    mem_getLabels_addResults cl h _
  have hr : "xb-status:resolved" ∈ (addResults db id cs).getLabels cl id ↔ _ :=
    mem_getLabels_addResults cl h _
  unfold applyAnswer
  simp only [addComments_eq hloop, hget, bind, Except.bind, hp, hr]
  -- each label is touched only when that changes something
  by_cases h1 : "xb-status:pending" ∈ i.labels <;> by_cases h2 : "xb-status:resolved" ∈ i.labels <;>
    simp only [h1, h2, hpending, hresolved, if_true, if_false, not_true, not_false_eq_true,
      Except.ok.injEq, addResults, Db.removeLabel, Db.addLabel, Db.modify_modify] <;>
    refine Db.modify_congr h ?_ <;> simp [answered, h1, h2]

lemma applyAnswer_error (cl : Choices) (h : db.getIssue id = some i) (hf : TxOk f) (hn : ¬ AnswerTxOk f cs i.labels) :
    ∃ e, applyAnswer cl f id cs db = .error e := by
  unfold applyAnswer
  by_cases hloop : LoopOk f .addComment cs.length
  · have hp : "xb-status:pending" ∈ (addResults db id cs).getLabels cl id ↔ _ :=
      mem_getLabels_addResults cl h _
    have hr : "xb-status:resolved" ∈ (addResults db id cs).getLabels cl id ↔ _ :=
      mem_getLabels_addResults cl h _
    simp only [addComments_eq hloop, bind, Except.bind]
    cases hget : f .getLabels with
    | some e => exact ⟨e, rfl⟩
    | none =>
      simp only [hp, hr]
      by_cases h1 : "xb-status:pending" ∈ i.labels
      · simp only [h1, if_true]
        cases hrem : f .removePending with
        | some e => exact ⟨e, rfl⟩
        | none =>
          by_cases h2 : "xb-status:resolved" ∈ i.labels
          · exact absurd ⟨hf, hloop, hget, fun _ => hrem, fun h' => absurd h2 h'⟩ hn
          · simp only [h2, not_false_eq_true, if_true]
            cases hadd : f .addResolved with
            | some e => exact ⟨e, rfl⟩
            | none => exact absurd ⟨hf, hloop, hget, fun _ => hrem, fun _ => hadd⟩ hn
      · simp only [h1, if_false]
        by_cases h2 : "xb-status:resolved" ∈ i.labels
        · exact absurd ⟨hf, hloop, hget, fun h' => absurd h' h1, fun h' => absurd h2 h'⟩ hn
        · simp only [h2, not_false_eq_true, if_true]
          cases hadd : f .addResolved with
          | some e => exact ⟨e, rfl⟩
          | none => exact absurd ⟨hf, hloop, hget, fun h' => absurd h' h1, fun _ => hadd⟩ hn
  · obtain ⟨e, he⟩ := addComments_error id db hloop
    exact ⟨e, by simp only [he, bind, Except.bind]⟩

lemma answerTx_ok (h : db.getIssue id = some i) (hf : AnswerTxOk f cs i.labels) :
    transaction f (applyAnswer cl f id cs) db = .ok (db.modify id (answered cs)) :=
  transaction_ok hf.1 (applyAnswer_eq h hf)

lemma answerTx_error (cl : Choices) (h : db.getIssue id = some i) (hn : ¬ AnswerTxOk f cs i.labels) :
    ∃ e, transaction f (applyAnswer cl f id cs) db = .error e := by
  by_cases hf : TxOk f
  · obtain ⟨e, he⟩ := applyAnswer_error cl h hf hn
    exact transaction_error_of_body he
  · exact transaction_error_of_not_txOk hf

/-- An answer changes nothing of an issue exactly when it brings nothing new. -/
lemma answered_eq_self_iff : answered cs i = i ↔
    cs = [] ∧ "xb-status:pending" ∉ i.labels ∧ "xb-status:resolved" ∈ i.labels := by
  constructor
  · intro h
    have hc : i.comments ++ cs.map (fun c => (⟨c, "result"⟩ : Comment)) = i.comments :=
      congrArg Issue.comments h
    have hl : insert "xb-status:resolved" (i.labels.erase "xb-status:pending") = i.labels :=
      congrArg Issue.labels h
    refine ⟨by simpa using hc, ?_, ?_⟩
    · rw [← hl]
      simp
    · rw [← hl]
      exact Finset.mem_insert_self _ _
  · rintro ⟨rfl, hp, hr⟩
    unfold answered
    rw [Finset.erase_eq_of_notMem hp, Finset.insert_eq_of_mem hr, List.map_nil, List.append_nil]

lemma refLabel_mem_answered {u : String} (cs : List String) :
    refLabel u ∈ (answered cs i).labels ↔ refLabel u ∈ i.labels := by
  have hp : refLabel u ≠ "xb-status:pending" := refLabel_ne_of_prefix (by decide)
  have hr : refLabel u ≠ "xb-status:resolved" := refLabel_ne_of_prefix (by decide)
  unfold answered
  rw [Finset.mem_insert, Finset.mem_erase, or_iff_right hr, and_iff_right hp]

end Answer

/-! ### Closing -/

/-- The calls of `handle_answer` after its transaction succeed, on an issue with this status. -/
def CloseOk (f : Faults) (status : String) : Prop :=
  f .getIssue = none ∧ (status ≠ "closed" → f .closeIssue = none)

instance (f : Faults) (status : String) : Decidable (CloseOk f status) := by
  unfold CloseOk; infer_instance

section Close

variable {i : Issue}

lemma closeAnswered_ok (h : db.getIssue id = some i) (hf : CloseOk f i.status) :
    closeAnswered f id db = (.ok id, db.closeIssue id) := by
  unfold closeAnswered
  rw [hf.1, h]
  by_cases hc : i.status = "closed"
  · have hsame : db.closeIssue id = db := by
      rw [Db.closeIssue, Db.setStatus, Db.modify_eq_self_iff h rfl, ← hc]
    simp only [hc, ne_eq, not_true, if_false, hsame]
  · simp only [ne_eq, hc, not_false_eq_true, if_true, hf.2 hc]

lemma closeAnswered_error (h : db.getIssue id = some i) (hf : ¬ CloseOk f i.status) :
    ∃ e, closeAnswered f id db = (.error e, db) := by
  unfold closeAnswered
  cases hg : f .getIssue with
  | some e => exact ⟨_, rfl⟩
  | none =>
    rw [h]
    by_cases hc : i.status = "closed"
    · exact absurd ⟨hg, fun h' => absurd hc h'⟩ hf
    · simp only [ne_eq, hc, not_false_eq_true, if_true]
      cases hcl : f .closeIssue with
      | some e => exact ⟨_, rfl⟩
      | none => exact absurd ⟨hg, fun _ => hcl⟩ hf

end Close

/-! ### The handlers when no call fails -/

lemma submitTxOk_noFaults (submit : SubmitIssue) : SubmitTxOk noFaults submit :=
  ⟨⟨rfl, rfl⟩, loopOk_noFaults _ _⟩

lemma answerTxOk_noFaults (cs : List String) (ls : Finset String) : AnswerTxOk noFaults cs ls :=
  ⟨⟨rfl, rfl⟩, loopOk_noFaults _ _, rfl, fun _ => rfl, fun _ => rfl⟩

lemma closeOk_noFaults (status : String) : CloseOk noFaults status := ⟨rfl, fun _ => rfl⟩

/-- The repo has received a submission as the new issue `i`. -/
structure Received (cl : Choices) (submit : SubmitIssue) (repo repo' : Repo) (i : Issue) : Prop where
  newId : cl.newId repo.db = .ok i.id
  issues : repo'.db.issues = repo.db.issues ++ [i]
  uuid : i.uuid = cl.newUuid repo.db
  status : i.status = "open"
  labels : i.labels = (inboundLabels submit).toFinset

lemma received_attach (mat : Materialize) {submit : SubmitIssue} {repo repo' : Repo} {i : Issue}
    (h : Received cl submit repo repo' i) :
    ∃ i', i'.id = i.id ∧
      Received cl submit repo (attach noFaults mat i.id submit.attachments repo') i' := by
  unfold attach
  split
  · exact ⟨i, rfl, h⟩
  · let note : Comment := ⟨attachmentComment mat submit.attachments, "note"⟩
    refine ⟨{ i with comments := i.comments ++ [note] }, rfl, h.newId, ?_, h.uuid, h.status, h.labels⟩
    exact Db.issues_modify_append h.issues

/-- **A submission**, no call failing: it is a duplicate, or there is no id left, or it is received
as a new issue. -/
theorem handleSubmit_cases (cl : Choices) (mat : Materialize) (submit : SubmitIssue) (repo : Repo) :
    (∃ id, findIssueWithLabel cl noFaults repo.db (refLabel submit.sourceUuid) = .ok (some id) ∧
      handleSubmit cl noFaults mat submit repo = (.ok id, repo)) ∨
    (findIssueWithLabel cl noFaults repo.db (refLabel submit.sourceUuid) = .ok none ∧
      ((∃ e, cl.newId repo.db = .error e ∧ handleSubmit cl noFaults mat submit repo =
          (.error ("creating local issue: " ++ e), repo)) ∨
        ∃ i repo', handleSubmit cl noFaults mat submit repo = (.ok i.id, repo') ∧
          Received cl submit repo repo' i)) := by
  obtain ⟨r, hfind⟩ := find_noFaults cl repo.db (refLabel submit.sourceUuid)
  unfold handleSubmit
  rw [hfind]
  cases r with
  | some id => exact Or.inl ⟨id, rfl, rfl⟩
  | none =>
    refine Or.inr ⟨rfl, ?_⟩
    cases hid : cl.newId repo.db with
    | error e =>
      refine Or.inl ⟨e, rfl, ?_⟩
      simp only [noFaults_apply, Db.createIssue_of_newId_error hid]
    | ok id =>
      right
      obtain ⟨db', hdb'⟩ := Db.createIssue_of_newId hid submit.title
        (some (submit.body ++ answerInstructionFooter)) "high"
      have hlabelled : Received cl submit repo
          { repo with db := addAll db' id (inboundLabels submit) }
          { Db.newIssue cl repo.db id submit.title (some (submit.body ++ answerInstructionFooter))
              "high" with labels := ∅ ∪ (inboundLabels submit).toFinset } :=
        ⟨hid, Db.issues_modify_append (Db.createIssue_ok hdb').2, rfl, rfl, Finset.empty_union _⟩
      obtain ⟨i, hi, hrec⟩ := received_attach mat hlabelled
      refine ⟨i, _, ?_, hrec⟩
      rw [hi]
      simp only [noFaults_apply, hdb']
      rw [submitTx_ok (submitTxOk_noFaults submit)]
      rfl

/-- **An answer**, no call failing: there is no issue for it, or the issue found is answered and
closed. -/
theorem handleAnswer_cases (cl : Choices) (peer : String) (answer : SubmitAnswer) (db : Db) :
    (findIssueWithLabel cl noFaults db (refLabel answer.sourceUuid) = .ok none ∧
      ∃ e, handleAnswer cl noFaults peer answer db = (.error e, db)) ∨
    ∃ i, findIssueWithLabel cl noFaults db (refLabel answer.sourceUuid) = .ok (some i.id) ∧
      db.getIssue i.id = some i ∧ handleAnswer cl noFaults peer answer db =
        (.ok i.id, (db.modify i.id (answered (toCopy peer answer i.comments))).closeIssue i.id) := by
  obtain ⟨r, hfind⟩ := find_noFaults cl db (refLabel answer.sourceUuid)
  unfold handleAnswer
  rw [hfind]
  cases r with
  | none => exact Or.inl ⟨rfl, _, rfl⟩
  | some id =>
    right
    obtain ⟨i, hi, -, -⟩ := find_some hfind
    obtain rfl := Db.id_of_getIssue hi
    refine ⟨i, rfl, hi, ?_⟩
    have hold : db.getComments i.id = i.comments := by simp only [Db.getComments, hi]
    have hi' := Db.getIssue_modify_self (g := answered (toCopy peer answer i.comments)) hi
    simp only [noFaults_apply, hold, answerTx_ok hi (answerTxOk_noFaults _ _)]
    exact closeAnswered_ok hi' (closeOk_noFaults _)

/-- **An answer changes the issue it finds**, if anything, whatever fails; not its UUID, and not what it
refers to. -/
theorem handleAnswer_modify (cl : Choices) (f : Faults) (peer : String) (answer : SubmitAnswer)
    (db : Db) : (handleAnswer cl f peer answer db).2 = db ∨ ∃ id g,
      findIssueWithLabel cl f db (refLabel answer.sourceUuid) = .ok (some id) ∧
        (∀ i, (g i).uuid = i.uuid ∧ ∀ u, refLabel u ∈ (g i).labels ↔ refLabel u ∈ i.labels) ∧
        (handleAnswer cl f peer answer db).2 = db.modify id g := by
  unfold handleAnswer
  cases hfind : findIssueWithLabel cl f db (refLabel answer.sourceUuid) with
  | error e => exact Or.inl rfl
  | ok r =>
    cases r with
    | none => exact Or.inl rfl
    | some id =>
      cases hread : f .getComments with
      | some e => exact Or.inl rfl
      | none =>
        obtain ⟨i, hi, -, -⟩ := find_some hfind
        simp only
        by_cases hok : AnswerTxOk f (toCopy peer answer (db.getComments id)) i.labels
        · rw [answerTx_ok hi hok]
          have hi' : (db.modify id (answered (toCopy peer answer (db.getComments id)))).getIssue id =
              some { answered (toCopy peer answer (db.getComments id)) i with id := id } :=
            Db.getIssue_modify_self hi
          by_cases hclose : CloseOk f i.status
          · have hclosed := congrArg Prod.snd (closeAnswered_ok hi' hclose)
            have hboth := hclosed.trans (Db.modify_modify _)
            refine Or.inr ⟨id, _, rfl, ?_, hboth⟩
            exact fun i => ⟨rfl, fun u => refLabel_mem_answered (toCopy peer answer (db.getComments id))⟩
          · obtain ⟨e, he⟩ := closeAnswered_error hi' hclose
            have hopen := congrArg Prod.snd he
            refine Or.inr ⟨id, _, rfl, ?_, hopen⟩
            exact fun i => ⟨rfl, fun u => refLabel_mem_answered (toCopy peer answer (db.getComments id))⟩
        · obtain ⟨e, he⟩ := answerTx_error cl hi hok
          rw [he]
          exact Or.inl rfl

end Crossbridge.Server
