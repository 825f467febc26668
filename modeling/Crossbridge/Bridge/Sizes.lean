import Crossbridge.Client.Commands
import Crossbridge.Server.Answers

/-!
Lengths: what one database stores, and what another makes of it.

Crosslink limits the lengths of bodies, comments and labels, in both repos alike (`Caps`). On the way
from one to the other the body of an issue gets the footer and the labels of an inbound issue, a
result comment gets the name of the peer, and a request has to go into one frame. So a request is
delivered exactly if all of this still fits (`delivered_iff`); if it does not, no attempt delivers it.
-/

namespace Crossbridge.Bridge.Sizes

open Crossbridge.Protocol Crossbridge.Crosslink Crossbridge.Server
open Crossbridge.Client (Env Outgoing submitRequest answerRequest submitRequest_ok)

/-! ### The limits -/

/-- How crosslink counts a length, and what it refuses. -/
structure Caps where
  len : String → ℕ
  len_append : ∀ s t, len (s ++ t) = len s + len t
  body : ℕ
  comment : ℕ
  label : ℕ
  /-- The text of the error. -/
  tooLong : String

namespace Caps

variable (caps : Caps)

/-- The check of a write. -/
def check (cap : ℕ) (s : String) : Option String :=
  if caps.len s ≤ cap then none else some caps.tooLong

/-- An issue that crosslink has accepted. -/
structure Accepted (i : Issue) : Prop where
  body : ∀ d, i.description = some d → caps.len d ≤ caps.body
  labels : ∀ l ∈ i.labels, caps.len l ≤ caps.label
  comments : ∀ c ∈ i.comments, caps.len c.content ≤ caps.comment

/-- The writes of `handle_submit` that crosslink refuses. -/
def submitFaults (mat : Materialize) (submit : SubmitIssue) : Faults
  | .createIssue => caps.check caps.body (submit.body ++ answerInstructionFooter)
  | .addLabel k => (inboundLabels submit)[k]?.bind (caps.check caps.label)
  | .noteComment => caps.check caps.comment (attachmentComment mat submit.attachments)
  | _ => none

/-- The writes of `handle_answer` that crosslink refuses, when these comments are to be copied. -/
def answerFaults (comments : List String) : Faults
  | .addComment k => comments[k]?.bind (caps.check caps.comment)
  | .addResolved => caps.check caps.label "xb-status:resolved"
  | _ => none

end Caps

/-! ### Attempts -/

/-- The outcomes of attempts, one after the other. -/
def attempts {α σ ε β : Type} (attempt : α → σ → Except ε β × σ) : List α → σ → List (Except ε β)
  | [], _ => []
  | a :: as, s => (attempt a s).1 :: attempts attempt as (attempt a s).2

lemma ok_not_mem_attempts {α σ ε β : Type} {attempt : α → σ → Except ε β × σ} {P : σ → Prop}
    (h : ∀ a s, P s → (∃ e, (attempt a s).1 = .error e) ∧ P (attempt a s).2) (b : β) :
    ∀ (as : List α) (s : σ), P s → .ok b ∉ attempts attempt as s
  | [], _, _ => List.not_mem_nil
  | a :: as, s, hs => by
    obtain ⟨⟨e, he⟩, hnext⟩ := h a s hs
    intro hok
    rw [attempts, List.mem_cons, he] at hok
    rcases hok with hok | hok
    · cases hok
    · exact ok_not_mem_attempts h b as _ hnext hok

section Deliver

variable (t : ErrorTexts) (caps : Caps)

/-- The error of `round_trip` when the request cannot be written. -/
def unsent (peer : String) (e : Error) : String :=
  "failed to send request to peer '" ++ peer ++ "': " ++ e.display t

/-- An attempt to deliver a submission: the frame is written, and the server of the peer handles it. -/
def deliverSubmit (out : Outgoing SubmitIssue) (a : Choices × Materialize) (repo : Repo) :
    Except String IssueId × Repo :=
  match writeMessage Postcard.clientRequest (.submit out.request) with
  | .error e => (.error (unsent t out.peer e), repo)
  | .ok _ => handleSubmit a.1 (caps.submitFaults a.2 out.request) a.2 out.request repo

/-- The result comments that `handle_answer` is to copy. -/
def copied (cl : Choices) (own : String) (answer : SubmitAnswer) (db : Db) : List String :=
  match findIssueWithLabel cl noFaults db (refLabel answer.sourceUuid) with
  | .ok (some id) => toCopy own answer (db.getComments id)
  | _ => []

/-- An attempt to deliver an answer of the repo `own`. -/
def deliverAnswer (own : String) (out : Outgoing SubmitAnswer) (cl : Choices) (db : Db) :
    Except String IssueId × Db :=
  match writeMessage Postcard.clientRequest (.answer out.request) with
  | .error e => (.error (unsent t out.peer e), db)
  | .ok _ => handleAnswer cl (caps.answerFaults (copied cl own out.request db)) own out.request db

end Deliver

/-! ### What fits -/

/-- A submission that the limits let through. -/
structure SubmitFits (caps : Caps) (submit : SubmitIssue) : Prop where
  body : caps.len submit.body + caps.len answerInstructionFooter ≤ caps.body
  labels : ∀ l ∈ ["type:request", "xb:inbound", "xb-status:open", sourceLabel submit.sourceSlug,
    refLabel submit.sourceUuid], caps.len l ≤ caps.label

/-- An answer of the repo `own` that the limits let through. -/
structure AnswerFits (caps : Caps) (own : String) (answer : SubmitAnswer) : Prop where
  comments : ∀ c ∈ answer.comments, c.kind = "result" →
    caps.len ("[from " ++ own ++ "] ") + caps.len c.content ≤ caps.comment
  label : caps.len "xb-status:resolved" ≤ caps.label

section Fits

variable {caps : Caps}

lemma check_eq_none {cap : ℕ} {s : String} : caps.check cap s = none ↔ caps.len s ≤ cap := by
  unfold Caps.check
  split
  · rename_i h
    exact iff_of_true rfl h
  · rename_i h
    exact iff_of_false (by simp) h

/-- A loop of writes goes through if no element is too long. -/
lemma check_each {cap : ℕ} (xs : List String) :
    (∀ k < xs.length, xs[k]?.bind (caps.check cap) = none) ↔ ∀ x ∈ xs, caps.len x ≤ cap := by
  constructor
  · intro h x hx
    obtain ⟨k, hk, rfl⟩ := List.mem_iff_getElem.mp hx
    have := h k hk
    rwa [List.getElem?_eq_getElem hk, Option.bind_some, check_eq_none] at this
  · intro h k hk
    rw [List.getElem?_eq_getElem hk, Option.bind_some, check_eq_none]
    exact h _ (List.getElem_mem hk)

lemma findIn_congr {f : Faults} (h : ∀ status, f (.listIssues status) = none) (cl : Choices) (db : Db)
    (label : String) : ∀ statuses, findIn cl f db label statuses = findIn cl noFaults db label statuses
  | [] => rfl
  | status :: rest => by
    rw [findIn, findIn, h, noFaults_apply]
    simp only [findIn_congr h cl db label rest]

/-- The limits do not keep an issue from being found. -/
lemma find_congr {f : Faults} (h : ∀ status, f (.listIssues status) = none) (cl : Choices) (db : Db)
    (label : String) : findIssueWithLabel cl f db label = findIssueWithLabel cl noFaults db label :=
  findIn_congr h cl db label _

/-- Looking for a label finds an issue if there is one. -/
lemma find_iff_hit (cl : Choices) (db : Db) (label : String) :
    (∃ id, findIssueWithLabel cl noFaults db label = .ok (some id)) ↔ ∃ i, Hit db label i := by
  constructor
  · rintro ⟨id, h⟩
    obtain ⟨i, -, hi⟩ := hit_of_find h
    exact ⟨i, hi⟩
  · rintro ⟨i, hi, hl, hst⟩
    obtain ⟨r, hr⟩ := find_noFaults cl db label
    cases r with
    | some id => exact ⟨id, hr⟩
    | none =>
      obtain ⟨hopen, hclosed⟩ := find_none hr hi hl
      rcases hst with hst | hst
      · exact absurd hst hopen
      · exact absurd hst hclosed

end Fits

/-! ### Submissions -/

section Submit

variable {t : ErrorTexts} {caps : Caps} {mat : Materialize} {submit : SubmitIssue} {repo : Repo}

/-- The labels of the client were accepted, so it depends on ours. -/
lemma submitTxOk_iff (hlabels : ∀ l ∈ submit.labels, caps.len l ≤ caps.label) :
    SubmitTxOk (caps.submitFaults mat submit) submit ↔
      ∀ l ∈ ["type:request", "xb:inbound", "xb-status:open", sourceLabel submit.sourceSlug,
        refLabel submit.sourceUuid], caps.len l ≤ caps.label := by
  have hloop : LoopOk (caps.submitFaults mat submit) .addLabel (inboundLabels submit).length ↔
      ∀ l ∈ inboundLabels submit, caps.len l ≤ caps.label := check_each _
  rw [SubmitTxOk, and_iff_right ⟨rfl, rfl⟩, hloop]
  constructor
  · intro h l hl
    exact h l (mem_inboundLabels.mpr (Or.inl hl))
  · intro h l hl
    rcases mem_inboundLabels.mp hl with hl | hl
    · exact h l hl
    · exact hlabels l hl

lemma createFault_eq_none : caps.submitFaults mat submit .createIssue = none ↔
    caps.len submit.body + caps.len answerInstructionFooter ≤ caps.body := by
  rw [← caps.len_append]
  exact check_eq_none

variable (mat) in
/-- A submission that is known, or fits, is accepted. -/
lemma handleSubmit_accepted {cl : Choices} {id : IssueId} (hid : cl.newId repo.db = .ok id)
    (hlabels : ∀ l ∈ submit.labels, caps.len l ≤ caps.label)
    (h : (∃ i, Hit repo.db (refLabel submit.sourceUuid) i) ∨ SubmitFits caps submit) :
    ∃ id, (handleSubmit cl (caps.submitFaults mat submit) mat submit repo).1 = .ok id := by
  obtain ⟨r, hfind⟩ := find_noFaults cl repo.db (refLabel submit.sourceUuid)
  have hcongr : findIssueWithLabel cl (caps.submitFaults mat submit) repo.db
      (refLabel submit.sourceUuid) = .ok r := (find_congr (fun _ => rfl) _ _ _).trans hfind
  unfold handleSubmit
  rw [hcongr]
  cases r with
  | some id => exact ⟨id, rfl⟩
  | none =>
    have hfits : SubmitFits caps submit := by
      refine h.resolve_left fun hknown => ?_
      obtain ⟨id, hid⟩ := (find_iff_hit cl repo.db _).mpr hknown
      rw [hid] at hfind
      cases hfind
    obtain ⟨db', hdb'⟩ := Db.createIssue_of_newId hid submit.title
      (some (submit.body ++ answerInstructionFooter)) "high"
    simp only [createFault_eq_none.mpr hfits.body, hdb',
      submitTx_ok ((submitTxOk_iff hlabels).mpr hfits.labels)]
    exact ⟨id, rfl⟩

/-- One that is not known and does not fit is refused, and is not known after that. -/
lemma handleSubmit_refused (cl : Choices) (hlabels : ∀ l ∈ submit.labels, caps.len l ≤ caps.label)
    (hknown : ¬ ∃ i, Hit repo.db (refLabel submit.sourceUuid) i) (hfits : ¬ SubmitFits caps submit) :
    (∃ e, (handleSubmit cl (caps.submitFaults mat submit) mat submit repo).1 = .error e) ∧
      ¬ ∃ i, Hit (handleSubmit cl (caps.submitFaults mat submit) mat submit repo).2.db
        (refLabel submit.sourceUuid) i := by
  obtain ⟨r, hfind⟩ := find_noFaults cl repo.db (refLabel submit.sourceUuid)
  have hcongr : findIssueWithLabel cl (caps.submitFaults mat submit) repo.db
      (refLabel submit.sourceUuid) = .ok r := (find_congr (fun _ => rfl) _ _ _).trans hfind
  unfold handleSubmit
  rw [hcongr]
  cases r with
  | some id => exact absurd ((find_iff_hit cl repo.db _).mp ⟨id, hfind⟩) hknown
  | none =>
    simp only
    cases hcreate : caps.submitFaults mat submit .createIssue with
    | some e => exact ⟨⟨_, rfl⟩, hknown⟩
    | none =>
      simp only
      cases hissue : repo.db.createIssue cl submit.title
          (some (submit.body ++ answerInstructionFooter)) "high" with
      | error e => exact ⟨⟨_, rfl⟩, hknown⟩
      | ok r =>
        obtain ⟨id, db'⟩ := r
        have htx : ¬ SubmitTxOk (caps.submitFaults mat submit) submit := fun htx =>
          hfits ⟨createFault_eq_none.mp hcreate, (submitTxOk_iff hlabels).mp htx⟩
        obtain ⟨e, he⟩ := submitTx_error id db' htx
        simp only [he]
        refine ⟨⟨_, rfl⟩, ?_⟩
        -- the new issue is there, without labels
        rintro ⟨i, hi, hl, hst⟩
        rw [(Db.createIssue_ok hissue).2, List.mem_append, List.mem_singleton] at hi
        rcases hi with hi | rfl
        · exact hknown ⟨i, hi, hl, hst⟩
        · cases hl

/-- What goes into no frame, or is not known and does not fit, no attempt delivers. -/
lemma submit_not_delivered {out : Outgoing SubmitIssue}
    (hlabels : ∀ l ∈ out.request.labels, caps.len l ≤ caps.label)
    (h : ¬ (Fits Postcard.clientRequest (.submit out.request) ∧
      ((∃ i, Hit repo.db (refLabel out.request.sourceUuid) i) ∨ SubmitFits caps out.request)))
    (as : List (Choices × Materialize)) (id : IssueId) :
    .ok id ∉ attempts (deliverSubmit t caps out) as repo := by
  by_cases hframe : Fits Postcard.clientRequest (.submit out.request)
  · obtain ⟨hknown, hfits⟩ := not_or.mp fun hor => h ⟨hframe, hor⟩
    refine ok_not_mem_attempts (P := fun repo => ¬ ∃ i, Hit repo.db
      (refLabel out.request.sourceUuid) i) (fun a repo hrepo => ?_) id _ _ hknown
    simp only [deliverSubmit, writeMessage_of_fits hframe]
    exact handleSubmit_refused a.1 hlabels hrepo hfits
  · refine ok_not_mem_attempts (P := fun _ => True) (fun a repo _ => ⟨?_, trivial⟩) id _ _ trivial
    simp only [deliverSubmit, writeMessage_of_not_fits hframe]
    exact ⟨_, rfl⟩

/-- Anything else is delivered by the first attempt. -/
lemma submit_delivered_iff {out : Outgoing SubmitIssue}
    (hlabels : ∀ l ∈ out.request.labels, caps.len l ≤ caps.label) {a : Choices × Materialize} {id : IssueId}
    (hid : a.1.newId repo.db = .ok id) (as : List (Choices × Materialize)) :
    (∃ id, .ok id ∈ attempts (deliverSubmit t caps out) (a :: as) repo) ↔
      Fits Postcard.clientRequest (.submit out.request) ∧
        ((∃ i, Hit repo.db (refLabel out.request.sourceUuid) i) ∨ SubmitFits caps out.request) := by
  constructor
  · rintro ⟨id, hok⟩
    by_contra h
    exact submit_not_delivered hlabels h _ id hok
  · rintro ⟨hframe, h⟩
    obtain ⟨id, hok⟩ := handleSubmit_accepted a.2 hid hlabels h
    refine ⟨id, ?_⟩
    simp only [attempts, deliverSubmit, writeMessage_of_fits hframe, hok]
    exact List.mem_cons_self

end Submit

/-! ### Answers -/

section Answer

variable {t : ErrorTexts} {caps : Caps} {own : String} {answer : SubmitAnswer} {db : Db}

/-- The comments of an answer, with the peer before them. -/
lemma mem_toCopy {c : String} {existing : List Comment} : c ∈ toCopy own answer existing ↔
    (∃ c' ∈ answer.comments, c'.kind = "result" ∧ c = "[from " ++ own ++ "] " ++ c'.content) ∧
      c ∉ existing.map Comment.content := by
  rw [toCopy, List.mem_filter, decide_eq_true_iff, List.mem_map]
  refine and_congr_left fun _ => ?_
  constructor
  · rintro ⟨c', hc', rfl⟩
    obtain ⟨hmem, hkind⟩ := List.mem_filter.mp hc'
    exact ⟨c', hmem, of_decide_eq_true hkind, rfl⟩
  · rintro ⟨c', hmem, hkind, rfl⟩
    exact ⟨c', List.mem_filter.mpr ⟨hmem, decide_eq_true hkind⟩, rfl⟩

/-- What the issue holds already was accepted, so it does not depend on that. -/
lemma answerTxOk_iff {i : Issue} (hi : caps.Accepted i) :
    AnswerTxOk (caps.answerFaults (toCopy own answer i.comments)) (toCopy own answer i.comments) i.labels ↔
      AnswerFits caps own answer := by
  have hloop : LoopOk (caps.answerFaults (toCopy own answer i.comments)) .addComment
      (toCopy own answer i.comments).length ↔
      ∀ c ∈ toCopy own answer i.comments, caps.len c ≤ caps.comment := check_each _
  have hresolved : caps.answerFaults (toCopy own answer i.comments) .addResolved = none ↔
      caps.len "xb-status:resolved" ≤ caps.label := check_eq_none
  unfold AnswerTxOk
  rw [hloop, hresolved]
  constructor
  · rintro ⟨-, hcomments, -, -, hlabel⟩
    refine ⟨fun c hc hkind => ?_, ?_⟩
    · rw [← caps.len_append]
      by_cases hold : "[from " ++ own ++ "] " ++ c.content ∈ i.comments.map Comment.content
      · obtain ⟨c', hc', heq⟩ := List.mem_map.mp hold
        rw [← heq]
        exact hi.comments c' hc'
      · exact hcomments _ (mem_toCopy.mpr ⟨⟨c, hc, hkind, rfl⟩, hold⟩)
    · by_cases hold : "xb-status:resolved" ∈ i.labels
      · exact hi.labels _ hold
      · exact hlabel hold
  · intro h
    refine ⟨⟨rfl, rfl⟩, fun c hc => ?_, rfl, fun _ => rfl, fun _ => h.label⟩
    obtain ⟨⟨c', hc', hkind, rfl⟩, -⟩ := mem_toCopy.mp hc
    rw [caps.len_append]
    exact h.comments c' hc' hkind

/-- An answer to an issue that is there is accepted if it fits. -/
lemma handleAnswer_accepted (cl : Choices) (hdb : ∀ i ∈ db.issues, caps.Accepted i)
    (hhit : ∃ i, Hit db (refLabel answer.sourceUuid) i) (hfits : AnswerFits caps own answer) :
    ∃ id, (handleAnswer cl (caps.answerFaults (copied cl own answer db)) own answer db).1 = .ok id := by
  obtain ⟨id, hfind⟩ := (find_iff_hit cl db _).mpr hhit
  obtain ⟨i, hi, -, -⟩ := find_some hfind
  have hcomments : db.getComments id = i.comments := by simp only [Db.getComments, hi]
  have hcopied : copied cl own answer db = toCopy own answer i.comments := by
    simp only [copied, hfind, hcomments]
  have hcongr : findIssueWithLabel cl (caps.answerFaults (copied cl own answer db)) db
      (refLabel answer.sourceUuid) = .ok (some id) := (find_congr (fun _ => rfl) _ _ _).trans hfind
  have htx := (answerTxOk_iff (hdb i (Db.mem_of_getIssue hi))).mpr hfits
  rw [← hcopied] at htx
  have hread : caps.answerFaults (copied cl own answer db) .getComments = none := rfl
  have hclose : CloseOk (caps.answerFaults (copied cl own answer db)) i.status := ⟨rfl, fun _ => rfl⟩
  refine ⟨id, ?_⟩
  unfold handleAnswer
  simp only [hcongr, hread, hcomments]
  rw [← hcopied, answerTx_ok hi htx]
  exact congrArg Prod.fst (closeAnswered_ok (Db.getIssue_modify_self hi) hclose)

/-- Any other answer is refused, and changes nothing. -/
lemma handleAnswer_refused (cl : Choices) (hdb : ∀ i ∈ db.issues, caps.Accepted i)
    (h : ¬ ((∃ i, Hit db (refLabel answer.sourceUuid) i) ∧ AnswerFits caps own answer)) :
    ∃ e, handleAnswer cl (caps.answerFaults (copied cl own answer db)) own answer db = (.error e, db) := by
  obtain ⟨r, hfind⟩ := find_noFaults cl db (refLabel answer.sourceUuid)
  have hcongr : findIssueWithLabel cl (caps.answerFaults (copied cl own answer db)) db
      (refLabel answer.sourceUuid) = .ok r := (find_congr (fun _ => rfl) _ _ _).trans hfind
  unfold handleAnswer
  rw [hcongr]
  cases r with
  | none => exact ⟨_, rfl⟩
  | some id =>
    obtain ⟨i, hi, -, -⟩ := find_some hfind
    have hcomments : db.getComments id = i.comments := by simp only [Db.getComments, hi]
    have hcopied : copied cl own answer db = toCopy own answer i.comments := by
      simp only [copied, hfind, hcomments]
    have hread : caps.answerFaults (copied cl own answer db) .getComments = none := rfl
    have htx : ¬ AnswerTxOk (caps.answerFaults (copied cl own answer db))
        (copied cl own answer db) i.labels := by
      rw [hcopied, answerTxOk_iff (hdb i (Db.mem_of_getIssue hi))]
      exact fun hfits => h ⟨(find_iff_hit cl db _).mp ⟨id, hfind⟩, hfits⟩
    obtain ⟨e, he⟩ := answerTx_error cl hi htx
    simp only [hread, hcomments]
    rw [← hcopied, he]
    exact ⟨_, rfl⟩

/-- What goes into no frame, or has no issue, or does not fit, no attempt delivers. -/
lemma answer_not_delivered {out : Outgoing SubmitAnswer} (hdb : ∀ i ∈ db.issues, caps.Accepted i)
    (h : ¬ (Fits Postcard.clientRequest (.answer out.request) ∧
      (∃ i, Hit db (refLabel out.request.sourceUuid) i) ∧ AnswerFits caps own out.request))
    (cls : List Choices) (id : IssueId) : .ok id ∉ attempts (deliverAnswer t caps own out) cls db := by
  by_cases hframe : Fits Postcard.clientRequest (.answer out.request)
  · refine ok_not_mem_attempts (P := fun s => s = db) (fun cl s hs => ?_) id _ _ rfl
    obtain ⟨e, he⟩ := handleAnswer_refused cl hdb fun hand => h ⟨hframe, hand⟩
    simp only [hs, deliverAnswer, writeMessage_of_fits hframe, he]
    exact ⟨⟨e, rfl⟩, trivial⟩
  · refine ok_not_mem_attempts (P := fun _ => True) (fun cl db _ => ⟨?_, trivial⟩) id _ _ trivial
    simp only [deliverAnswer, writeMessage_of_not_fits hframe]
    exact ⟨_, rfl⟩

/-- Anything else is delivered by the first attempt. -/
lemma answer_delivered_iff {out : Outgoing SubmitAnswer} (hdb : ∀ i ∈ db.issues, caps.Accepted i)
    (cl : Choices) (cls : List Choices) :
    (∃ id, .ok id ∈ attempts (deliverAnswer t caps own out) (cl :: cls) db) ↔
      Fits Postcard.clientRequest (.answer out.request) ∧
        (∃ i, Hit db (refLabel out.request.sourceUuid) i) ∧ AnswerFits caps own out.request := by
  constructor
  · rintro ⟨id, hok⟩
    by_contra h
    exact answer_not_delivered hdb h _ id hok
  · rintro ⟨hframe, hhit, hfits⟩
    obtain ⟨id, hok⟩ := handleAnswer_accepted cl hdb hhit hfits
    refine ⟨id, ?_⟩
    simp only [attempts, deliverAnswer, writeMessage_of_fits hframe, hok]
    exact List.mem_cons_self

end Answer

/-! ### What is delivered -/

section Delivered

variable (t : ErrorTexts) (caps : Caps)

/-- Whatever the sending database has accepted is accepted by the other side in the end, when ids are
left there and the issue that is answered is in place. -/
structure Deliverable : Prop where
  submit : ∀ env cl db own id target out, (∀ i ∈ db.issues, caps.Accepted i) →
    submitRequest env cl db own id target = .ok out →
    ∀ a repo newId, (∀ i ∈ repo.db.issues, caps.Accepted i) → a.1.newId repo.db = .ok newId →
      ∃ as id, .ok id ∈ attempts (deliverSubmit t caps out) (a :: as) repo
  answer : ∀ env cl db own id out, (∀ i ∈ db.issues, caps.Accepted i) →
    answerRequest env cl db own id = .ok out →
    ∀ db', (∀ i ∈ db'.issues, caps.Accepted i) →
      (∃ i, Hit db' (refLabel out.request.sourceUuid) i) →
      ∃ as id, .ok id ∈ attempts (deliverAnswer t caps own out) as db'

/-- **What is delivered.** For all limits that both repos enforce: a submission of an issue that was
accepted is delivered by some attempt exactly if it goes into a frame and the other repo has it, or has
room for the body with the footer and for our labels; an answer, exactly if it goes into a frame and
there is room for every result comment with the peer before it, on an issue that is there. -/
theorem delivered_iff :
    (∀ env cl db own id target out, (∀ i ∈ db.issues, caps.Accepted i) →
      submitRequest env cl db own id target = .ok out →
      ∀ a as repo newId, a.1.newId repo.db = .ok newId →
        ((∃ id, .ok id ∈ attempts (deliverSubmit t caps out) (a :: as) repo) ↔
          Fits Postcard.clientRequest (.submit out.request) ∧
            ((∃ i, Hit repo.db (refLabel out.request.sourceUuid) i) ∨ SubmitFits caps out.request))) ∧
    (∀ env cl db own id out, answerRequest env cl db own id = .ok out →
      ∀ cl' cls db', (∀ i ∈ db'.issues, caps.Accepted i) →
        ((∃ id, .ok id ∈ attempts (deliverAnswer t caps own out) (cl' :: cls) db') ↔
          Fits Postcard.clientRequest (.answer out.request) ∧
            (∃ i, Hit db' (refLabel out.request.sourceUuid) i) ∧ AnswerFits caps own out.request)) := by
  constructor
  · intro env cl db own id target out hdb hout a as repo newId hid
    obtain ⟨i, hi, -, -, hlabels⟩ := submitRequest_ok hout
    refine submit_delivered_iff (fun l hl => ?_) hid as
    exact (hdb i (Db.mem_of_getIssue hi)).labels l ((hlabels l).mp hl)
  · intro env cl db own id out _ cl' cls db' hdb'
    exact answer_delivered_iff hdb' cl' cls

end Delivered

/-! ### Cases -/

/-- Bodies and comments of 64 KiB, labels of 128 bytes. -/
def caps64 : Caps where
  len := String.utf8ByteSize
  len_append _ _ := String.utf8ByteSize_append
  body := 64 * 1024
  comment := 64 * 1024
  label := 128
  tooLong := "too long"

/-- Errors without texts. -/
def noTexts : ErrorTexts := ⟨fun _ => "", fun _ => ""⟩

/-- A root under which every peer is connected. -/
def connected : Env := ⟨["run", "crossbridge"], fun _ => true⟩

/-- A database with one issue, which is open. -/
def holding (body : String) (labels : Finset String) (comments : List Comment) : Db :=
  ⟨[⟨1, "uuid-1", "Need answer X", some body, "high", "open", labels, comments⟩],
    List.nodup_singleton _⟩

lemma accepted_holding (body : String) (labels : Finset String) (comments : List Comment)
    (hbody : caps64.len body ≤ caps64.body) (hlabels : ∀ l ∈ labels, caps64.len l ≤ caps64.label)
    (hcomments : ∀ c ∈ comments, caps64.len c.content ≤ caps64.comment) :
    ∀ i ∈ (holding body labels comments).issues, caps64.Accepted i := by
  intro i hi
  obtain rfl := List.mem_singleton.mp hi
  refine ⟨fun d hd => ?_, hlabels, hcomments⟩
  obtain rfl := Option.some.inj hd
  exact hbody

/-- What is sent for an issue without labels. -/
def asked (body : String) : Outgoing SubmitIssue where
  peer := "repo-b"
  socket := Client.socketPath connected.root "repo-a" "repo-b"
  request := ⟨"Need answer X", body, [], "repo-a", "uuid-1", []⟩

lemma submitRequest_holding (body : String) : submitRequest connected (sorted fun _ => "")
    (holding body ∅ []) "repo-a" 1 "repo-b" = .ok (asked body) := rfl

/-- The issue where it is answered. -/
def answering : Db :=
  holding "What is X?" {"xb:inbound", "xb-source:repo-a", "xb-ref:uuid-1"} [⟨"42", "result"⟩]

/-- What is sent for it. -/
def answer42 : Outgoing SubmitAnswer where
  peer := "repo-a"
  socket := Client.socketPath connected.root "repo-b" "repo-a"
  request := ⟨"uuid-1", [⟨"42", "result"⟩], []⟩

/-- A short issue is delivered, and so is a short answer. -/
theorem delivered_iff_short :
    (∃ id, .ok id ∈ attempts (deliverSubmit noTexts caps64 (asked "What is X?"))
      [(sorted fun _ => "uuid-2", fun _ => .error "")] ⟨Db.empty, []⟩) ∧
    ∃ id, .ok id ∈ attempts (deliverAnswer noTexts caps64 "repo-b" answer42) [sorted fun _ => ""]
      (holding "What is X?" {"xb-ref:uuid-1"} []) := by
  obtain ⟨hsubmit, hanswer⟩ := delivered_iff noTexts caps64
  constructor
  · have hok := accepted_holding "What is X?" ∅ [] (by decide) (by decide) (by decide)
    exact (hsubmit _ _ _ _ _ _ _ hok (submitRequest_holding _) _ [] _ 1 rfl).mpr
      ⟨by decide, Or.inr ⟨by decide, by decide⟩⟩
  · have hout : answerRequest connected (sorted fun _ => "") answering "repo-b" 1 = .ok answer42 :=
      rfl
    have hok := accepted_holding "What is X?" {"xb-ref:uuid-1"} [] (by decide) (by decide) (by decide)
    exact (hanswer _ _ _ _ _ _ hout _ [] _ hok).mpr
      ⟨by decide, ⟨_, List.mem_singleton_self _, by decide, Or.inl rfl⟩, by decide, by decide⟩

/-- A string of `2 ^ n` letters. -/
def letters : ℕ → String
  | 0 => "a"
  | n + 1 => letters n ++ letters n

lemma utf8ByteSize_letters (n : ℕ) : (letters n).utf8ByteSize = 2 ^ n := by
  induction n with
  | zero => rfl
  | succ n ih =>
    rw [letters, String.utf8ByteSize_append, ih, pow_succ]
    omega

/-- **A body of 64 KiB** is accepted by the database it is written to, and no attempt delivers it. -/
theorem not_deliverable :
    (letters 16).utf8ByteSize = 64 * 1024 ∧
    (∀ i ∈ (holding (letters 16) ∅ []).issues, caps64.Accepted i) ∧
    submitRequest connected (sorted fun _ => "") (holding (letters 16) ∅ []) "repo-a" 1 "repo-b" =
      .ok (asked (letters 16)) ∧
    (∀ as id, .ok id ∉ attempts (deliverSubmit noTexts caps64 (asked (letters 16))) as
      ⟨Db.empty, []⟩) ∧
    ¬ Deliverable noTexts caps64 := by
  have hsize : caps64.len (letters 16) = caps64.body := utf8ByteSize_letters 16
  have hok := accepted_holding (letters 16) ∅ [] hsize.le (by decide) (by decide)
  have hlong : ¬ SubmitFits caps64 (asked (letters 16)).request := by
    intro h
    have hbody := h.body
    simp only [asked, hsize] at hbody
    have hfooter : 0 < caps64.len answerInstructionFooter := by decide
    omega
  have hnever : ∀ as id, .ok id ∉
      attempts (deliverSubmit noTexts caps64 (asked (letters 16))) as ⟨Db.empty, []⟩ := by
    refine fun as id => submit_not_delivered (fun l hl => by cases hl) (fun h => ?_) as id
    rcases h.2 with ⟨i, hi, -⟩ | hfits
    · cases hi
    · exact hlong hfits
  refine ⟨utf8ByteSize_letters 16, hok, submitRequest_holding _, hnever, fun h => ?_⟩
  obtain ⟨as, id, hid⟩ := h.submit _ _ _ _ _ _ _ hok (submitRequest_holding _)
    (sorted fun _ => "uuid-2", fun _ => .error "") ⟨Db.empty, []⟩ 1 (fun i hi => by cases hi) rfl
  exact hnever _ id hid

end Crossbridge.Bridge.Sizes
