import Crossbridge.Server.HandlerEffect

/-!
What an error response says about the database.

A connection gets one response whatever the client sends: one is handed to `write_message`. A
response that does not fit a frame is refused there, so that its write fails and nothing of it goes
out (`Writer.write_refused`). That an error leaves the database as it was holds but for two places,
where a handler has already written and then fails (`Torn`): a submission whose issue was created and
whose labels were not applied, and an answer that was applied and whose issue could not be loaded or
closed. `answeredSafely_iff` says that there are no others.
-/

namespace Crossbridge.Server

open Crossbridge.Protocol Crossbridge.Crosslink

/-- One response was handed to `write_message`; the result is an error only if its write failed, be
it the encoding or the stream; and an error response leaves the database as it was. -/
def Safe (io : Option IoErrorKind) (repo : Repo) (c : Served) : Prop :=
  ∃ r, c.writes = [r] ∧ (∀ e, c.result = .error e → ∃ we, writeResponse io r = .error we) ∧
    ∀ message, r = .error message → c.repo.db = repo.db

/-- A connection is served safely; it waits only as long as the client may send more. -/
def AnsweredSafely (t : ErrorTexts) (cl : Choices) (f : Faults) (mat : Materialize)
    (io : Option IoErrorKind) (peer : String) (src : Source) (repo : Repo) : Prop :=
  match handleConnection t cl f mat io peer src repo with
  | none => src.ending = none
  | some c => Safe io repo c

/-- A failure strikes after something was written: in the label transaction of a submission that
creates an issue, or after the transaction of an answer that changes something. -/
def Torn (cl : Choices) (f : Faults) (peer : String) (db : Db) : ClientRequest → Prop
  | .submit submit =>
    findIssueWithLabel cl f db (refLabel submit.sourceUuid) = .ok none ∧ f .createIssue = none ∧
      (∃ id, cl.newId db = .ok id) ∧ ¬ SubmitTxOk f submit
  | .answer answer => ∃ id i,
    findIssueWithLabel cl f db (refLabel answer.sourceUuid) = .ok (some id) ∧
      db.getIssue id = some i ∧ f .getComments = none ∧
      AnswerTxOk f (toCopy peer answer i.comments) i.labels ∧ ¬ CloseOk f i.status ∧
      (toCopy peer answer i.comments ≠ [] ∨ "xb-status:pending" ∈ i.labels ∨
        "xb-status:resolved" ∉ i.labels)

section Handlers

variable {cl : Choices} {f : Faults} (mat : Materialize) {peer : String} {repo : Repo} {db : Db}

/-- **A failed submission** leaves the database as it was, unless it was torn. -/
theorem handleSubmit_error_iff (submit : SubmitIssue) :
    (∀ e, (handleSubmit cl f mat submit repo).1 = .error e →
      (handleSubmit cl f mat submit repo).2.db = repo.db) ↔
    ¬ Torn cl f peer repo.db (.submit submit) := by
  unfold handleSubmit Torn
  cases hfind : findIssueWithLabel cl f repo.db (refLabel submit.sourceUuid) with
  | error e => simp [hfind]
  | ok r =>
    cases r with
    | some existing => simp [hfind]
    | none =>
      cases hcreate : f .createIssue with
      | some e => simp
      | none =>
        cases hid : cl.newId repo.db with
        | error e => simp [Db.createIssue_of_newId_error hid]
        | ok id =>
          obtain ⟨db', hdb'⟩ := Db.createIssue_of_newId hid submit.title
            (some (submit.body ++ answerInstructionFooter)) "high"
          simp only [hdb']
          by_cases htx : SubmitTxOk f submit
          · simp [submitTx_ok htx, htx]
          · -- the issue is there, and its labels are not
            obtain ⟨e, he⟩ := submitTx_error (f := f) id db' htx
            have hne : db' ≠ repo.db := by
              intro heq
              have hlen := congrArg List.length (Db.createIssue_ok hdb').2
              rw [heq] at hlen
              simp at hlen
            simp [he, htx, hne, hfind]

/-- **A failed answer** leaves the database as it was, unless it was torn. -/
theorem handleAnswer_error_iff (answer : SubmitAnswer) :
    (∀ e, (handleAnswer cl f peer answer db).1 = .error e → (handleAnswer cl f peer answer db).2 = db) ↔
    ¬ Torn cl f peer db (.answer answer) := by
  unfold handleAnswer Torn
  cases hfind : findIssueWithLabel cl f db (refLabel answer.sourceUuid) with
  | error e => simp [hfind]
  | ok r =>
    cases r with
    | none => simp [hfind]
    | some id =>
      cases hcomments : f .getComments with
      | some e => simp
      | none =>
        obtain ⟨i, hi, -, -⟩ := find_some hfind
        have hold : db.getComments id = i.comments := by simp only [Db.getComments, hi]
        simp only [hold]
        by_cases htx : AnswerTxOk f (toCopy peer answer i.comments) i.labels
        · simp only [answerTx_ok hi htx]
          have hi' := Db.getIssue_modify_self (g := answered (toCopy peer answer i.comments)) hi
          by_cases hclose : CloseOk f i.status
          · rw [closeAnswered_ok hi' hclose]
            simp [hfind, hi, hclose]
          · -- the answer is there, and the issue is not closed
            obtain ⟨e, he⟩ := closeAnswered_error hi' hclose
            rw [he]
            have hself := Db.modify_eq_self_iff (g := answered (toCopy peer answer i.comments)) hi rfl
            rw [answered_eq_self_iff] at hself
            simp only [hself, hfind]
            constructor
            · rintro h ⟨id', i', hid, hi'', -, -, -, hnew⟩
              obtain rfl : id = id' := by simpa using hid
              obtain rfl : i = i' := by simpa [hi] using hi''
              obtain ⟨h1, h2, h3⟩ := h e rfl
              rcases hnew with hnew | hnew | hnew
              · exact hnew h1
              · exact h2 hnew
              · exact hnew h3
            · intro h e' _
              by_contra hold'
              refine h ⟨id, i, rfl, hi, trivial, htx, hclose, ?_⟩
              tauto
        · obtain ⟨e, he⟩ := answerTx_error cl hi htx
          simp only [he]
          constructor
          · rintro - ⟨id', i', hid, hi', -, htx', -⟩
            obtain rfl : id = id' := by simpa [hfind] using hid
            obtain rfl : i = i' := by simpa [hi] using hi'
            exact htx htx'
          · exact fun _ _ _ => trivial

lemma respond_eq_error {r : Except String IssueId} {message : String} :
    respond r = .error message ↔ r = .error message := by
  cases r <;> simp [respond]

variable (cl f peer repo) in
/-- **A request** answered with an error leaves the database as it was, unless it was torn. -/
theorem dispatch_error_iff (request : ClientRequest) :
    (∀ message, (dispatch cl f mat peer repo request).1 = .error message →
      (dispatch cl f mat peer repo request).2.db = repo.db) ↔ ¬ Torn cl f peer repo.db request := by
  cases request with
  | submit submit =>
    rw [← handleSubmit_error_iff mat submit]
    exact forall_congr' fun e => imp_congr respond_eq_error Iff.rfl
  | answer answer =>
    rw [← handleAnswer_error_iff answer]
    exact forall_congr' fun e => imp_congr respond_eq_error Iff.rfl

end Handlers

/-- **Errors that change nothing.** A connection is served safely, whatever bytes it sent, exactly
when its request is not torn. -/
theorem answeredSafely_iff (t : ErrorTexts) (cl : Choices) (f : Faults) (mat : Materialize)
    (io : Option IoErrorKind) (peer : String) (src : Source) (repo : Repo) :
    AnsweredSafely t cl f mat io peer src repo ↔
      ∀ request rest, poll Postcard.clientRequest .start src = .ready (.ok request) rest →
        ¬ Torn cl f peer repo.db request := by
  unfold AnsweredSafely handleConnection
  cases hpoll : poll Postcard.clientRequest .start src with
  | pending fut rest => simp [ending_of_poll_pending hpoll]
  | ready r rest =>
    cases r with
    | error e => simp [Safe]
    | ok request =>
      have key := dispatch_error_iff cl f mat peer repo request
      constructor
      · rintro ⟨r, hw, -, hsafe⟩ request' rest' hready
        obtain ⟨rfl, -⟩ : request = request' ∧ rest = rest' := by simpa using hready
        rw [← key]
        intro message hm
        obtain rfl : (dispatch cl f mat peer repo request).1 = r := by simpa using hw
        exact hsafe message hm
      · intro h
        refine ⟨_, rfl, fun e he => ?_, key.mpr (h request rest rfl)⟩
        -- the result is that of the write
        cases hw : writeResponse io (dispatch cl f mat peer repo request).1 with
        | error we => exact ⟨we, rfl⟩
        | ok u => simp [hw] at he

/-! ### A torn submission -/

/-- A submission that a client may send. -/
def question : SubmitIssue := ⟨"Need answer X", "Question body here.", [], "repo-a", "uuid-1", []⟩

/-- The first label of the new issue cannot be written. -/
def labelFault : Faults
  | .addLabel 0 => some "disk I/O error"
  | _ => none

/-- **The issue stays.** The label transaction fails: the response is an error, and the database
holds an issue without labels that it did not hold before. -/
theorem torn_submission : ∃ c, handleConnection ⟨fun _ => "", fun _ => ""⟩ (sorted fun _ => "uuid-2")
      labelFault (fun _ => .error "") none "repo-a"
      ⟨frame Postcard.clientRequest (.submit question), some .unexpectedEof⟩ ⟨Db.empty, []⟩ = some c ∧
    c.writes = [.error "applying labels: disk I/O error"] ∧
    c.repo.db.issues.map (fun i => (i.id, i.title, i.labels)) = [(1, "Need answer X", ∅)] ∧
    ¬ AnsweredSafely ⟨fun _ => "", fun _ => ""⟩ (sorted fun _ => "uuid-2") labelFault
      (fun _ => .error "") none "repo-a"
      ⟨frame Postcard.clientRequest (.submit question), some .unexpectedEof⟩ ⟨Db.empty, []⟩ := by
  refine ⟨_, rfl, by decide, by decide, ?_⟩
  rintro ⟨r, hw, -, hsafe⟩
  obtain rfl : _ = r := by simpa using hw
  have h := hsafe _ rfl
  revert h
  decide

end Crossbridge.Server
