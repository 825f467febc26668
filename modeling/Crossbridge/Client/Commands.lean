import Crossbridge.Lib.Path
import Crossbridge.Client.Labels
import Crossbridge.Crosslink.Db

/-!
The commands of the client that talk to a peer: `submit_cmd` and `answer_cmd`.

Each command reads the local database, makes a request and sends it to the socket of a peer
(`submitRequest`, `answerRequest`), and, when the response is a success, writes to the local
database (`submitFinish`, `answerFinish`).
-/

namespace Crossbridge.Client

open Crossbridge.Protocol Crossbridge.Crosslink

/-- The directory with the sockets of the peers of a repo. -/
def socketDir (root : Path) (own : String) : Path := Path.join root own

/-- The socket of a peer. -/
def socketPath (root : Path) (own peer : String) : Path :=
  Path.join (socketDir root own) (peer ++ ".socket")

/-- What the environment of a command has: the socket root, and which paths exist. -/
structure Env where
  root : Path
  fileExists : Path → Bool

/-- A request, the peer it is for and the socket it goes to. -/
structure Outgoing (α : Type) where
  peer : String
  socket : Path
  request : α

/-- `submit_cmd` up to the request. -/
def submitRequest (env : Env) (cl : Choices) (db : Db) (own : String) (id : IssueId)
    (target : String) : Except String (Outgoing SubmitIssue) :=
  match db.getIssue id with
  | none => .error ("issue #" ++ toString id ++ " not found")
  | some issue =>
    if env.fileExists (socketPath env.root own target) then
      .ok {
        peer := target
        socket := socketPath env.root own target
        request := {
          title := issue.title
          body := issue.description.getD ""
          labels := db.getLabels cl id
          sourceSlug := own
          sourceUuid := issue.uuid
          attachments := [] } }
    else .error ("peer '" ++ target ++ "' not available (not connected)")

/-- `submit_cmd` after a success: the three labels of an outbound issue. -/
def submitFinish (db : Db) (id : IssueId) (uuid : String) : Db :=
  ((db.addLabel id outbound).addLabel id statusPending).addLabel id (refLabel uuid)

/-- `answer_cmd` up to the request. -/
def answerRequest (env : Env) (cl : Choices) (db : Db) (own : String) (id : IssueId) :
    Except String (Outgoing SubmitAnswer) :=
  match db.getIssue id with
  | none => .error ("issue #" ++ toString id ++ " not found")
  | some _ =>
    let labels := db.getLabels cl id
    if has labels inbound then
      match findPrefixed labels sourcePrefix with
      | none => .error ("issue #" ++ toString id ++ " is missing required label '" ++ sourcePrefix ++
          "<slug>'")
      | some slug =>
        match findPrefixed labels refPrefix with
        | none => .error ("issue #" ++ toString id ++ " is missing required label '" ++ refPrefix ++
            "<uuid>'")
        | some uuid =>
          if env.fileExists (socketPath env.root own slug) then
            .ok {
              peer := slug
              socket := socketPath env.root own slug
              request := {
                sourceUuid := uuid
                comments := ((db.getComments id).filter fun c => c.kind = "result").map fun c =>
                  ⟨c.content, c.kind⟩
                attachments := [] } }
          else .error ("peer '" ++ slug ++ "' not available (not connected)")
    else .error ("issue #" ++ toString id ++ " is not an inbound crossbridge issue")

/-- `answer_cmd` after a success. -/
def answerFinish (db : Db) (id : IssueId) : Db := (db.addLabel id statusAnswered).closeIssue id

/-! ### What the commands send -/

section Requests

variable {env : Env} {cl : Choices} {db : Db} {own target : String} {id : IssueId} {i : Issue}

lemma submitRequest_ok {out : Outgoing SubmitIssue}
    (h : submitRequest env cl db own id target = .ok out) :
    ∃ i, db.getIssue id = some i ∧ out.request.sourceSlug = own ∧ out.request.sourceUuid = i.uuid ∧
      ∀ l, l ∈ out.request.labels ↔ l ∈ i.labels := by
  unfold submitRequest at h
  split at h
  · cases h
  · rename_i i hi
    split at h
    · obtain rfl := Except.ok.inj h
      exact ⟨i, hi, rfl, rfl, fun l => Db.mem_getLabels hi⟩
    · cases h

lemma answerRequest_ok {out : Outgoing SubmitAnswer} (hi : db.getIssue id = some i)
    (h : answerRequest env cl db own id = .ok out) :
    findPrefixed (db.getLabels cl id) sourcePrefix = some out.peer ∧
      findPrefixed (db.getLabels cl id) refPrefix = some out.request.sourceUuid := by
  unfold answerRequest at h
  rw [hi] at h
  simp only at h
  split at h
  · split at h
    · cases h
    · rename_i slug hslug
      split at h
      · cases h
      · rename_i uuid huuid
        split at h
        · obtain rfl := Except.ok.inj h
          exact ⟨hslug, huuid⟩
        · cases h
  · cases h

/-- Only an inbound issue is answered. -/
lemma inbound_of_answerRequest {out : Outgoing SubmitAnswer}
    (h : answerRequest env cl db own id = .ok out) : ∃ i, db.getIssue id = some i ∧ inbound ∈ i.labels := by
  unfold answerRequest at h
  split at h
  · cases h
  · rename_i i hi
    simp only at h
    split at h
    · rename_i hhas
      exact ⟨i, hi, (Db.mem_getLabels hi).mp (has_iff.mp hhas)⟩
    · cases h

/-- A submission has no attachments. -/
lemma attachments_of_submitRequest {out : Outgoing SubmitIssue}
    (h : submitRequest env cl db own id target = .ok out) : out.request.attachments = [] := by
  unfold submitRequest at h
  split at h
  · cases h
  · split at h
    · obtain rfl := Except.ok.inj h
      rfl
    · cases h

/-- What is answered: the result comments of an inbound issue, for a source and a reference of it. -/
lemma issue_of_answerRequest {out : Outgoing SubmitAnswer}
    (h : answerRequest env cl db own id = .ok out) :
    ∃ i, db.getIssue id = some i ∧ inbound ∈ i.labels ∧ sourcePrefix ++ out.peer ∈ i.labels ∧
      refLabel out.request.sourceUuid ∈ i.labels ∧ out.request.attachments = [] ∧
      out.request.comments = (i.comments.filter fun c => c.kind = "result").map fun c =>
        ⟨c.content, c.kind⟩ := by
  obtain ⟨i, hi, hin⟩ := inbound_of_answerRequest h
  obtain ⟨hsource, href⟩ := answerRequest_ok hi h
  refine ⟨i, hi, hin, (Db.mem_getLabels hi).mp (mem_of_findPrefixed hsource),
    (Db.mem_getLabels hi).mp (mem_of_findPrefixed href), ?_⟩
  unfold answerRequest at h
  rw [hi] at h
  simp only at h
  split at h
  · split at h
    · cases h
    · split at h
      · cases h
      · split at h
        · obtain rfl := Except.ok.inj h
          refine ⟨rfl, ?_⟩
          simp only [Db.getComments, hi]
        · cases h
  · cases h

/-- **An inbound issue** with one source and one reference is answered to them. -/
theorem answerRequest_of_unique (cl : Choices) (hi : db.getIssue id = some i)
    (hin : inbound ∈ i.labels) {slug uuid : String} (hslug : sourcePrefix ++ slug ∈ i.labels)
    (hslugs : ∀ x, sourcePrefix ++ x ∈ i.labels → x = slug) (huuid : refLabel uuid ∈ i.labels)
    (huuids : ∀ v, refLabel v ∈ i.labels → v = uuid)
    (hsock : env.fileExists (socketPath env.root own slug) = true) :
    ∃ out, answerRequest env cl db own id = .ok out ∧ out.peer = slug ∧
      out.socket = socketPath env.root own slug ∧ out.request.sourceUuid = uuid := by
  have hmem : ∀ l, l ∈ db.getLabels cl id ↔ l ∈ i.labels := fun l => Db.mem_getLabels hi
  have hhas : has (db.getLabels cl id) inbound = true := has_iff.mpr ((hmem _).mpr hin)
  have hs : findPrefixed (db.getLabels cl id) sourcePrefix = some slug :=
    findPrefixed_of_unique ((hmem _).mpr hslug) fun w hw => hslugs w ((hmem _).mp hw)
  have hr : findPrefixed (db.getLabels cl id) refPrefix = some uuid :=
    findPrefixed_of_unique ((hmem _).mpr huuid) fun w hw => huuids w ((hmem _).mp hw)
  unfold answerRequest
  rw [hi]
  simp only [hhas, if_true, hs, hr, hsock]
  exact ⟨_, rfl, rfl, rfl, rfl⟩

end Requests

/-- The three labels of an outbound issue, and nothing else. -/
lemma getIssue_submitFinish {db : Db} {id : IssueId} {i : Issue} (h : db.getIssue id = some i)
    (uuid : String) : (submitFinish db id uuid).getIssue id = some { i with
      labels := insert (refLabel uuid) (insert statusPending (insert outbound i.labels)) } := by
  unfold submitFinish Db.addLabel
  rw [Db.getIssue_modify_self (Db.getIssue_modify_self (Db.getIssue_modify_self h))]
  rw [← Db.id_of_getIssue h]

end Crossbridge.Client
