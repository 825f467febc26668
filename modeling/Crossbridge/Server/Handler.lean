import Crossbridge.Crosslink.Db
import Crossbridge.Protocol.Framing

/-!
The handlers of client requests: `handle_submit`, `handle_answer` and `handle_connection`.

A handler maps the repo it starts from to the one it leaves, on failure as well. Every call into
crosslink can fail, and each is named by where it stands in a handler (`Site`), so that a pattern of
failures is a function of the site. A read has no effect, a write that fails has none, and
`transaction` forgets what its body did when the body or the commit fails.
-/

namespace Crossbridge.Server

open Crossbridge.Protocol Crossbridge.Crosslink

/-! ### The calls into crosslink -/

/-- The places in the handlers where crosslink is called; those in a loop are numbered. -/
inductive Site where
  | listIssues (status : String)
  | createIssue
  | begin
  | addLabel (k : ℕ)
  | addComment (k : ℕ)
  | getLabels
  | removePending
  | addResolved
  | commit
  | noteComment
  | getComments
  | getIssue
  | closeIssue
  deriving DecidableEq, Repr

/-- Which calls fail, and the text of their errors. -/
abbrev Faults := Site → Option String

/-- No call fails. -/
def noFaults : Faults := fun _ => none

@[simp] lemma noFaults_apply (site : Site) : noFaults site = none := rfl

/-- `db.transaction`: the body takes effect as a whole or not at all. -/
def transaction (f : Faults) (body : Db → Except String Db) (db : Db) : Except String Db :=
  match f .begin with
  | some e => .error e
  | none =>
    match body db with
    | .error e => .error e
    | .ok db' =>
      match f .commit with
      | some e => .error e
      | none => .ok db'

/-- A loop of writes that stops at the first failure; `k` counts the calls. -/
def writeEach (f : Faults) (site : ℕ → Site) (write : String → Db → Db) :
    ℕ → List String → Db → Except String Db
  | _, [], db => .ok db
  | k, x :: xs, db =>
    match f (site k) with
    | some e => .error e
    | none => writeEach f site write (k + 1) xs (write x db)

/-! ### Looking for a label -/

/-- The first issue with the label among those with one of the statuses, the statuses in order. -/
def findIn (cl : Choices) (f : Faults) (db : Db) (label : String) :
    List String → Except String (Option IssueId)
  | [] => .ok none
  | status :: rest =>
    match f (.listIssues status) with
    | some e => .error ("listing issues by label " ++ label ++ ": " ++ e)
    | none =>
      match (db.listIssues cl status label).head? with
      | some i => .ok (some i.id)
      | none => findIn cl f db label rest

/-- Search both open and closed issues. -/
def findIssueWithLabel (cl : Choices) (f : Faults) (db : Db) (label : String) :
    Except String (Option IssueId) :=
  findIn cl f db label ["open", "closed"]

/-! ### Attachments -/

/-- What `materialize` produced. -/
structure MaterializedAttachment where
  commitId : String
  filenames : List String
  deriving DecidableEq, Repr

/-- The comment for the attachments of an issue. -/
def formatComment (rec : MaterializedAttachment) : String :=
  "crossbridge: materialized attachment(s) [" ++ ", ".intercalate rec.filenames ++ "] as commit " ++
    rec.commitId

/-- The outcome of `materialize`, which runs `jj`. -/
abbrev Materialize := List Attachment → Except String MaterializedAttachment

/-- A repo: its database, and the lists of attachments handed to `materialize`. -/
structure Repo where
  db : Db
  materialized : List (List Attachment)
  deriving DecidableEq

/-! ### Submit -/

def answerInstructionFooter : String :=
  "\n\n---\nAfter answering, run: `crossbridge-client answer --issue <id>`"

/-- The label that ties an issue to the one it was submitted as. -/
def refLabel (uuid : String) : String := "xb-ref:" ++ uuid

/-- The label that names the repo an issue comes from. -/
def sourceLabel (slug : String) : String := "xb-source:" ++ slug

/-- The labels of an inbound issue: ours, and those of the client that are not among them. -/
def inboundLabels (submit : SubmitIssue) : List String :=
  submit.labels.foldl (fun labels l => if l ∈ labels then labels else labels ++ [l])
    ["type:request", "xb:inbound", "xb-status:open", sourceLabel submit.sourceSlug,
      refLabel submit.sourceUuid]

/-- The labels of a new issue, one by one. -/
def addLabels (f : Faults) (id : IssueId) : List String → Db → Except String Db :=
  writeEach f .addLabel (fun l db => db.addLabel id l) 0

/-- The comment about the attachments of an issue. -/
def attachmentComment (mat : Materialize) (attachments : List Attachment) : String :=
  match mat attachments with
  | .ok rec => formatComment rec
  | .error e => "crossbridge: failed to materialize attachments: " ++ e

/-- The attachments of an issue, if there are any; that the comment fails is only logged. -/
def attach (f : Faults) (mat : Materialize) (id : IssueId) (attachments : List Attachment)
    (repo : Repo) : Repo :=
  if attachments = [] then repo
  else {
    db :=
      match f .noteComment with
      | some _ => repo.db
      | none => repo.db.addComment id ⟨attachmentComment mat attachments, "note"⟩
    materialized := repo.materialized ++ [attachments] }

def handleSubmit (cl : Choices) (f : Faults) (mat : Materialize) (submit : SubmitIssue) (repo : Repo) :
    Except String IssueId × Repo :=
  match findIssueWithLabel cl f repo.db (refLabel submit.sourceUuid) with
  | .error e => (.error e, repo)
  | .ok (some existing) => (.ok existing, repo)
  | .ok none =>
    match f .createIssue with
    | some e => (.error ("creating local issue: " ++ e), repo)
    | none =>
      match repo.db.createIssue cl submit.title (some (submit.body ++ answerInstructionFooter))
          "high" with
      | .error e => (.error ("creating local issue: " ++ e), repo)
      | .ok (id, db) =>
        match transaction f (addLabels f id (inboundLabels submit)) db with
        | .error e => (.error ("applying labels: " ++ e), { repo with db := db })
        | .ok db => (.ok id, attach f mat id submit.attachments { repo with db := db })

/-! ### Answer -/

/-- The result comments of an answer that the issue does not hold yet. -/
def toCopy (peer : String) (answer : SubmitAnswer) (existing : List Comment) : List String :=
  ((answer.comments.filter fun c => c.kind = "result").map fun c =>
    "[from " ++ peer ++ "] " ++ c.content).filter fun c => c ∉ existing.map Comment.content

/-- The comments of an answer, one by one. -/
def addComments (f : Faults) (id : IssueId) : List String → Db → Except String Db :=
  writeEach f .addComment (fun c db => db.addComment id ⟨c, "result"⟩) 0

/-- The body of the transaction of `handle_answer`. -/
def applyAnswer (cl : Choices) (f : Faults) (id : IssueId) (comments : List String) (db : Db) :
    Except String Db := do
  let db ← addComments f id comments db
  let labels ←
    match f .getLabels with
    | some e => .error e
    | none => .ok (db.getLabels cl id)
  let db ←
    if "xb-status:pending" ∈ labels then
      match f .removePending with
      | some e => .error e
      | none => .ok (db.removeLabel id "xb-status:pending")
    else .ok db
  if "xb-status:resolved" ∉ labels then
    match f .addResolved with
    | some e => .error e
    | none => .ok (db.addLabel id "xb-status:resolved")
  else .ok db

/-- The part of `handle_answer` after its transaction. -/
def closeAnswered (f : Faults) (id : IssueId) (db : Db) : Except String IssueId × Db :=
  match f .getIssue with
  | some e => (.error ("loading issue " ++ toString id ++ ": " ++ e), db)
  | none =>
    match db.getIssue id with
    | none => (.error ("issue " ++ toString id ++ " disappeared"), db)
    | some issue =>
      if issue.status ≠ "closed" then
        match f .closeIssue with
        | some e => (.error ("closing issue " ++ toString id ++ ": " ++ e), db)
        | none => (.ok id, db.closeIssue id)
      else (.ok id, db)

def handleAnswer (cl : Choices) (f : Faults) (peer : String) (answer : SubmitAnswer) (db : Db) :
    Except String IssueId × Db :=
  match findIssueWithLabel cl f db (refLabel answer.sourceUuid) with
  | .error e => (.error e, db)
  | .ok none => (.error ("no local issue with label " ++ refLabel answer.sourceUuid), db)
  | .ok (some id) =>
    match f .getComments with
    | some e => (.error ("reading comments: " ++ e), db)
    | none =>
      match transaction f (applyAnswer cl f id (toCopy peer answer (db.getComments id))) db with
      | .error e => (.error ("applying answer: " ++ e), db)
      | .ok db => closeAnswered f id db

/-! ### A connection -/

/-- What a connection led to: the responses handed to `write_message`, the value returned, and the
repo. One that does not fit a frame is handed over as well, and nothing of it goes out. -/
structure Served where
  writes : List ServerResponse
  result : Except String Unit
  repo : Repo

/-- The outcome of writing a response: the failure of the encoding, when it does not fit a frame, or
that of the stream, `io`, if it fails. -/
def writeResponse (io : Option IoErrorKind) (r : ServerResponse) : Except Error Unit :=
  match writeMessage Postcard.serverResponse r with
  | .error e => .error e
  | .ok _ =>
    match io with
    | some kind => .error (.io kind)
    | none => .ok ()

/-- The response for the outcome of a handler. -/
def respond : Except String IssueId → ServerResponse
  | .ok id => .ok id
  | .error e => .error e

/-- The response to a request, and the repo it leaves. -/
def dispatch (cl : Choices) (f : Faults) (mat : Materialize) (peer : String) (repo : Repo) :
    ClientRequest → ServerResponse × Repo
  | .submit submit =>
    let r := handleSubmit cl f mat submit repo
    (respond r.1, r.2)
  | .answer answer =>
    let r := handleAnswer cl f peer answer repo.db
    (respond r.1, { repo with db := r.2 })

/-- A connection on which the client has sent `src`; `none` as long as the request is incomplete and
the client may send more. -/
def handleConnection (t : ErrorTexts) (cl : Choices) (f : Faults) (mat : Materialize)
    (io : Option IoErrorKind) (peer : String) (src : Source) (repo : Repo) : Option Served :=
  match poll Postcard.clientRequest .start src with
  | .pending _ _ => none
  | .ready (.error e) _ =>
    -- the outcome of this write is ignored
    some ⟨[.error ("malformed request: " ++ e.display t)], .ok (), repo⟩
  | .ready (.ok request) _ =>
    let r := dispatch cl f mat peer repo request
    some ⟨[r.1],
      match writeResponse io r.1 with
      | .ok () => .ok ()
      | .error e => .error ("writing response frame: " ++ e.display t), r.2⟩

end Crossbridge.Server
