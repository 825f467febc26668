import Crossbridge.Bridge.Network

/-!
One repo, one database write at a time.

The handlers of its server and the commands of its clients are tasks; a task does one thing at a
time, and between two of them any other task may run. What arrives from peers is arbitrary. A call
that fails, a response that is an error and a crash all end a task (`stop`). The users of the repo
create issues, comment on them, close them and open them again; the labels of crossbridge they leave
alone. `sent` remembers which issues were submitted, and to whom; the repo itself does not.

A handler that runs alone, whatever fails, is a run of this system (`exec_handleSubmit`,
`exec_handleAnswer`).
-/

namespace Crossbridge.Bridge.Local

open Crossbridge.Protocol Crossbridge.Crosslink Crossbridge.Client Crossbridge.Server
open Crossbridge.Runs

/-- A label of crossbridge. -/
def IsXb (l : String) : Prop := "xb".toList <+: l.toList

instance : DecidablePred IsXb := fun _ => by unfold IsXb; infer_instance

/-- A handler or a command that is under way. -/
inductive Task where
  /-- `handle_submit` has created the issue. -/
  | received (id : IssueId) (submit : SubmitIssue)
  /-- It has labelled the issue. -/
  | labelled (id : IssueId) (submit : SubmitIssue)
  /-- `handle_answer` has found the issue, and these comments to copy. -/
  | found (id : IssueId) (answer : SubmitAnswer) (comments : List String)
  /-- Its transaction is done. -/
  | applied (id : IssueId) (answer : SubmitAnswer)
  /-- `submit_cmd` has sent its request. -/
  | submitting (id : IssueId) (target : String) (uuid : String)
  /-- It has read a success, and has these labels to write. -/
  | labelling (id : IssueId) (target : String) (todo : List String)
  /-- `answer_cmd` has sent its request. -/
  | answering (id : IssueId)
  /-- It has read a success and written its label. -/
  | closing (id : IssueId)
  deriving DecidableEq

structure State where
  db : Db
  tasks : List Task
  /-- The issues that were submitted, with the peers. -/
  sent : List (IssueId × String)

/-- Where every run starts. -/
def State.init (db : Db) : State := ⟨db, [], []⟩

/-- A step; `k` is the place of a task. -/
inductive Action where
  | create (cl : Choices) (title : String) (description : Option String) (priority : String)
      (labels : List String)
  | setStatus (id : IssueId) (closed : Bool)
  | comment (id : IssueId) (c : Comment)
  /-- `handle_submit` looks for the issue and creates it. -/
  | handleSubmit (cl : Choices) (submit : SubmitIssue)
  /-- Its transaction. -/
  | label (k : ℕ)
  /-- Its attachments. -/
  | note (k : ℕ) (mat : Materialize)
  /-- `handle_answer` looks for the issue and reads its comments. -/
  | handleAnswer (cl : Choices) (peer : String) (answer : SubmitAnswer)
  /-- Its transaction. -/
  | apply (k : ℕ)
  /-- It closes the issue. -/
  | close (k : ℕ)
  | submit (env : Env) (cl : Choices) (own : String) (id : IssueId) (target : String)
  /-- `submit_cmd` reads a success. -/
  | succeed (k : ℕ)
  | writeLabel (k : ℕ)
  | answer (env : Env) (cl : Choices) (own : String) (id : IssueId)
  /-- `answer_cmd` reads a success, and writes its label. -/
  | writeAnswered (k : ℕ)
  | closeAnswered (k : ℕ)
  | stop (k : ℕ)

def step (y : State) : Action → Option State
  | .create cl title description priority labels =>
    if ∀ l ∈ labels, ¬ IsXb l then
      match y.db.createIssue cl title description priority with
      | .error _ => none
      | .ok (id, db) => some { y with db := addAll db id labels }
    else none
  | .setStatus id closed =>
    some { y with db := y.db.setStatus id (if closed then "closed" else "open") }
  | .comment id c => some { y with db := y.db.addComment id c }
  | .handleSubmit cl submit =>
    match findIssueWithLabel cl noFaults y.db (Server.refLabel submit.sourceUuid) with
    | .ok none =>
      match y.db.createIssue cl submit.title (some (submit.body ++ answerInstructionFooter))
          "high" with
      | .error _ => none
      | .ok (id, db) => some { y with db := db, tasks := y.tasks ++ [.received id submit] }
    | _ => none
  | .label k =>
    match y.tasks[k]? with
    | some (.received id submit) => some { y with
        db := addAll y.db id (inboundLabels submit)
        tasks := y.tasks.set k (.labelled id submit) }
    | _ => none
  | .note k mat =>
    match y.tasks[k]? with
    | some (.labelled id submit) => some { y with
        db := (attach noFaults mat id submit.attachments ⟨y.db, []⟩).db
        tasks := y.tasks.eraseIdx k }
    | _ => none
  | .handleAnswer cl peer answer =>
    match findIssueWithLabel cl noFaults y.db (Server.refLabel answer.sourceUuid) with
    | .ok (some id) => some { y with
        tasks := y.tasks ++ [.found id answer (toCopy peer answer (y.db.getComments id))] }
    | _ => none
  | .apply k =>
    match y.tasks[k]? with
    | some (.found id answer comments) => some { y with
        db := y.db.modify id (answered comments)
        tasks := y.tasks.set k (.applied id answer) }
    | _ => none
  | .close k =>
    match y.tasks[k]? with
    | some (.applied id _) => some { y with
        db := y.db.closeIssue id
        tasks := y.tasks.eraseIdx k }
    | _ => none
  | .submit env cl own id target =>
    match submitRequest env cl y.db own id target with
    | .error _ => none
    | .ok out => some { y with
        tasks := y.tasks ++ [.submitting id target out.request.sourceUuid]
        sent := y.sent ++ [(id, target)] }
  | .succeed k =>
    match y.tasks[k]? with
    | some (.submitting id target uuid) => some { y with
        tasks := y.tasks.set k (.labelling id target (outboundLabels uuid)) }
    | _ => none
  | .writeLabel k =>
    match y.tasks[k]? with
    | some (.labelling id target (l :: todo)) => some { y with
        db := y.db.addLabel id l
        tasks := y.tasks.set k (.labelling id target todo) }
    | _ => none
  | .answer env cl own id =>
    match answerRequest env cl y.db own id with
    | .error _ => none
    | .ok _ => some { y with tasks := y.tasks ++ [.answering id] }
  | .writeAnswered k =>
    match y.tasks[k]? with
    | some (.answering id) => some { y with
        db := y.db.addLabel id statusAnswered
        tasks := y.tasks.set k (.closing id) }
    | _ => none
  | .closeAnswered k =>
    match y.tasks[k]? with
    | some (.closing id) => some { y with
        db := y.db.closeIssue id
        tasks := y.tasks.eraseIdx k }
    | _ => none
  | .stop k => some { y with tasks := y.tasks.eraseIdx k }

/-- What a step finds, and what it leaves. -/
inductive Stepped (y : State) : Action → State → Prop where
  | create {cl title description priority labels id db} : (∀ l ∈ labels, ¬ IsXb l) →
      y.db.createIssue cl title description priority = .ok (id, db) →
      Stepped y (.create cl title description priority labels) { y with db := addAll db id labels }
  | setStatus {id closed} : Stepped y (.setStatus id closed)
      { y with db := y.db.setStatus id (if closed then "closed" else "open") }
  | comment {id c} : Stepped y (.comment id c) { y with db := y.db.addComment id c }
  | handleSubmit {cl submit id db} :
      y.db.createIssue cl submit.title (some (submit.body ++ answerInstructionFooter)) "high" =
        .ok (id, db) →
      Stepped y (.handleSubmit cl submit)
        { y with db := db, tasks := y.tasks ++ [.received id submit] }
  | label {k id submit} : y.tasks[k]? = some (.received id submit) → Stepped y (.label k) { y with
      db := addAll y.db id (inboundLabels submit)
      tasks := y.tasks.set k (.labelled id submit) }
  | note {k mat id submit} : y.tasks[k]? = some (.labelled id submit) → Stepped y (.note k mat) { y with
      db := (attach noFaults mat id submit.attachments ⟨y.db, []⟩).db
      tasks := y.tasks.eraseIdx k }
  | handleAnswer {cl peer answer id} :
      findIssueWithLabel cl noFaults y.db (Server.refLabel answer.sourceUuid) = .ok (some id) →
      Stepped y (.handleAnswer cl peer answer) { y with
        tasks := y.tasks ++ [.found id answer (toCopy peer answer (y.db.getComments id))] }
  | apply {k id answer comments} : y.tasks[k]? = some (.found id answer comments) →
      Stepped y (.apply k) { y with
        db := y.db.modify id (answered comments)
        tasks := y.tasks.set k (.applied id answer) }
  | close {k id answer} : y.tasks[k]? = some (.applied id answer) → Stepped y (.close k) { y with
      db := y.db.closeIssue id
      tasks := y.tasks.eraseIdx k }
  | submit {env cl own id target out} : submitRequest env cl y.db own id target = .ok out →
      Stepped y (.submit env cl own id target) { y with
        tasks := y.tasks ++ [.submitting id target out.request.sourceUuid]
        sent := y.sent ++ [(id, target)] }
  | succeed {k id target uuid} : y.tasks[k]? = some (.submitting id target uuid) →
      Stepped y (.succeed k) { y with
        tasks := y.tasks.set k (.labelling id target (outboundLabels uuid)) }
  | writeLabel {k id target l todo} : y.tasks[k]? = some (.labelling id target (l :: todo)) →
      Stepped y (.writeLabel k) { y with
        db := y.db.addLabel id l
        tasks := y.tasks.set k (.labelling id target todo) }
  | answer {env cl own id out} : answerRequest env cl y.db own id = .ok out →
      Stepped y (.answer env cl own id) { y with tasks := y.tasks ++ [.answering id] }
  | writeAnswered {k id} : y.tasks[k]? = some (.answering id) → Stepped y (.writeAnswered k) { y with
      db := y.db.addLabel id statusAnswered
      tasks := y.tasks.set k (.closing id) }
  | closeAnswered {k id} : y.tasks[k]? = some (.closing id) → Stepped y (.closeAnswered k) { y with
      db := y.db.closeIssue id
      tasks := y.tasks.eraseIdx k }
  | stop {k} : Stepped y (.stop k) { y with tasks := y.tasks.eraseIdx k }

/-- Every step is one of these. -/
theorem stepped_of_step {y y' : State} {a : Action} (h : step y a = some y') : Stepped y a y' := by
  cases a with
  | create | handleSubmit =>
    simp only [step] at h
    split at h
    · split at h
      · cases h
      · obtain rfl := Option.some.inj h
        constructor <;> assumption
    · cases h
  | setStatus | comment | stop =>
    obtain rfl := Option.some.inj h
    constructor
  | submit | answer =>
    simp only [step] at h
    split at h
    · cases h
    · obtain rfl := Option.some.inj h
      constructor
      assumption
  | label | note | handleAnswer | apply | close | succeed | writeLabel | writeAnswered | closeAnswered =>
    simp only [step] at h
    split at h
    · obtain rfl := Option.some.inj h
      constructor
      assumption
    · cases h

/-! ### Handlers and commands that run alone -/

section Alone

variable {cl : Choices} {f : Faults} {mat : Materialize} {db : Db} {label : String}

lemma findIn_of_ok {r : Option IssueId} : ∀ {statuses : List String},
    findIn cl f db label statuses = .ok r → findIn cl noFaults db label statuses = .ok r
  | [], h => h
  | status :: rest, h => by
    rw [findIn] at h ⊢
    simp only [noFaults_apply]
    split at h
    · cases h
    · cases hhead : (db.listIssues cl status label).head? with
      | some i => simpa only [hhead] using h
      | none =>
        simp only [hhead] at h
        exact findIn_of_ok h

/-- What is found although other reads may fail is what is found. -/
lemma find_of_ok {r : Option IssueId} (h : findIssueWithLabel cl f db label = .ok r) :
    findIssueWithLabel cl noFaults db label = .ok r := findIn_of_ok h

/-- A new task is at the end. -/
lemma getElem?_append_singleton (ts : List Task) (t : Task) : (ts ++ [t])[ts.length]? = some t := by
  rw [List.getElem?_append_right le_rfl, Nat.sub_self]
  rfl

lemma set_append_singleton (ts : List Task) (t t' : Task) :
    (ts ++ [t]).set ts.length t' = ts ++ [t'] := by
  rw [List.set_append_right _ _ le_rfl, Nat.sub_self]
  rfl

lemma eraseIdx_append_singleton (ts : List Task) (t : Task) :
    (ts ++ [t]).eraseIdx ts.length = ts := by
  rw [List.eraseIdx_append_of_length_le le_rfl, Nat.sub_self]
  simp

/-- The comment on the attachments comes, or it does not. -/
lemma attach_cases (f : Faults) (mat : Materialize) (id : IssueId) (attachments : List Attachment)
    (repo : Repo) : (attach f mat id attachments repo).db = repo.db ∨
      (attach f mat id attachments repo).db = (attach noFaults mat id attachments ⟨repo.db, []⟩).db := by
  unfold attach
  by_cases hnone : attachments = []
  · rw [if_pos hnone]
    exact Or.inl rfl
  · rw [if_neg hnone, if_neg hnone]
    cases hnote : f .noteComment with
    | some e => exact Or.inl rfl
    | none => exact Or.inr rfl

lemma attach_eq (mat : Materialize) (id : IssueId) (attachments : List Attachment) (db : Db) :
    (attach noFaults mat id attachments ⟨db, []⟩).db = db.modify id fun i => { i with
      comments := i.comments ++
        if attachments = [] then [] else [⟨attachmentComment mat attachments, "note"⟩] } := by
  unfold attach
  split
  · rw [Db.modify_eq_self]
    intro i _ _
    simp
  · rfl

/-- **`handle_submit` alone**, whatever fails: what it leaves is what some of its steps lead to. -/
theorem exec_handleSubmit (cl : Choices) (f : Faults) (mat : Materialize) (submit : SubmitIssue)
    (y : State) (repo : Repo) (hrepo : repo.db = y.db) : ∃ as,
    exec step y as = some { y with db := (handleSubmit cl f mat submit repo).2.db } := by
  have hstay : ∃ as, exec step y as = some { y with db := repo.db } := ⟨[], by rw [hrepo]; rfl⟩
  unfold handleSubmit
  cases hfind : findIssueWithLabel cl f repo.db (Server.refLabel submit.sourceUuid) with
  | error e => exact hstay
  | ok r =>
    cases r with
    | some id => exact hstay
    | none =>
      cases hcreate : f .createIssue with
      | some e => exact hstay
      | none =>
        simp only
        cases hnew : repo.db.createIssue cl submit.title
            (some (submit.body ++ answerInstructionFooter)) "high" with
        | error e => exact hstay
        | ok r =>
          obtain ⟨id, db⟩ := r
          simp only
          have hfirst : step y (.handleSubmit cl submit) =
              some { y with db := db, tasks := y.tasks ++ [.received id submit] } := by
            rw [hrepo] at hfind hnew
            simp only [step, find_of_ok hfind, hnew]
          by_cases hok : SubmitTxOk f submit
          · rw [submitTx_ok hok]
            rcases attach_cases f mat id submit.attachments
              { repo with db := addAll db id (inboundLabels submit) } with hnote | hnote
            · refine ⟨[.handleSubmit cl submit, .label y.tasks.length, .stop y.tasks.length], ?_⟩
              rw [exec_cons, hfirst, Option.bind_some]
              simp only [exec_cons, step, getElem?_append_singleton, set_append_singleton,
                eraseIdx_append_singleton, hnote, Option.bind_some, exec_nil]
            · refine ⟨[.handleSubmit cl submit, .label y.tasks.length, .note y.tasks.length mat], ?_⟩
              rw [exec_cons, hfirst, Option.bind_some]
              simp only [exec_cons, step, getElem?_append_singleton, set_append_singleton,
                eraseIdx_append_singleton, hnote, Option.bind_some, exec_nil]
          · obtain ⟨e, he⟩ := submitTx_error id db hok
            rw [he]
            refine ⟨[.handleSubmit cl submit, .stop y.tasks.length], ?_⟩
            rw [exec_cons, hfirst, Option.bind_some]
            simp only [exec_cons, step, eraseIdx_append_singleton, Option.bind_some, exec_nil]

/-- **`handle_answer` alone**, likewise. -/
theorem exec_handleAnswer (cl : Choices) (f : Faults) (peer : String) (answer : SubmitAnswer)
    (y : State) : ∃ as,
    exec step y as = some { y with db := (handleAnswer cl f peer answer y.db).2 } := by
  have hstay : ∃ as, exec step y as = some y := ⟨[], rfl⟩
  unfold handleAnswer
  cases hfind : findIssueWithLabel cl f y.db (Server.refLabel answer.sourceUuid) with
  | error e => exact hstay
  | ok r =>
    cases r with
    | none => exact hstay
    | some id =>
      cases hread : f .getComments with
      | some e => exact hstay
      | none =>
        obtain ⟨i, hi, -, -⟩ := find_some hfind
        have hfirst : step y (.handleAnswer cl peer answer) = some { y with
            tasks := y.tasks ++ [.found id answer (toCopy peer answer (y.db.getComments id))] } := by
          simp only [step, find_of_ok hfind]
        simp only
        by_cases hok : AnswerTxOk f (toCopy peer answer (y.db.getComments id)) i.labels
        · rw [answerTx_ok hi hok]
          have hi' := Db.getIssue_modify_self
            (g := answered (toCopy peer answer (y.db.getComments id))) hi
          by_cases hclose : CloseOk f i.status
          · refine ⟨[.handleAnswer cl peer answer, .apply y.tasks.length, .close y.tasks.length], ?_⟩
            have hclosed := closeAnswered_ok (f := f) hi' hclose
            rw [exec_cons, hfirst, Option.bind_some]
            simp only [exec_cons, step, getElem?_append_singleton, set_append_singleton,
              eraseIdx_append_singleton, hclosed, Option.bind_some, exec_nil]
          · refine ⟨[.handleAnswer cl peer answer, .apply y.tasks.length, .stop y.tasks.length], ?_⟩
            obtain ⟨e, hopen⟩ := closeAnswered_error (f := f) hi' hclose
            rw [exec_cons, hfirst, Option.bind_some]
            simp only [exec_cons, step, getElem?_append_singleton, set_append_singleton,
              eraseIdx_append_singleton, hopen, Option.bind_some, exec_nil]
        · obtain ⟨e, he⟩ := answerTx_error cl hi hok
          rw [he]
          exact hstay

/-- **`submit_cmd` alone**, when the response is a success. -/
theorem exec_submitCmd {env : Env} {own target : String} {id : IssueId} {y : State}
    {out : Outgoing SubmitIssue} (h : submitRequest env cl y.db own id target = .ok out) : ∃ as,
    exec step y as = some { y with
      db := submitFinish y.db id out.request.sourceUuid
      sent := y.sent ++ [(id, target)] } := by
  refine ⟨[.submit env cl own id target, .succeed y.tasks.length, .writeLabel y.tasks.length,
    .writeLabel y.tasks.length, .writeLabel y.tasks.length, .stop y.tasks.length], ?_⟩
  simp only [exec_cons, step, h, getElem?_append_singleton, set_append_singleton,
    eraseIdx_append_singleton, Option.bind_some, exec_nil, outboundLabels, submitFinish]

/-- **`answer_cmd` alone**, likewise. -/
theorem exec_answerCmd {env : Env} {own : String} {id : IssueId} {y : State}
    {out : Outgoing SubmitAnswer} (h : answerRequest env cl y.db own id = .ok out) : ∃ as,
    exec step y as = some { y with db := answerFinish y.db id } := by
  refine ⟨[.answer env cl own id, .writeAnswered y.tasks.length, .closeAnswered y.tasks.length], ?_⟩
  simp only [exec_cons, step, h, getElem?_append_singleton, set_append_singleton,
    eraseIdx_append_singleton, Option.bind_some, exec_nil, answerFinish]

end Alone

/-! ### What every run keeps -/

/-- Issues stay, and so do their labels, `xb-status:pending` apart. -/
def Grows (db db' : Db) : Prop :=
  ∀ id i, db.getIssue id = some i → ∃ i', db'.getIssue id = some i' ∧
    ∀ l ∈ i.labels, l ≠ statusPending → l ∈ i'.labels

/-- A reference is on an issue that was received, or on one that was submitted; and what was received
stays open in its labels. -/
structure IssueOk (sent : List (IssueId × String)) (i : Issue) : Prop where
  refs : ∀ u, Server.refLabel u ∈ i.labels →
    inbound ∈ i.labels ∨ outbound ∈ i.labels ∧ ∃ p, (i.id, p) ∈ sent
  opened : inbound ∈ i.labels → "xb-status:open" ∈ i.labels

/-- What a task has found or written is there. -/
def TaskOk (y : State) : Task → Prop
  | .received id _ => ∃ i, y.db.getIssue id = some i
  | .labelled _ _ => True
  | .found id answer _ | .applied id answer =>
    ∃ i, y.db.getIssue id = some i ∧ Server.refLabel answer.sourceUuid ∈ i.labels
  | .submitting id target _ => (id, target) ∈ y.sent ∧ ∃ i, y.db.getIssue id = some i
  | .labelling id target todo => (id, target) ∈ y.sent ∧ ∃ i uuid, y.db.getIssue id = some i ∧
    todo <:+ outboundLabels uuid ∧ (outbound ∉ todo → outbound ∈ i.labels)
  | .answering id => ∃ i, y.db.getIssue id = some i ∧ inbound ∈ i.labels
  | .closing _ => True

structure Inv (y : State) : Prop where
  issues : ∀ i ∈ y.db.issues, IssueOk y.sent i
  tasks : ∀ t ∈ y.tasks, TaskOk y t

section Inv

variable {y y' : State} {db db' : Db} {id : IssueId} {g : Issue → Issue} {t : Task} {k : ℕ}

lemma Grows.refl (db : Db) : Grows db db := fun _ i h => ⟨i, h, fun _ hl _ => hl⟩

lemma grows_modify (h : ∀ i, db.getIssue id = some i → ∀ l ∈ i.labels, l ≠ statusPending →
    l ∈ (g i).labels) : Grows db (db.modify id g) := by
  intro id' i hi
  by_cases hid : id' = id
  · subst hid
    exact ⟨_, Db.getIssue_modify_self hi, h i hi⟩
  · exact ⟨i, by rw [Db.getIssue_modify_of_ne hid, hi], fun _ hl _ => hl⟩

lemma grows_append {i : Issue} (h : db'.issues = db.issues ++ [i]) : Grows db db' := by
  intro id j hj
  refine ⟨j, ?_, fun _ hl _ => hl⟩
  rw [Db.getIssue_eq_some] at hj ⊢
  rw [h]
  exact ⟨List.mem_append_left _ hj.1, hj.2⟩

lemma TaskOk.mono (h : TaskOk y t) (hdb : Grows y.db y'.db) (hsent : y.sent ⊆ y'.sent) :
    TaskOk y' t := by
  have hlabel : ∀ {id : IssueId} {l : String}, l ≠ statusPending →
      (∃ i, y.db.getIssue id = some i ∧ l ∈ i.labels) →
        ∃ i, y'.db.getIssue id = some i ∧ l ∈ i.labels := by
    rintro id l hl ⟨i, hi, hmem⟩
    obtain ⟨i', hi', hkept⟩ := hdb id i hi
    exact ⟨i', hi', hkept l hmem hl⟩
  cases t with
  | received id submit =>
    obtain ⟨i, hi⟩ := h
    obtain ⟨i', hi', -⟩ := hdb id i hi
    exact ⟨i', hi'⟩
  | labelled | closing => trivial
  | found id answer comments | applied id answer =>
    have hne : Server.refLabel answer.sourceUuid ≠ statusPending := refLabel_ne_of_prefix (by decide)
    exact hlabel hne h
  | submitting id target uuid =>
    obtain ⟨hs, i, hi⟩ := h
    obtain ⟨i', hi', -⟩ := hdb id i hi
    exact ⟨hsent hs, i', hi'⟩
  | labelling id target todo =>
    obtain ⟨hs, i, uuid, hi, htodo, hout⟩ := h
    obtain ⟨i', hi', hkept⟩ := hdb id i hi
    exact ⟨hsent hs, i', uuid, hi', htodo, fun h => hkept _ (hout h) (by decide)⟩
  | answering id => exact hlabel (by decide) h

lemma issueOk_of_not_xb {sent : List (IssueId × String)} {i : Issue} (h : ∀ l ∈ i.labels, ¬ IsXb l) :
    IssueOk sent i where
  refs u hu := absurd (by unfold IsXb Server.refLabel; simp) (h _ hu)
  opened hin := absurd (by decide) (h _ hin)

lemma inv_init (h : ∀ i ∈ db.issues, ∀ l ∈ i.labels, ¬ IsXb l) : Inv (State.init db) where
  issues i hi := issueOk_of_not_xb (h i hi)
  tasks t ht := by cases ht

/-- An issue with the same labels, or with one more that is no reference. -/
lemma IssueOk.of_labels {sent sent' : List (IssueId × String)} {i i' : Issue} (h : IssueOk sent i)
    (hid : i'.id = i.id) (hsent : sent ⊆ sent')
    (hold : ∀ l ∈ i.labels, l ≠ statusPending → l ∈ i'.labels)
    (hnew : ∀ u, Server.refLabel u ∈ i'.labels → Server.refLabel u ∈ i.labels)
    (hin : inbound ∈ i'.labels → inbound ∈ i.labels) : IssueOk sent' i' where
  refs u hu := by
    rcases h.refs u (hnew u hu) with hin | ⟨hout, p, hp⟩
    · exact Or.inl (hold _ hin (by decide))
    · exact Or.inr ⟨hold _ hout (by decide), p, hid ▸ hsent hp⟩
  opened hin' := hold _ (h.opened (hin hin')) (by decide)

/-- A step that keeps the issues in order, and has one task at most that is new. -/
lemma Inv.mk_step (h : Inv y) (hgrow : Grows y.db y'.db) (hsent : y.sent ⊆ y'.sent)
    (hissues : ∀ i ∈ y'.db.issues, IssueOk y'.sent i)
    (htasks : ∀ t ∈ y'.tasks, t ∈ y.tasks ∨ TaskOk y' t) : Inv y' where
  issues := hissues
  tasks t ht := (htasks t ht).elim (fun hold => (h.tasks t hold).mono hgrow hsent) id

/-- A change of one issue that leaves its labels alone. -/
lemma Inv.quiet (h : Inv y) (hdb : y'.db = y.db.modify id g) (hg : ∀ i, (g i).labels = i.labels)
    (hsent : y'.sent = y.sent) (htasks : ∀ t ∈ y'.tasks, t ∈ y.tasks ∨ TaskOk y' t) : Inv y' := by
  refine h.mk_step ?_ (by rw [hsent]; exact List.Subset.refl _) ?_ htasks
  · rw [hdb]
    exact grows_modify fun i _ l hl _ => by rwa [hg]
  · rw [hdb, hsent]
    refine Db.forall_modify h.issues fun i hi hok => hok.of_labels (Db.id_of_getIssue hi).symm
      (List.Subset.refl _) ?_ ?_ ?_
    · intro l hl _
      rwa [← hg] at hl
    · intro u hu
      rwa [← hg]
    · intro hin
      rwa [← hg]

/-- A label that is none of those that are looked for. -/
lemma Inv.mark (h : Inv y) {l : String} (hdb : y'.db = y.db.addLabel id l)
    (href : ∀ u, Server.refLabel u ≠ l) (hin : inbound ≠ l) (hsent : y'.sent = y.sent)
    (htasks : ∀ t ∈ y'.tasks, t ∈ y.tasks ∨ TaskOk y' t) : Inv y' := by
  refine h.mk_step ?_ (by rw [hsent]; exact List.Subset.refl _) ?_ htasks
  · rw [hdb]
    exact grows_modify fun i _ l hl _ => Finset.mem_insert_of_mem hl
  · rw [hdb, hsent]
    refine Db.forall_modify h.issues fun i hi hok => hok.of_labels (Db.id_of_getIssue hi).symm
      (List.Subset.refl _) (fun l hl _ => Finset.mem_insert_of_mem hl) ?_ ?_
    · exact fun u hu => (Finset.mem_insert.mp hu).resolve_left (href u)
    · exact fun hu => (Finset.mem_insert.mp hu).resolve_left hin

lemma mem_append_task {t' : Task} (hnew : TaskOk y' t') :
    ∀ t ∈ y.tasks ++ [t'], t ∈ y.tasks ∨ TaskOk y' t := by
  intro t ht
  rcases List.mem_append.mp ht with ht | ht
  · exact Or.inl ht
  · exact Or.inr (List.mem_singleton.mp ht ▸ hnew)

lemma mem_set_task {t' : Task} (hnew : TaskOk y' t') :
    ∀ t ∈ y.tasks.set k t', t ∈ y.tasks ∨ TaskOk y' t := by
  intro t ht
  rcases List.mem_or_eq_of_mem_set ht with ht | rfl
  · exact Or.inl ht
  · exact Or.inr hnew

lemma mem_erase_task : ∀ t ∈ y.tasks.eraseIdx k, t ∈ y.tasks ∨ TaskOk y' t :=
  fun _ ht => Or.inl (List.mem_of_mem_eraseIdx ht)

/-- **The transaction of `handle_submit`** labels an issue as received. -/
lemma Inv.label (h : Inv y) {submit : SubmitIssue} (hdb : y'.db = addAll y.db id (inboundLabels submit))
    (hsent : y'.sent = y.sent) (htasks : ∀ t ∈ y'.tasks, t ∈ y.tasks ∨ TaskOk y' t) : Inv y' := by
  have hmem : ∀ l ∈ inboundLabels submit, ∀ i : Issue,
      l ∈ i.labels ∪ (inboundLabels submit).toFinset := fun l hl i =>
    Finset.mem_union_right _ (List.mem_toFinset.mpr hl)
  have hin : inbound ∈ inboundLabels submit := mem_inboundLabels.mpr (Or.inl (by simp [inbound]))
  have hopen : "xb-status:open" ∈ inboundLabels submit := mem_inboundLabels.mpr (Or.inl (by simp))
  refine h.mk_step ?_ (by rw [hsent]; exact List.Subset.refl _) ?_ htasks
  · rw [hdb]
    exact grows_modify fun i _ l hl _ => Finset.mem_union_left _ hl
  · rw [hdb, hsent]
    exact Db.forall_modify h.issues fun i _ _ =>
      ⟨fun _ _ => Or.inl (hmem _ hin i), fun _ => hmem _ hopen i⟩

/-- **The transaction of `handle_answer`** takes one label away, and adds another. -/
lemma Inv.apply (h : Inv y) {comments : List String} (hdb : y'.db = y.db.modify id (answered comments))
    (hsent : y'.sent = y.sent) (htasks : ∀ t ∈ y'.tasks, t ∈ y.tasks ∨ TaskOk y' t) : Inv y' := by
  have hkept : ∀ i : Issue, ∀ l ∈ i.labels, l ≠ statusPending → l ∈ (answered comments i).labels :=
    fun i l hl hne => Finset.mem_insert_of_mem (Finset.mem_erase.mpr ⟨hne, hl⟩)
  refine h.mk_step ?_ (by rw [hsent]; exact List.Subset.refl _) ?_ htasks
  · rw [hdb]
    exact grows_modify fun i _ => hkept i
  · rw [hdb, hsent]
    refine Db.forall_modify h.issues fun i hi hok => hok.of_labels (Db.id_of_getIssue hi).symm
      (List.Subset.refl _) (hkept i) (fun u hu => (refLabel_mem_answered comments).mp hu) fun hin => ?_
    exact Finset.mem_of_mem_erase ((Finset.mem_insert.mp hin).resolve_left (by decide))

/-- The labels of `submit_cmd` that are left: the reference comes last. -/
lemma head_outboundLabels {l uuid : String} {todo : List String} (h : l :: todo <:+ outboundLabels uuid) :
    (l = outbound ∧ todo = [statusPending, Client.refLabel uuid]) ∨
      (l = statusPending ∧ todo = [Client.refLabel uuid]) ∨ l = Client.refLabel uuid ∧ todo = [] := by
  obtain ⟨pre, hpre⟩ := h
  unfold outboundLabels at hpre
  rcases pre with _ | ⟨a, _ | ⟨b, _ | ⟨c, pre⟩⟩⟩
  · exact Or.inl (List.cons.inj hpre)
  · exact Or.inr (Or.inl (List.cons.inj (List.cons.inj hpre).2))
  · exact Or.inr (Or.inr (List.cons.inj (List.cons.inj (List.cons.inj hpre).2).2))
  · simp at hpre

/-- **`submit_cmd` writes a label.** -/
lemma Inv.writeLabel (h : Inv y) {target l : String} {todo : List String}
    (hk : y.tasks[k]? = some (.labelling id target (l :: todo))) (hdb : y'.db = y.db.addLabel id l)
    (hsent : y'.sent = y.sent) (htasks : y'.tasks = y.tasks.set k (.labelling id target todo)) :
    Inv y' := by
  obtain ⟨hs, i, uuid, hi, htodo, hout⟩ := h.tasks _ (List.mem_of_getElem? hk)
  have hi' : y'.db.getIssue id = some { i with labels := insert l i.labels } := by
    rw [hdb, Db.addLabel, Db.getIssue_modify_self hi, ← Db.id_of_getIssue hi]
  have htask : TaskOk y' (.labelling id target todo) := by
    refine ⟨hsent ▸ hs, _, uuid, hi', (List.suffix_cons l todo).trans htodo, fun hnot => ?_⟩
    by_cases hl : outbound = l
    · exact hl ▸ Finset.mem_insert_self _ _
    · refine Finset.mem_insert_of_mem (hout fun hmem => ?_)
      exact (List.mem_cons.mp hmem).elim hl hnot
  have htasks' : ∀ t ∈ y'.tasks, t ∈ y.tasks ∨ TaskOk y' t := by
    rw [htasks]
    exact mem_set_task htask
  rcases head_outboundLabels htodo with ⟨rfl, -⟩ | ⟨rfl, -⟩ | ⟨rfl, rfl⟩
  · exact h.mark hdb (fun u => refLabel_ne_of_prefix (by decide)) (by decide) hsent htasks'
  · exact h.mark hdb (fun u => refLabel_ne_of_prefix (by decide)) (by decide) hsent htasks'
  · have hwritten : outbound ∈ i.labels := by
      refine hout fun hmem => ?_
      exact refLabel_ne_of_prefix (by decide) (List.mem_singleton.mp hmem).symm
    refine h.mk_step ?_ (by rw [hsent]; exact List.Subset.refl _) ?_ htasks'
    · rw [hdb]
      exact grows_modify fun i _ l hl _ => Finset.mem_insert_of_mem hl
    · rw [hdb, hsent]
      refine Db.forall_modify h.issues fun j hj hok => ⟨fun _ _ => Or.inr ⟨?_, target, hs⟩, fun hin => ?_⟩
      · obtain rfl := Option.some.inj (hi.symm.trans hj)
        exact Finset.mem_insert_of_mem hwritten
      · have hne : Client.refLabel uuid ≠ inbound := refLabel_ne_of_prefix (by decide)
        exact Finset.mem_insert_of_mem (hok.opened ((Finset.mem_insert.mp hin).resolve_left hne.symm))

/-- **One step** keeps the issues and the tasks in order. -/
theorem inv_step {a : Action} (h : Inv y) (hstep : step y a = some y') : Inv y' := by
  cases stepped_of_step hstep with
  | @create cl title description priority labels id db hxb hnew =>
    have hrows := Db.issues_modify_append (g := fun i => { i with
      labels := i.labels ∪ labels.toFinset }) (Db.createIssue_ok hnew).2
    refine h.mk_step (grows_append hrows) (List.Subset.refl _)
      (Db.forall_append h.issues hrows (issueOk_of_not_xb fun l hl => hxb l ?_)) fun t ht => Or.inl ht
    simpa [Db.newIssue] using hl
  | setStatus | comment => exact h.quiet rfl (fun _ => rfl) rfl fun t ht => Or.inl ht
  | handleSubmit hnew =>
    have hrows := (Db.createIssue_ok hnew).2
    refine h.mk_step (grows_append hrows) (List.Subset.refl _) (Db.forall_append h.issues hrows
      (issueOk_of_not_xb fun l hl => absurd hl (Finset.notMem_empty l))) (mem_append_task ?_)
    exact ⟨_, Db.getIssue_eq_some.mpr ⟨hrows ▸ List.mem_append_right _ (List.mem_singleton_self _), rfl⟩⟩
  | label => exact h.label rfl rfl (mem_set_task trivial)
  | @note k mat id submit =>
    exact h.quiet (attach_eq mat id submit.attachments y.db) (fun _ => rfl) rfl mem_erase_task
  | handleAnswer hfind =>
    obtain ⟨i, hi, hl, -⟩ := find_some hfind
    exact h.mk_step (Grows.refl _) (List.Subset.refl _) h.issues (mem_append_task ⟨i, hi, hl⟩)
  | @apply k id answer comments hk =>
    obtain ⟨i, hi, hl⟩ := h.tasks _ (List.mem_of_getElem? hk)
    refine h.apply rfl rfl (mem_set_task ⟨_, Db.getIssue_modify_self hi, ?_⟩)
    exact (refLabel_mem_answered comments).mpr hl
  | close | closeAnswered => exact h.quiet rfl (fun _ => rfl) rfl mem_erase_task
  | submit hout =>
    obtain ⟨i, hi, -⟩ := submitRequest_ok hout
    refine h.mk_step (Grows.refl _) (List.subset_append_left _ _) (fun i hi => ?_)
      (mem_append_task ⟨List.mem_append_right _ (List.mem_singleton_self _), i, hi⟩)
    exact (h.issues i hi).of_labels rfl (List.subset_append_left _ _) (fun l hl _ => hl)
      (fun u hu => hu) fun hin => hin
  | succeed hk =>
    obtain ⟨hs, i, hi⟩ := h.tasks _ (List.mem_of_getElem? hk)
    refine h.mk_step (Grows.refl _) (List.Subset.refl _) h.issues
      (mem_set_task ⟨hs, i, _, hi, List.suffix_refl _, fun hnot => absurd ?_ hnot⟩)
    exact List.mem_cons_self
  | writeLabel hk => exact h.writeLabel hk rfl rfl rfl
  | answer hout =>
    exact h.mk_step (Grows.refl _) (List.Subset.refl _) h.issues
      (mem_append_task (inbound_of_answerRequest hout))
  | writeAnswered =>
    exact h.mark rfl (fun u => refLabel_ne_of_prefix (by decide)) (by decide) rfl
      (mem_set_task trivial)
  | stop => exact h.mk_step (Grows.refl _) (List.Subset.refl _) h.issues mem_erase_task

/-- A database without labels of crossbridge. -/
def Unmarked (db : Db) : Prop := ∀ i ∈ db.issues, ∀ l ∈ i.labels, ¬ IsXb l

instance : DecidablePred Unmarked := fun _ => by unfold Unmarked; infer_instance

/-- **Every run** keeps the issues and the tasks in order. -/
theorem inv_of_run {as : List Action} (hdb : Unmarked db)
    (hrun : exec step (State.init db) as = some y) : Inv y :=
  exec_inv (fun _ _ _ h hstep => inv_step h hstep) (inv_init hdb) hrun

end Inv

end Crossbridge.Bridge.Local
