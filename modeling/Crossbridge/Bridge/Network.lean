import Crossbridge.Lib.Runs
import Crossbridge.Client.Commands
import Crossbridge.Server.HandlerEffect

/-!
Any number of repos that submit issues to each other and answer them.

A repo is known by its slug. A command of a client makes a request, which is in flight until the
server of the peer handles it; the command then writes its labels, one at a time, while the rest of
the network goes on. Any request may be lost, and any command may stop at any point. A request is
handled in one step, and no call of a database fails (`Local.step` has the writes of a handler one by
one, and the handler may stop after each).

Each step changes the database of one repo in one of two ways: it touches issues that are there, or
it adds one (`Evolves`, `Adds`).
-/

namespace Crossbridge.Bridge

open Crossbridge.Protocol Crossbridge.Crosslink Crossbridge.Client Crossbridge.Server

/-- A command that is under way. -/
inductive Flight where
  /-- The submission of an issue of `src`, on its way to `target`. -/
  | submit (src : String) (id : IssueId) (target : String) (request : SubmitIssue)
  /-- A submission that succeeded, with the labels still to be written. -/
  | labels (src : String) (id : IssueId) (todo : List String)
  /-- The answer on an issue of `src`, on its way to `target`. -/
  | answer (src : String) (id : IssueId) (target : String) (request : SubmitAnswer)
  /-- An answer that succeeded. -/
  | answered (src : String) (id : IssueId)
  deriving DecidableEq

/-- The repos, and the commands under way. -/
structure Network where
  repo : String → Repo
  flights : List Flight

/-- A repo with another database. -/
def Network.setRepo (n : Network) (r : String) (repo : Repo) : Network :=
  { n with repo := Function.update n.repo r repo }

def Network.setDb (n : Network) (r : String) (db : Db) : Network :=
  n.setRepo r { n.repo r with db := db }

/-- The labels of `submit_cmd`, in its order. -/
def outboundLabels (uuid : String) : List String := [outbound, statusPending, Client.refLabel uuid]

/-- A step of the network. The `k` is the place of a command among those under way. -/
inductive Action where
  /-- A local issue is created, with labels of its own. -/
  | create (r : String) (cl : Choices) (title : String) (description : Option String)
      (priority : String) (labels : List String)
  /-- A local issue is closed or opened again. -/
  | setStatus (r : String) (id : IssueId) (closed : Bool)
  | submit (env : Env) (cl : Choices) (src : String) (id : IssueId) (target : String)
  | handleSubmit (cl : Choices) (mat : Materialize) (k : ℕ)
  | writeLabel (k : ℕ)
  | answer (env : Env) (cl : Choices) (src : String) (id : IssueId)
  | handleAnswer (cl : Choices) (k : ℕ)
  | finishAnswer (k : ℕ)
  /-- A request is lost, or a command stops. -/
  | lose (k : ℕ)

def step (n : Network) : Action → Option Network
  | .create r cl title description priority labels =>
    match (n.repo r).db.createIssue cl title description priority with
    | .error _ => none
    | .ok (id, db) => some (n.setDb r (addAll db id labels))
  | .setStatus r id closed =>
    some (n.setDb r ((n.repo r).db.setStatus id (if closed then "closed" else "open")))
  | .submit env cl src id target =>
    if target = src then none
    else
      match submitRequest env cl (n.repo src).db src id target with
      | .error _ => none
      | .ok out => some { n with flights := n.flights ++ [.submit src id target out.request] }
  | .handleSubmit cl mat k =>
    match n.flights[k]? with
    | some (.submit src id target request) =>
      let r := handleSubmit cl noFaults mat request (n.repo target)
      match r.1 with
      | .error _ => some { n.setRepo target r.2 with flights := n.flights.eraseIdx k }
      | .ok _ => some { n.setRepo target r.2 with
          flights := n.flights.set k (.labels src id (outboundLabels request.sourceUuid)) }
    | _ => none
  | .writeLabel k =>
    match n.flights[k]? with
    | some (.labels src id (l :: todo)) =>
      some { n.setDb src ((n.repo src).db.addLabel id l) with
        flights := n.flights.set k (.labels src id todo) }
    | _ => none
  | .answer env cl src id =>
    match answerRequest env cl (n.repo src).db src id with
    | .error _ => none
    | .ok out => some { n with flights := n.flights ++ [.answer src id out.peer out.request] }
  | .handleAnswer cl k =>
    match n.flights[k]? with
    | some (.answer src id target request) =>
      let r := handleAnswer cl noFaults src request (n.repo target).db
      match r.1 with
      | .error _ => some { n.setDb target r.2 with flights := n.flights.eraseIdx k }
      | .ok _ => some { n.setDb target r.2 with flights := n.flights.set k (.answered src id) }
    | _ => none
  | .finishAnswer k =>
    match n.flights[k]? with
    | some (.answered src id) =>
      some { n.setDb src (answerFinish (n.repo src).db id) with flights := n.flights.eraseIdx k }
    | _ => none
  | .lose k => some { n with flights := n.flights.eraseIdx k }

/-! ### What a step does to a database -/

/-- Issues that are there are touched: they keep their ids and UUIDs, gain no reference but to
themselves, and change their status only to open or closed. -/
def Evolves (db db' : Db) : Prop :=
  ∃ h : Issue → Issue, db'.issues = db.issues.map h ∧ ∀ i ∈ db.issues,
    (h i).id = i.id ∧ (h i).uuid = i.uuid ∧
      (∀ u, Server.refLabel u ∈ (h i).labels → Server.refLabel u ∈ i.labels ∨ u = i.uuid) ∧
      ((h i).status = i.status ∨ (h i).status = "open" ∨ (h i).status = "closed")

section Evolves

variable {db db' db'' : Db} {id : IssueId}

lemma Evolves.refl (db : Db) : Evolves db db :=
  ⟨id, (List.map_id _).symm, fun _ _ => ⟨rfl, rfl, fun _ hu => Or.inl hu, Or.inl rfl⟩⟩

lemma Evolves.trans (h : Evolves db db') (h' : Evolves db' db'') : Evolves db db'' := by
  obtain ⟨g, hg, hold⟩ := h
  obtain ⟨g', hg', hold'⟩ := h'
  refine ⟨g' ∘ g, by rw [hg', hg, List.map_map], fun i hi => ?_⟩
  obtain ⟨hid, huuid, href, hst⟩ := hold i hi
  have hmem : g i ∈ db'.issues := by rw [hg]; exact List.mem_map_of_mem hi
  obtain ⟨hid', huuid', href', hst'⟩ := hold' (g i) hmem
  refine ⟨hid'.trans hid, huuid'.trans huuid, fun u hu => ?_, ?_⟩
  · rcases href' u hu with hu' | rfl
    · exact href u hu'
    · exact Or.inr huuid
  · rcases hst' with hst' | hst'
    · rw [Function.comp, hst']
      exact hst
    · exact Or.inr hst'

lemma evolves_modify {g : Issue → Issue} (h : ∀ i ∈ db.issues, i.id = id → (g i).uuid = i.uuid ∧
    (∀ u, Server.refLabel u ∈ (g i).labels → Server.refLabel u ∈ i.labels ∨ u = i.uuid) ∧
    ((g i).status = i.status ∨ (g i).status = "open" ∨ (g i).status = "closed")) :
    Evolves db (db.modify id g) := by
  refine ⟨_, rfl, fun i hi => ?_⟩
  by_cases hid : i.id = id
  · rw [if_pos hid]
    obtain ⟨huuid, href, hst⟩ := h i hi hid
    exact ⟨rfl, huuid, href, hst⟩
  · rw [if_neg hid]
    exact ⟨rfl, rfl, fun _ hu => Or.inl hu, Or.inl rfl⟩

lemma evolves_setStatus (closed : Bool) :
    Evolves db (db.setStatus id (if closed then "closed" else "open")) := by
  refine evolves_modify fun i _ _ => ⟨rfl, fun _ hu => Or.inl hu, Or.inr ?_⟩
  cases closed
  · exact Or.inl rfl
  · exact Or.inr rfl

lemma evolves_closeIssue : Evolves db (db.closeIssue id) := evolves_setStatus true

/-- A label that is no reference, or a reference of the issue to itself. -/
lemma evolves_addLabel {l : String} (h : ∀ i ∈ db.issues, i.id = id → ∀ u, Server.refLabel u = l →
    u = i.uuid) : Evolves db (db.addLabel id l) := by
  refine evolves_modify fun i hi hid => ⟨rfl, fun u hu => ?_, Or.inl rfl⟩
  rcases Finset.mem_insert.mp hu with hl | hu
  · exact Or.inr (h i hi hid u hl)
  · exact Or.inl hu

lemma evolves_handleAnswer (cl : Choices) (peer : String) (answer : SubmitAnswer) (db : Db) :
    Evolves db (handleAnswer cl noFaults peer answer db).2 := by
  rcases handleAnswer_cases cl peer answer db with ⟨-, e, heq⟩ | ⟨i, -, -, heq⟩
  · rw [heq]
    exact Evolves.refl db
  · rw [heq]
    have hans : Evolves db (db.modify i.id (answered (toCopy peer answer i.comments))) :=
      evolves_modify fun i _ _ =>
        ⟨rfl, fun u hu => Or.inl ((refLabel_mem_answered _).mp hu), Or.inl rfl⟩
    exact hans.trans evolves_closeIssue

lemma evolves_answerFinish : Evolves db (answerFinish db id) := by
  refine Evolves.trans (evolves_addLabel fun i _ _ u hu => ?_) evolves_closeIssue
  have hne : Server.refLabel u ≠ statusAnswered := refLabel_ne_of_prefix (by decide)
  exact absurd hu hne

end Evolves

end Crossbridge.Bridge
