import Crossbridge.Bridge.LocalSteps
import Crossbridge.Bridge.Routing
import Crossbridge.Server.Answers

/-!
A submission and its answer, step by step.

The issue `id` of the repo `a` is submitted to `b`, and answered from there. `submit_cmd` sends its
request, reads the response and writes its three labels one by one; it may stop anywhere, and be run
again. A request that was sent is handled all the same, and from then on `b` may answer. An answer
finds the issue by the third label, so until this is written (`marked`) the issue has its reference
only if it had it before (`Labelled`): in every reached state an answer of `b` is applied to the issue
exactly if the issue carries the reference that the answer names, and no other issue is in its place
(`answerable_of_run`). An answer that is sooner is turned away (`answered_too_soon`).
-/

namespace Crossbridge.Bridge.Exchange

open Crossbridge.Protocol Crossbridge.Crosslink Crossbridge.Client Crossbridge.Server
open Crossbridge.Bridge.Routing Crossbridge.Runs

/-- Who submits what to whom. -/
structure Parties where
  a : String
  b : String
  id : IssueId

/-- Where `submit_cmd` is. -/
inductive Cmd where
  | idle
  /-- The request of run `n` is sent. -/
  | waiting (n : ℕ) (uuid : String)
  /-- There is a response. -/
  | replied (uuid : String) (result : Except String IssueId)
  /-- It was a success, and these labels are to be written. -/
  | labelling (todo : List String)

structure State where
  dbA : Db
  repoB : Repo
  cmd : Cmd
  /-- How often `submit_cmd` was run. -/
  runs : ℕ
  /-- The requests that `b` has not handled. -/
  wire : List (ℕ × SubmitIssue)
  /-- The answers that `a` has not handled, with the issues of `b`. -/
  answers : List (IssueId × SubmitAnswer)
  /-- The issues of `b` whose answer was a success. -/
  accepted : List IssueId
  /-- A run of `submit_cmd` has written its last label. -/
  marked : Bool

/-- Where every run starts. -/
def State.init (dbA : Db) (repoB : Repo) : State := ⟨dbA, repoB, .idle, 0, [], [], [], false⟩

inductive Action where
  /-- `submit_cmd` makes its request and sends it. -/
  | send (env : Env) (cl : Choices)
  /-- The server of `b` handles a request. -/
  | handleSubmit (cl : Choices) (f : Faults) (mat : Materialize) (k : ℕ)
  /-- `submit_cmd` reads the response. -/
  | read
  | writeLabel
  /-- `submit_cmd` ends, or is killed. -/
  | stop
  /-- A request is lost. -/
  | lose (k : ℕ)
  /-- `answer_cmd` of `b`. -/
  | answer (env : Env) (cl : Choices) (idB : IssueId)
  /-- The server of `a` handles an answer. -/
  | handleAnswer (cl : Choices) (f : Faults) (k : ℕ)
  /-- An answer is lost. -/
  | loseAnswer (k : ℕ)
  /-- `answer_cmd` labels its issue and closes it. -/
  | finishAnswer (k : ℕ)

def step (p : Parties) (y : State) : Action → Option State
  | .send env cl =>
    match y.cmd, submitRequest env cl y.dbA p.a p.id p.b with
    | .idle, .ok out => some { y with
        cmd := .waiting y.runs out.request.sourceUuid
        runs := y.runs + 1
        wire := y.wire ++ [(y.runs, out.request)] }
    | _, _ => none
  | .handleSubmit cl f mat k =>
    match y.wire[k]? with
    | none => none
    | some (n, request) =>
      let r := handleSubmit cl f mat request y.repoB
      some { y with
        repoB := r.2
        wire := y.wire.eraseIdx k
        cmd :=
          match y.cmd with
          | .waiting m uuid => if m = n then .replied uuid r.1 else y.cmd
          | cmd => cmd }
  | .read =>
    match y.cmd with
    | .replied uuid (.ok _) => some { y with cmd := .labelling (outboundLabels uuid) }
    | .replied _ (.error _) => some { y with cmd := .idle }
    | _ => none
  | .writeLabel =>
    match y.cmd with
    | .labelling (l :: todo) => some { y with
        dbA := y.dbA.addLabel p.id l
        cmd := .labelling todo
        marked := y.marked || todo = [] }
    | _ => none
  | .stop => some { y with cmd := .idle }
  | .lose k => some { y with wire := y.wire.eraseIdx k }
  | .answer env cl idB =>
    match answerRequest env cl y.repoB.db p.b idB with
    | .error _ => none
    | .ok out =>
      if out.peer = p.a then some { y with answers := y.answers ++ [(idB, out.request)] } else none
  | .handleAnswer cl f k =>
    match y.answers[k]? with
    | none => none
    | some (idB, answer) =>
      let r := handleAnswer cl f p.b answer y.dbA
      some { y with
        dbA := r.2
        answers := y.answers.eraseIdx k
        accepted :=
          match r.1 with
          | .ok _ => y.accepted ++ [idB]
          | .error _ => y.accepted }
  | .loseAnswer k => some { y with answers := y.answers.eraseIdx k }
  | .finishAnswer k =>
    match y.accepted[k]? with
    | none => none
    | some idB => some { y with
        repoB := { y.repoB with db := answerFinish y.repoB.db idB }
        accepted := y.accepted.eraseIdx k }

/-! ### When the label is there -/

/-- The UUID that `submit_cmd` has read, and the labels that it has left. -/
def CmdOk (uuid : String) : Cmd → Prop
  | .idle => True
  | .waiting _ u | .replied u _ => u = uuid
  | .labelling todo => todo <:+ outboundLabels uuid

/-- The issue was to carry the reference `uuid` before, or a run of `submit_cmd` has given it its own. -/
def Labelled (i : Issue) (marked : Bool) (uuid : String) : Prop :=
  Server.refLabel uuid ∈ i.labels ∨ marked = true ∧ uuid = i.uuid

/-- The issue `i` that is submitted is there, with the references that it should carry. -/
structure Inv (p : Parties) (i : Issue) (y : State) : Prop where
  issue : ∃ i', y.dbA.getIssue p.id = some i' ∧ i'.uuid = i.uuid ∧
    ∀ u, Server.refLabel u ∈ i'.labels ↔ Labelled i y.marked u
  cmd : CmdOk i.uuid y.cmd

section Inv

variable {p : Parties} {i : Issue} {y y' : State} {a : Action}

lemma inv_init {dbA : Db} (hi : dbA.getIssue p.id = some i) (repoB : Repo) :
    Inv p i (State.init dbA repoB) where
  issue := ⟨i, hi, rfl, fun u => by simp [State.init, Labelled]⟩
  cmd := trivial

/-- The reference is the last label. -/
lemma refLabel_eq_iff {u l uuid : String} {todo : List String}
    (h : l :: todo <:+ outboundLabels uuid) :
    Server.refLabel u = l ↔ todo = [] ∧ u = uuid := by
  have hout : Server.refLabel u ≠ outbound := refLabel_ne_of_prefix (by decide)
  have hpending : Server.refLabel u ≠ statusPending := refLabel_ne_of_prefix (by decide)
  rcases Local.head_outboundLabels h with ⟨rfl, rfl⟩ | ⟨rfl, rfl⟩ | ⟨rfl, rfl⟩
  · exact iff_of_false hout fun hnil => List.cons_ne_nil _ _ hnil.1
  · exact iff_of_false hpending fun hnil => List.cons_ne_nil _ _ hnil.1
  · exact refLabel_injective.eq_iff.trans (and_iff_right rfl).symm

/-- A step that leaves the database of `a` alone. -/
lemma Inv.of_db (h : Inv p i y) (hdb : y'.dbA = y.dbA) (hmarked : y'.marked = y.marked)
    (hcmd : CmdOk i.uuid y'.cmd) : Inv p i y' := by
  refine ⟨?_, hcmd⟩
  rw [hdb, hmarked]
  exact h.issue

/-- **The server of `a` handles an answer**: references stay as they are. -/
lemma Inv.answered (h : Inv p i y) {cl : Choices} {f : Faults} {answer : SubmitAnswer}
    (hdb : y'.dbA = (Server.handleAnswer cl f p.b answer y.dbA).2) (hmarked : y'.marked = y.marked)
    (hcmd : y'.cmd = y.cmd) : Inv p i y' := by
  obtain ⟨i', hi', huuid, hmem⟩ := h.issue
  refine ⟨?_, hcmd ▸ h.cmd⟩
  rw [hdb, hmarked]
  rcases handleAnswer_modify cl f p.b answer y.dbA with hsame | ⟨id, g, -, hg, hchanged⟩
  · rw [hsame]
    exact ⟨i', hi', huuid, hmem⟩
  · rw [hchanged]
    by_cases hid : p.id = id
    · subst hid
      exact ⟨_, Db.getIssue_modify_self hi', (hg i').1.trans huuid,
        fun u => ((hg i').2 u).trans (hmem u)⟩
    · exact ⟨i', by rw [Db.getIssue_modify_of_ne hid, hi'], huuid, hmem⟩

/-- **`submit_cmd` writes a label.** -/
lemma Inv.writeLabel (h : Inv p i y) {l : String} {todo : List String}
    (hk : y.cmd = .labelling (l :: todo)) (hdb : y'.dbA = y.dbA.addLabel p.id l)
    (hmarked : y'.marked = (y.marked || todo = [])) (hcmd : y'.cmd = .labelling todo) : Inv p i y' := by
  obtain ⟨i', hi', huuid, hmem⟩ := h.issue
  have htodo : l :: todo <:+ outboundLabels i.uuid := by
    have hok := h.cmd
    rwa [hk] at hok
  refine ⟨⟨{ i' with labels := insert l i'.labels }, ?_, huuid, fun u => ?_⟩, ?_⟩
  · rw [hdb, Db.addLabel, Db.getIssue_modify_self hi', ← Db.id_of_getIssue hi']
  · rw [Finset.mem_insert, hmem, refLabel_eq_iff htodo, hmarked, Labelled, Labelled, Bool.or_eq_true,
      decide_eq_true_iff]
    tauto
  · rw [hcmd]
    exact (List.suffix_cons l todo).trans htodo

/-- **One step** keeps track of the label. -/
theorem inv_step (h : Inv p i y) (hstep : step p y a = some y') : Inv p i y' := by
  cases a with
  | send env cl =>
    simp only [step] at hstep
    split at hstep
    · rename_i out hcmd hout
      obtain rfl := Option.some.inj hstep
      obtain ⟨i', hi', huuid, -⟩ := h.issue
      obtain ⟨i₀, hi₀, -, hsource, -⟩ := submitRequest_ok hout
      obtain rfl := Option.some.inj (hi'.symm.trans hi₀)
      exact h.of_db rfl rfl (hsource.trans huuid)
    · cases hstep
  | handleSubmit cl f mat k =>
    simp only [step] at hstep
    split at hstep
    · cases hstep
    · obtain rfl := Option.some.inj hstep
      refine h.of_db rfl rfl ?_
      have hcmd := h.cmd
      simp only
      split
      · rename_i m uuid hwaiting
        rw [hwaiting] at hcmd
        split
        · exact hcmd
        · rw [hwaiting]
          exact hcmd
      · exact hcmd
  | read =>
    have hcmd := h.cmd
    simp only [step] at hstep
    split at hstep
    · rename_i uuid id hreplied
      obtain rfl := Option.some.inj hstep
      rw [hreplied] at hcmd
      obtain rfl : uuid = i.uuid := hcmd
      exact h.of_db rfl rfl (List.suffix_refl _)
    · obtain rfl := Option.some.inj hstep
      exact h.of_db rfl rfl trivial
    · cases hstep
  | writeLabel =>
    simp only [step] at hstep
    split at hstep
    · rename_i l todo hk
      obtain rfl := Option.some.inj hstep
      exact h.writeLabel hk rfl rfl rfl
    · cases hstep
  | stop =>
    obtain rfl := Option.some.inj hstep
    exact h.of_db rfl rfl trivial
  | lose k | loseAnswer k =>
    obtain rfl := Option.some.inj hstep
    exact h.of_db rfl rfl h.cmd
  | answer env cl idB =>
    simp only [step] at hstep
    split at hstep
    · cases hstep
    · split at hstep
      · obtain rfl := Option.some.inj hstep
        exact h.of_db rfl rfl h.cmd
      · cases hstep
  | handleAnswer cl f k =>
    simp only [step] at hstep
    split at hstep
    · cases hstep
    · obtain rfl := Option.some.inj hstep
      exact h.answered rfl rfl rfl
  | finishAnswer k =>
    simp only [step] at hstep
    split at hstep
    · cases hstep
    · obtain rfl := Option.some.inj hstep
      exact h.of_db rfl rfl h.cmd

/-- **When an answer arrives.** In every state that is reached, an answer of `b` is applied to the
issue, however issues are listed, exactly if the issue carries the reference that the answer names, from
before or because a run of `submit_cmd` has written its last label, and no other issue is in its place.
If it does not carry it, and no other issue does, the answer is turned away. -/
theorem answerable_of_run {dbA : Db} {repoB : Repo} {as : List Action}
    (hi : dbA.getIssue p.id = some i)
    (hrun : exec (step p) (State.init dbA repoB) as = some y) : ∀ sent ∈ y.answers,
    ((∀ cl, Updates cl p.b sent.2 y.dbA p.id) ↔
      Labelled i y.marked sent.2.sourceUuid ∧
        Findable y.dbA (Server.refLabel sent.2.sourceUuid) p.id) ∧
    (¬ Labelled i y.marked sent.2.sourceUuid →
      (∀ j ∈ y.dbA.issues, j.id ≠ p.id → Server.refLabel sent.2.sourceUuid ∉ j.labels) →
      ∀ cl, handleAnswer cl noFaults p.b sent.2 y.dbA =
        (.error ("no local issue with label " ++ Server.refLabel sent.2.sourceUuid), y.dbA)) := by
  rintro ⟨idB, answer⟩ -
  have hinv : Inv p i y := exec_inv (fun _ _ _ h hstep => inv_step h hstep) (inv_init hi repoB) hrun
  obtain ⟨i', hi', -, hmem⟩ := hinv.issue
  simp only
  constructor
  · rw [← hmem, ← onlyHit_iff hi', ← forall_find_iff]
    exact forall_congr' fun cl => updates_iff
  · intro hnot hother cl
    rw [← hmem] at hnot
    obtain ⟨r, hr⟩ := find_noFaults cl y.dbA (Server.refLabel answer.sourceUuid)
    cases r with
    | none =>
      unfold handleAnswer
      rw [hr]
    | some id =>
      obtain ⟨j, hj, hl, -⟩ := find_some hr
      by_cases hid : j.id = p.id
      · rw [← Db.id_of_getIssue hj, hid, hi'] at hj
        obtain rfl := Option.some.inj hj
        exact absurd hl hnot
      · exact absurd hl (hother j (Db.mem_of_getIssue hj) hid)

end Inv

/-! ### Two exchanges -/

/-- `repo-a` submits its issue 1 to `repo-b`. -/
def aToB : Parties := ⟨"repo-a", "repo-b", 1⟩

/-- The answer is sent after the labels are written. -/
def inTime : List Action :=
  [.send env byRow, .handleSubmit byRow noFaults noJj 0, .read, .writeLabel, .writeLabel, .writeLabel,
    .answer env byRow 1]

/-- The answer is sent before the response is read. -/
def tooSoon : List Action := [.send env byRow, .handleSubmit byRow noFaults noJj 0, .answer env byRow 1]

theorem answerable_of_run_inTime : ∃ y answer,
    exec (step aToB) (State.init (oneIssue "uuid-2" ∅) ⟨Db.empty, []⟩) inTime = some y ∧
    y.answers = [(1, answer)] ∧ ∀ cl, Updates cl "repo-b" answer y.dbA 1 := by
  have hrun : exec (step aToB) (State.init (oneIssue "uuid-2" ∅) ⟨Db.empty, []⟩) inTime = some _ := rfl
  refine ⟨_, _, hrun, rfl, ((answerable_of_run rfl hrun _ (List.mem_singleton_self _)).1).mpr
    ⟨Or.inr ⟨rfl, rfl⟩, _, rfl, Or.inl ⟨rfl, by decide⟩⟩⟩

/-- **Turned away.** `repo-b` has created its issue, and its agent answers it, before `repo-a` has
written the label that the answer is to be found by. -/
theorem answered_too_soon : ∃ y answer iB,
    exec (step aToB) (State.init (oneIssue "uuid-2" ∅) ⟨Db.empty, []⟩) tooSoon = some y ∧
    y.repoB.db.getIssue 1 = some iB ∧ Server.refLabel "uuid-2" ∈ iB.labels ∧
    y.answers = [(1, answer)] ∧ answer.sourceUuid = "uuid-2" ∧
    handleAnswer byRow noFaults "repo-b" answer y.dbA =
      (.error "no local issue with label xb-ref:uuid-2", y.dbA) := by
  have hrun : exec (step aToB) (State.init (oneIssue "uuid-2" ∅) ⟨Db.empty, []⟩) tooSoon = some _ := rfl
  exact ⟨_, _, _, hrun, rfl, by decide, rfl, rfl, Prod.ext rfl rfl⟩

end Crossbridge.Bridge.Exchange
