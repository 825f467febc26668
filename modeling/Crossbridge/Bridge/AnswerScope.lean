import Crossbridge.Bridge.LocalSteps
import Crossbridge.Bridge.Routing
import Crossbridge.Server.Answers

/-!
Which issues an answer can touch.

An answer from a peer, whatever it says, changes one issue at most, which carries the reference that
the answer names. In a database that grew from one without labels of crossbridge such an issue was
received from a peer, or it was submitted to one (`answer_scope`). To which one is recorded nowhere,
and neither is the issue looked for among those that were submitted; so the answer may come from
another peer, and may be to an issue that was received (`answer_out_of_scope`).
-/

namespace Crossbridge.Bridge.Local

open Crossbridge.Protocol Crossbridge.Crosslink Crossbridge.Client Crossbridge.Server
open Crossbridge.Runs

/-- No issue comes or goes, and one at most changes, which is as described. -/
def OnlyChanges (P : Issue → Prop) (db db' : Db) : Prop :=
  db'.issues.map Issue.id = db.issues.map Issue.id ∧ (∀ j ∈ db.issues, j ∉ db'.issues → P j) ∧
    ∀ j ∈ db.issues, ∀ k ∈ db.issues, j ∉ db'.issues → k ∉ db'.issues → j = k

/-- The issue carries the reference of the answer; and unless it was received from a peer, it was
submitted to one. -/
def InScope (y : State) (answer : SubmitAnswer) (j : Issue) : Prop :=
  Server.refLabel answer.sourceUuid ∈ j.labels ∧
    (inbound ∉ j.labels → outbound ∈ j.labels ∧ ∃ p, (j.id, p) ∈ y.sent)

/-- The step is a write of `handle_answer` for the answer. -/
def Answers (y : State) (answer : SubmitAnswer) (a : Action) : Prop :=
  (∃ k id comments, a = .apply k ∧ y.tasks[k]? = some (.found id answer comments)) ∨
    ∃ k id, a = .close k ∧ y.tasks[k]? = some (.applied id answer)

section Scope

variable {P : Issue → Prop} {db : Db} {y y' : State} {id : IssueId} {answer : SubmitAnswer}

lemma OnlyChanges.refl (P : Issue → Prop) (db : Db) : OnlyChanges P db db :=
  ⟨rfl, fun _ hj hnot => absurd hj hnot, fun _ hj _ _ hnot => absurd hj hnot⟩

lemma onlyChanges_modify (g : Issue → Issue) (h : ∀ i, db.getIssue id = some i → P i) :
    OnlyChanges P db (db.modify id g) := by
  have hget : ∀ j ∈ db.issues, j ∉ (db.modify id g).issues → db.getIssue id = some j := by
    intro j hj hnot
    by_cases hid : j.id = id
    · exact hid ▸ Db.getIssue_of_mem hj
    · exact absurd ((Db.mem_modify_of_ne hid).mpr hj) hnot
  refine ⟨Db.map_id_modify, fun j hj hnot => h j (hget j hj hnot), fun j hj k hk hj' hk' => ?_⟩
  exact Option.some.inj ((hget j hj hj').symm.trans (hget k hk hk'))

/-- An issue with the reference is in scope. -/
lemma Inv.inScope (h : Inv y) {i : Issue} (hi : y.db.getIssue id = some i)
    (hl : Server.refLabel answer.sourceUuid ∈ i.labels) : InScope y answer i :=
  ⟨hl, fun hin => ((h.issues i (Db.mem_of_getIssue hi)).refs _ hl).resolve_left hin⟩

/-- **An answer stays in its scope**, in every state that is reached from a database without labels of
crossbridge: when it is handled at once, whatever fails, and at every write when it is not. -/
theorem answer_scope {as : List Action} (hdb : Unmarked db)
    (hrun : exec step (State.init db) as = some y) (answer : SubmitAnswer) :
    (∀ cl f peer, OnlyChanges (InScope y answer) y.db (handleAnswer cl f peer answer y.db).2) ∧
    ∀ a y', Answers y answer a → step y a = some y' → OnlyChanges (InScope y answer) y.db y'.db := by
  have hinv := inv_of_run hdb hrun
  constructor
  · intro cl f peer
    rcases handleAnswer_modify cl f peer answer y.db with hsame | ⟨id, g, hfind, -, hdb'⟩
    · rw [hsame]
      exact OnlyChanges.refl _ _
    · obtain ⟨i, hi, hl, -⟩ := find_some hfind
      rw [hdb']
      refine onlyChanges_modify g fun j hj => ?_
      obtain rfl := Option.some.inj (hi.symm.trans hj)
      exact hinv.inScope hi hl
  · rintro a y' hans hstep
    have hone : ∀ id g, (∃ i, y.db.getIssue id = some i ∧
        Server.refLabel answer.sourceUuid ∈ i.labels) → y'.db = y.db.modify id g →
          OnlyChanges (InScope y answer) y.db y'.db := by
      rintro id g ⟨i, hi, hl⟩ hdb'
      rw [hdb']
      refine onlyChanges_modify g fun j hj => ?_
      obtain rfl := Option.some.inj (hi.symm.trans hj)
      exact hinv.inScope hi hl
    rcases hans with ⟨k, id, comments, rfl, hk⟩ | ⟨k, id, rfl, hk⟩
    · simp only [step, hk, Option.some.injEq] at hstep
      exact hone id _ (hinv.tasks _ (List.mem_of_getElem? hk)) (by rw [← hstep])
    · simp only [step, hk, Option.some.injEq] at hstep
      exact hone id _ (hinv.tasks _ (List.mem_of_getElem? hk)) (by rw [← hstep]; rfl)

end Scope

/-! ### Two answers -/

/-- An issue is submitted to `repo-b`. -/
def toRepoB : List Action :=
  [.submit Routing.env byRow "repo-a" 1 "repo-b", .succeed 0, .writeLabel 0, .writeLabel 0, .writeLabel 0,
    .stop 0]

/-- A submission of `repo-b`. -/
def fromRepoB : SubmitIssue := ⟨"Need answer X", "Question body here.", [], "repo-b", "uuid-2", []⟩

theorem answer_scope_toRepoB : ∃ y, exec step (State.init (Routing.oneIssue "uuid-1" ∅)) toRepoB = some y ∧
    OnlyChanges (InScope y answer42) y.db (handleAnswer byRow noFaults "repo-b" answer42 y.db).2 := by
  have hrun : exec step (State.init (Routing.oneIssue "uuid-1" ∅)) toRepoB = some _ := rfl
  exact ⟨_, hrun, (answer_scope (by decide) hrun answer42).1 byRow noFaults "repo-b"⟩

/-- **Out of scope.** The answer to an issue that was submitted to `repo-b` alone comes from `repo-c`,
and it is applied; so is an answer from `repo-c` to an issue that was received from `repo-b`. -/
theorem answer_out_of_scope :
    (∃ y j, exec step (State.init (Routing.oneIssue "uuid-1" ∅)) toRepoB = some y ∧ j ∈ y.db.issues ∧
      outbound ∈ j.labels ∧ (∀ s ∈ y.sent, s.1 = j.id → s.2 = "repo-b") ∧
      j ∉ (handleAnswer byRow noFaults "repo-c" answer42 y.db).2.issues) ∧
    ∃ y j, exec step (State.init Db.empty) [.handleSubmit byRow fromRepoB, .label 0, .stop 0] = some y ∧
      j ∈ y.db.issues ∧ inbound ∈ j.labels ∧ y.sent = [] ∧
      j ∉ (handleAnswer byRow noFaults "repo-c" ⟨"uuid-2", [], []⟩ y.db).2.issues := by
  have hsent : exec step (State.init (Routing.oneIssue "uuid-1" ∅)) toRepoB = some _ := rfl
  have hreceived : exec step (State.init Db.empty)
    [.handleSubmit byRow fromRepoB, .label 0, .stop 0] = some _ := rfl
  exact ⟨⟨_, _, hsent, List.mem_singleton_self _, by decide, by decide, by decide⟩,
    _, _, hreceived, List.mem_singleton_self _, by decide, rfl, by decide⟩

end Crossbridge.Bridge.Local
