import Crossbridge.Client.Commands
import Crossbridge.Server.Answers

/-!
An answer that is sent again, with the results there are by then.

`answer_cmd` may stop before the peer has its request, after the server of the peer has committed,
after the label of its own issue, or not at all (`Cut`). It does not ask whether the issue is answered
or closed, so it may be run again, and the agent may write comments in between; nothing else changes the
two databases, and their calls do not fail. Every run sends all result comments that the issue has by
then, and the server of the peer copies those that its issue does not hold. So the results arrive in
batches, and all of them together are as from one run at the end, but for a result that was written
several times: one run copies it as often as it was written, and a later batch does not copy it again
(`answerCmd_after_history`).
-/

namespace Crossbridge.Bridge.AnswerAgain

open Crossbridge.Protocol Crossbridge.Crosslink Crossbridge.Client Crossbridge.Server

/-! ### The command, and where it may stop -/

/-- The database of the repo that answers, and the one of the repo that asked. -/
structure Pair where
  db : Db
  peer : Db

/-- Who answers which issue. -/
structure Answering where
  own : String
  id : IssueId

/-- Where `answer_cmd` stops: before the peer handles the request, before the response is read, after
the label, or at its end. -/
inductive Cut where
  | beforeSending
  | beforeReading
  | labelled
  | finished
  deriving DecidableEq, Repr

/-- What happens before the last run: runs of `answer_cmd`, and comments on the issue. -/
inductive Event where
  | attempt (env : Env) (cl server : Choices) (cut : Cut)
  | comment (c : Comment)

/-- `answer_cmd` without an interruption. -/
def answerCmd (a : Answering) (env : Env) (cl server : Choices) (p : Pair) :
    Except String IssueId × Pair :=
  match answerRequest env cl p.db a.own a.id with
  | .error e => (.error e, p)
  | .ok out =>
    let r := handleAnswer server noFaults a.own out.request p.peer
    match r.1 with
    | .error message => (.error message, { p with peer := r.2 })
    | .ok rid => (.ok rid, ⟨answerFinish p.db a.id, r.2⟩)

/-- The label and the closing of `answer_cmd`, as far as it gets. -/
def finishTo (db : Db) (id : IssueId) : Cut → Db
  | .labelled => db.addLabel id statusAnswered
  | .finished => answerFinish db id
  | _ => db

/-- What an event leaves behind. -/
def event (a : Answering) (p : Pair) : Event → Pair
  | .comment c => { p with db := p.db.addComment a.id c }
  | .attempt env cl server cut =>
    match answerRequest env cl p.db a.own a.id with
    | .error _ => p
    | .ok out =>
      if cut = .beforeSending then p
      else
        let r := handleAnswer server noFaults a.own out.request p.peer
        match r.1 with
        | .error _ => { p with peer := r.2 }
        | .ok _ => ⟨finishTo p.db a.id cut, r.2⟩

/-- The comments that are written. -/
def comments : List Event → List Comment :=
  List.filterMap fun
    | .comment c => some c
    | .attempt .. => none

/-- The issue with these comments written on it. -/
def addComments (db : Db) (id : IssueId) (cs : List Comment) : Db :=
  cs.foldl (fun db c => db.addComment id c) db

/-! ### Batches -/

/-- What was written batch by batch: everything that the list has, in the order in which it first
occurs there, and nothing more often than there. -/
structure Batched {α : Type} [DecidableEq α] (all written : List α) : Prop where
  order : written.eraseDups = all.eraseDups
  count : ∀ x, written.count x ≤ all.count x

section Batches

variable {α : Type} [DecidableEq α] {all more written : List α} {x : α}

lemma batched_self (all : List α) : Batched all all := ⟨rfl, fun _ => le_rfl⟩

lemma Batched.mem (h : Batched all written) : x ∈ written ↔ x ∈ all := by
  rw [← List.mem_eraseDups, h.order, List.mem_eraseDups]

/-- What the batches hold already is not new. -/
lemma Batched.filter_append (h : Batched all written) :
    (all ++ more).filter (fun x => x ∉ written) = more.filter fun x => x ∉ written := by
  have hold : all.filter (fun x => x ∉ written) = [] := by
    rw [List.filter_eq_nil_iff]
    intro x hx hnew
    rw [decide_eq_true_iff] at hnew
    exact hnew (h.mem.mpr hx)
  rw [List.filter_append, hold, List.nil_append]

/-- **One more batch**: what is new in a longer list. -/
theorem Batched.append (h : Batched all written) (more : List α) :
    Batched (all ++ more) (written ++ (all ++ more).filter fun x => x ∉ written) := by
  rw [h.filter_append]
  constructor
  · have hnew : (more.filter fun x => x ∉ written).removeAll written = more.removeAll all := by
      unfold List.removeAll
      rw [List.filter_filter]
      refine List.filter_congr fun x _ => ?_
      have hx : x ∈ written ↔ x ∈ all := h.mem
      by_cases hin : x ∈ all <;> simp [hin, hx]
    rw [List.eraseDups_append, List.eraseDups_append, h.order, hnew]
  · intro x
    have hle : (more.filter fun x => x ∉ written).count x ≤ more.count x := List.filter_sublist.count_le x
    have hall := h.count x
    rw [List.count_append, List.count_append]
    omega

end Batches

/-! ### What answers make of the issue they are for -/

/-- The answer of an issue with these comments. -/
def answerOf (uuid : String) (cs : List Comment) : SubmitAnswer :=
  ⟨uuid, (cs.filter fun c => c.kind = "result").map fun c => ⟨c.content, c.kind⟩, []⟩

/-- The issue once answers have copied these results. -/
def collected (batch : List String) (i : Issue) : Issue := { answered batch i with status := "closed" }

section Collected

variable {own uuid : String} {answer : SubmitAnswer} {batch : List String} {i : Issue}

lemma newContents_append (cs ds : List Comment) :
    newContents own (answerOf uuid (cs ++ ds)) i =
      newContents own (answerOf uuid cs) i ++ newContents own (answerOf uuid ds) i := by
  simp [newContents, resultContents, answerOf]

lemma newContents_collected : newContents own answer (collected batch i) =
    (newContents own answer i).filter fun c => c ∉ batch := by
  have hmem : ∀ c, c ∈ (collected batch i).comments.map Comment.content ↔
      c ∈ i.comments.map Comment.content ∨ c ∈ batch := by
    intro c
    show c ∈ (i.comments ++ batch.map fun c => (⟨c, "result"⟩ : Comment)).map Comment.content ↔ _
    rw [List.map_append, List.mem_append, List.map_map]
    exact or_congr Iff.rfl (by simp)
  unfold newContents
  rw [List.filter_filter]
  refine List.filter_congr fun c _ => ?_
  rw [← Bool.decide_and]
  refine decide_eq_decide.mpr ?_
  rw [hmem, not_or, and_comm]

/-- **An answer to an issue that has had answers.** -/
lemma applied_collected : applied own answer (collected batch i) =
    collected (batch ++ (newContents own answer i).filter fun c => c ∉ batch) i := by
  unfold applied
  rw [newContents_collected]
  unfold collected answered
  simp

end Collected

/-! ### What the peer has been told -/

/-- One issue at most is found by the label. -/
def OneHit (db : Db) (label : String) : Prop := ∀ j k, Hit db label j → Hit db label k → j = k

/-- The repo `peer` has become `peer'` by answers to its issue `k`, the last one with the comments `cs`. -/
structure Delivered (own uuid : String) (cs : List Comment) (k : Issue) (peer peer' : Db) : Prop where
  hit : Hit peer (Server.refLabel uuid) k
  batches : ∃ batch, Batched (newContents own (answerOf uuid cs) k) batch ∧
    peer' = peer.modify k.id (collected batch)

section Peer

variable {own uuid label : String} {cs done : List Comment} {k : Issue} {peer peer' : Db}

lemma find_of_oneHit (hone : OneHit peer label) (h : Hit peer label k) (server : Choices) :
    findIssueWithLabel server noFaults peer label = .ok (some k.id) := by
  obtain ⟨r, hr⟩ := find_noFaults server peer label
  cases r with
  | none =>
    obtain ⟨hopen, hclosed⟩ := find_none hr h.1 h.2.1
    exact absurd h.2.2 (not_or.mpr ⟨hopen, hclosed⟩)
  | some id =>
    obtain ⟨j, rfl, hj⟩ := hit_of_find hr
    rw [hr, hone j k hj h]

/-- **One answer**, to an issue that has had none since. -/
lemma handleAnswer_once (own : String) (hone : OneHit peer (Server.refLabel uuid))
    (h : Hit peer (Server.refLabel uuid) k) (server : Choices) (cs : List Comment) :
    handleAnswer server noFaults own (answerOf uuid cs) peer =
      (.ok k.id, peer.modify k.id (collected (newContents own (answerOf uuid cs) k))) := by
  have heq : handleAnswer server noFaults own (answerOf uuid cs) peer =
      (.ok k.id, peer.modify k.id (applied own (answerOf uuid cs))) :=
    handleAnswer_of_find (find_of_oneHit hone h server)
  have hmodify : peer.modify k.id (applied own (answerOf uuid cs)) =
      peer.modify k.id (collected (newContents own (answerOf uuid cs) k)) :=
    Db.modify_congr (Db.getIssue_of_mem h.1) rfl
  rw [heq, hmodify]

/-- **The first answer** that gets through. -/
lemma delivered_first (own : String) (hone : OneHit peer (Server.refLabel uuid))
    (h : Hit peer (Server.refLabel uuid) k) (server : Choices) (cs : List Comment) :
    ∃ peer', handleAnswer server noFaults own (answerOf uuid cs) peer = (.ok k.id, peer') ∧
      Delivered own uuid cs k peer peer' := by
  exact ⟨_, handleAnswer_once own hone h server cs, h, _, batched_self _, rfl⟩

/-- The issue is still the only one with its label. -/
lemma find_collected (hone : OneHit peer (Server.refLabel uuid)) (h : Hit peer (Server.refLabel uuid) k)
    (batch : List String) (server : Choices) :
    findIssueWithLabel server noFaults (peer.modify k.id (collected batch)) (Server.refLabel uuid) =
      .ok (some k.id) := by
  have hget : (peer.modify k.id (collected batch)).getIssue k.id = some (collected batch k) :=
    Db.getIssue_modify_self (Db.getIssue_of_mem h.1)
  have hhit : Hit (peer.modify k.id (collected batch)) (Server.refLabel uuid) (collected batch k) :=
    ⟨Db.mem_of_getIssue hget, (refLabel_mem_answered batch).mpr h.2.1, Or.inr rfl⟩
  refine find_of_oneHit (k := collected batch k) (fun j j' hj hj' => ?_) hhit server
  have honly : ∀ j, Hit (peer.modify k.id (collected batch)) (Server.refLabel uuid) j →
      j = collected batch k := by
    rintro j ⟨hj, hl, hst⟩
    by_cases hid : j.id = k.id
    · exact Db.eq_of_id_eq hj hhit.1 hid
    · have hold : Hit peer (Server.refLabel uuid) j := ⟨(Db.mem_modify_of_ne hid).mp hj, hl, hst⟩
      exact absurd (congrArg Issue.id (hone j k hold h)) hid
  exact (honly j hj).trans (honly j' hj').symm

/-- **Another answer**, with more comments. -/
lemma delivered_again (hone : OneHit peer (Server.refLabel uuid)) (h : Delivered own uuid done k peer peer')
    (hdone : done <+: cs) (server : Choices) :
    ∃ peer'', handleAnswer server noFaults own (answerOf uuid cs) peer' = (.ok k.id, peer'') ∧
      Delivered own uuid cs k peer peer'' := by
  obtain ⟨hit, batch, hbatch, rfl⟩ := h
  obtain ⟨more, rfl⟩ := hdone
  have hmore := hbatch.append (newContents own (answerOf uuid more) k)
  rw [← newContents_append] at hmore
  refine ⟨_, handleAnswer_of_find (find_collected hone hit batch server), hit, _, hmore, ?_⟩
  rw [Db.modify_modify]
  exact Db.modify_congr (Db.getIssue_of_mem hit.1) applied_collected

end Peer

/-! ### What the command sends -/

/-- An issue that comes from one repo at most, as one issue of it. -/
structure OneRoute (i : Issue) : Prop where
  source : ∀ x y, sourcePrefix ++ x ∈ i.labels → sourcePrefix ++ y ∈ i.labels → x = y
  ref : ∀ u v, Server.refLabel u ∈ i.labels → Server.refLabel v ∈ i.labels → u = v

/-- The same issue for `answer_cmd`, which does not look at its own label or at the status. -/
def Alike (i j : Issue) : Prop :=
  j.comments = i.comments ∧ ∀ l, l ≠ statusAnswered → (l ∈ j.labels ↔ l ∈ i.labels)

section Request

variable {env : Env} {cl cl' : Choices} {db db' : Db} {own : String} {id : IssueId} {i j : Issue}

lemma Alike.mem_append (h : Alike i j) {p : String} (hp : ¬ p.toList <+: statusAnswered.toList)
    (x : String) : p ++ x ∈ j.labels ↔ p ++ x ∈ i.labels :=
  h.2 _ <| append_ne_of_prefix hp

/-- **The request** is the same, in whatever order labels are listed. -/
lemma answerRequest_congr (hi : db.getIssue id = some i) (hj : db'.getIssue id = some j)
    (h : Alike i j) (hone : OneRoute i) :
    answerRequest env cl' db' own id = answerRequest env cl db own id := by
  have hmem : ∀ l, l ≠ statusAnswered → (l ∈ db'.getLabels cl' id ↔ l ∈ db.getLabels cl id) := by
    intro l hl
    rw [Db.mem_getLabels hi, Db.mem_getLabels hj]
    exact h.2 l hl
  have hprefixed : ∀ {p : String}, ¬ p.toList <+: statusAnswered.toList →
      (∀ x y, p ++ x ∈ i.labels → p ++ y ∈ i.labels → x = y) →
      findPrefixed (db'.getLabels cl' id) p = findPrefixed (db.getLabels cl id) p := by
    intro p hp huniq
    refine findPrefixed_congr (fun x => hmem _ <| append_ne_of_prefix hp) fun x y hx hy => ?_
    rw [Db.mem_getLabels hj, h.mem_append hp] at hx hy
    exact huniq x y hx hy
  have hhas : has (db'.getLabels cl' id) inbound = has (db.getLabels cl id) inbound := by
    rw [Bool.eq_iff_iff, has_iff, has_iff]
    exact hmem _ (by decide)
  have hsource : findPrefixed (db'.getLabels cl' id) sourcePrefix =
      findPrefixed (db.getLabels cl id) sourcePrefix := hprefixed (by decide) hone.source
  have href : findPrefixed (db'.getLabels cl' id) refPrefix =
      findPrefixed (db.getLabels cl id) refPrefix := hprefixed (by decide) hone.ref
  unfold answerRequest
  rw [hi, hj]
  simp only [hhas, hsource, href, Db.getComments, hi, hj, h.1]

/-- The request of `answer_cmd`: a reference of the issue, and its result comments. -/
lemma request_of_answerRequest {out : Outgoing SubmitAnswer} (hi : db.getIssue id = some i)
    (h : answerRequest env cl db own id = .ok out) :
    ∃ uuid, Server.refLabel uuid ∈ i.labels ∧ out.request = answerOf uuid i.comments := by
  obtain ⟨i', hi', -, -, href, hattachments, hcomments⟩ := issue_of_answerRequest h
  obtain rfl := Option.some.inj (hi.symm.trans hi')
  refine ⟨_, href, ?_⟩
  unfold answerOf
  rw [← hattachments, ← hcomments]

end Request

/-! ### Runs -/

/-- The pair `p` has become `q`, the comments `cs` having been written on the issue `i` since. -/
structure Progress (a : Answering) (i : Issue) (p : Pair) (cs : List Comment) (q : Pair) : Prop where
  issue : ∃ j, q.db.getIssue a.id = some j ∧ Alike { i with comments := i.comments ++ cs } j
  /-- What is left to do makes one database. -/
  finish : answerFinish q.db a.id = answerFinish (addComments p.db a.id cs) a.id
  peer : q.peer = p.peer ∨ ∃ uuid k done, Server.refLabel uuid ∈ i.labels ∧
    done <+: i.comments ++ cs ∧ Delivered a.own uuid done k p.peer q.peer

section Runs

variable {a : Answering} {i : Issue} {p q : Pair} {cs : List Comment} {env : Env}
  {cl server : Choices} {out : Outgoing SubmitAnswer}

lemma addComments_concat (db : Db) (id : IssueId) (cs : List Comment) (c : Comment) :
    addComments db id (cs ++ [c]) = (addComments db id cs).addComment id c := by
  simp [addComments]

/-- A comment may as well be written after the rest of `answer_cmd`. -/
lemma answerFinish_addComment (db : Db) (id : IssueId) (c : Comment) :
    answerFinish (db.addComment id c) id = (answerFinish db id).addComment id c := by
  simp only [answerFinish, Db.closeIssue, Db.setStatus, Db.addLabel, Db.addComment, Db.modify_modify]

/-- What `answer_cmd` has done of its label and its closing makes no difference in the end. -/
lemma answerFinish_finishTo (db : Db) (id : IssueId) (cut : Cut) :
    answerFinish (finishTo db id cut) id = answerFinish db id := by
  cases cut with
  | beforeSending | beforeReading => rfl
  | labelled | finished =>
    simp only [finishTo, answerFinish, Db.closeIssue, Db.setStatus, Db.addLabel, Db.modify_modify,
      Finset.insert_idem]

lemma alike_finishTo {db : Db} {id : IssueId} {j : Issue} (hj : db.getIssue id = some j)
    (h : Alike i j) (cut : Cut) : ∃ j', (finishTo db id cut).getIssue id = some j' ∧ Alike i j' := by
  have hlabels : ∀ l, l ≠ statusAnswered → (l ∈ insert statusAnswered j.labels ↔ l ∈ i.labels) := by
    intro l hl
    rw [Finset.mem_insert, or_iff_right hl]
    exact h.2 l hl
  cases cut with
  | beforeSending | beforeReading => exact ⟨j, hj, h⟩
  | labelled => exact ⟨_, Db.getIssue_modify_self hj, h.1, hlabels⟩
  | finished =>
    exact ⟨_, Db.getIssue_modify_self (Db.getIssue_modify_self hj), h.1, hlabels⟩

lemma progress_refl (hi : p.db.getIssue a.id = some i) : Progress a i p [] p where
  issue := ⟨i, hi, by simp [Alike]⟩
  finish := rfl
  peer := Or.inl rfl

/-- **A comment** is written. -/
lemma Progress.comment (h : Progress a i p cs q) (c : Comment) :
    Progress a i p (cs ++ [c]) { q with db := q.db.addComment a.id c } where
  issue := by
    obtain ⟨j, hj, hcomments, hlabels⟩ := h.issue
    refine ⟨_, Db.getIssue_modify_self hj, ?_, hlabels⟩
    simp [hcomments]
  finish := by rw [answerFinish_addComment, h.finish, addComments_concat, answerFinish_addComment]
  peer := by
    rcases h.peer with hsame | ⟨uuid, k, done, hu, hdone, hdel⟩
    · exact Or.inl hsame
    · refine Or.inr ⟨uuid, k, done, hu, ?_, hdel⟩
      rw [← List.append_assoc]
      exact hdone.trans (List.prefix_append _ _)

/-- **The request is handled**: it is applied to the issue that it was always applied to, or there is
none. -/
lemma Progress.handled (h : Progress a i p cs q) (hone : OneRoute i)
    (hhit : ∀ u, Server.refLabel u ∈ i.labels → OneHit p.peer (Server.refLabel u))
    (hreq : answerRequest env cl q.db a.own a.id = .ok out) (server : Choices) :
    Server.refLabel out.request.sourceUuid ∈ i.labels ∧
      ((∃ k peer', handleAnswer server noFaults a.own out.request q.peer = (.ok k.id, peer') ∧
          Delivered a.own out.request.sourceUuid (i.comments ++ cs) k p.peer peer') ∨
        (∀ k, ¬ Hit p.peer (Server.refLabel out.request.sourceUuid) k) ∧
          handleAnswer server noFaults a.own out.request q.peer =
            (.error ("no local issue with label " ++ Server.refLabel out.request.sourceUuid), q.peer)) := by
  obtain ⟨j, hj, hcomments, hlabels⟩ := h.issue
  obtain ⟨uuid, hu, hout⟩ := request_of_answerRequest hj hreq
  have hne : Server.refLabel uuid ≠ statusAnswered := refLabel_ne_of_prefix (by decide)
  have hu' : Server.refLabel uuid ∈ i.labels := (hlabels _ hne).mp hu
  rw [hcomments] at hout
  rw [hout]
  refine ⟨hu', ?_⟩
  rcases h.peer with hsame | ⟨v, k, done, hv, hdone, hdel⟩
  · rw [hsame]
    by_cases hk : ∃ k, Hit p.peer (Server.refLabel uuid) k
    · obtain ⟨k, hk⟩ := hk
      obtain ⟨peer', heq, hdel⟩ := delivered_first a.own (hhit uuid hu') hk server (i.comments ++ cs)
      exact Or.inl ⟨k, peer', heq, hdel⟩
    · push Not at hk
      refine Or.inr ⟨hk, ?_⟩
      obtain ⟨r, hr⟩ := find_noFaults server p.peer (Server.refLabel uuid)
      cases r with
      | some id =>
        obtain ⟨k, -, hit⟩ := hit_of_find hr
        exact absurd hit (hk k)
      | none =>
        unfold handleAnswer
        rw [show (answerOf uuid (i.comments ++ cs)).sourceUuid = uuid from rfl, hr]
  · obtain rfl := hone.ref uuid v hu' hv
    obtain ⟨peer'', heq, hdel'⟩ := delivered_again (hhit _ hu') hdel hdone server
    exact Or.inl ⟨k, peer'', heq, hdel'⟩

/-- **A run of `answer_cmd`**, to its end or not. -/
lemma Progress.attempt (h : Progress a i p cs q) (hone : OneRoute i)
    (hhit : ∀ u, Server.refLabel u ∈ i.labels → OneHit p.peer (Server.refLabel u))
    (env : Env) (cl server : Choices) (cut : Cut) :
    Progress a i p cs (event a q (.attempt env cl server cut)) := by
  unfold event
  simp only
  split
  · exact h
  · rename_i out hreq
    split
    · exact h
    · obtain ⟨hu, ⟨k, peer', heq, hdel⟩ | ⟨-, heq⟩⟩ := h.handled hone hhit hreq server
      · simp only [heq]
        obtain ⟨j, hj, halike⟩ := h.issue
        exact ⟨alike_finishTo hj halike cut, (answerFinish_finishTo _ _ cut).trans h.finish,
          Or.inr ⟨_, k, _, hu, List.prefix_refl _, hdel⟩⟩
      · simp only [heq]
        exact h

/-- **Any number of runs and comments.** -/
theorem progress_history (hone : OneRoute i)
    (hhit : ∀ u, Server.refLabel u ∈ i.labels → OneHit p.peer (Server.refLabel u)) (es : List Event)
    (h : Progress a i p cs q) : Progress a i p (cs ++ comments es) (es.foldl (event a) q) := by
  induction es generalizing q cs with
  | nil =>
    rw [show comments [] = [] from rfl, List.append_nil]
    exact h
  | cons e es ih =>
    cases e with
    | comment c =>
      have hnext := ih (h.comment c)
      rwa [List.append_assoc] at hnext
    | attempt env cl server cut => exact ih (h.attempt hone hhit env cl server cut)

lemma getIssue_addComments {db : Db} {id : IssueId} (hi : db.getIssue id = some i) (cs : List Comment) :
    (addComments db id cs).getIssue id = some { i with comments := i.comments ++ cs } := by
  induction cs using List.reverseRecOn with
  | nil => simpa [addComments] using hi
  | append_singleton cs c ih =>
    rw [addComments_concat, Db.addComment, Db.getIssue_modify_self ih]
    simp [Db.id_of_getIssue hi]

/-- Comments only. -/
lemma progress_comments (hi : p.db.getIssue a.id = some i) (cs : List Comment) :
    Progress a i p cs { p with db := addComments p.db a.id cs } where
  issue := ⟨_, getIssue_addComments hi cs, rfl, fun _ _ => Iff.rfl⟩
  finish := rfl
  peer := Or.inl rfl

/-- The last run `r`, after others, is as the run `r₀`, before which only the comments were written: it
has the same outcome; and if that is a success, it leaves the same database, and both have changed one
issue of the peer, the same one. -/
structure AsOnce (a : Answering) (i : Issue) (p : Pair) (cs : List Comment)
    (r r₀ : Except String IssueId × Pair) : Prop where
  outcome : r.1 = r₀.1
  db : ∀ rid, r.1 = .ok rid → r.2.db = r₀.2.db
  /-- To this issue the one run copies what the issue does not hold, as often as it was written; together
  with the runs before it, the last run copies the same, in the order of its first occurrence, and nothing
  more often. -/
  peer : ∀ rid, r.1 = .ok rid → ∃ uuid k once copied, Server.refLabel uuid ∈ i.labels ∧
    p.peer.getIssue rid = some k ∧
    once = newContents a.own (answerOf uuid (i.comments ++ cs)) k ∧
    r₀.2.peer = p.peer.modify rid (collected once) ∧
    r.2.peer = p.peer.modify rid (collected copied) ∧
    Batched once copied ∧
    ∀ c, copied.count c ≤ (resultContents a.own (answerOf uuid (i.comments ++ cs))).count c

/-- **Answered again.** However often `answer_cmd` was run and wherever it stopped, whatever sockets
there were and however labels and issues were listed, and whatever comments were written on the issue in
between: a last run succeeds exactly when it would have succeeded as the only one, with the same remote
issue and the same local database; and what all runs together have made of the remote issue is what one
answer with all the comments makes of it, but that a result which was written several times may be there
less often. -/
theorem answerCmd_after_history (a : Answering) (es : List Event) (env : Env)
    (cl cl' server server' : Choices) (hi : p.db.getIssue a.id = some i) (hone : OneRoute i)
    (hhit : ∀ u, Server.refLabel u ∈ i.labels → OneHit p.peer (Server.refLabel u)) :
    AsOnce a i p (comments es) (answerCmd a env cl server (es.foldl (event a) p))
      (answerCmd a env cl' server' { p with db := addComments p.db a.id (comments es) }) := by
  have h : Progress a i p (comments es) (es.foldl (event a) p) :=
    progress_history hone hhit es (progress_refl hi)
  have h₀ := progress_comments hi (comments es)
  obtain ⟨j, hj, halike⟩ := h.issue
  have hsame : answerRequest env cl (es.foldl (event a) p).db a.own a.id =
      answerRequest env cl' (addComments p.db a.id (comments es)) a.own a.id :=
    answerRequest_congr (getIssue_addComments hi (comments es)) hj halike ⟨hone.source, hone.ref⟩
  cases hreq : answerRequest env cl' (addComments p.db a.id (comments es)) a.own a.id with
  | error e =>
    rw [hreq] at hsame
    unfold answerCmd
    simp only [hsame, hreq]
    exact ⟨rfl, (fun rid hok => by cases hok), (fun rid hok => by cases hok)⟩
  | ok out =>
    rw [hreq] at hsame
    obtain ⟨uuid, -, hout⟩ := request_of_answerRequest (getIssue_addComments hi (comments es)) hreq
    obtain ⟨hu, hlast⟩ := h.handled hone hhit hsame server
    obtain ⟨-, honly⟩ := h₀.handled hone hhit hreq server'
    unfold answerCmd
    simp only [hsame, hreq]
    rcases hlast with ⟨k, peer', heq, hit, copied, hcopied, rfl⟩ | ⟨hnone, heq⟩
    · -- both runs apply the answer, and to the same issue
      rw [hout] at hu hit hcopied
      have heq₀ := handleAnswer_once a.own (hhit uuid hu) hit server' (i.comments ++ comments es)
      simp only [heq]
      rw [hout]
      simp only [heq₀]
      refine ⟨rfl, fun rid _ => h.finish, fun rid hok => ?_⟩
      obtain rfl := Except.ok.inj hok
      refine ⟨uuid, k, _, copied, hu, Db.getIssue_of_mem hit.1, rfl, rfl, rfl, hcopied, fun c => ?_⟩
      calc copied.count c
          ≤ (newContents a.own (answerOf uuid (i.comments ++ comments es)) k).count c := hcopied.count c
        _ ≤ (resultContents a.own (answerOf uuid (i.comments ++ comments es))).count c :=
            List.filter_sublist.count_le c
    · have heq₀ := honly.resolve_left fun ⟨k, _, _, hdel⟩ => hnone k hdel.hit
      simp only [heq, heq₀.2]
      exact ⟨rfl, (fun rid hok => by cases hok), (fun rid hok => by cases hok)⟩

end Runs

/-! ### Results in three batches -/

/-- `repo-b` answers its issue 1. -/
def byRepoB : Answering := ⟨"repo-b", 1⟩

/-- The issue of `repo-b`, which came from `repo-a`. -/
def received : Issue :=
  ⟨1, "uuid-2", "My question", none, "high", "open",
    {"xb:inbound", "xb-source:repo-a", "xb-ref:uuid-1"}, []⟩

def askedPair : Pair := ⟨⟨[received], by decide⟩, asked⟩

def anySocket : Env := ⟨["run"], fun _ => true⟩

/-- The response to the first answer is lost, the second is cut off after the label, the third runs to
its end; comments are written before and between them, one of them twice. -/
def threeBatches : List Event :=
  [.comment ⟨"42", "result"⟩, .attempt anySocket byRow byRow .beforeReading, .comment ⟨"why", "note"⟩,
    .comment ⟨"43", "result"⟩, .attempt anySocket byRow byRow .labelled, .comment ⟨"42", "result"⟩,
    .attempt anySocket byRow byRow .finished, .comment ⟨"44", "result"⟩]

lemma oneRoute_received : OneRoute received := by
  have hsource : ∀ x, sourcePrefix ++ x ∈ received.labels → x = "repo-a" := by
    intro x hx
    simp only [received, Finset.mem_insert, Finset.mem_singleton] at hx
    rcases hx with h | h | h
    · exact absurd h <| append_ne_of_prefix (by decide)
    · exact append_injective sourcePrefix h
    · exact absurd h <| append_ne_of_prefix (by decide)
  have href : ∀ u, Server.refLabel u ∈ received.labels → u = "uuid-1" := by
    intro u hu
    simp only [received, Finset.mem_insert, Finset.mem_singleton] at hu
    rcases hu with h | h | h
    · exact absurd h <| refLabel_ne_of_prefix (by decide)
    · exact absurd h <| refLabel_ne_of_prefix (by decide)
    · exact refLabel_injective h
  exact ⟨fun x y hx hy => (hsource x hx).trans (hsource y hy).symm,
    fun u v hu hv => (href u hu).trans (href v hv).symm⟩

theorem answerCmd_after_history_threeBatches :
    (answerCmd byRepoB anySocket byRow byRow (threeBatches.foldl (event byRepoB) askedPair)).1 = .ok 1 ∧
    AsOnce byRepoB received askedPair (comments threeBatches)
      (answerCmd byRepoB anySocket byRow byRow (threeBatches.foldl (event byRepoB) askedPair))
      (answerCmd byRepoB anySocket byRow byRow
        { askedPair with db := addComments askedPair.db 1 (comments threeBatches) }) := by
  refine ⟨rfl, answerCmd_after_history byRepoB threeBatches anySocket byRow byRow byRow byRow rfl
    oneRoute_received fun u _ j k hj hk => ?_⟩
  exact (List.mem_singleton.mp hj.1).trans (List.mem_singleton.mp hk.1).symm

end Crossbridge.Bridge.AnswerAgain
