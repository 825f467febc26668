import Crossbridge.Bridge.Network

/-!
A submission that is interrupted and run again.

`submit_cmd` may stop before the peer has its request, after the server of the peer has committed, or
between two of its labels (`Cut`). The second run may find the local labels changed and the remote
issue there: it forwards more labels, and the server returns the issue it has without looking at them.
So the two databases end up as after one run that nothing interrupts (`submitCmd_after_attempts`).
-/

namespace Crossbridge.Bridge.Resubmission

open Crossbridge.Protocol Crossbridge.Crosslink Crossbridge.Client Crossbridge.Server

/-! ### The command, and where it may stop -/

/-- The database of the repo that submits, and the repo of the peer. -/
structure Pair where
  db : Db
  peer : Repo

/-- Where `submit_cmd` stops: before the peer handles the request, before the response is read, or
with the first `k` labels written. -/
inductive Cut where
  | beforeSending
  | beforeReading
  | labels (k : ℕ)
  deriving DecidableEq, Repr

/-- What a submission is about: who submits which issue to whom, and the server of the peer. -/
structure Submission where
  own : String
  id : IssueId
  target : String
  server : Choices
  mat : Materialize

/-- `submit_cmd` without an interruption. -/
def submitCmd (s : Submission) (env : Env) (cl : Choices) (p : Pair) : Except String IssueId × Pair :=
  match submitRequest env cl p.db s.own s.id s.target with
  | .error e => (.error e, p)
  | .ok out =>
    let r := handleSubmit s.server noFaults s.mat out.request p.peer
    match r.1 with
    | .error message => (.error message, { p with peer := r.2 })
    | .ok id => (.ok id, ⟨submitFinish p.db s.id out.request.sourceUuid, r.2⟩)

/-- An attempt that is interrupted. -/
structure Attempt where
  env : Env
  cl : Choices
  cut : Cut

/-- What an attempt leaves behind. -/
def attempt (s : Submission) (p : Pair) (a : Attempt) : Pair :=
  match submitRequest a.env a.cl p.db s.own s.id s.target with
  | .error _ => p
  | .ok out =>
    let r := handleSubmit s.server noFaults s.mat out.request p.peer
    match a.cut with
    | .beforeSending => p
    | .beforeReading => { p with peer := r.2 }
    | .labels k =>
      match r.1 with
      | .error _ => { p with peer := r.2 }
      | .ok _ =>
        ⟨((outboundLabels out.request.sourceUuid).take k).foldl (fun db l => db.addLabel s.id l) p.db,
          r.2⟩

/-! ### The same submission with other labels -/

section Handler

variable {cl : Choices} {mat : Materialize} {submit submit' : SubmitIssue} {repo repo' : Repo}
  {id : IssueId}

/-- The order and the repetition of the labels of a request make no difference. -/
lemma handleSubmit_labels_congr {labels : List String} (h : ∀ l, l ∈ labels ↔ l ∈ submit.labels) :
    handleSubmit cl noFaults mat { submit with labels := labels } repo =
      handleSubmit cl noFaults mat submit repo := by
  have hsets : (inboundLabels { submit with labels := labels }).toFinset =
      (inboundLabels submit).toFinset := by
    ext l
    simp only [List.mem_toFinset, mem_inboundLabels, h]
  have hall : ∀ db id, addAll db id (inboundLabels { submit with labels := labels }) =
      addAll db id (inboundLabels submit) := by
    intro db id
    rw [addAll, addAll, hsets]
  unfold handleSubmit
  simp only [submitTx_ok (submitTxOk_noFaults _), hall]

/-- **Handled again.** A request for the same issue finds what the first one left. -/
theorem handleSubmit_again (h : handleSubmit cl noFaults mat submit repo = (.ok id, repo'))
    (hu : submit'.sourceUuid = submit.sourceUuid) :
    handleSubmit cl noFaults mat submit' repo' = (.ok id, repo') := by
  have hfound : findIssueWithLabel cl noFaults repo'.db (Server.refLabel submit'.sourceUuid) =
      .ok (some id) := by
    rw [hu]
    rcases handleSubmit_cases cl mat submit repo with
      ⟨id', hfind, heq⟩ | ⟨hnone, ⟨e, -, heq⟩ | ⟨i, r, heq, hrec⟩⟩
    · obtain ⟨rfl, rfl⟩ : id' = id ∧ repo = repo' := by simpa [heq] using h
      exact hfind
    · rw [heq] at h
      cases h
    · obtain ⟨rfl, rfl⟩ : i.id = id ∧ r = repo' := by simpa [heq] using h
      have hi : i ∈ r.db.issues := by
        rw [hrec.issues]
        exact List.mem_append_right _ (List.mem_singleton_self i)
      have hl : Server.refLabel submit.sourceUuid ∈ i.labels := by
        rw [hrec.labels, List.mem_toFinset, refLabel_mem_inboundLabels]
        exact Or.inl rfl
      obtain ⟨found, hfound⟩ := find_noFaults cl r.db (Server.refLabel submit.sourceUuid)
      cases found with
      | none => exact absurd hrec.status (find_none hfound hi hl).1
      | some id =>
        -- nothing that was there before is found, so it is the new issue
        obtain ⟨j, hj, hjl, hjs⟩ := find_some hfound
        have hmem := Db.mem_of_getIssue hj
        rw [hrec.issues, List.mem_append, List.mem_singleton] at hmem
        rcases hmem with hold | rfl
        · have hhidden := find_none hnone hold hjl
          exact absurd hjs (not_or.mpr hhidden)
        · rw [hfound, Db.id_of_getIssue hj]
  unfold handleSubmit
  rw [hfound]

end Handler

/-! ### What an attempt leaves behind -/

/-- The request for an issue, its labels listed as `labels`. -/
def requestOf (own : String) (i : Issue) (labels : List String) : SubmitIssue :=
  ⟨i.title, i.description.getD "", labels, own, i.uuid, []⟩

lemma handleSubmit_requestOf_congr {cl : Choices} {mat : Materialize} {own : String} {i : Issue}
    {labels labels' : List String} {repo : Repo} (h : ∀ l, l ∈ labels ↔ l ∈ labels') :
    handleSubmit cl noFaults mat (requestOf own i labels) repo =
      handleSubmit cl noFaults mat (requestOf own i labels') repo :=
  @handleSubmit_labels_congr cl mat (requestOf own i labels') repo labels h

/-- The server of the peer has made `rid` of the issue. -/
def Delivered (s : Submission) (i : Issue) (peer peer' : Repo) (rid : IssueId) : Prop :=
  ∀ labels, (∀ l, l ∈ labels ↔ l ∈ i.labels) →
    handleSubmit s.server noFaults s.mat (requestOf s.own i labels) peer = (.ok rid, peer')

/-- Nothing has happened, or the peer has the issue and some of the labels are written. -/
def Progress (s : Submission) (p q : Pair) : Prop :=
  q = p ∨ ∃ i rid ls, p.db.getIssue s.id = some i ∧ Delivered s i p.peer q.peer rid ∧
    (∀ l ∈ ls, l ∈ outboundLabels i.uuid) ∧ q.db = addAll p.db s.id ls

section Progress

variable {s : Submission} {env : Env} {cl : Choices} {db : Db} {p q : Pair} {i : Issue}
  {rid : IssueId} {ls : List String}

lemma addAll_addAll (db : Db) (id : IssueId) (ls ls' : List String) :
    addAll (addAll db id ls) id ls' = addAll db id (ls ++ ls') := by
  rw [addAll, addAll, addAll, Db.modify_modify]
  congr 1
  funext i
  simp [Finset.union_assoc]

lemma addAll_congr {id : IssueId} {ls ls' : List String} (h : ∀ l, l ∈ ls ↔ l ∈ ls') :
    addAll db id ls = addAll db id ls' := by
  have hset : ls.toFinset = ls'.toFinset := by
    ext l
    simp only [List.mem_toFinset, h]
  rw [addAll, addAll, hset]

lemma getIssue_addAll (h : db.getIssue s.id = some i) (ls : List String) :
    (addAll db s.id ls).getIssue s.id = some { i with labels := i.labels ∪ ls.toFinset } := by
  rw [addAll, Db.getIssue_modify_self h, ← Db.id_of_getIssue h]

lemma submitFinish_eq (db : Db) (id : IssueId) (uuid : String) :
    submitFinish db id uuid = addAll db id (outboundLabels uuid) :=
  foldl_addLabel (outboundLabels uuid) db

/-- The labels of `submit_cmd` on an issue that has some of them. -/
lemma submitFinish_addAll {id : IssueId} {uuid : String} (h : ∀ l ∈ ls, l ∈ outboundLabels uuid) :
    submitFinish (addAll db id ls) id uuid = submitFinish db id uuid := by
  rw [submitFinish_eq, submitFinish_eq, addAll_addAll]
  refine addAll_congr fun l => ?_
  rw [List.mem_append]
  constructor
  · rintro (hl | hl)
    · exact h l hl
    · exact hl
  · exact Or.inr

lemma submitRequest_eq (h : db.getIssue s.id = some i) :
    submitRequest env cl db s.own s.id s.target =
      if env.fileExists (socketPath env.root s.own s.target) then
        .ok ⟨s.target, socketPath env.root s.own s.target, requestOf s.own i (cl.labelOrder i.labels)⟩
      else .error ("peer '" ++ s.target ++ "' not available (not connected)") := by
  unfold submitRequest
  simp only [h, Db.getLabels]
  rfl

/-- A request is handled, or it leaves the peer as it was. -/
lemma delivered_or_error (s : Submission) (i : Issue) (peer : Repo) :
    (∃ rid peer', Delivered s i peer peer' rid) ∨
      ∃ e, ∀ labels, (∀ l, l ∈ labels ↔ l ∈ i.labels) →
        handleSubmit s.server noFaults s.mat (requestOf s.own i labels) peer = (.error e, peer) := by
  have hsame : ∀ labels, (∀ l, l ∈ labels ↔ l ∈ i.labels) →
      handleSubmit s.server noFaults s.mat (requestOf s.own i labels) peer =
        handleSubmit s.server noFaults s.mat (requestOf s.own i (sortLabels i.labels)) peer := by
    intro labels h
    exact handleSubmit_requestOf_congr fun l => (h l).trans (mem_sortLabels _ l).symm
  rcases handleSubmit_cases s.server s.mat (requestOf s.own i (sortLabels i.labels)) peer with
    ⟨id, -, heq⟩ | ⟨-, ⟨e, -, heq⟩ | ⟨k, r, heq, -⟩⟩
  · exact Or.inl ⟨id, peer, fun labels h => (hsame labels h).trans heq⟩
  · exact Or.inr ⟨_, fun labels h => (hsame labels h).trans heq⟩
  · exact Or.inl ⟨k.id, r, fun labels h => (hsame labels h).trans heq⟩

/-- The request of the issue as it is now is handled like the one of the issue as it was. -/
lemma delivered_again {peer peer' : Repo} (h : Delivered s i peer peer' rid) (labels : List String) :
    handleSubmit s.server noFaults s.mat (requestOf s.own i labels) peer' = (.ok rid, peer') :=
  handleSubmit_again (h (sortLabels i.labels) (mem_sortLabels _)) rfl

/-- **One attempt.** -/
theorem progress_attempt (h : Progress s p q) (a : Attempt) : Progress s p (attempt s q a) := by
  have hlabels : ∀ (uuid : String) (k : ℕ), ∀ l ∈ (outboundLabels uuid).take k, l ∈ outboundLabels uuid :=
    fun uuid k l hl => List.mem_of_mem_take hl
  unfold attempt
  cases hreq : submitRequest a.env a.cl q.db s.own s.id s.target with
  | error e => exact h
  | ok out =>
    obtain ⟨j, hj, -⟩ := submitRequest_ok hreq
    rw [submitRequest_eq hj] at hreq
    split at hreq
    · obtain rfl := Except.ok.inj hreq
      rcases h with rfl | ⟨i, rid, ls, hi, hdel, hls, hdb⟩
      · -- this attempt is the first one to get through
        rcases delivered_or_error s j q.peer with ⟨rid, peer', hdel⟩ | ⟨e, he⟩
        · have hok := hdel (a.cl.labelOrder j.labels) (a.cl.mem_labelOrder _)
          cases hcut : a.cut with
          | beforeSending => exact Or.inl rfl
          | beforeReading =>
            refine Or.inr ⟨j, rid, [], hj, ?_, by simp, ?_⟩
            · simpa only [hok] using hdel
            · exact (foldl_addLabel [] q.db)
          | labels k =>
            refine Or.inr ⟨j, rid, (outboundLabels j.uuid).take k, hj, ?_, hlabels j.uuid k, ?_⟩
            · simpa only [hok] using hdel
            · simp only [hok]
              exact foldl_addLabel _ _
        · have herr := he (a.cl.labelOrder j.labels) (a.cl.mem_labelOrder _)
          left
          cases hcut : a.cut with
          | beforeSending => rfl
          | beforeReading => simp only [herr]
          | labels k => simp only [herr]
      · -- the peer has the issue, whatever labels are forwarded now
        rw [hdb, getIssue_addAll hi] at hj
        obtain rfl := Option.some.inj hj
        have hok : handleSubmit s.server noFaults s.mat (requestOf s.own
            { i with labels := i.labels ∪ ls.toFinset } (a.cl.labelOrder (i.labels ∪ ls.toFinset)))
            q.peer = (.ok rid, q.peer) := delivered_again hdel _
        cases hcut : a.cut with
        | beforeSending => exact Or.inr ⟨i, rid, ls, hi, hdel, hls, hdb⟩
        | beforeReading =>
          refine Or.inr ⟨i, rid, ls, hi, ?_, hls, hdb⟩
          simpa only [hok] using hdel
        | labels k =>
          refine Or.inr ⟨i, rid, ls ++ (outboundLabels i.uuid).take k, hi, ?_, fun l hl => ?_, ?_⟩
          · simpa only [hok] using hdel
          · rw [List.mem_append] at hl
            rcases hl with hl | hl
            · exact hls l hl
            · exact hlabels i.uuid k l hl
          · simp only [hok]
            rw [← addAll_addAll, ← hdb]
            exact foldl_addLabel _ _
    · cases hreq

/-- **Any number of attempts.** -/
theorem progress_attempts (as : List Attempt) (h : Progress s p q) :
    Progress s p (as.foldl (attempt s) q) := by
  induction as generalizing q with
  | nil => exact h
  | cons a as ih => exact ih (progress_attempt h a)

/-- `submit_cmd` on an issue. -/
lemma submitCmd_eq (h : p.db.getIssue s.id = some i) : submitCmd s env cl p =
    if env.fileExists (socketPath env.root s.own s.target) then
      let r := handleSubmit s.server noFaults s.mat (requestOf s.own i (cl.labelOrder i.labels)) p.peer
      match r.1 with
      | .error message => (.error message, { p with peer := r.2 })
      | .ok id => (.ok id, ⟨submitFinish p.db s.id i.uuid, r.2⟩)
    else (.error ("peer '" ++ s.target ++ "' not available (not connected)"), p) := by
  unfold submitCmd
  rw [submitRequest_eq h]
  split
  · rename_i heq
    split at heq
    · cases heq
    · rename_i hsock
      rw [if_neg hsock, Except.error.inj heq]
  · rename_i heq
    split at heq
    · rename_i hsock
      obtain rfl := Except.ok.inj heq
      rw [if_pos hsock]
      rfl
    · cases heq

/-- The order in which the labels are listed makes no difference. -/
lemma submitCmd_congr (cl cl' : Choices) : submitCmd s env cl p = submitCmd s env cl' p := by
  cases hi : p.db.getIssue s.id with
  | none =>
    unfold submitCmd submitRequest
    simp only [hi]
  | some i =>
    rw [submitCmd_eq hi, submitCmd_eq hi]
    have hlabels : ∀ l, l ∈ cl.labelOrder i.labels ↔ l ∈ cl'.labelOrder i.labels :=
      fun l => (cl.mem_labelOrder _ l).trans (cl'.mem_labelOrder _ l).symm
    rw [handleSubmit_requestOf_congr hlabels]

end Progress

/-- **Run again to success.** After any number of attempts that were interrupted, whatever sockets
there were and however labels were listed, `submit_cmd` succeeds exactly when it would have succeeded
without them, with the same remote issue, and leaves both databases as it would have. -/
theorem submitCmd_after_attempts (s : Submission) (as : List Attempt) (env : Env) (cl cl' : Choices)
    (p p' : Pair) (rid : IssueId) :
    submitCmd s env cl (as.foldl (attempt s) p) = (.ok rid, p') ↔
      submitCmd s env cl' p = (.ok rid, p') := by
  rw [submitCmd_congr cl cl']
  rcases progress_attempts (q := p) as (Or.inl rfl) with heq | ⟨i, rid', ls, hi, hdel, hls, hdb⟩
  · rw [heq]
  · have hi' := getIssue_addAll hi ls
    rw [← hdb] at hi'
    have hfirst := hdel (cl'.labelOrder i.labels) (cl'.mem_labelOrder _)
    have hagain : handleSubmit s.server noFaults s.mat (requestOf s.own
        { i with labels := i.labels ∪ ls.toFinset } (cl'.labelOrder (i.labels ∪ ls.toFinset)))
        (as.foldl (attempt s) p).peer = (.ok rid', (as.foldl (attempt s) p).peer) :=
      delivered_again hdel _
    rw [submitCmd_eq hi, submitCmd_eq hi', hfirst, hagain, hdb]
    by_cases hsock : env.fileExists (socketPath env.root s.own s.target) = true
    · simp only [hsock, if_true, submitFinish_addAll hls]
    · simp [hsock]

end Crossbridge.Bridge.Resubmission
