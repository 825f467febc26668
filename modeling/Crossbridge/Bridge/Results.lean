import Crossbridge.Bridge.RefLabels
import Crossbridge.Server.Answers

/-!
Where results come from, and where they go.

The network of repos with the comments that its agents write, at any time and in any repo. Two things
are recorded beside the network (`Traced`): the comments that were written, and the answers that a peer
has accepted. In every run, an answer that was accepted holds results of the issue that was answered
(`Sent`), and every one of them is on the issue of the addressed repo to which it was applied (`Arrived`);
and a comment that was not written where it stands is a result of the peer that it names, on an issue that
has the same reference and names this repo as its source (`results_of_run`).

The two issues of an answer have a reference in common. That need not make the one the issue whose
submission the other came from: an issue that was received and submitted on has two references.
-/

namespace Crossbridge.Bridge.Results

open Crossbridge.Protocol Crossbridge.Crosslink Crossbridge.Client Crossbridge.Server Crossbridge.Runs

/-- An answer that was accepted: by whom it was sent, for which of their issues, to whom, and to which
issue it was applied. -/
structure Answer where
  src : String
  id : IssueId
  target : String
  request : SubmitAnswer
  remote : IssueId

/-- The network, with what was written and what was accepted. -/
structure Traced where
  net : Network
  written : List (String × IssueId × Comment)
  accepted : List Answer

def Traced.init (n : Network) : Traced := ⟨n, [], []⟩

inductive Event where
  | net (a : Action)
  /-- An agent writes a comment. -/
  | comment (r : String) (id : IssueId) (c : Comment)

/-- The answer that a step accepts, if it does. -/
def acceptedBy (n : Network) : Action → Option Answer
  | .handleAnswer cl k =>
    match n.flights[k]? with
    | some (.answer src id target request) =>
      match (handleAnswer cl noFaults src request (n.repo target).db).1 with
      | .ok remote => some ⟨src, id, target, request, remote⟩
      | .error _ => none
    | _ => none
  | _ => none

def step (t : Traced) : Event → Option Traced
  | .net a =>
    match Bridge.step t.net a with
    | none => none
    | some n => some { t with net := n, accepted := t.accepted ++ (acceptedBy t.net a).toList }
  | .comment r id c =>
    some { t with
      net := t.net.setDb r ((t.net.repo r).db.addComment id c)
      written := t.written ++ [(r, id, c)] }

/-! ### What a step does to the comments of a database -/

/-- No comment is lost and no label but `xb-status:pending`; and the comments that are new are among `cs`,
on the issue `id`. -/
structure Extends (db db' : Db) (id : IssueId) (cs : List Comment) : Prop where
  kept : ∀ i ∈ db.issues, ∃ i' ∈ db'.issues, i'.id = i.id ∧ i.comments ⊆ i'.comments ∧
    ∀ l, l ≠ "xb-status:pending" → l ∈ i.labels → l ∈ i'.labels
  new : ∀ i' ∈ db'.issues, ∀ c ∈ i'.comments,
    (∃ i ∈ db.issues, i.id = i'.id ∧ c ∈ i.comments) ∨ (i'.id = id ∧ c ∈ cs)

section Extends

variable {db db' : Db} {id : IssueId} {cs : List Comment}

lemma extends_refl (db : Db) (id : IssueId) (cs : List Comment) : Extends db db id cs where
  kept i hi := ⟨i, hi, rfl, List.Subset.refl _, fun _ _ hl => hl⟩
  new i hi _ hc := Or.inl ⟨i, hi, rfl, hc⟩

lemma extends_modify {g : Issue → Issue} (hkept : ∀ i, i.comments ⊆ (g i).comments)
    (hlabels : ∀ i l, l ≠ "xb-status:pending" → l ∈ i.labels → l ∈ (g i).labels)
    (hnew : ∀ i, db.getIssue id = some i → ∀ c ∈ (g i).comments, c ∈ i.comments ∨ c ∈ cs) :
    Extends db (db.modify id g) id cs where
  kept i hi := by
    by_cases hid : i.id = id
    · exact ⟨_, Db.mem_modify.mpr (Or.inr ⟨i, hi, hid, rfl⟩), hid.symm, hkept i, hlabels i⟩
    · exact ⟨i, Db.mem_modify.mpr (Or.inl ⟨hi, hid⟩), rfl, List.Subset.refl _, fun _ _ hl => hl⟩
  new i' hi' c hc := by
    rcases Db.mem_modify.mp hi' with ⟨hi', -⟩ | ⟨i, hi, hid, rfl⟩
    · exact Or.inl ⟨i', hi', rfl, hc⟩
    · rcases hnew i (hid ▸ Db.getIssue_of_mem hi) c hc with hold | hnew
      · exact Or.inl ⟨i, hi, hid, hold⟩
      · exact Or.inr ⟨rfl, hnew⟩

/-- A change that leaves the comments alone. -/
lemma extends_of_comments {g : Issue → Issue} (hcomments : ∀ i, (g i).comments = i.comments)
    (hlabels : ∀ i l, l ≠ "xb-status:pending" → l ∈ i.labels → l ∈ (g i).labels) :
    Extends db (db.modify id g) id cs := by
  refine extends_modify (fun i => ?_) hlabels fun i _ c hc => Or.inl ?_
  · rw [hcomments]
    exact List.Subset.refl _
  · rwa [hcomments] at hc

/-- A new issue, without comments. -/
lemma extends_append {n : Issue} (h : db'.issues = db.issues ++ [n]) (hn : n.comments = [])
    (id : IssueId) (cs : List Comment) : Extends db db' id cs where
  kept i hi := by
    refine ⟨i, ?_, rfl, List.Subset.refl _, fun _ _ hl => hl⟩
    rw [h]
    exact List.mem_append_left _ hi
  new i' hi' c hc := by
    rw [h, List.mem_append, List.mem_singleton] at hi'
    rcases hi' with hi' | rfl
    · exact Or.inl ⟨i', hi', rfl, hc⟩
    · rw [hn] at hc
      cases hc

lemma Extends.trans {db'' : Db} (h : Extends db db' id []) (h' : Extends db' db'' id []) :
    Extends db db'' id [] where
  kept i hi := by
    obtain ⟨i', hi', hid, hcomments, hlabels⟩ := h.kept i hi
    obtain ⟨i'', hi'', hid', hcomments', hlabels'⟩ := h'.kept i' hi'
    exact ⟨i'', hi'', hid'.trans hid, List.Subset.trans hcomments hcomments',
      fun l hl hin => hlabels' l hl (hlabels l hl hin)⟩
  new i'' hi'' c hc := by
    rcases h'.new i'' hi'' c hc with ⟨i', hi', hid', hc'⟩ | ⟨-, hno⟩
    · rcases h.new i' hi' c hc' with ⟨i, hi, hid, hc⟩ | ⟨-, hno⟩
      · exact Or.inl ⟨i, hi, hid.trans hid', hc⟩
      · cases hno
    · cases hno

lemma extends_setStatus (status : String) : Extends db (db.setStatus id status) id cs :=
  extends_of_comments (fun _ => rfl) fun _ _ _ hl => hl

lemma extends_addLabel (l : String) : Extends db (db.addLabel id l) id cs :=
  extends_of_comments (fun _ => rfl) fun _ _ _ hl => Finset.mem_insert_of_mem hl

lemma extends_answerFinish : Extends db (answerFinish db id) id [] :=
  (extends_addLabel statusAnswered).trans (extends_setStatus "closed")

lemma extends_addComment (c : Comment) : Extends db (db.addComment id c) id [c] :=
  extends_modify (fun _ => List.subset_append_left _ _) (fun _ _ _ hl => hl)
    fun _ _ _ hc => List.mem_append.mp hc

/-- A request without attachments writes no comment. -/
lemma extends_handleSubmit {cl : Choices} {mat : Materialize} {request : SubmitIssue} {repo : Repo}
    (h : request.attachments = []) (id : IssueId) :
    Extends repo.db (handleSubmit cl noFaults mat request repo).2.db id [] := by
  obtain ⟨r, hfind⟩ := find_noFaults cl repo.db (Server.refLabel request.sourceUuid)
  unfold handleSubmit
  rw [hfind]
  cases r with
  | some existing => exact extends_refl _ _ _
  | none =>
    simp only [noFaults_apply]
    cases hc : repo.db.createIssue cl request.title (some (request.body ++ answerInstructionFooter))
        "high" with
    | error e => exact extends_refl _ _ _
    | ok r =>
      obtain ⟨new, db'⟩ := r
      simp only [submitTx_ok (submitTxOk_noFaults request), attach, h, if_true]
      exact extends_append (Db.issues_modify_append (Db.createIssue_ok hc).2) rfl id []

/-- The comments that an answer may bring. -/
def copies (src : String) (request : SubmitAnswer) : List Comment :=
  (resultContents src request).map fun c => ⟨c, "result"⟩

/-- An answer that is accepted. -/
lemma extends_applied (src : String) (request : SubmitAnswer) :
    Extends db (db.modify id (applied src request)) id (copies src request) := by
  refine extends_modify (fun i => List.subset_append_left _ _) (fun i l hl hin => ?_)
    fun i _ c hc => ?_
  · exact Finset.mem_insert_of_mem (Finset.mem_erase.mpr ⟨hl, hin⟩)
  · rcases List.mem_append.mp hc with hold | hnew
    · exact Or.inl hold
    · obtain ⟨x, hx, rfl⟩ := List.mem_map.mp hnew
      exact Or.inr (List.mem_map_of_mem (List.mem_of_mem_filter hx))

/-- All contents of an answer are on its issue in the end. -/
lemma mem_comments_applied {src : String} {request : SubmitAnswer} {x : String}
    (h : x ∈ resultContents src request) (i : Issue) :
    ∃ c ∈ (applied src request i).comments, c.content = x := by
  have hnew : x ∉ newContents src request (applied src request i) := by
    rw [newContents_applied]
    exact List.not_mem_nil
  by_contra hnone
  refine hnew (List.mem_filter.mpr ⟨h, ?_⟩)
  rw [decide_eq_true_iff]
  intro hin
  obtain ⟨c, hc, heq⟩ := List.mem_map.mp hin
  exact hnone ⟨c, hc, heq⟩

end Extends

/-! ### What a step of the network does -/

/-- One repo has new comments, of `cs`, on the issue `id`. -/
structure Touches (n n' : Network) (r : String) (id : IssueId) (cs : List Comment) : Prop where
  others : ∀ s ≠ r, n'.repo s = n.repo s
  self : Extends (n.repo r).db (n'.repo r).db id cs

/-- The request is for the issue `j`, and has results of it. -/
structure Sent (n : Network) (src : String) (id : IssueId) (target : String) (request : SubmitAnswer)
    (j : Issue) : Prop where
  mem : j ∈ (n.repo src).db.issues
  id : j.id = id
  inbound : inbound ∈ j.labels
  source : Server.sourceLabel target ∈ j.labels
  ref : Server.refLabel request.sourceUuid ∈ j.labels
  comments : ∀ c ∈ request.comments, c.kind = "result" ∧ ⟨c.content, c.kind⟩ ∈ j.comments

/-- A flight that speaks of nothing that was accepted. -/
def Plain (n : Network) : Flight → Prop
  | .submit _ _ _ request => request.attachments = []
  | .labels .. => True
  | .answer src id target request => ∃ j, Sent n src id target request j
  | .answered .. => False

/-- A step that accepts no answer: no comment is new. -/
structure Quiet (n n' : Network) (a : Action) : Prop where
  touches : ∃ r id, Touches n n' r id []
  accepted : acceptedBy n a = none
  flights : ∀ f ∈ n'.flights, f ∈ n.flights ∨ Plain n f

/-- A step that accepts an answer. -/
structure Accepts (n n' : Network) (a : Action) (e : Answer) : Prop where
  accepted : acceptedBy n a = some e
  flight : .answer e.src e.id e.target e.request ∈ n.flights
  found : ∃ i, (n.repo e.target).db.getIssue e.remote = some i ∧
    Server.refLabel e.request.sourceUuid ∈ i.labels
  repo : n'.repo = (n.setDb e.target ((n.repo e.target).db.modify e.remote
    (applied e.src e.request))).repo
  flights : ∀ f ∈ n'.flights, f ∈ n.flights ∨ f = .answered e.src e.id

section Step

variable {n n' : Network} {a : Action}

lemma touches_setRepo {r : String} {repo : Repo} {id : IssueId} {cs : List Comment}
    (h : Extends (n.repo r).db repo.db id cs) (fl : List Flight) :
    Touches n { n.setRepo r repo with flights := fl } r id cs where
  others s hs := Function.update_of_ne hs _ _
  self := by
    simp only [Network.setRepo, Function.update_self]
    exact h

lemma touches_setDb {r : String} {db : Db} {id : IssueId} {cs : List Comment}
    (h : Extends (n.repo r).db db id cs) (fl : List Flight) :
    Touches n { n.setDb r db with flights := fl } r id cs :=
  touches_setRepo h fl

lemma touches_flights (fl : List Flight) (r : String) (id : IssueId) :
    Touches n { n with flights := fl } r id [] :=
  ⟨fun _ _ => rfl, extends_refl _ _ _⟩

/-- **What a step does**: it accepts an answer, or writes no comment. -/
theorem step_cases (hplain : ∀ src id target request, .submit src id target request ∈ n.flights →
      request.attachments = []) (hstep : Bridge.step n a = some n') :
    Quiet n n' a ∨ ∃ e, Accepts n n' a e := by
  cases a with
  | create r cl title description priority labels =>
    simp only [Bridge.step] at hstep
    split at hstep
    · cases hstep
    · rename_i id db hc
      obtain rfl := Option.some.inj hstep
      have hext : Extends (n.repo r).db (addAll db id labels) id [] :=
        extends_append (Db.issues_modify_append (Db.createIssue_ok hc).2) rfl id []
      exact Or.inl ⟨⟨r, id, touches_setDb hext n.flights⟩, rfl, fun f hf => Or.inl hf⟩
  | setStatus r id closed =>
    obtain rfl := Option.some.inj hstep
    exact Or.inl ⟨⟨r, id, touches_setDb (extends_setStatus _) n.flights⟩, rfl, fun f hf => Or.inl hf⟩
  | submit env cl src id target =>
    simp only [Bridge.step] at hstep
    split at hstep
    · cases hstep
    · split at hstep
      · cases hstep
      · rename_i out hout
        obtain rfl := Option.some.inj hstep
        refine Or.inl ⟨⟨src, id, touches_flights _ _ _⟩, rfl, fun f hf => ?_⟩
        rcases List.mem_append.mp hf with hf | hf
        · exact Or.inl hf
        · rw [List.mem_singleton.mp hf]
          exact Or.inr (attachments_of_submitRequest hout)
  | handleSubmit cl mat k =>
    simp only [Bridge.step] at hstep
    split at hstep
    · rename_i src id target request hk
      have hatt := hplain src id target request (List.mem_of_getElem? hk)
      have hext : Extends (n.repo target).db
          (Server.handleSubmit cl noFaults mat request (n.repo target)).2.db id [] :=
        extends_handleSubmit hatt id
      split at hstep
      · obtain rfl := Option.some.inj hstep
        exact Or.inl ⟨⟨target, id, touches_setRepo hext _⟩, rfl,
          fun f hf => Or.inl (List.mem_of_mem_eraseIdx hf)⟩
      · obtain rfl := Option.some.inj hstep
        refine Or.inl ⟨⟨target, id, touches_setRepo hext _⟩, rfl, fun f hf => ?_⟩
        exact (List.mem_or_eq_of_mem_set hf).imp_right fun heq => by rw [heq]; trivial
    · cases hstep
  | writeLabel k =>
    simp only [Bridge.step] at hstep
    split at hstep
    · rename_i src id l todo hk
      obtain rfl := Option.some.inj hstep
      refine Or.inl ⟨⟨src, id, touches_setDb (extends_addLabel l) _⟩, rfl, fun f hf => ?_⟩
      exact (List.mem_or_eq_of_mem_set hf).imp_right fun heq => by rw [heq]; trivial
    · cases hstep
  | answer env cl src id =>
    simp only [Bridge.step] at hstep
    split at hstep
    · cases hstep
    · rename_i out hout
      obtain rfl := Option.some.inj hstep
      refine Or.inl ⟨⟨src, id, touches_flights _ _ _⟩, rfl, fun f hf => ?_⟩
      rcases List.mem_append.mp hf with hf | hf
      · exact Or.inl hf
      · right
        rw [List.mem_singleton.mp hf]
        obtain ⟨j, hj, hin, hsource, href, -, hcomments⟩ := issue_of_answerRequest hout
        refine ⟨j, Db.mem_of_getIssue hj, Db.id_of_getIssue hj, hin, hsource, href, fun c hc => ?_⟩
        rw [hcomments] at hc
        obtain ⟨c', hc', rfl⟩ := List.mem_map.mp hc
        rw [List.mem_filter, decide_eq_true_iff] at hc'
        exact ⟨hc'.2, hc'.1⟩
  | handleAnswer cl k =>
    simp only [Bridge.step] at hstep
    split at hstep
    · rename_i src id target request hk
      rcases hr : Server.handleAnswer cl noFaults src request (n.repo target).db with ⟨r | remote, db'⟩
      · have hsame : db' = (n.repo target).db := by
          rcases handleAnswer_cases cl src request (n.repo target).db with ⟨-, e, heq⟩ | ⟨i, -, -, heq⟩
          · rw [hr] at heq
            exact congrArg Prod.snd heq
          · rw [hr] at heq
            cases congrArg Prod.fst heq
        rw [hr] at hstep
        obtain rfl := Option.some.inj hstep
        refine Or.inl ⟨⟨target, id, touches_setDb ?_ _⟩, ?_, fun f hf =>
          Or.inl (List.mem_of_mem_eraseIdx hf)⟩
        · rw [hsame]
          exact extends_refl _ _ _
        · simp only [acceptedBy, hk, hr]
      · obtain ⟨hfind, rfl⟩ := handleAnswer_ok hr
        obtain ⟨i, hi, hl, -⟩ := find_some hfind
        rw [hr] at hstep
        obtain rfl := Option.some.inj hstep
        refine Or.inr ⟨⟨src, id, target, request, remote⟩, ?_, List.mem_of_getElem? hk, ⟨i, hi, hl⟩, rfl,
          fun f hf => List.mem_or_eq_of_mem_set hf⟩
        simp only [acceptedBy, hk, hr]
    · cases hstep
  | finishAnswer k =>
    simp only [Bridge.step] at hstep
    split at hstep
    · rename_i src id hk
      obtain rfl := Option.some.inj hstep
      exact Or.inl ⟨⟨src, id, touches_setDb extends_answerFinish _⟩, rfl,
        fun f hf => Or.inl (List.mem_of_mem_eraseIdx hf)⟩
    · cases hstep
  | lose k =>
    obtain rfl := Option.some.inj hstep
    exact Or.inl ⟨⟨"", 0, touches_flights _ _ _⟩, rfl, fun f hf => Or.inl (List.mem_of_mem_eraseIdx hf)⟩

end Step

/-! ### What every run keeps -/

/-- All results of an accepted answer are on the issue it was applied to. -/
structure Arrived (n : Network) (e : Answer) (i : Issue) : Prop where
  mem : i ∈ (n.repo e.target).db.issues
  id : i.id = e.remote
  ref : Server.refLabel e.request.sourceUuid ∈ i.labels
  comments : ∀ c ∈ e.request.comments, ∃ c' ∈ i.comments,
    c'.content = "[from " ++ e.src ++ "] " ++ c.content

/-- Where a comment on the issue `id` of `r` comes from: it was there, or was written there, or was in an
answer that was applied there. -/
def Origin (n₀ : Network) (t : Traced) (r : String) (id : IssueId) (c : Comment) : Prop :=
  (∃ i ∈ (n₀.repo r).db.issues, i.id = id ∧ c ∈ i.comments) ∨ (r, id, c) ∈ t.written ∨
    ∃ e ∈ t.accepted, e.target = r ∧ e.remote = id ∧ c ∈ copies e.src e.request

def FlightOk (t : Traced) : Flight → Prop
  | .answered src id => ∃ e ∈ t.accepted, e.src = src ∧ e.id = id
  | f => Plain t.net f

/-- The invariant, for the runs from `n₀`. -/
structure Inv (n₀ : Network) (t : Traced) : Prop where
  flights : ∀ f ∈ t.net.flights, FlightOk t f
  sent : ∀ e ∈ t.accepted, ∃ j, Sent t.net e.src e.id e.target e.request j
  arrived : ∀ e ∈ t.accepted, ∃ i, Arrived t.net e i
  origin : ∀ r, ∀ i ∈ (t.net.repo r).db.issues, ∀ c ∈ i.comments, Origin n₀ t r i.id c

section Inv

variable {n₀ n n' : Network} {t t' : Traced} {r : String} {id : IssueId} {cs : List Comment}

/-- Every issue is still there, with its comments and all labels that matter here. -/
lemma Touches.kept (h : Touches n n' r id cs) {s : String} {i : Issue} (hi : i ∈ (n.repo s).db.issues) :
    ∃ i' ∈ (n'.repo s).db.issues, i'.id = i.id ∧ i.comments ⊆ i'.comments ∧
      ∀ l, l ≠ "xb-status:pending" → l ∈ i.labels → l ∈ i'.labels := by
  by_cases hs : s = r
  · subst hs
    exact h.self.kept i hi
  · rw [h.others s hs]
    exact ⟨i, hi, rfl, List.Subset.refl _, fun _ _ hl => hl⟩

lemma Sent.keep (h : Touches n n' r id cs) {src target : String} {idS : IssueId} {request : SubmitAnswer}
    {j : Issue} (hsent : Sent n src idS target request j) : ∃ j', Sent n' src idS target request j' := by
  obtain ⟨j', hj', hid, hcomments, hlabels⟩ := h.kept hsent.mem
  have hsource : Server.sourceLabel target ≠ "xb-status:pending" := sourceLabel_ne_of_prefix (by decide)
  have href : Server.refLabel request.sourceUuid ≠ "xb-status:pending" :=
    refLabel_ne_of_prefix (by decide)
  refine ⟨j', hj', hid.trans hsent.id, hlabels _ (by decide) hsent.inbound,
    hlabels _ hsource hsent.source, hlabels _ href hsent.ref, fun c hc => ?_⟩
  exact ⟨(hsent.comments c hc).1, hcomments (hsent.comments c hc).2⟩

lemma Arrived.keep (h : Touches n n' r id cs) {e : Answer} {i : Issue} (harr : Arrived n e i) :
    ∃ i', Arrived n' e i' := by
  obtain ⟨i', hi', hid, hcomments, hlabels⟩ := h.kept harr.mem
  have href : Server.refLabel e.request.sourceUuid ≠ "xb-status:pending" :=
    refLabel_ne_of_prefix (by decide)
  refine ⟨i', hi', hid.trans harr.id, hlabels _ href harr.ref, fun c hc => ?_⟩
  obtain ⟨c', hc', heq⟩ := harr.comments c hc
  exact ⟨c', hcomments hc', heq⟩

lemma FlightOk.keep (h : Touches t.net t'.net r id cs) (hacc : ∀ e ∈ t.accepted, e ∈ t'.accepted)
    {f : Flight} (hf : FlightOk t f) : FlightOk t' f := by
  cases f with
  | submit | labels => exact hf
  | answer src idS target request =>
    obtain ⟨j, hj⟩ := hf
    exact hj.keep h
  | answered src idS =>
    obtain ⟨e, he, hsrc⟩ := hf
    exact ⟨e, hacc e he, hsrc⟩

lemma flightOk_of_plain {f : Flight} (h : Plain t.net f) : FlightOk t f := by
  cases f with
  | submit | labels | answer => exact h
  | answered => exact h.elim

/-- What a step has to show: its new flights, its new answer and its new comments. -/
lemma Inv.keep (h : Inv n₀ t) (htouches : Touches t.net t'.net r id cs)
    (hwritten : ∀ x ∈ t.written, x ∈ t'.written) (haccepted : ∀ e ∈ t.accepted, e ∈ t'.accepted)
    (hflights : ∀ f ∈ t'.net.flights, f ∈ t.net.flights ∨ Plain t.net f ∨ FlightOk t' f)
    (hanswers : ∀ e ∈ t'.accepted, e ∈ t.accepted ∨
      (∃ j, Sent t'.net e.src e.id e.target e.request j) ∧ ∃ i, Arrived t'.net e i)
    (hnew : ∀ c ∈ cs, Origin n₀ t' r id c) : Inv n₀ t' where
  flights f hf := by
    rcases hflights f hf with hold | hplain | hok
    · exact (h.flights f hold).keep htouches haccepted
    · exact (flightOk_of_plain hplain).keep htouches haccepted
    · exact hok
  sent e he := by
    rcases hanswers e he with hold | ⟨hsent, -⟩
    · obtain ⟨j, hj⟩ := h.sent e hold
      exact hj.keep htouches
    · exact hsent
  arrived e he := by
    rcases hanswers e he with hold | ⟨-, harr⟩
    · obtain ⟨i, hi⟩ := h.arrived e hold
      exact hi.keep htouches
    · exact harr
  origin s i hi c hc := by
    have hkeep : ∀ {i₀ : Issue}, i₀ ∈ (t.net.repo s).db.issues → c ∈ i₀.comments →
        Origin n₀ t' s i₀.id c := by
      intro i₀ hi₀ hc₀
      rcases h.origin s i₀ hi₀ c hc₀ with hinit | hin | ⟨e, he, hrest⟩
      · exact Or.inl hinit
      · exact Or.inr (Or.inl (hwritten _ hin))
      · exact Or.inr (Or.inr ⟨e, haccepted e he, hrest⟩)
    by_cases hs : s = r
    · subst hs
      rcases htouches.self.new i hi c hc with ⟨i₀, hi₀, hid, hc₀⟩ | ⟨rfl, hcs⟩
      · rw [← hid]
        exact hkeep hi₀ hc₀
      · exact hnew c hcs
    · rw [htouches.others s hs] at hi
      exact hkeep hi hc

lemma inv_init (hflights : n₀.flights = []) : Inv n₀ (Traced.init n₀) where
  flights f hf := by
    rw [Traced.init, hflights] at hf
    cases hf
  sent e he := by cases he
  arrived e he := by cases he
  origin r i hi c hc := Or.inl ⟨i, hi, rfl, hc⟩

/-- **A step that accepts no answer.** -/
lemma Inv.quiet (h : Inv n₀ t) {a : Action} (hq : Quiet t.net n' a) : Inv n₀ { t with net := n' } := by
  obtain ⟨r, id, htouches⟩ := hq.touches
  refine h.keep htouches (fun _ hx => hx) (fun _ he => he)
    (fun f hf => (hq.flights f hf).imp_right Or.inl) (fun e he => Or.inl he) ?_
  intro c hc
  cases hc

/-- **An answer is accepted.** -/
lemma Inv.accepts (h : Inv n₀ t) {a : Action} {e : Answer} (ha : Accepts t.net n' a e) :
    Inv n₀ { t with net := n', accepted := t.accepted ++ [e] } := by
  obtain ⟨i, hi, hl⟩ := ha.found
  obtain ⟨j, hj⟩ : ∃ j, Sent t.net e.src e.id e.target e.request j := h.flights _ ha.flight
  have hself : e ∈ t.accepted ++ [e] := List.mem_append_right _ (List.mem_singleton_self e)
  have htouches : Touches t.net n' e.target e.remote (copies e.src e.request) := by
    constructor
    · intro s hs
      rw [ha.repo]
      exact Function.update_of_ne hs _ _
    · rw [ha.repo]
      simp only [Network.setDb, Network.setRepo, Function.update_self]
      exact extends_applied e.src e.request
  -- the issue has just been given all results
  have harr : Arrived n' e (applied e.src e.request i) := by
    have hget : (n'.repo e.target).db.getIssue e.remote = some (applied e.src e.request i) := by
      rw [ha.repo]
      simp only [Network.setDb, Network.setRepo, Function.update_self]
      exact getIssue_applied hi
    refine ⟨Db.mem_of_getIssue hget, Db.id_of_getIssue hget,
      (refLabel_mem_answered (newContents e.src e.request i)).mpr hl, fun c hc => ?_⟩
    refine mem_comments_applied (List.mem_map_of_mem (List.mem_filter.mpr ⟨hc, ?_⟩)) i
    rw [decide_eq_true_iff]
    exact (hj.comments c hc).1
  refine h.keep htouches (fun _ hx => hx) (fun _ he => List.mem_append_left _ he) (fun f hf => ?_)
    (fun e' he' => ?_) fun c hc => ?_
  · rcases ha.flights f hf with hold | rfl
    · exact Or.inl hold
    · exact Or.inr (Or.inr ⟨e, hself, rfl, rfl⟩)
  · rcases List.mem_append.mp he' with hold | hlast
    · exact Or.inl hold
    · obtain rfl := List.mem_singleton.mp hlast
      exact Or.inr ⟨hj.keep htouches, _, harr⟩
  · exact Or.inr (Or.inr ⟨e, hself, rfl, rfl, hc⟩)

/-- **An agent writes a comment.** -/
lemma Inv.comment (h : Inv n₀ t) (r : String) (id : IssueId) (c : Comment) :
    Inv n₀ { t with
      net := t.net.setDb r ((t.net.repo r).db.addComment id c)
      written := t.written ++ [(r, id, c)] } := by
  have htouches : Touches t.net (t.net.setDb r ((t.net.repo r).db.addComment id c)) r id [c] :=
    touches_setDb (extends_addComment c) t.net.flights
  refine h.keep htouches (fun _ hx => List.mem_append_left _ hx) (fun _ he => he)
    (fun f hf => Or.inl hf) (fun e he => Or.inl he) fun c' hc' => ?_
  rw [List.mem_singleton.mp hc']
  exact Or.inr (Or.inl (List.mem_append_right _ (List.mem_singleton_self _)))

/-- **One step.** -/
theorem inv_step (h : Inv n₀ t) {e : Event} (hstep : step t e = some t') : Inv n₀ t' := by
  cases e with
  | comment r id c =>
    obtain rfl := Option.some.inj hstep
    exact h.comment r id c
  | net a =>
    simp only [step] at hstep
    split at hstep
    · cases hstep
    · rename_i n hn
      obtain rfl := Option.some.inj hstep
      have hplain : ∀ src id target request, .submit src id target request ∈ t.net.flights →
          request.attachments = [] := fun _ _ _ _ hf => h.flights _ hf
      rcases step_cases hplain hn with hq | ⟨e, ha⟩
      · rw [hq.accepted, Option.toList_none, List.append_nil]
        exact h.quiet hq
      · rw [ha.accepted, Option.toList_some]
        exact h.accepts ha

end Inv

/-! ### Every run -/

/-- What the results are worth. -/
structure Honest (n₀ : Network) (t : Traced) : Prop where
  /-- An accepted answer holds results of the issue that was answered, and all of them are on the issue
  it was applied to, which has the reference of the answer. -/
  delivered : ∀ e ∈ t.accepted,
    (∃ j, Sent t.net e.src e.id e.target e.request j) ∧ ∃ i, Arrived t.net e i
  /-- An `answer_cmd` goes on to label its issue only if its answer was accepted. -/
  reported : ∀ src id, .answered src id ∈ t.net.flights → ∃ e ∈ t.accepted, e.src = src ∧ e.id = id
  /-- A comment that was not there and was not written there is a result of the peer that it names, on
  an inbound issue that has a reference in common and names this repo as its source. -/
  authentic : ∀ r, ∀ i ∈ (t.net.repo r).db.issues, ∀ c ∈ i.comments,
    (∃ i₀ ∈ (n₀.repo r).db.issues, i₀.id = i.id ∧ c ∈ i₀.comments) ∨ (r, i.id, c) ∈ t.written ∨
      ∃ p x u, ∃ j ∈ (t.net.repo p).db.issues, c = ⟨"[from " ++ p ++ "] " ++ x, "result"⟩ ∧
        ⟨x, "result"⟩ ∈ j.comments ∧ inbound ∈ j.labels ∧ Server.sourceLabel r ∈ j.labels ∧
        Server.refLabel u ∈ j.labels ∧ Server.refLabel u ∈ i.labels

/-- **No result is lost or made up**, in every run of the network, whatever commands are interrupted,
requests lost and comments written meanwhile. -/
theorem results_of_run {n₀ : Network} {t : Traced} {es : List Event} (hflights : n₀.flights = [])
    (hrun : exec step (Traced.init n₀) es = some t) : Honest n₀ t := by
  have h : Inv n₀ t := exec_inv (fun _ _ _ h hstep => inv_step h hstep) (inv_init hflights) hrun
  refine ⟨fun e he => ⟨h.sent e he, h.arrived e he⟩, fun src id hf => h.flights _ hf, ?_⟩
  intro r i hi c hc
  rcases h.origin r i hi c hc with hinit | hwritten | ⟨e, he, rfl, hremote, hcopy⟩
  · exact Or.inl hinit
  · exact Or.inr (Or.inl hwritten)
  · obtain ⟨j, hj⟩ := h.sent e he
    obtain ⟨i', hi'⟩ := h.arrived e he
    obtain rfl : i' = i := Db.eq_of_id_eq hi'.mem hi (hi'.id.trans hremote)
    obtain ⟨y, hy, rfl⟩ := List.mem_map.mp hcopy
    obtain ⟨c', hc', rfl⟩ := List.mem_map.mp hy
    obtain ⟨hkind, hcomment⟩ := hj.comments c' (List.mem_of_mem_filter hc')
    rw [hkind] at hcomment
    exact Or.inr (Or.inr ⟨e.src, c'.content, e.request.sourceUuid, j, hj.mem, rfl, hcomment, hj.inbound,
      hj.source, hj.ref, hi'.ref⟩)

/-- An issue is submitted and answered; a result is written before the answer is made, and another one
before it is handled. -/
def thereAndBack : List Event :=
  RefLabels.there.map .net ++
    [.comment "repo-b" 1 ⟨"42", "result"⟩, .net (.answer RefLabels.everyone byRow "repo-b" 1),
      .comment "repo-b" 1 ⟨"43", "result"⟩, .net (.handleAnswer byRow 1),
      .comment "repo-a" 1 ⟨"thanks", "note"⟩, .net (.finishAnswer 1)]

theorem results_of_run_thereAndBack : ∃ t,
    exec step (Traced.init RefLabels.twoRepos) thereAndBack = some t ∧ t.accepted.length = 1 ∧
    (t.net.repo "repo-a").db.getComments 1 = [⟨"[from repo-b] 42", "result"⟩, ⟨"thanks", "note"⟩] ∧
    Honest RefLabels.twoRepos t := by
  have hrun : exec step (Traced.init RefLabels.twoRepos) thereAndBack = some _ := rfl
  exact ⟨_, hrun, rfl, rfl, results_of_run rfl hrun⟩

end Crossbridge.Bridge.Results
