import Crossbridge.Protocol.Message
import Mathlib.Data.Finset.Basic
import Mathlib.Data.List.Sort
import Mathlib.Data.String.Basic

/-!
The issue database of a repo, as crossbridge uses it.

The rows are those of crosslink: issues with an id, a UUID, a status, a set of labels and the
comments in the order they were added. What crosslink leaves open is a parameter (`Choices`): the
id and the UUID of a new issue, and the order in which labels and issues are listed. An update
changes one issue and keeps its id (`Db.modify`), so that ids stay distinct by construction.

Crosslink is a library of its own. What is assumed of its calls, when they do not fail:

- `get_issue`, `get_comments` and `get_labels` go by the exact id. That crosslink takes a positive id
  which is not there for its negative, the id of an issue that was made offline, is not modelled.
- `list_issues` gives every issue with the status and the label once, in any order, which may differ
  from call to call.
- `create_issue` gives an open issue without labels and comments, under an id that is not taken.
- `add_label` and `remove_label` set and unset a label, `add_comment` adds a comment after the others,
  `close_issue` sets the status; each changes that issue alone, and nothing if it is not there.
- Every issue has a UUID; the error of `submit_cmd` for an issue without one is not modelled.
-/

namespace Crossbridge.Crosslink

open Crossbridge.Protocol

structure Comment where
  content : String
  kind : String
  deriving DecidableEq, Repr

structure Issue where
  id : IssueId
  uuid : String
  title : String
  description : Option String
  priority : String
  status : String
  labels : Finset String
  comments : List Comment
  deriving DecidableEq

/-- A database: its issues, with distinct ids. -/
structure Db where
  issues : List Issue
  ids_nodup : (issues.map Issue.id).Nodup
  deriving DecidableEq

/-- What crosslink decides by itself. -/
structure Choices where
  /-- The id of a new issue, or why there is none. -/
  newId : Db → Except String IssueId
  newUuid : Db → String
  labelOrder : Finset String → List String
  issueOrder : List Issue → List Issue
  newId_fresh : ∀ db id, newId db = .ok id → id ∉ db.issues.map Issue.id
  mem_labelOrder : ∀ ls l, l ∈ labelOrder ls ↔ l ∈ ls
  issueOrder_perm : ∀ is, (issueOrder is).Perm is

namespace Db

/-- The empty database. -/
def empty : Db := ⟨[], List.nodup_nil⟩

lemma ext_issues {db db' : Db} (h : db.issues = db'.issues) : db = db' := by
  cases db; cases db'; cases h; rfl

/-! ### Reading -/

def getIssue (db : Db) (id : IssueId) : Option Issue := db.issues.find? fun i => i.id = id

def getComments (db : Db) (id : IssueId) : List Comment :=
  match db.getIssue id with
  | some i => i.comments
  | none => []

def getLabels (cl : Choices) (db : Db) (id : IssueId) : List String :=
  match db.getIssue id with
  | some i => cl.labelOrder i.labels
  | none => []

/-- `list_issues` with a status and a label. -/
def listIssues (cl : Choices) (db : Db) (status label : String) : List Issue :=
  cl.issueOrder (db.issues.filter fun i => i.status = status ∧ label ∈ i.labels)

/-! ### Writing -/

/-- The issue `id` changed by `g`, its id apart. -/
def modify (db : Db) (id : IssueId) (g : Issue → Issue) : Db where
  issues := db.issues.map fun i => if i.id = id then { g i with id := i.id } else i
  ids_nodup := by
    have h : db.issues.map (Issue.id ∘ fun i => if i.id = id then { g i with id := i.id } else i) =
        db.issues.map Issue.id := by
      refine List.map_congr_left fun i _ => ?_
      rw [Function.comp]
      split <;> rfl
    rw [List.map_map, h]
    exact db.ids_nodup

def addLabel (db : Db) (id : IssueId) (l : String) : Db :=
  db.modify id fun i => { i with labels := insert l i.labels }

def removeLabel (db : Db) (id : IssueId) (l : String) : Db :=
  db.modify id fun i => { i with labels := i.labels.erase l }

def addComment (db : Db) (id : IssueId) (c : Comment) : Db :=
  db.modify id fun i => { i with comments := i.comments ++ [c] }

def setStatus (db : Db) (id : IssueId) (status : String) : Db :=
  db.modify id fun i => { i with status := status }

def closeIssue (db : Db) (id : IssueId) : Db := db.setStatus id "closed"

/-- A new issue: open, without labels or comments. -/
def newIssue (cl : Choices) (db : Db) (id : IssueId) (title : String) (description : Option String)
    (priority : String) : Issue :=
  ⟨id, cl.newUuid db, title, description, priority, "open", ∅, []⟩

def createIssue (cl : Choices) (db : Db) (title : String) (description : Option String)
    (priority : String) : Except String (IssueId × Db) :=
  match h : cl.newId db with
  | .error e => .error e
  | .ok id => .ok (id, {
      issues := db.issues ++ [newIssue cl db id title description priority]
      ids_nodup := by
        have hid := cl.newId_fresh db id h
        rw [List.map_append, List.nodup_append]
        refine ⟨db.ids_nodup, List.nodup_singleton _, fun a ha b hb => ?_⟩
        obtain rfl : b = id := List.mem_singleton.mp hb
        rintro rfl
        exact hid ha })

/-! ### What reading finds -/

section Read

variable {db : Db} {id : IssueId} {i : Issue}

lemma mem_of_getIssue (h : db.getIssue id = some i) : i ∈ db.issues := List.mem_of_find?_eq_some h

lemma id_of_getIssue (h : db.getIssue id = some i) : i.id = id := by
  simpa using List.find?_some h

lemma eq_of_id_eq {j : Issue} (hi : i ∈ db.issues) (hj : j ∈ db.issues) (h : i.id = j.id) : i = j :=
  List.inj_on_of_nodup_map db.ids_nodup hi hj h

lemma getIssue_of_mem (h : i ∈ db.issues) : db.getIssue i.id = some i := by
  have hsome : (db.getIssue i.id).isSome := by
    rw [getIssue, List.find?_isSome]
    exact ⟨i, h, by simp⟩
  obtain ⟨j, hj⟩ := Option.isSome_iff_exists.mp hsome
  rw [hj, eq_of_id_eq (mem_of_getIssue hj) h (id_of_getIssue hj)]

lemma getIssue_eq_some : db.getIssue id = some i ↔ i ∈ db.issues ∧ i.id = id := by
  constructor
  · intro h
    exact ⟨mem_of_getIssue h, id_of_getIssue h⟩
  · rintro ⟨h, rfl⟩
    exact getIssue_of_mem h

lemma mem_listIssues {cl : Choices} {status label : String} :
    i ∈ db.listIssues cl status label ↔ i ∈ db.issues ∧ i.status = status ∧ label ∈ i.labels := by
  rw [listIssues, (cl.issueOrder_perm _).mem_iff, List.mem_filter, decide_eq_true_iff]

lemma mem_getLabels {cl : Choices} (h : db.getIssue id = some i) {l : String} :
    l ∈ db.getLabels cl id ↔ l ∈ i.labels := by
  simp only [getLabels, h, cl.mem_labelOrder]

end Read

/-! ### What writing changes -/

section Write

variable {db : Db} {id : IssueId} {g : Issue → Issue}

lemma issues_modify : (db.modify id g).issues =
    db.issues.map fun i => if i.id = id then { g i with id := i.id } else i := rfl

lemma getIssue_modify (j : IssueId) : (db.modify id g).getIssue j =
    (db.getIssue j).map fun i => if i.id = id then { g i with id := i.id } else i := by
  rw [getIssue, modify, List.find?_map, getIssue]
  congr 2
  funext i
  rw [Function.comp]
  split <;> rfl

lemma getIssue_modify_self {i : Issue} (h : db.getIssue id = some i) :
    (db.modify id g).getIssue id = some { g i with id := id } := by
  have hid := id_of_getIssue h
  rw [getIssue_modify, h, Option.map_some, if_pos hid, hid]

lemma getIssue_modify_of_ne {j : IssueId} (h : j ≠ id) :
    (db.modify id g).getIssue j = db.getIssue j := by
  rw [getIssue_modify]
  cases hj : db.getIssue j with
  | none => rfl
  | some i => rw [Option.map_some, if_neg fun hid => h ((id_of_getIssue hj).symm.trans hid)]

lemma mem_modify {i : Issue} : i ∈ (db.modify id g).issues ↔
    (i ∈ db.issues ∧ i.id ≠ id) ∨ ∃ i₀ ∈ db.issues, i₀.id = id ∧ i = { g i₀ with id := id } := by
  rw [modify, List.mem_map]
  constructor
  · rintro ⟨i₀, hi₀, rfl⟩
    by_cases h : i₀.id = id
    · refine Or.inr ⟨i₀, hi₀, h, ?_⟩
      rw [if_pos h, h]
    · rw [if_neg h]
      exact Or.inl ⟨hi₀, h⟩
  · rintro (⟨hi, h⟩ | ⟨i₀, hi₀, h, rfl⟩)
    · exact ⟨i, hi, if_neg h⟩
    · exact ⟨i₀, hi₀, by rw [if_pos h, h]⟩

/-- What holds of every issue, if it still does of the one that is changed. -/
lemma forall_modify {P : Issue → Prop} (h : ∀ i ∈ db.issues, P i)
    (hg : ∀ i, db.getIssue id = some i → P i → P { g i with id := id }) :
    ∀ i ∈ (db.modify id g).issues, P i := by
  intro i hi
  rcases mem_modify.mp hi with ⟨hi, -⟩ | ⟨i₀, hi₀, hid, rfl⟩
  · exact h i hi
  · exact hg i₀ (hid ▸ getIssue_of_mem hi₀) (h i₀ hi₀)

/-- What holds of every issue, if it does of the new one. -/
lemma forall_append {P : Issue → Prop} {n : Issue} {db' : Db} (h : ∀ i ∈ db.issues, P i)
    (hdb : db'.issues = db.issues ++ [n]) (hn : P n) : ∀ i ∈ db'.issues, P i := by
  rw [hdb]
  exact List.forall_mem_append.mpr ⟨h, List.forall_mem_singleton.mpr hn⟩

lemma mem_modify_of_ne {j : Issue} (h : j.id ≠ id) :
    j ∈ (db.modify id g).issues ↔ j ∈ db.issues := by
  rw [mem_modify]
  constructor
  · rintro (⟨hj, -⟩ | ⟨i₀, -, -, rfl⟩)
    · exact hj
    · exact absurd rfl h
  · intro hj
    exact Or.inl ⟨hj, h⟩

lemma modify_eq_self (h : ∀ i ∈ db.issues, i.id = id → g i = i) : db.modify id g = db := by
  refine ext_issues ?_
  rw [modify]
  conv_rhs => rw [← List.map_id db.issues]
  refine List.map_congr_left fun i hi => ?_
  split
  · rename_i hid
    rw [h i hi hid]
    rfl
  · rfl

lemma modify_congr {g' : Issue → Issue} {i : Issue} (h : db.getIssue id = some i) (hg : g i = g' i) :
    db.modify id g = db.modify id g' := by
  refine ext_issues ?_
  rw [modify, modify]
  refine List.map_congr_left fun j hj => ?_
  by_cases hid : j.id = id
  · have hji : j = i := eq_of_id_eq hj (mem_of_getIssue h) (hid.trans (id_of_getIssue h).symm)
    rw [if_pos hid, if_pos hid, hji, hg]
  · rw [if_neg hid, if_neg hid]

lemma modify_eq_self_iff {i : Issue} (h : db.getIssue id = some i) (hg : (g i).id = i.id) :
    db.modify id g = db ↔ g i = i := by
  constructor
  · intro heq
    have hget := getIssue_modify_self (g := g) h
    rw [heq, h, ← id_of_getIssue h, ← hg] at hget
    exact (Option.some.inj hget).symm
  · intro heq
    refine modify_eq_self fun j hj hid => ?_
    rwa [eq_of_id_eq hj (mem_of_getIssue h) (hid.trans (id_of_getIssue h).symm)]

lemma modify_modify (g' : Issue → Issue) : (db.modify id g).modify id g' =
    db.modify id fun i => { g' { g i with id := i.id } with id := i.id } := by
  refine ext_issues ?_
  simp only [modify, List.map_map]
  refine List.map_congr_left fun i _ => ?_
  rw [Function.comp]
  by_cases h : i.id = id
  · simp only [if_pos h]
  · simp only [if_neg h]

/-- A change of an issue that was just added. -/
lemma issues_modify_append {n : Issue} {db' : Db} (h : db'.issues = db.issues ++ [n]) :
    (db'.modify n.id g).issues = db.issues ++ [{ g n with id := n.id }] := by
  have hnodup := db'.ids_nodup
  rw [h, List.map_append, List.nodup_append] at hnodup
  have hold : db.issues.map (fun i => if i.id = n.id then { g i with id := i.id } else i) = db.issues := by
    conv_rhs => rw [← List.map_id db.issues]
    refine List.map_congr_left fun i hi => if_neg ?_
    exact hnodup.2.2 _ (List.mem_map_of_mem hi) _ (List.mem_singleton_self _)
  rw [issues_modify, h, List.map_append, hold, List.map_singleton, if_pos rfl]

lemma map_id_modify : (db.modify id g).issues.map Issue.id = db.issues.map Issue.id := by
  rw [modify, List.map_map]
  refine List.map_congr_left fun i _ => ?_
  rw [Function.comp]
  split <;> rfl

variable {cl : Choices} {title priority : String} {description : Option String} {db' : Db}

lemma createIssue_ok (h : db.createIssue cl title description priority = .ok (id, db')) :
    cl.newId db = .ok id ∧ db'.issues = db.issues ++ [newIssue cl db id title description priority] := by
  unfold createIssue at h
  split at h
  · cases h
  · rename_i hid
    simp only [Except.ok.injEq, Prod.mk.injEq] at h
    obtain ⟨rfl, rfl⟩ := h
    exact ⟨hid, rfl⟩

lemma createIssue_of_newId (h : cl.newId db = .ok id) (title : String) (description : Option String)
    (priority : String) :
    ∃ db', db.createIssue cl title description priority = .ok (id, db') := by
  unfold createIssue
  split
  · rename_i hid
    rw [h] at hid
    cases hid
  · rename_i hid
    rw [h] at hid
    cases hid
    exact ⟨_, rfl⟩

lemma createIssue_of_newId_error {e : String} (h : cl.newId db = .error e) :
    db.createIssue cl title description priority = .error e := by
  unfold createIssue
  split
  · rename_i hid
    rw [h] at hid
    cases hid
    rfl
  · rename_i hid
    rw [h] at hid
    cases hid

end Write

/-! ### The issues that carry a label -/

/-- The ids of the issues that carry a label. -/
def carriers (db : Db) (l : String) : List IssueId :=
  (db.issues.filter fun i => l ∈ i.labels).map Issue.id

section Carriers

variable {db : Db} {id : IssueId} {l : String}

lemma mem_carriers : id ∈ db.carriers l ↔ ∃ i, db.getIssue id = some i ∧ l ∈ i.labels := by
  rw [carriers, List.mem_map]
  constructor
  · rintro ⟨i, hi, rfl⟩
    rw [List.mem_filter, decide_eq_true_iff] at hi
    exact ⟨i, getIssue_of_mem hi.1, hi.2⟩
  · rintro ⟨i, hi, hl⟩
    refine ⟨i, ?_, id_of_getIssue hi⟩
    rw [List.mem_filter, decide_eq_true_iff]
    exact ⟨mem_of_getIssue hi, hl⟩

lemma carriers_modify {g : Issue → Issue} (h : ∀ i, l ∈ (g i).labels ↔ l ∈ i.labels) :
    (db.modify id g).carriers l = db.carriers l := by
  unfold carriers modify
  rw [List.filter_map, List.map_map]
  have hlabels : (fun i : Issue => decide (l ∈ i.labels)) ∘
      (fun i => if i.id = id then { g i with id := i.id } else i) = fun i => decide (l ∈ i.labels) := by
    funext i
    rw [Function.comp]
    split
    · exact decide_eq_decide.mpr (h i)
    · rfl
  rw [hlabels]
  refine List.map_congr_left fun i _ => ?_
  rw [Function.comp]
  split <;> rfl

lemma carriers_setStatus (status : String) : (db.setStatus id status).carriers l = db.carriers l :=
  carriers_modify fun _ => Iff.rfl

lemma carriers_append {db' : Db} {i : Issue} (h : db'.issues = db.issues ++ [i]) :
    db'.carriers l = db.carriers l ++ if l ∈ i.labels then [i.id] else [] := by
  unfold carriers
  rw [h, List.filter_append, List.map_append]
  by_cases hl : l ∈ i.labels
  · simp [hl]
  · simp [hl]

end Carriers

end Db

/-! ### One way to decide it -/

/-- The labels of a set in alphabetical order. -/
def sortLabels (ls : Finset String) : List String :=
  Quot.liftOn ls.val (List.insertionSort (· ≤ ·)) fun a b h =>
    ((List.perm_insertionSort _ a).trans (h.trans (List.perm_insertionSort _ b).symm)).eq_of_pairwise'
      (List.pairwise_insertionSort _ a) (List.pairwise_insertionSort _ b)

lemma mem_sortLabels (ls : Finset String) (l : String) : l ∈ sortLabels ls ↔ l ∈ ls := by
  obtain ⟨⟨ls⟩, hnodup⟩ := ls
  exact List.mem_insertionSort _

/-- The least positive id that is free. -/
def freeId (db : Db) : Option IssueId :=
  ((List.range (db.issues.length + 1)).map fun n => Int64.ofNat (n + 1)).find?
    fun id => id ∉ db.issues.map Issue.id

/-- A crosslink that lists labels alphabetically and issues by row, and numbers them from one. -/
def sorted (uuid : Db → String) : Choices where
  newId db :=
    match freeId db with
    | some id => .ok id
    | none => .error "database or disk is full"
  newUuid := uuid
  labelOrder := sortLabels
  issueOrder is := is
  newId_fresh db id h := by
    split at h
    · rename_i hid
      obtain rfl := Except.ok.inj h
      simpa using List.find?_some hid
    · cases h
  mem_labelOrder := mem_sortLabels
  issueOrder_perm is := List.Perm.refl is

/-! ### Listing one thing first -/

/-- A label first, if the set has it. -/
def labelFirst (l : String) (ls : Finset String) : List String :=
  if l ∈ ls then l :: sortLabels (ls.erase l) else sortLabels ls

/-- An issue first, if the list has it. -/
def issueFirst (id : IssueId) (is : List Issue) : List Issue :=
  match is.find? fun i => i.id = id with
  | some i => i :: is.erase i
  | none => is

/-- A crosslink that lists a label and an issue before the others. -/
def listingFirst (l : String) (id : IssueId) : Choices :=
  { sorted fun _ => "" with
    labelOrder := labelFirst l
    issueOrder := issueFirst id
    mem_labelOrder ls l' := by
      unfold labelFirst
      split
      · rename_i hl
        rw [List.mem_cons, mem_sortLabels, Finset.mem_erase]
        by_cases h : l' = l
        · simp [h, hl]
        · simp [h]
      · exact mem_sortLabels ls l'
    issueOrder_perm is := by
      unfold issueFirst
      split
      · rename_i i hi
        exact (List.perm_cons_erase (List.mem_of_find?_eq_some hi)).symm
      · exact List.Perm.refl _ }

lemma labelOrder_listingFirst {l : String} {ls : Finset String} (h : l ∈ ls) (id : IssueId) :
    ∃ rest, (listingFirst l id).labelOrder ls = l :: rest :=
  ⟨sortLabels (ls.erase l), if_pos h⟩

lemma head?_issueFirst {is : List Issue} {i : Issue} (h : i ∈ is)
    (hid : ∀ j ∈ is, j.id = i.id → j = i) : (issueFirst i.id is).head? = some i := by
  unfold issueFirst
  have hsome : (is.find? fun j => j.id = i.id).isSome := by
    rw [List.find?_isSome]
    exact ⟨i, h, by simp⟩
  obtain ⟨j, hj⟩ := Option.isSome_iff_exists.mp hsome
  have hji : j = i := hid j (List.mem_of_find?_eq_some hj) (by simpa using List.find?_some hj)
  rw [hj, hji]
  rfl

lemma head?_listIssues_listingFirst {db : Db} {l label status : String} {i : Issue} (hi : i ∈ db.issues)
    (hst : i.status = status) (hl : label ∈ i.labels) :
    (db.listIssues (listingFirst l i.id) status label).head? = some i := by
  refine head?_issueFirst ?_ fun j hj hid => ?_
  · rw [List.mem_filter, decide_eq_true_iff]
    exact ⟨hi, hst, hl⟩
  · exact Db.eq_of_id_eq (List.mem_filter.mp hj).1 hi hid

end Crossbridge.Crosslink
