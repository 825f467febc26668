import Mathlib.Data.List.AList
import Mathlib.Data.List.Infix
import Crossbridge.Lib.Path

/-!
A tree of directories and files, as a map from paths.

Each operation is described by what it does to the lookup of every path: `create_dir_all` fills in
the directories on the way, `remove_dir_all` takes away all that is below, `unlink` one file.
-/

namespace Crossbridge

/-- What is at a path. -/
inductive Node (ι : Type) where
  | dir
  | file (x : ι)
  deriving DecidableEq

/-- A file tree. -/
abbrev FileTree (ι : Type) := AList fun _ : Path => Node ι

namespace FileTree

variable {ι : Type} (t : FileTree ι) (p q : Path)

/-- A directory, unless something is there. -/
def mkdir : FileTree ι := if q ∈ t then t else t.insert q .dir

def createDirAll : FileTree ι := p.inits.foldl mkdir t

/-- What is not at `p` nor below. (A call whose path is written with `.` or `..` at its end empties the
directory, and fails to remove it.) -/
def removeDirAll : FileTree ι :=
  ⟨t.entries.filter fun e => ¬ p <+: e.1, t.nodupKeys.sublist List.filter_sublist⟩

/-- What is not strictly below `p`. -/
def clearDir : FileTree ι :=
  ⟨t.entries.filter fun e => ¬ (p <+: e.1 ∧ e.1 ≠ p), t.nodupKeys.sublist List.filter_sublist⟩

def unlink : FileTree ι :=
  match t.lookup p with
  | some (.file _) => t.erase p
  | _ => t

/-- The names in a directory, in some order. -/
def readDir (d : Path) : List String :=
  t.keys.filterMap fun q => if q.dropLast = d then q.getLast? else none

variable {t p q}

lemma not_mem_iff : q ∉ t ↔ t.lookup q = none := AList.lookup_eq_none.symm

lemma mem_of_lookup {n : Node ι} (h : t.lookup q = some n) : q ∈ t := by
  by_contra hnot
  rw [not_mem_iff.mp hnot] at h
  cases h

lemma lookup_mkdir (r : Path) :
    (mkdir t q).lookup r = if r = q ∧ t.lookup r = none then some .dir else t.lookup r := by
  unfold mkdir
  by_cases hmem : q ∈ t
  · have hsome : t.lookup q ≠ none := fun hnone => AList.lookup_eq_none.mp hnone hmem
    rw [if_pos hmem, if_neg]
    rintro ⟨rfl, hnone⟩
    exact hsome hnone
  · rw [if_neg hmem]
    by_cases hr : r = q
    · subst hr
      rw [AList.lookup_insert, if_pos ⟨rfl, AList.lookup_eq_none.mpr hmem⟩]
    · rw [AList.lookup_insert_ne hr, if_neg fun h => hr h.1]

lemma lookup_foldl_mkdir (l : List Path) (r : Path) :
    (l.foldl mkdir t).lookup r = if r ∈ l ∧ t.lookup r = none then some .dir else t.lookup r := by
  induction l generalizing t with
  | nil => simp
  | cons q l ih =>
    rw [List.foldl_cons, ih, lookup_mkdir]
    by_cases hr : r = q <;> by_cases hnone : t.lookup r = none <;> simp [hr, hnone]

/-- **`create_dir_all`** fills in the directories on the way. -/
theorem lookup_createDirAll : (createDirAll t p).lookup q =
    if q <+: p ∧ t.lookup q = none then some .dir else t.lookup q := by
  unfold createDirAll
  rw [lookup_foldl_mkdir]
  simp only [List.mem_inits]

/-- What is there stays as it is. -/
lemma lookup_createDirAll_of_mem (h : q ∈ t) : (createDirAll t p).lookup q = t.lookup q := by
  have hsome : t.lookup q ≠ none := fun hnone => not_mem_iff.mpr hnone h
  rw [lookup_createDirAll, if_neg fun hq => hsome hq.2]

/-- **`remove_dir_all`** takes away all that is below. -/
theorem lookup_removeDirAll :
    (removeDirAll t p).lookup q = if p <+: q then none else t.lookup q := by
  ext x
  have hmem : x ∈ (removeDirAll t p).lookup q ↔ ¬ p <+: q ∧ x ∈ t.lookup q := by
    rw [AList.mem_lookup_iff, AList.mem_lookup_iff]
    unfold removeDirAll
    rw [List.mem_filter, decide_eq_true_iff]
    exact and_comm
  rw [← Option.mem_def, hmem]
  split
  · rename_i h
    exact ⟨fun hx => absurd h hx.1, fun hx => by cases hx⟩
  · rename_i h
    exact ⟨fun hx => hx.2, fun hx => ⟨h, hx⟩⟩

/-- What is below one child is not touched when another is removed. -/
lemma lookup_removeDirAll_of_ne {base : Path} {a b : String} (hne : a ≠ b) (hq : base ++ [b] <+: q) :
    (removeDirAll t (base ++ [a])).lookup q = t.lookup q := by
  rw [lookup_removeDirAll, if_neg (Path.not_prefix_of_ne hne hq)]

/-- The children of the base that are directories, after one of them was made. -/
lemma lookup_createDirAll_child {base : Path} {n m : String}
    (hfile : ∀ n x, t.lookup (base ++ [n]) ≠ some (.file x)) :
    (t.createDirAll (base ++ [m])).lookup (base ++ [n]) = some .dir ↔
      n = m ∨ t.lookup (base ++ [n]) = some .dir := by
  rw [lookup_createDirAll]
  by_cases hn : n = m
  · subst hn
    refine iff_of_true ?_ (Or.inl rfl)
    cases hnode : t.lookup (base ++ [n]) with
    | none => simp
    | some node =>
      cases node with
      | dir => simp
      | file x => exact absurd hnode (hfile n x)
  · rw [if_neg fun h => Path.not_prefix_of_ne hn (List.prefix_refl _) h.1]
    exact ⟨Or.inr, fun h => h.resolve_left hn⟩

/-- After one of them was removed. -/
lemma lookup_removeDirAll_child {base : Path} {n m : String} :
    (t.removeDirAll (base ++ [m])).lookup (base ++ [n]) = some .dir ↔
      n ≠ m ∧ t.lookup (base ++ [n]) = some .dir := by
  by_cases hn : n = m
  · subst hn
    rw [lookup_removeDirAll, if_pos (List.prefix_refl _)]
    exact iff_of_false (fun h => by cases h) fun h => h.1 rfl
  · rw [lookup_removeDirAll_of_ne (Ne.symm hn) (List.prefix_refl _)]
    exact ⟨fun h => ⟨hn, h⟩, fun h => h.2⟩

lemma lookup_clearDir : (clearDir t p).lookup q =
    if p <+: q ∧ q ≠ p then none else t.lookup q := by
  ext x
  have hmem : x ∈ (clearDir t p).lookup q ↔ ¬ (p <+: q ∧ q ≠ p) ∧ x ∈ t.lookup q := by
    rw [AList.mem_lookup_iff, AList.mem_lookup_iff]
    unfold clearDir
    rw [List.mem_filter, decide_eq_true_iff]
    exact and_comm
  rw [← Option.mem_def, hmem]
  split
  · rename_i h
    exact ⟨fun hx => absurd h hx.1, fun hx => by cases hx⟩
  · rename_i h
    exact ⟨fun hx => hx.2, fun hx => ⟨h, hx⟩⟩

lemma lookup_unlink_ne (h : q ≠ p) : (unlink t p).lookup q = t.lookup q := by
  unfold unlink
  split
  · exact AList.lookup_erase_ne h
  · rfl

/-- **`unlink`** takes away a file. -/
theorem lookup_unlink_eq_file {x : ι} :
    (unlink t p).lookup q = some (.file x) ↔ q ≠ p ∧ t.lookup q = some (.file x) := by
  by_cases hq : q = p
  · subst hq
    refine ⟨fun h => ?_, fun h => absurd rfl h.1⟩
    unfold unlink at h
    split at h
    · rw [AList.lookup_erase] at h
      cases h
    · rename_i hx
      exact absurd h (hx x)
  · rw [lookup_unlink_ne hq]
    exact ⟨fun h => ⟨hq, h⟩, fun h => h.2⟩

lemma lookup_unlink_eq_dir : (unlink t p).lookup q = some .dir ↔ t.lookup q = some .dir := by
  by_cases hq : q = p
  · subst hq
    unfold unlink
    split
    · rename_i x hx
      rw [AList.lookup_erase, hx]
      simp
    · rfl
  · rw [lookup_unlink_ne hq]

lemma mem_readDir {d : Path} {name : String} : name ∈ readDir t d ↔ d ++ [name] ∈ t := by
  unfold readDir
  rw [List.mem_filterMap]
  constructor
  · rintro ⟨q, hq, hname⟩
    split at hname
    · rename_i hd
      rw [← hd, List.dropLast_append_getLast? _ hname]
      exact AList.mem_keys.mp hq
    · cases hname
  · intro hmem
    exact ⟨_, AList.mem_keys.mpr hmem, by simp⟩

lemma nodup_readDir (d : Path) : (readDir t d).Nodup := by
  refine List.Nodup.filterMap (fun q r name hq hr => ?_) t.keys_nodup
  split at hq
  · split at hr
    · rename_i hqd hrd
      rw [← List.dropLast_append_getLast? _ hq, ← List.dropLast_append_getLast? _ hr, hqd, hrd]
    · cases hr
  · cases hq

/-! ### Trees whose paths hang together -/

/-- Whatever is there is in a directory. -/
def Rooted (t : FileTree ι) : Prop := ∀ q n, t.lookup (q ++ [n]) ≠ none → t.lookup q = some .dir

lemma rooted_of_keys (h : ∀ q ∈ t.keys, q ≠ [] → t.lookup q.dropLast = some .dir) : Rooted t := by
  intro q n hq
  have hmem : q ++ [n] ∈ t.keys := by
    by_contra hnot
    exact hq (not_mem_iff.mp hnot)
  have hdir := h _ hmem (by simp)
  rwa [List.dropLast_concat] at hdir

/-- What is below is below a child. -/
lemma exists_child_of_prefix (h : p <+: q) (hne : q ≠ p) : ∃ n, p ++ [n] <+: q := by
  obtain ⟨rest, rfl⟩ := h
  cases rest with
  | nil => simp at hne
  | cons n rest => exact ⟨n, rest, by simp⟩

/-- On the way to what is there, there are directories. -/
lemma Rooted.lookup_prefix (ht : Rooted t) (hq : t.lookup q ≠ none) (h : p <+: q) (hne : q ≠ p) :
    t.lookup p = some .dir := by
  obtain ⟨rest, rfl⟩ := h
  induction rest using List.reverseRecOn with
  | nil => simp at hne
  | append_singleton rest n ih =>
    rw [← List.append_assoc] at hq
    have hdir := ht _ n hq
    by_cases hrest : rest = []
    · subst hrest
      rwa [List.append_nil] at hdir
    · refine ih ?_ (by simp [hrest])
      rw [hdir]
      simp

/-- Below a file there is nothing. -/
lemma Rooted.lookup_below_file (ht : Rooted t) {x : ι} (hp : t.lookup p = some (.file x)) (h : p <+: q)
    (hne : q ≠ p) : t.lookup q = none := by
  by_contra hq
  rw [ht.lookup_prefix hq h hne] at hp
  cases hp

end FileTree

end Crossbridge
