import Crossbridge.Lib.FileTree

/-!
Symbolic links in a file tree, and opening a path to write.

The files of the tree hold data or are links (`Entry`). To open a path for writing, links are
followed, a limited number of them, to a file that is there or can be made (`follow`). Writing a file
that was opened so changes neither what is a link nor where any path leads (`follow_store`).
-/

namespace Crossbridge.FileTree

/-- A file with data, or a link to another path. -/
inductive Entry (δ : Type) where
  | data (d : δ)
  | link (target : Path)
  deriving DecidableEq

variable {δ : Type} (creatable : Path → Bool) (t : FileTree (Entry δ))

/-- A path that can be opened for writing as it is: a file with data, or nothing in a directory where
it can be created. -/
def Opens (p : Path) : Prop :=
  match t.lookup p with
  | some (.file (.data _)) => True
  | none => t.lookup p.dropLast = some .dir ∧ creatable p = true
  | _ => False

/-- A file with its data. -/
def store (p : Path) (d : δ) : FileTree (Entry δ) := t.insert p (.file (.data d))

variable {creatable t} {p q : Path} {d : δ}

lemma lookup_store_self : (store t q d).lookup q = some (.file (.data d)) := AList.lookup_insert t

lemma lookup_store_ne (h : p ≠ q) : (store t q d).lookup p = t.lookup p := AList.lookup_insert_ne h

/-- What is opened is neither a directory nor a link. -/
lemma Opens.lookup (h : Opens creatable t p) :
    t.lookup p = none ∨ ∃ d, t.lookup p = some (.file (.data d)) := by
  unfold Opens at h
  split at h
  · rename_i d hd
    exact Or.inr ⟨d, hd⟩
  · rename_i hnone
    exact Or.inl hnone
  · cases h

lemma Opens.ne_link (h : Opens creatable t p) (target : Path) :
    t.lookup p ≠ some (.file (.link target)) := by
  rcases h.lookup with hp | ⟨d, hp⟩
  · rw [hp]
    exact fun heq => by cases heq
  · rw [hp]
    exact fun heq => by cases heq

lemma Opens.ne_dir (h : Opens creatable t p) : t.lookup p ≠ some .dir := by
  rcases h.lookup with hp | ⟨d, hp⟩
  · rw [hp]
    exact fun heq => by cases heq
  · rw [hp]
    exact fun heq => by cases heq

/-- Writing to a file that was opened leaves links where they are. -/
lemma lookup_store_link (hq : Opens creatable t q) {target : Path} :
    (store t q d).lookup p = some (.file (.link target)) ↔ t.lookup p = some (.file (.link target)) := by
  by_cases hp : p = q
  · subst hp
    rw [lookup_store_self]
    exact iff_of_false (fun h => by cases h) (hq.ne_link target)
  · rw [lookup_store_ne hp]

/-- And directories. -/
lemma lookup_store_dir (hq : Opens creatable t q) :
    (store t q d).lookup p = some .dir ↔ t.lookup p = some .dir := by
  by_cases hp : p = q
  · subst hp
    rw [lookup_store_self]
    exact iff_of_false (fun h => by cases h) hq.ne_dir
  · rw [lookup_store_ne hp]

lemma opens_store (hq : Opens creatable t q) :
    Opens creatable (store t q d) p ↔ Opens creatable t p := by
  by_cases hp : p = q
  · subst hp
    refine iff_of_true ?_ hq
    unfold Opens
    rw [lookup_store_self]
    trivial
  · unfold Opens
    rw [lookup_store_ne hp, lookup_store_dir hq]

/-! ### Following links -/

section Follow

variable [DecidableEq δ]

instance (creatable : Path → Bool) (t : FileTree (Entry δ)) (p : Path) :
    Decidable (Opens creatable t p) := by
  unfold Opens
  split <;> infer_instance

/-- Where opening a path for writing leads, by way of at most so many links. -/
def follow (creatable : Path → Bool) (t : FileTree (Entry δ)) : ℕ → Path → Option Path
  | 0, p => if Opens creatable t p then some p else none
  | n + 1, p =>
    match t.lookup p with
    | some (.file (.link target)) => follow creatable t n target
    | _ => if Opens creatable t p then some p else none

lemma opens_of_follow {n : ℕ} (h : follow creatable t n p = some q) : Opens creatable t q := by
  induction n generalizing p with
  | zero =>
    rw [follow] at h
    split_ifs at h with hp
    obtain rfl := Option.some.inj h
    exact hp
  | succ n ih =>
    rw [follow] at h
    split at h
    · exact ih h
    · split_ifs at h with hp
      obtain rfl := Option.some.inj h
      exact hp

/-- What is no link leads to itself, if anywhere. -/
lemma follow_of_ne_link (h : ∀ target, t.lookup p ≠ some (.file (.link target))) (n : ℕ) :
    follow creatable t n p = if Opens creatable t p then some p else none := by
  cases n with
  | zero => rfl
  | succ n =>
    rw [follow]
    split
    · rename_i target hp
      exact absurd hp (h target)
    · rfl

/-- **Writing to a file that was opened** does not change where a path leads. -/
theorem follow_store (hq : Opens creatable t q) (n : ℕ) :
    follow creatable (store t q d) n = follow creatable t n := by
  induction n with
  | zero =>
    funext p
    simp only [follow, opens_store hq]
  | succ n ih =>
    funext p
    by_cases hp : ∃ target, t.lookup p = some (.file (.link target))
    · obtain ⟨target, hp⟩ := hp
      have hp' := (lookup_store_link (d := d) hq).mpr hp
      simp only [follow, hp, hp', ih]
    · push Not at hp
      rw [follow_of_ne_link hp, follow_of_ne_link fun target h => hp target ((lookup_store_link hq).mp h)]
      simp only [opens_store hq]

end Follow

end Crossbridge.FileTree
