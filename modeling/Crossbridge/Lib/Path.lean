import Mathlib.Data.List.Basic
import Mathlib.Tactic

/-!
Absolute paths, as the operating system resolves them.

A path is the list of the names that lead to it from the root. Joining a string to it follows the
string component by component: empty components and `.` stay, `..` goes up, anything else goes down,
and a string that starts with a slash starts over at the root. A string that is a plain file name
leads to a child (`join_of_isName`), and different names to different children.
-/

namespace Crossbridge

/-- An absolute path. -/
abbrev Path := List String

namespace Path

/-- The components of a string, between its slashes. -/
def components (s : String) : List String := (s.toList.splitOn '/').map String.ofList

/-- One component followed. -/
def enter (p : Path) (c : String) : Path :=
  if c = "" ∨ c = "." then p else if c = ".." then p.dropLast else p ++ [c]

/-- The path that a base and a string lead to. -/
def join (base : Path) (s : String) : Path :=
  (components s).foldl enter (if s.toList.head? = some '/' then [] else base)

/-- A plain file name. -/
def IsName (s : String) : Prop := s ≠ "" ∧ s ≠ "." ∧ s ≠ ".." ∧ '/' ∉ s.toList

instance (s : String) : Decidable (IsName s) := by unfold IsName; infer_instance

lemma components_of_isName {s : String} (h : IsName s) : components s = [s] := by
  unfold components
  rw [List.splitOn_eq_singleton h.2.2.2, List.map_singleton, String.ofList_toList]

/-- **A plain file name leads to a child.** -/
theorem join_of_isName {s : String} (h : IsName s) (base : Path) : join base s = base ++ [s] := by
  have hhead : s.toList.head? ≠ some '/' := fun hslash => h.2.2.2 (List.mem_of_head? hslash)
  have hstay : ¬ (s = "" ∨ s = ".") := by
    rintro (rfl | rfl)
    · exact h.1 rfl
    · exact h.2.1 rfl
  unfold join
  rw [if_neg hhead, components_of_isName h, List.foldl_cons, List.foldl_nil, enter, if_neg hstay,
    if_neg h.2.2.1]

/-- A plain file name with an extension. -/
lemma isName_append {s t : String} (hs : IsName s) (ht : '/' ∉ t.toList) (hlen : 2 < t.length) :
    IsName (s ++ t) := by
  have hlong : ∀ u : String, u.length ≤ 2 → s ++ t ≠ u := by
    intro u hu heq
    have hlength := congrArg String.length heq
    rw [String.length_append] at hlength
    omega
  refine ⟨hlong "" (by decide), hlong "." (by decide), hlong ".." (by decide), ?_⟩
  rw [String.toList_append, List.mem_append]
  exact fun h => h.elim hs.2.2.2 ht

/-! ### Children of the base -/

/-- What is below one child of the base is not below another. -/
lemma not_prefix_of_ne {base q : Path} {a b : String} (hne : a ≠ b) (hq : base ++ [b] <+: q) :
    ¬ base ++ [a] <+: q := by
  intro h
  have hlen : (base ++ [a]).length = (base ++ [b]).length := by simp
  have heq := (List.prefix_of_prefix_length_le h hq hlen.le).eq_of_length hlen
  exact hne (by simpa using heq)

lemma not_mem_of_mem_splitOnP {α : Type} {f : α → Bool} {xs ys : List α} (h : ys ∈ xs.splitOnP f) :
    ∀ x ∈ ys, f x = false := by
  induction xs generalizing ys with
  | nil =>
    rw [List.splitOnP_nil, List.mem_singleton] at h
    simp [h]
  | cons x xs ih =>
    rw [List.splitOnP_cons_eq_if_modifyHead] at h
    split at h
    · rcases List.mem_cons.mp h with rfl | h
      · simp
      · exact ih h
    · rename_i hx
      cases hsplit : xs.splitOnP f with
      | nil => exact absurd hsplit (List.splitOnP_ne_nil f xs)
      | cons zs rest =>
        rw [hsplit, List.modifyHead_cons] at h
        rcases List.mem_cons.mp h with rfl | h
        · intro y hy
          rcases List.mem_cons.mp hy with rfl | hy
          · simpa using hx
          · exact ih (hsplit ▸ List.mem_cons_self) y hy
        · exact ih (hsplit ▸ List.mem_cons_of_mem _ h)

lemma not_slash_of_mem_components {s c : String} (h : c ∈ components s) : '/' ∉ c.toList := by
  unfold components at h
  obtain ⟨ys, hys, rfl⟩ := List.mem_map.mp h
  rw [String.toList_ofList]
  intro hmem
  have := not_mem_of_mem_splitOnP hys '/' hmem
  simp at this

/-- What a walk adds beyond the depth `k` are plain names. -/
lemma isName_of_mem_foldl_enter {k : ℕ} {cs : List String} (hcs : ∀ c ∈ cs, '/' ∉ c.toList) {p : Path}
    (hp : ∀ x ∈ p.drop k, IsName x) : ∀ x ∈ (cs.foldl enter p).drop k, IsName x := by
  induction cs generalizing p with
  | nil => exact hp
  | cons c cs ih =>
    obtain ⟨hc, hcs⟩ := List.forall_mem_cons.mp hcs
    rw [List.foldl_cons]
    refine ih hcs fun x hx => ?_
    unfold enter at hx
    split at hx
    · exact hp x hx
    · rename_i hstay
      split at hx
      · exact hp x (((List.dropLast_prefix p).drop k).subset hx)
      · rename_i hup
        rw [List.drop_append, List.mem_append] at hx
        rcases hx with hx | hx
        · exact hp x hx
        · rw [List.mem_singleton.mp (List.mem_of_mem_drop hx)]
          exact ⟨fun h => hstay (Or.inl h), fun h => hstay (Or.inr h), hup, hc⟩

/-- **A child of the base** has a plain name. -/
theorem isName_of_join_eq {base : Path} {s n : String} (h : join base s = base ++ [n]) : IsName n := by
  have hwalk : ∀ x ∈ (join base s).drop base.length, IsName x := by
    unfold join
    refine isName_of_mem_foldl_enter (fun c hc => not_slash_of_mem_components hc) fun x hx => ?_
    split at hx
    · simp at hx
    · simp at hx
  refine hwalk n ?_
  rw [h, List.drop_left]
  exact List.mem_singleton_self n

end Path

end Crossbridge
