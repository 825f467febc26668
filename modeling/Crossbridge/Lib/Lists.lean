import Mathlib.Data.List.Basic

/-!
Lists in which one place is changed.
-/

namespace Crossbridge.Lists

variable {α : Type*} {l : List α} {i j : ℕ} {a a' b : α}

lemma mem_set_cases (h : b ∈ l.set i a') : b = a' ∨ b ∈ l := (List.mem_or_eq_of_mem_set h).symm

lemma mem_set_self (ha : l[i]? = some a) : a' ∈ l.set i a' := by
  obtain ⟨hlt, -⟩ := List.getElem?_eq_some_iff.mp ha
  exact List.mem_set hlt a'

/-- What one place has, one place has after a change that keeps it. -/
lemma exists_mem_set {P : α → Prop} (ha : l[i]? = some a) (hP : P a → P a') (h : ∃ b ∈ l, P b) :
    ∃ b ∈ l.set i a', P b := by
  obtain ⟨b, hb, hPb⟩ := h
  obtain ⟨j, hj⟩ := List.mem_iff_getElem?.mp hb
  by_cases hij : i = j
  · subst hij
    obtain rfl := Option.some.inj (ha.symm.trans hj)
    exact ⟨a', mem_set_self ha, hP hPb⟩
  · refine ⟨b, List.mem_iff_getElem?.mpr ⟨j, ?_⟩, hPb⟩
    rw [List.getElem?_set_ne hij, hj]

/-- **One place**: it is the one that has changed, or it is as it was. -/
lemma getElem?_set_cases (h : (l.set i a')[j]? = some b) :
    (j = i ∧ b = a') ∨ (j ≠ i ∧ l[j]? = some b) := by
  by_cases hij : i = j
  · subst hij
    rw [List.getElem?_set_self'] at h
    obtain ⟨x, -, rfl⟩ := Option.map_eq_some_iff.mp h
    exact Or.inl ⟨rfl, rfl⟩
  · rw [List.getElem?_set_ne hij] at h
    exact Or.inr ⟨Ne.symm hij, h⟩

lemma getElem?_set_of_some (ha : l[i]? = some a) : (l.set i a')[i]? = some a' := by
  obtain ⟨hlt, -⟩ := List.getElem?_eq_some_iff.mp ha
  exact List.getElem?_set_self hlt

/-- What the change keeps is kept everywhere. -/
lemma map_set_of_eq {β : Type*} {f : α → β} (ha : l[i]? = some a) (h : f a' = f a) :
    (l.set i a').map f = l.map f := by
  obtain ⟨hlt, rfl⟩ := List.getElem?_eq_some_iff.mp ha
  rw [List.map_set, h, ← List.getElem_map f (h := by rwa [List.length_map]), List.set_getElem_self]

end Crossbridge.Lists
