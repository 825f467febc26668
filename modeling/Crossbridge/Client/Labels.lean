import Mathlib.Data.List.Basic
import Mathlib.Tactic

/-!
The `xb*` label conventions of the client, and the reading of a label by its prefix.

A label with a prefix has exactly one value (`stripPrefix_eq_some`), so what `findPrefixed` returns
is decided by the labels that carry the prefix, and by their order when there are several.
-/

namespace Crossbridge.Client

def inbound : String := "xb:inbound"
def outbound : String := "xb:outbound"
def statusPending : String := "xb-status:pending"
def statusAnswered : String := "xb-status:answered"
def sourcePrefix : String := "xb-source:"
def refPrefix : String := "xb-ref:"

/-- Format `xb-ref:<value>` for use as a label. -/
def refLabel (value : String) : String := refPrefix ++ value

/-- `str::strip_prefix`. -/
def stripPrefix (p l : String) : Option String :=
  if p.toList <+: l.toList then some (String.ofList (l.toList.drop p.toList.length)) else none

/-- The value after the prefix in the first label that has it. -/
def findPrefixed (labels : List String) (p : String) : Option String :=
  labels.findSome? (stripPrefix p)

/-- Some label is the marker. -/
def has (labels : List String) (marker : String) : Bool := labels.any fun l => l = marker

lemma stripPrefix_eq_some {p l v : String} : stripPrefix p l = some v ↔ l = p ++ v := by
  unfold stripPrefix
  constructor
  · intro h
    split at h
    · rename_i hp
      obtain ⟨t, ht⟩ := hp
      simp only [Option.some.injEq] at h
      rw [← ht, List.drop_left] at h
      rw [← h, ← String.toList_inj, String.toList_append, String.toList_ofList, ht]
    · cases h
  · rintro rfl
    rw [String.toList_append, if_pos (List.prefix_append _ _), List.drop_left, String.ofList_toList]

lemma stripPrefix_append (p v : String) : stripPrefix p (p ++ v) = some v :=
  stripPrefix_eq_some.mpr rfl

lemma mem_of_findPrefixed {labels : List String} {p v : String} (h : findPrefixed labels p = some v) :
    p ++ v ∈ labels := by
  obtain ⟨l, hl, hs⟩ := List.exists_of_findSome?_eq_some h
  rwa [← stripPrefix_eq_some.mp hs]

lemma findPrefixed_eq_none {labels : List String} {p : String} (h : findPrefixed labels p = none)
    (v : String) : p ++ v ∉ labels := by
  intro hmem
  have := List.findSome?_eq_none_iff.mp h _ hmem
  rw [stripPrefix_append] at this
  cases this

/-- **One value.** When the labels with a prefix all carry the same value, that is what is found, in
whatever order they are listed. -/
theorem findPrefixed_of_unique {labels : List String} {p v : String} (hv : p ++ v ∈ labels)
    (h : ∀ w, p ++ w ∈ labels → w = v) : findPrefixed labels p = some v := by
  cases hf : findPrefixed labels p with
  | none => exact absurd hv (findPrefixed_eq_none hf v)
  | some w => rw [h w (mem_of_findPrefixed hf)]

/-- When there is one value at most, the order of the labels and the labels without the prefix make no
difference. -/
lemma findPrefixed_congr {ls ls' : List String} {p : String} (h : ∀ v, p ++ v ∈ ls ↔ p ++ v ∈ ls')
    (hone : ∀ v w, p ++ v ∈ ls → p ++ w ∈ ls → v = w) : findPrefixed ls p = findPrefixed ls' p := by
  cases hf : findPrefixed ls' p with
  | some v =>
    have hv : p ++ v ∈ ls := (h v).mpr (mem_of_findPrefixed hf)
    exact findPrefixed_of_unique hv fun w hw => hone w v hw hv
  | none =>
    cases hg : findPrefixed ls p with
    | none => rfl
    | some v => exact absurd ((h v).mp (mem_of_findPrefixed hg)) (findPrefixed_eq_none hf v)

/-- **Two values.** A label carries the prefix and another value: some order of the labels finds
that one. -/
theorem findPrefixed_cons (p w : String) (labels : List String) :
    findPrefixed ((p ++ w) :: labels) p = some w := by
  unfold findPrefixed
  rw [List.findSome?_cons_of_isSome (by rw [stripPrefix_append]; rfl), stripPrefix_append]

lemma has_iff {labels : List String} {marker : String} : has labels marker = true ↔ marker ∈ labels := by
  unfold has
  rw [List.any_eq_true]
  constructor
  · rintro ⟨l, hl, h⟩
    rwa [of_decide_eq_true h] at hl
  · intro h
    exact ⟨marker, h, decide_eq_true rfl⟩

end Crossbridge.Client
