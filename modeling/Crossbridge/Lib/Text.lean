import Mathlib.Data.List.DropRight
import Mathlib.Data.List.Infix
import Mathlib.Data.List.TakeWhile
import Mathlib.Tactic

/-!
Cutting up a text: what is before the first separator, what is after the last one, and a text
without a certain ending and without the blanks around it. And looking for a part of a text: a part
is not found across a character that it does not have (`infix_append_cons_iff`), an escaped text has it
if it was there before (`infix_flatMap_iff`), and some line of a text has some line of its parts
(`grepF_of_infix`).

A text is a list of characters; of what is not about blanks, a list of anything. How much is cut off
shows from the separators that are left: a text that is longer by a part with a character that the
ending has not is still longer when both have lost the ending (`stripEnd_append_cons_ne`).
-/

namespace Crossbridge.Text

variable {α : Type*}

/-! ### Separators -/

/-- The part before the first separator. -/
def beforeFirst (p : α → Bool) (l : List α) : List α := l.takeWhile fun x => !p x

/-- The rest, from the first separator on. -/
def fromFirst (p : α → Bool) (l : List α) : List α := l.dropWhile fun x => !p x

/-- The part after the last separator. -/
def afterLast (p : α → Bool) (l : List α) : List α := l.rtakeWhile fun x => !p x

section Separators

variable {p q : α → Bool} {l a b : List α} {x : α}

lemma beforeFirst_append_fromFirst : beforeFirst p l ++ fromFirst p l = l := List.takeWhile_append_dropWhile

lemma of_mem_beforeFirst (h : x ∈ beforeFirst p l) : p x = false := by
  simpa using List.mem_takeWhile_imp h

lemma beforeFirst_eq_self (h : ∀ x ∈ l, p x = false) : beforeFirst p l = l :=
  List.takeWhile_eq_self_iff.mpr fun x hx => by rw [h x hx]; rfl

/-- The rest starts with a separator. -/
lemma of_fromFirst_eq_cons (h : fromFirst p l = x :: b) : p x = true := by
  have hhead := List.head?_dropWhile_not (fun x => !p x) l
  rw [show l.dropWhile _ = x :: b from h] at hhead
  simpa using hhead

lemma fromFirst_eq_cons (h : ∃ x ∈ l, p x = true) : ∃ x b, fromFirst p l = x :: b ∧ p x = true := by
  cases hrest : fromFirst p l with
  | nil =>
    obtain ⟨x, hx, hp⟩ := h
    have hnot := List.dropWhile_eq_nil_iff.mp hrest x hx
    rw [hp] at hnot
    cases hnot
  | cons x b => exact ⟨x, b, rfl, of_fromFirst_eq_cons hrest⟩

lemma afterLast_suffix : afterLast p l <:+ l := List.rtakeWhile_suffix _ _

lemma afterLast_eq_self (h : ∀ x ∈ l, p x = false) : afterLast p l = l :=
  List.rtakeWhile_eq_self_iff.mpr fun x hx => by rw [h x hx]; rfl

lemma afterLast_append_cons (h : p x = true) : afterLast p (a ++ x :: b) = afterLast p b := by
  unfold afterLast
  induction b using List.reverseRecOn with
  | nil => exact List.rtakeWhile_concat_neg _ _ _ (by simp [h])
  | append_singleton b y ih =>
    rw [← List.cons_append, ← List.append_assoc, List.rtakeWhile_concat, List.rtakeWhile_concat, ih]

/-- A text that ends with a separator. -/
lemma afterLast_concat (h : p x = true) : afterLast p (a ++ [x]) = [] := afterLast_append_cons h

lemma afterLast_append_of_mem (h : ∃ x ∈ b, p x = true) : afterLast p (a ++ b) = afterLast p b := by
  obtain ⟨x, hx, hp⟩ := h
  obtain ⟨b₁, b₂, rfl⟩ := List.append_of_mem hx
  rw [← List.append_assoc, afterLast_append_cons hp, afterLast_append_cons hp]

lemma afterLast_append (h : ∀ x ∈ b, p x = false) : afterLast p (a ++ b) = afterLast p a ++ b := by
  unfold afterLast List.rtakeWhile
  rw [List.reverse_append, List.takeWhile_append_of_pos, List.reverse_append, List.reverse_reverse]
  intro x hx
  rw [h x (List.mem_reverse.mp hx)]
  rfl

/-- The last separator. -/
lemma eq_append_afterLast (h : ∃ x ∈ l, p x = true) :
    ∃ a x, p x = true ∧ l = a ++ x :: afterLast p l := by
  have hne : l.rdropWhile (fun x => !p x) ≠ [] := by
    rw [Ne, List.rdropWhile_eq_nil_iff]
    obtain ⟨x, hx, hp⟩ := h
    exact fun hall => by simpa [hp] using hall x hx
  have hlast := List.rdropWhile_last_not _ l hne
  refine ⟨(l.rdropWhile fun x => !p x).dropLast, _, by simpa using hlast, ?_⟩
  rw [List.append_cons, List.dropLast_append_getLast hne]
  exact List.rdropWhile_append_rtakeWhile.symm

/-- Of two kinds of separators, one after the other. -/
lemma afterLast_afterLast : afterLast q (afterLast p l) = afterLast (fun x => p x || q x) l := by
  unfold afterLast List.rtakeWhile
  rw [List.reverse_reverse, List.takeWhile_takeWhile]
  congr 2
  funext x
  cases hp : p x <;> cases hq : q x <;> simp [hp, hq]

end Separators

/-! ### Parts -/

section Parts

variable {p q a b l : List α} {x : α}

/-- A part that does not have the separator is on one side of it. -/
lemma infix_append_cons_iff (hx : x ∉ p) : p <:+: a ++ x :: b ↔ p <:+: a ∨ p <:+: b := by
  constructor
  · intro h
    rcases List.infix_append_iff.mp h with ha | hb | ⟨l₁, l₂, rfl, hl₁, hl₂⟩
    · exact Or.inl ha
    · rcases List.infix_cons_iff.mp hb with hpre | hb
      · cases p with
        | nil => exact Or.inr List.nil_infix
        | cons y p =>
          obtain ⟨rfl, -⟩ := List.cons_prefix_cons.mp hpre
          exact absurd List.mem_cons_self hx
      · exact Or.inr hb
    · cases l₂ with
      | nil =>
        rw [List.append_nil]
        exact Or.inl hl₁.isInfix
      | cons y l₂ =>
        obtain ⟨rfl, -⟩ := List.cons_prefix_cons.mp hl₂
        exact absurd (List.mem_append_right _ List.mem_cons_self) hx
  · rintro (h | h)
    · exact List.infix_append_of_infix_left h
    · exact List.infix_append_of_infix_right (List.infix_cons h)

lemma infix_cons_iff_of_not_mem (hx : x ∉ p) : p <:+: x :: b ↔ p <:+: b := by
  have h := infix_append_cons_iff (a := []) (b := b) hx
  rw [List.nil_append, List.infix_nil] at h
  rw [h, or_iff_right_of_imp]
  rintro rfl
  exact List.nil_infix

/-- A part does not start where its first element is not. -/
lemma infix_append_iff_of_head (hx : x ∉ a) : x :: p <:+: a ++ b ↔ x :: p <:+: b := by
  constructor
  · intro h
    rcases List.infix_append_iff_ne_nil.mp h with ha | hb | ⟨l₁, l₂, hne, -, heq, hl₁, -⟩
    · exact absurd (ha.subset List.mem_cons_self) hx
    · exact hb
    · cases l₁ with
      | nil => exact absurd rfl hne
      | cons y l₁ =>
        obtain ⟨rfl, -⟩ := List.cons_eq_cons.mp heq
        exact absurd (hl₁.subset List.mem_cons_self) hx
  · exact List.infix_append_of_infix_right

/-- A part that is not in `a`, and of which no beginning is an end of `a`. -/
lemma infix_append_iff_of_tails (ha : ¬ p <:+: a) (h : ∀ s ∈ a.tails, s <+: p → s = []) :
    p <:+: a ++ b ↔ p <:+: b := by
  constructor
  · intro hp
    rcases List.infix_append_iff_ne_nil.mp hp with hp | hp | ⟨l₁, l₂, hne, -, rfl, hl₁, -⟩
    · exact absurd hp ha
    · exact hp
    · exact absurd (h l₁ ((List.mem_tails _ _).mpr hl₁) (List.prefix_append _ _)) hne
  · exact List.infix_append_of_infix_right

/-- An escaping of single elements leaves those of `p` alone, and starts an escape with none of them. -/
def Escapes (p : List α) (f : α → List α) : Prop :=
  ∀ x, f x = [x] ∨ (x ∉ p ∧ ∃ e s, f x = e :: s ∧ e ∉ p)

lemma prefix_flatMap_iff {f : α → List α} (hf : Escapes p f) (hq : q ⊆ p) :
    q <+: l.flatMap f ↔ q <+: l := by
  induction q generalizing l with
  | nil => simp
  | cons y q ih =>
    obtain ⟨hy, hq⟩ := List.cons_subset.mp hq
    cases l with
    | nil => simp
    | cons x l =>
      rw [List.flatMap_cons, List.cons_prefix_cons]
      rcases hf x with hx | ⟨hx, e, s, hes, he⟩
      · rw [hx, List.singleton_append, List.cons_prefix_cons, ih hq]
      · rw [hes, List.cons_append, List.cons_prefix_cons]
        constructor
        · rintro ⟨rfl, -⟩
          exact absurd hy he
        · rintro ⟨rfl, -⟩
          exact absurd hy hx

/-- **An escaped text** has the parts that it had before, if they cannot start inside an escape. -/
theorem infix_flatMap_iff {f : α → List α} (hf : Escapes (x :: p) f)
    (hstart : ∀ y, f y ≠ [y] → x ∉ f y) : x :: p <:+: l.flatMap f ↔ x :: p <:+: l := by
  induction l with
  | nil => simp
  | cons y l ih =>
    have hpre := prefix_flatMap_iff (l := y :: l) hf (List.Subset.refl _)
    rw [List.flatMap_cons] at hpre ⊢
    by_cases hy : f y = [y]
    · rw [hy, List.singleton_append] at hpre ⊢
      rw [List.infix_cons_iff, List.infix_cons_iff, hpre, ih]
    · rw [infix_append_iff_of_head (hstart y hy), ih]
      rcases hf y with hsame | ⟨hnot, -⟩
      · exact absurd hsame hy
      · exact (infix_cons_iff_of_not_mem hnot).symm

end Parts

/-! ### The first occurrence -/

section FirstOccurrence

variable {l pat a b p s : List α}

/-- A pattern that ends with none of `b` does not occur across its beginning. -/
lemma eq_append_of_append_eq (hne : pat ≠ []) (hb : ∀ x ∈ b, x ∉ pat) (h : l ++ b = p ++ pat ++ s) :
    ∃ s', s = s' ++ b ∧ l = p ++ pat ++ s' := by
  rcases List.append_eq_append_iff.mp h with ⟨c, hl, hbc⟩ | ⟨c, hl, hs⟩
  · cases c using List.reverseRecOn with
    | nil => exact ⟨[], by simpa using hbc.symm, by simpa using hl.symm⟩
    | append_singleton c x =>
      -- the last of the pattern is in `b`
      rw [← List.append_assoc] at hl
      have hx : x ∈ pat := by
        have hlast := congrArg List.getLast? hl
        rw [List.getLast?_append_of_ne_nil _ hne, List.getLast?_concat] at hlast
        exact List.mem_of_getLast? hlast
      exact absurd hx (hb x (hbc ▸ by simp))
  · exact ⟨c, hs, hl⟩

/-- A pattern that starts with none of `a` does not occur across its end. -/
lemma append_eq_of_append_eq (hne : pat ≠ []) (ha : ∀ x ∈ a, x ∉ pat) (h : a ++ l = p ++ pat ++ s) :
    ∃ p', p = a ++ p' ∧ l = p' ++ pat ++ s := by
  rw [List.append_assoc] at h
  rcases List.append_eq_append_iff.mp h with ⟨c, hp, hl⟩ | ⟨c, hac, hrest⟩
  · exact ⟨c, hp, by rw [hl, List.append_assoc]⟩
  · cases c with
    | nil => exact ⟨[], by simpa using hac.symm, by simpa using hrest.symm⟩
    | cons x c =>
      cases pat with
      | nil => exact absurd rfl hne
      | cons y pat =>
        obtain ⟨rfl, -⟩ := List.cons_eq_cons.mp hrest
        exact absurd List.mem_cons_self (ha y (hac ▸ by simp))

variable [BEq α] [LawfulBEq α]

lemma dropInfix_eq_some_iff : l.dropInfix? pat = some (p, s) ↔
    l = p ++ pat ++ s ∧ ∀ p' s', l = p' ++ pat ++ s' → p.length ≤ p'.length := by
  rw [List.dropInfix?_eq_some_iff]
  constructor
  · rintro ⟨⟨i, hl, hi⟩, hmin⟩
    obtain rfl := eq_of_beq hi
    exact ⟨hl, fun p' s' hl' => hmin p' i s' hl' (beq_self_eq_true i)⟩
  · rintro ⟨hl, hmin⟩
    refine ⟨⟨pat, hl, beq_self_eq_true pat⟩, fun p' i s' hl' hi => ?_⟩
    obtain rfl := eq_of_beq hi
    exact hmin p' s' hl'

lemma eq_append_of_dropInfix (h : l.dropInfix? pat = some (p, s)) : l = p ++ pat ++ s :=
  (dropInfix_eq_some_iff.mp h).1

/-- What is after the first occurrence is at the end, also if there is none. -/
lemma suffix_getD_dropInfix (l pat : List α) : ((l.dropInfix? pat).map Prod.snd).getD l <:+ l := by
  cases h : l.dropInfix? pat with
  | none => exact List.suffix_refl l
  | some r =>
    rw [eq_append_of_dropInfix h]
    exact List.suffix_append _ _

/-- What occurs has a first occurrence. -/
lemma exists_dropInfix (h : pat <:+: l) : ∃ r, l.dropInfix? pat = some r := by
  classical
  have hsome : ∃ n p s, l = p ++ pat ++ s ∧ p.length = n := by
    obtain ⟨p, s, hl⟩ := h
    exact ⟨_, p, s, hl.symm, rfl⟩
  obtain ⟨p, s, hl, hlen⟩ := Nat.find_spec hsome
  refine ⟨(p, s), dropInfix_eq_some_iff.mpr ⟨hl, fun p' s' hl' => ?_⟩⟩
  rw [hlen]
  exact Nat.find_min' hsome ⟨p', s', hl', rfl⟩

lemma dropInfix_eq_none_iff : l.dropInfix? pat = none ↔ ¬ pat <:+: l := by
  constructor
  · intro hnone h
    obtain ⟨r, hr⟩ := exists_dropInfix h
    rw [hnone] at hr
    cases hr
  · intro h
    cases hr : l.dropInfix? pat with
    | none => rfl
    | some r =>
      obtain ⟨hl, -⟩ := dropInfix_eq_some_iff.mp hr
      exact absurd ⟨r.1, r.2, hl.symm⟩ h

/-- **The first occurrence** of a pattern is where it was, when what is put around a text has nothing of
the pattern. -/
theorem dropInfix_append (hne : pat ≠ []) (ha : ∀ x ∈ a, x ∉ pat) (hb : ∀ x ∈ b, x ∉ pat) :
    (a ++ l ++ b).dropInfix? pat = (l.dropInfix? pat).map fun r => (a ++ r.1, r.2 ++ b) := by
  have hocc : ∀ p s, a ++ l ++ b = p ++ pat ++ s →
      ∃ p' s', p = a ++ p' ∧ s = s' ++ b ∧ l = p' ++ pat ++ s' := by
    intro p s h
    obtain ⟨s', rfl, h'⟩ := eq_append_of_append_eq hne hb h
    obtain ⟨p', rfl, hl⟩ := append_eq_of_append_eq hne ha h'
    exact ⟨p', s', rfl, rfl, hl⟩
  cases h : l.dropInfix? pat with
  | none =>
    rw [dropInfix_eq_none_iff] at h
    rw [Option.map_none, dropInfix_eq_none_iff]
    rintro ⟨p, s, hl⟩
    obtain ⟨p', s', -, -, hl'⟩ := hocc p s hl.symm
    exact h ⟨p', s', hl'.symm⟩
  | some r =>
    obtain ⟨hl, hmin⟩ := dropInfix_eq_some_iff.mp h
    refine dropInfix_eq_some_iff.mpr ⟨by rw [hl]; simp, fun p s hps => ?_⟩
    obtain ⟨p', s', rfl, -, hl'⟩ := hocc p s hps
    have := hmin p' s' hl'
    simpa using this

end FirstOccurrence

/-! ### Endings -/

/-- A text without the ending, if it has it. -/
def stripEnd [BEq α] (l ending : List α) : List α := (l.dropSuffix? ending).getD l

section Endings

variable {l ending a b : List α} {x : α}

/-- An ending that reaches beyond `b` contains what is before `b`. -/
lemma suffix_of_suffix_append_cons (hx : x ∉ ending) (h : ending <:+ a ++ x :: b) : ending <:+ b := by
  rcases List.suffix_or_suffix_of_suffix h (List.suffix_append a (x :: b)) with hshort | ⟨r, hr⟩
  · rcases List.suffix_cons_iff.mp hshort with heq | hb
    · exact absurd (heq ▸ List.mem_cons_self) hx
    · exact hb
  · exact absurd (hr ▸ List.mem_append_right _ List.mem_cons_self) hx

variable [BEq α] [LawfulBEq α]

lemma stripEnd_append : stripEnd (l ++ ending) ending = l := by
  unfold stripEnd
  rw [List.dropSuffix?_eq_some_iff.mpr ⟨ending, rfl, beq_self_eq_true _⟩, Option.getD_some]

lemma stripEnd_of_not_suffix (h : ¬ ending <:+ l) : stripEnd l ending = l := by
  unfold stripEnd
  cases hdrop : l.dropSuffix? ending with
  | none => rfl
  | some r =>
    obtain ⟨s, hs, hbeq⟩ := List.dropSuffix?_eq_some_iff.mp hdrop
    exact absurd ⟨r, by rw [hs, eq_of_beq hbeq]⟩ h

/-- A text that ends with something else. -/
lemma stripEnd_concat (hne : ending ≠ []) (hx : x ∉ ending) : stripEnd (l ++ [x]) ending = l ++ [x] := by
  refine stripEnd_of_not_suffix fun hsuffix => ?_
  rcases List.suffix_concat_iff.mp hsuffix with hnil | ⟨t, rfl, -⟩
  · exact hne hnil
  · exact hx (by simp)

lemma stripEnd_prefix : stripEnd l ending <+: l := by
  by_cases h : ending <:+ l
  · obtain ⟨r, rfl⟩ := h
    rw [stripEnd_append]
    exact List.prefix_append _ _
  · rw [stripEnd_of_not_suffix h]

/-- Nothing is left of nothing, and of the ending. -/
lemma stripEnd_eq_nil_iff : stripEnd l ending = [] ↔ l = [] ∨ l = ending := by
  by_cases h : ending <:+ l
  · obtain ⟨r, rfl⟩ := h
    rw [stripEnd_append, List.append_eq_nil_iff, List.append_left_eq_self]
    tauto
  · rw [stripEnd_of_not_suffix h]
    refine (or_iff_left ?_).symm
    rintro rfl
    exact h (List.suffix_refl _)

/-- What is not in the ending stays. -/
lemma mem_stripEnd (hx : x ∉ ending) : x ∈ stripEnd l ending ↔ x ∈ l := by
  by_cases h : ending <:+ l
  · obtain ⟨r, rfl⟩ := h
    rw [stripEnd_append, List.mem_append, or_iff_left hx]
  · rw [stripEnd_of_not_suffix h]

/-- **A longer text** stays longer, if it is so by something that is not in the ending. -/
theorem stripEnd_append_cons_ne (hx : x ∉ ending) :
    stripEnd (a ++ x :: b) ending ≠ stripEnd b ending := by
  by_cases h : ending <:+ b
  · obtain ⟨r, rfl⟩ := h
    rw [← List.cons_append, ← List.append_assoc, stripEnd_append, stripEnd_append]
    intro heq
    have hlen := congrArg List.length heq
    rw [List.length_append, List.length_cons] at hlen
    omega
  · rw [stripEnd_of_not_suffix h, stripEnd_of_not_suffix fun hs => h (suffix_of_suffix_append_cons hx hs)]
    intro heq
    have hlen := congrArg List.length heq
    rw [List.length_append, List.length_cons] at hlen
    omega

end Endings

/-! ### Blanks -/

/-- `char::is_whitespace`: the characters with the property `White_Space`. -/
def isWhitespace (c : Char) : Bool :=
  (9 ≤ c.toNat && c.toNat ≤ 13) || c.toNat = 0x20 || c.toNat = 0x85 || c.toNat = 0xA0 ||
    c.toNat = 0x1680 || (0x2000 ≤ c.toNat && c.toNat ≤ 0x200A) || c.toNat = 0x2028 ||
    c.toNat = 0x2029 || c.toNat = 0x202F || c.toNat = 0x205F || c.toNat = 0x3000

/-- `str::trim` -/
def trim (l : List Char) : List Char := (l.rdropWhile isWhitespace).dropWhile isWhitespace

section Blanks

variable {p : Char → Bool} {l s a b : List Char} {x : Char}

lemma dropWhile_append_cons (h : p x = false) :
    (a ++ x :: b).dropWhile p = a.dropWhile p ++ x :: b := by
  rw [List.dropWhile_append]
  split
  · rename_i hnil
    rw [List.isEmpty_iff.mp hnil, List.dropWhile_cons_of_neg (by simp [h]), List.nil_append]
  · rfl

/-- The last of what is dropped from the front. -/
lemma eq_append_dropWhile (h : l.takeWhile p ≠ []) : ∃ a x, p x = true ∧ l = a ++ x :: l.dropWhile p := by
  refine ⟨(l.takeWhile p).dropLast, _, List.mem_takeWhile_imp (List.getLast_mem h), ?_⟩
  rw [List.append_cons, List.dropLast_append_getLast, List.takeWhile_append_dropWhile]

/-- The end of a text that does not end with blanks. -/
lemma rdropWhile_of_suffix (hs : s <:+ l) (hl : l.rdropWhile p = l) :
    s.rdropWhile p = s := by
  obtain ⟨a, rfl⟩ := hs
  rw [List.rdropWhile_eq_self_iff] at hl ⊢
  intro hne
  have hlast := hl (List.append_ne_nil_of_right_ne_nil a hne)
  rwa [List.getLast_append_of_right_ne_nil _ _ hne] at hlast

lemma rdropWhile_trim : (trim l).rdropWhile isWhitespace = trim l :=
  rdropWhile_of_suffix (List.dropWhile_suffix _) (List.rdropWhile_idempotent _ _)

lemma trim_subset : trim l ⊆ l := fun _ h =>
  (List.rdropWhile_prefix _ l).subset ((List.dropWhile_suffix _).subset h)

/-- Of the end of a text without blanks around it, only the front can be blank. -/
lemma trim_of_suffix (hs : s <:+ trim l) : trim s = s.dropWhile isWhitespace := by
  unfold trim
  rw [rdropWhile_of_suffix hs rdropWhile_trim]

lemma trim_append_left (ha : ∀ x ∈ a, isWhitespace x = true) : trim (a ++ l) = trim l := by
  unfold trim
  induction l using List.reverseRecOn with
  | nil =>
    have hnil : a.rdropWhile isWhitespace = [] := List.rdropWhile_eq_nil_iff.mpr ha
    rw [List.append_nil, hnil]
    rfl
  | append_singleton l x ih =>
    rw [← List.append_assoc]
    by_cases hx : isWhitespace x = true
    · rwa [List.rdropWhile_concat_pos _ _ _ hx, List.rdropWhile_concat_pos _ _ _ hx]
    · rw [List.rdropWhile_concat_neg _ _ _ hx, List.rdropWhile_concat_neg _ _ _ hx, List.append_assoc,
        List.dropWhile_append_of_pos ha]

lemma rdropWhile_append_of_forall (hb : ∀ x ∈ b, p x = true) :
    (l ++ b).rdropWhile p = l.rdropWhile p := by
  induction b using List.reverseRecOn with
  | nil => rw [List.append_nil]
  | append_singleton b x ih =>
    rw [← List.append_assoc, List.rdropWhile_concat_pos _ _ _ (hb x (by simp))]
    exact ih fun y hy => hb y (List.mem_append_left _ hy)

lemma rdropWhile_append_of_none (ha : ∀ x ∈ a, p x = false) :
    (a ++ l).rdropWhile p = a ++ l.rdropWhile p := by
  induction l using List.reverseRecOn with
  | nil =>
    rw [List.append_nil, List.rdropWhile_nil, List.append_nil, List.rdropWhile_eq_self_iff]
    intro hne hlast
    rw [ha _ (List.getLast_mem hne)] at hlast
    cases hlast
  | append_singleton l x ih =>
    rw [← List.append_assoc]
    by_cases hx : p x = true
    · rwa [List.rdropWhile_concat_pos _ _ _ hx, List.rdropWhile_concat_pos _ _ _ hx]
    · rw [List.rdropWhile_concat_neg _ _ _ hx, List.rdropWhile_concat_neg _ _ _ hx, List.append_assoc]

lemma trim_append_right (hb : ∀ x ∈ b, isWhitespace x = true) : trim (l ++ b) = trim l := by
  unfold trim
  rw [rdropWhile_append_of_forall hb]

lemma length_trim_le (l : List Char) : (trim l).length ≤ l.length :=
  (List.dropWhile_suffix _).length_le.trans (List.rdropWhile_prefix _ _).length_le

lemma trim_eq_self (h : ∀ x ∈ l, isWhitespace x = false) : trim l = l := by
  unfold trim
  have hend : l.rdropWhile isWhitespace = l := by
    refine List.rdropWhile_eq_self_iff.mpr fun hne hblank => ?_
    rw [h _ (List.getLast_mem hne)] at hblank
    cases hblank
  rw [hend]
  cases l with
  | nil => rfl
  | cons x l => exact List.dropWhile_cons_of_neg (by simp [h x List.mem_cons_self])

lemma dropWhile_eq_self (h : l.head?.any p = false) : l.dropWhile p = l := by
  cases l with
  | nil => rfl
  | cons x l => exact List.dropWhile_cons_of_neg (by simpa using h)

lemma head_dropWhile (l : List Char) : (l.dropWhile p).head?.any p = false := by
  have hhead := List.head?_dropWhile_not p l
  cases h : (l.dropWhile p).head? with
  | none => rfl
  | some x =>
    rw [h] at hhead
    simpa using hhead

lemma not_prefix_trim (ha : ∀ x ∈ a, isWhitespace x = true) (hne : a ≠ []) : ¬ a <+: trim l := by
  rintro ⟨t, ht⟩
  have hhead : (trim l).head?.any isWhitespace = false := head_dropWhile _
  cases a with
  | nil => exact hne rfl
  | cons x a =>
    rw [← ht, List.cons_append, List.head?_cons, Option.any_some, ha x List.mem_cons_self] at hhead
    cases hhead

lemma beforeFirst_eq_nil_iff (h : l.head?.any p = false) : beforeFirst p l = [] ↔ l = [] := by
  cases l with
  | nil => exact Iff.rfl
  | cons x l =>
    have hx : p x = false := by simpa using h
    unfold beforeFirst
    rw [List.takeWhile_cons_of_pos (by simp [hx])]
    exact iff_of_false (List.cons_ne_nil _ _) (List.cons_ne_nil _ _)

/-- The blanks around a text. -/
lemma exists_eq_append_trim (l : List Char) : ∃ a b, l = a ++ trim l ++ b ∧
    (∀ x ∈ a, isWhitespace x = true) ∧ ∀ x ∈ b, isWhitespace x = true := by
  refine ⟨(l.rdropWhile isWhitespace).takeWhile isWhitespace, l.rtakeWhile isWhitespace, ?_,
    fun x hx => List.mem_takeWhile_imp hx, fun x hx => List.mem_rtakeWhile_imp hx⟩
  unfold trim
  rw [List.takeWhile_append_dropWhile, List.rdropWhile_append_rtakeWhile]

end Blanks

/-! ### Lines and words -/

/-- `str::lines` -/
def lines (l : List Char) : List (List Char) :=
  let parts := l.splitOn '\n'
  parts.dropLast.map (fun line => stripEnd line ['\r']) ++
    (parts.getLast?.filter fun line => line ≠ []).toList

/-- `str::split_whitespace` -/
def splitWhitespace (l : List Char) : List (List Char) :=
  (l.splitOnP isWhitespace).filter fun word => word ≠ []

section Words

variable {l a b : List Char} {x : Char}

lemma splitWhitespace_append_cons (hx : isWhitespace x = true) :
    splitWhitespace (a ++ x :: b) = splitWhitespace a ++ splitWhitespace b := by
  unfold splitWhitespace
  rw [List.splitOnP_append_cons a b hx, List.filter_append]

@[simp] lemma splitWhitespace_nil : splitWhitespace [] = [] := by simp [splitWhitespace]

lemma splitWhitespace_blanks_append (ha : ∀ x ∈ a, isWhitespace x = true) :
    splitWhitespace (a ++ b) = splitWhitespace b := by
  induction a with
  | nil => rfl
  | cons x a ih =>
    obtain ⟨hx, ha⟩ := List.forall_mem_cons.mp ha
    have hfirst := splitWhitespace_append_cons (a := []) (b := a ++ b) hx
    rwa [splitWhitespace_nil, List.nil_append, List.nil_append, ih ha] at hfirst

lemma splitWhitespace_blanks (ha : ∀ x ∈ a, isWhitespace x = true) : splitWhitespace a = [] := by
  have h := splitWhitespace_blanks_append (b := []) ha
  rwa [List.append_nil, splitWhitespace_nil] at h

/-- The blanks around a text do not matter. -/
lemma splitWhitespace_trim (l : List Char) : splitWhitespace (trim l) = splitWhitespace l := by
  obtain ⟨a, b, hl, ha, hb⟩ := exists_eq_append_trim l
  conv_rhs => rw [hl, List.append_assoc, splitWhitespace_blanks_append ha]
  cases b with
  | nil => rw [List.append_nil]
  | cons x b =>
    obtain ⟨hx, hb⟩ := List.forall_mem_cons.mp hb
    rw [splitWhitespace_append_cons hx, splitWhitespace_blanks hb, List.append_nil]

lemma splitWhitespace_dropWhile (l : List Char) :
    splitWhitespace (l.dropWhile isWhitespace) = splitWhitespace l := by
  conv_rhs => rw [← List.takeWhile_append_dropWhile (p := isWhitespace) (l := l)]
  exact (splitWhitespace_blanks_append fun x hx => List.mem_takeWhile_imp hx).symm

/-- **The first word** of a text that does not start with a blank, and the other words. -/
theorem headD_splitWhitespace (h : l.head?.any isWhitespace = false) :
    (splitWhitespace l).head?.getD [] = beforeFirst isWhitespace l ∧
      (splitWhitespace l).drop 1 = splitWhitespace ((fromFirst isWhitespace l).drop 1) := by
  cases hl : l with
  | nil => exact ⟨rfl, rfl⟩
  | cons y rest =>
    rw [← hl]
    have hfirst : beforeFirst isWhitespace l ≠ [] := by
      rw [Ne, beforeFirst_eq_nil_iff h, hl]
      exact List.cons_ne_nil _ _
    have hword : splitWhitespace (beforeFirst isWhitespace l) = [beforeFirst isWhitespace l] := by
      unfold splitWhitespace
      rw [List.splitOnP_eq_singleton fun x hx => of_mem_beforeFirst hx]
      simp [hfirst]
    have hsplit : splitWhitespace l = beforeFirst isWhitespace l ::
        splitWhitespace ((fromFirst isWhitespace l).drop 1) := by
      conv_lhs => rw [← beforeFirst_append_fromFirst (p := isWhitespace) (l := l)]
      cases hrest : fromFirst isWhitespace l with
      | nil => rw [List.append_nil, hword, List.drop_nil, splitWhitespace_nil]
      | cons x rest =>
        rw [splitWhitespace_append_cons (of_fromFirst_eq_cons hrest), hword]
        rfl
    rw [hsplit]
    exact ⟨rfl, rfl⟩

end Words

/-! ### Looking for lines -/

section Lines

variable [BEq α] [LawfulBEq α] {pat text : List α} {x : α}

/-- A part without the separator is in one of the pieces. -/
lemma exists_infix_piece (hx : x ∉ pat) (h : pat <:+: text) : ∃ l ∈ text.splitOn x, pat <:+: l := by
  induction hn : text.length using Nat.strong_induction_on generalizing text with
  | _ n ih =>
    by_cases hmem : x ∈ text
    · obtain ⟨a, b, rfl⟩ := List.append_of_mem hmem
      have hpieces : (a ++ x :: b).splitOn x = a.splitOn x ++ b.splitOn x :=
        List.splitOnP_append_cons a b (by simp)
      rw [hpieces]
      rw [List.length_append, List.length_cons] at hn
      rcases (infix_append_cons_iff hx).mp h with ha | hb
      · obtain ⟨l, hl, hpat⟩ := ih a.length (by omega) ha rfl
        exact ⟨l, List.mem_append_left _ hl, hpat⟩
      · obtain ⟨l, hl, hpat⟩ := ih b.length (by omega) hb rfl
        exact ⟨l, List.mem_append_right _ hl, hpat⟩
    · refine ⟨text, ?_, h⟩
      rw [List.splitOn_eq_singleton hmem]
      exact List.mem_singleton_self _

/-- The beginning of a text, up to the separator, is one of its pieces. -/
lemma exists_prefix_piece (x : α) (text : List α) : ∃ l ∈ text.splitOn x, l <+: text ∧ x ∉ l := by
  by_cases hmem : x ∈ text
  · obtain ⟨a, b, rfl, ha⟩ := List.eq_append_cons_of_mem hmem
    have hpieces : (a ++ x :: b).splitOn x = a :: b.splitOn x := by
      refine List.splitOnP_append_cons_of_forall_mem (fun y hy => ?_) x (by simp) b
      rw [beq_eq_false_iff_ne]
      rintro rfl
      exact ha hy
    rw [hpieces]
    exact ⟨a, List.mem_cons_self, List.prefix_append _ _, ha⟩
  · rw [List.splitOn_eq_singleton hmem]
    exact ⟨text, List.mem_singleton_self _, List.prefix_refl _, hmem⟩

end Lines

/-- `grep -F`: some line of the text has some line of the pattern. -/
def GrepF (pat text : List Char) : Prop :=
  ∃ p ∈ pat.splitOn '\n', ∃ l ∈ text.splitOn '\n', p <:+: l

instance (pat text : List Char) : Decidable (GrepF pat text) := by unfold GrepF; infer_instance

/-- What is part of the text is found. -/
lemma grepF_of_infix {pat text : List Char} (h : pat <:+: text) : GrepF pat text := by
  obtain ⟨p, hp, hpre, hnl⟩ := exists_prefix_piece '\n' pat
  obtain ⟨l, hl, hpl⟩ := exists_infix_piece hnl (hpre.isInfix.trans h)
  exact ⟨p, hp, l, hl, hpl⟩

end Crossbridge.Text
