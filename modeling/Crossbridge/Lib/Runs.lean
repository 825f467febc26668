import Mathlib.Data.List.Basic
import Mathlib.Tactic

/-!
Runs of a partial transition function: a step takes a state and an action to at most one next
state, a run executes a list of actions, and an invariant of the steps is an invariant of the runs.

Three forms of the invariant rule are stated. `exec_inv` is for a property that every step keeps;
`exec_inv_of_meets` is for a property that only the steps meeting a condition keep, the condition
being on the state before the step and on the action (`Meets`); `exec_hist_of_meets` is for a
property of the state together with the actions that led to it.

A state is `Quiet` when no step that meets a condition changes it. Where every such step that changes a
state takes it down in a well-founded order, such steps lead to a quiet state (`exists_quiet`) and do not
go on for ever (`not_endless`).

A system whose steps are those of another one, as far as that is seen, or leave what is seen as it is,
has the runs of the other (`exec_matched`).
-/

namespace Crossbridge.Runs

variable {σ α : Type*}

/-- The state after a list of actions; `none` when one of them is not enabled. -/
def exec (step : σ → α → Option σ) : σ → List α → Option σ
  | s, [] => some s
  | s, a :: as => (step s a).bind fun s' => exec step s' as

/-- Every step of the run meets the condition `C`. -/
def Meets (step : σ → α → Option σ) (C : σ → α → Prop) : σ → List α → Prop
  | _, [] => True
  | s, a :: as => C s a ∧ ∀ s', step s a = some s' → Meets step C s' as

instance decidableMeets (step : σ → α → Option σ) (C : σ → α → Prop) [∀ s a, Decidable (C s a)] :
    ∀ (s : σ) (as : List α), Decidable (Meets step C s as)
  | _, [] => isTrue trivial
  | s, a :: as =>
    match h : step s a with
    | none => decidable_of_iff (C s a) ⟨fun hc => ⟨hc, fun s' hs => by simp [h] at hs⟩, fun hm => hm.1⟩
    | some s' =>
      have := decidableMeets step C s' as
      decidable_of_iff (C s a ∧ Meets step C s' as)
        ⟨fun hm => ⟨hm.1, fun t ht => by rw [h] at ht; exact Option.some.inj ht ▸ hm.2⟩,
          fun hm => ⟨hm.1, hm.2 s' h⟩⟩

section Exec

variable {step : σ → α → Option σ} {C : σ → α → Prop} {I : σ → Prop}

@[simp] lemma exec_nil (s : σ) : exec step s [] = some s := rfl

lemma exec_cons (s : σ) (a : α) (as : List α) :
    exec step s (a :: as) = (step s a).bind fun s' => exec step s' as := rfl

lemma exec_cons_eq_some {s t : σ} {a : α} {as : List α} :
    exec step s (a :: as) = some t ↔ ∃ s', step s a = some s' ∧ exec step s' as = some t := by
  rw [exec_cons, Option.bind_eq_some_iff]

lemma exec_one {s t : σ} {a : α} (h : step s a = some t) : exec step s [a] = some t :=
  exec_cons_eq_some.mpr ⟨t, h, rfl⟩

/-- A run that goes on. -/
lemma exec_append {s t u : σ} {as bs : List α} (h : exec step s as = some t)
    (h' : exec step t bs = some u) : exec step s (as ++ bs) = some u := by
  induction as generalizing s with
  | nil => exact Option.some.inj h ▸ h'
  | cons a as ih =>
    obtain ⟨s', hs, ht⟩ := exec_cons_eq_some.mp h
    exact exec_cons_eq_some.mpr ⟨s', hs, ih ht⟩

lemma Meets.mono {D : σ → α → Prop} (h : ∀ s a, C s a → D s a) :
    ∀ {s : σ} {as : List α}, Meets step C s as → Meets step D s as
  | _, [], _ => trivial
  | s, a :: _, hm => ⟨h s a hm.1, fun s' hs => (hm.2 s' hs).mono h⟩

lemma Meets.and {D : σ → α → Prop} :
    ∀ {s : σ} {as : List α}, Meets step C s as → Meets step D s as →
      Meets step (fun s a => C s a ∧ D s a) s as
  | _, [], _, _ => trivial
  | _, _ :: _, hc, hd => ⟨⟨hc.1, hd.1⟩, fun s' hs => (hc.2 s' hs).and (hd.2 s' hs)⟩

/-- A run that goes on meets the condition in its first part, and then in the rest. -/
lemma Meets.append : ∀ {s : σ} {as bs : List α}, Meets step C s (as ++ bs) →
    Meets step C s as ∧ ∀ t, exec step s as = some t → Meets step C t bs
  | _, [], _, h => ⟨trivial, fun _ ht => Option.some.inj ht ▸ h⟩
  | s, a :: as, bs, h => by
    refine ⟨⟨h.1, fun s' hs => (h.2 s' hs).append.1⟩, fun t ht => ?_⟩
    obtain ⟨s', hs, ht'⟩ := exec_cons_eq_some.mp ht
    exact (h.2 s' hs).append.2 t ht'

/-- A run that meets the condition, and goes on with one that does. -/
lemma Meets.trans : ∀ {s : σ} {as bs : List α}, Meets step C s as →
    (∀ t, exec step s as = some t → Meets step C t bs) → Meets step C s (as ++ bs)
  | s, [], _, _, h => h s rfl
  | _, _ :: _, _, hm, h => ⟨hm.1, fun _ hs =>
      (hm.2 _ hs).trans fun t ht => h t (exec_cons_eq_some.mpr ⟨_, hs, ht⟩)⟩

/-- A condition that an invariant of the steps meeting `C` gives is met by a run that meets `C`. -/
lemma Meets.of_inv {D : σ → α → Prop} (hstep : ∀ s a s', I s → C s a → step s a = some s' → I s')
    (hD : ∀ s a, I s → C s a → D s a) :
    ∀ {s : σ} {as : List α}, I s → Meets step C s as → Meets step D s as
  | _, [], _, _ => trivial
  | s, a :: _, hI, hm =>
    ⟨hD s a hI hm.1, fun s' hs => Meets.of_inv hstep hD (hstep s a s' hI hm.1 hs) (hm.2 s' hs)⟩

/-- A condition on the actions alone is met by a run all of whose actions satisfy it. -/
lemma meets_of_forall {D : α → Prop} :
    ∀ {s : σ} {as : List α}, (∀ a ∈ as, D a) → Meets step (fun _ a => D a) s as
  | _, [], _ => trivial
  | _, a :: _, h => ⟨h a (List.mem_cons_self ..), fun _ _ =>
      meets_of_forall fun b hb => h b (List.mem_cons_of_mem _ hb)⟩

lemma exec_hist_append_of_meets {H : List α → σ → Prop}
    (hstep : ∀ as s a s', H as s → C s a → step s a = some s' → H (as ++ [a]) s') :
    ∀ (bs : List α) {s t : σ} {as : List α}, H bs s → Meets step C s as →
      exec step s as = some t → H (bs ++ as) t
  | bs, s, t, [], hH, _, h => by
    obtain rfl : s = t := Option.some.inj h
    rwa [List.append_nil]
  | bs, s, t, a :: as, hH, hm, h => by
    obtain ⟨s', hs, ht⟩ := exec_cons_eq_some.mp h
    have := exec_hist_append_of_meets hstep (bs ++ [a]) (hstep bs s a s' hH hm.1 hs) (hm.2 s' hs) ht
    rwa [List.append_assoc] at this

/-- **The invariant rule with a history.** What relates a state to the actions that led to it, and is
kept by every step meeting the condition, holds after every run all of whose steps meet it. -/
theorem exec_hist_of_meets {H : List α → σ → Prop}
    (hstep : ∀ as s a s', H as s → C s a → step s a = some s' → H (as ++ [a]) s') {s t : σ}
    {as : List α} (hH : H [] s) (hm : Meets step C s as) (h : exec step s as = some t) : H as t :=
  exec_hist_append_of_meets hstep [] hH hm h

/-- **The invariant rule.** What every step meeting the condition keeps holds after every run all of
whose steps meet it. -/
theorem exec_inv_of_meets (hstep : ∀ s a s', I s → C s a → step s a = some s' → I s') {s t : σ}
    {as : List α} (hI : I s) (hm : Meets step C s as) (h : exec step s as = some t) : I t :=
  exec_hist_of_meets (H := fun _ s => I s) (fun _ s a s' => hstep s a s') hI hm h

/-- **The invariant rule**, for a property that every step keeps. -/
theorem exec_inv (hstep : ∀ s a s', I s → step s a = some s' → I s') {s t : σ} {as : List α}
    (hI : I s) (h : exec step s as = some t) : I t :=
  exec_inv_of_meets (C := fun _ _ => True) (fun s a s' hI _ => hstep s a s' hI) hI
    (meets_of_forall fun _ _ => trivial) h

/-- No step that meets the condition changes the state. -/
def Quiet (step : σ → α → Option σ) (C : σ → α → Prop) (s : σ) : Prop :=
  ∀ a s', C s a → step s a = some s' → s' = s

/-- **The termination rule.** Where every step that meets the condition takes the state down, unless it
leaves it as it is, there are steps that lead to a quiet state. -/
theorem exists_quiet {β : Type*} {r : β → β → Prop} (hr : WellFounded r) (μ : σ → β)
    (hstep : ∀ s a s', I s → C s a → step s a = some s' → I s')
    (hdown : ∀ s a s', I s → C s a → step s a = some s' → s' ≠ s → r (μ s') (μ s)) (s : σ) (hI : I s) :
    ∃ as t, Meets step C s as ∧ exec step s as = some t ∧ Quiet step C t := by
  induction s using (InvImage.wf μ hr).induction with
  | _ s ih =>
    by_cases hquiet : Quiet step C s
    · exact ⟨[], s, trivial, rfl, hquiet⟩
    · simp only [Quiet, not_forall] at hquiet
      obtain ⟨a, s', hC, hs, hne⟩ := hquiet
      obtain ⟨as, t, hm, hexec, hquiet'⟩ := ih s' (hdown s a s' hI hC hs hne) (hstep s a s' hI hC hs)
      refine ⟨a :: as, t, ⟨hC, fun s'' hs'' => ?_⟩, exec_cons_eq_some.mpr ⟨s', hs, hexec⟩, hquiet'⟩
      obtain rfl := Option.some.inj (hs.symm.trans hs'')
      exact hm

/-- Steps that meet the condition and change the state, without end. -/
def Endless (step : σ → α → Option σ) (C : σ → α → Prop) (f : ℕ → σ) : Prop :=
  ∀ n, ∃ a, C (f n) a ∧ step (f n) a = some (f (n + 1)) ∧ f (n + 1) ≠ f n

/-- Nor do such steps go on for ever. -/
theorem not_endless {β : Type*} {r : β → β → Prop} (hr : WellFounded r) (μ : σ → β)
    (hstep : ∀ s a s', I s → C s a → step s a = some s' → I s')
    (hdown : ∀ s a s', I s → C s a → step s a = some s' → s' ≠ s → r (μ s') (μ s)) {f : ℕ → σ}
    (hI : I (f 0)) : ¬ Endless step C f := by
  intro hf
  have hall : ∀ n, I (f n) := by
    intro n
    induction n with
    | zero => exact hI
    | succ n ih =>
      obtain ⟨a, hC, hs, -⟩ := hf n
      exact hstep (f n) a (f (n + 1)) ih hC hs
  refine (wellFounded_iff_isEmpty_descending_chain.mp hr).false ⟨fun n => μ (f n), fun n => ?_⟩
  obtain ⟨a, hC, hs, hne⟩ := hf n
  exact hdown (f n) a (f (n + 1)) (hall n) hC hs hne

end Exec

/-! ### Runs of another system -/

section Matched

variable {τ β : Type*} {step : σ → α → Option σ} {step' : τ → β → Option τ} {f : σ → τ}
  {abs : σ → α → Option β}

/-- Every step is matched by a step of the other system, or by none and then changes nothing of what is
seen. -/
def Simulates (step : σ → α → Option σ) (step' : τ → β → Option τ) (f : σ → τ)
    (abs : σ → α → Option β) : Prop :=
  ∀ s a s', step s a = some s' →
    match abs s a with
    | some b => step' (f s) b = some (f s')
    | none => f s' = f s

/-- The steps that match those of a run. -/
def matched (step : σ → α → Option σ) (abs : σ → α → Option β) : σ → List α → List β
  | _, [] => []
  | s, a :: as =>
    (abs s a).toList ++
      match step s a with
      | some s' => matched step abs s' as
      | none => []

lemma matched_cons {s s' : σ} {a : α} {as : List α} (h : step s a = some s') :
    matched step abs s (a :: as) = (abs s a).toList ++ matched step abs s' as := by
  simp [matched, h]

/-- **The simulation rule.** A run is seen as a run of the other system. -/
theorem exec_matched (h : Simulates step step' f abs) {s t : σ} {as : List α}
    (hrun : exec step s as = some t) : exec step' (f s) (matched step abs s as) = some (f t) := by
  induction as generalizing s with
  | nil =>
    obtain rfl := Option.some.inj hrun
    rfl
  | cons a as ih =>
    obtain ⟨s', hs, ht⟩ := exec_cons_eq_some.mp hrun
    have hstep := h s a s' hs
    rw [matched_cons hs]
    cases hb : abs s a with
    | none =>
      rw [hb] at hstep
      rw [Option.toList_none, List.nil_append, ← hstep]
      exact ih ht
    | some b =>
      rw [hb] at hstep
      exact exec_cons_eq_some.mpr ⟨f s', hstep, ih ht⟩

end Matched

end Crossbridge.Runs
