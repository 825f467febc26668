import Crossbridge.Supervisor.EventLoop

/-!
Where the supervisor makes and removes directories.

A slug reaches `join`, `create_dir_all` and `remove_dir_all` as it was received. If it is a plain
file name its directory is a child of the base directory, and another plain slug has another one,
not nested in it. Any other slug leads out of this: its directory is no child of the base, or it is
the directory of a plain slug (`isName_iff_apart`).
-/

namespace Crossbridge.Supervisor

open Crossbridge.Protocol Crossbridge.Runs

/-- An effect makes or removes no directory but a child of `base`. -/
def InChild (base : Path) : Effect → Prop
  | .createDirAll dir _ => ∃ s, Path.IsName s ∧ dir = base ++ [s]
  | .removeDirAll dir => ∃ s, Path.IsName s ∧ dir = base ++ [s]
  | _ => True

section Effects

variable {base : Path} {o : Outcomes} {s : State}

lemma inChild_fanOut (ps : List (ConnId × ConnRecord)) (n : Notification) :
    ∀ e ∈ State.fanOut o ps n, InChild base e := by
  intro e he
  unfold State.fanOut at he
  rw [List.mem_append, List.mem_map, List.mem_map] at he
  rcases he with ⟨p, -, rfl⟩ | ⟨p, -, rfl⟩ <;> trivial

lemma inChild_nack (st : StreamId) (reason : String) :
    ∀ e ∈ State.nack o st reason, InChild base e := by
  intro e he
  unfold State.nack at he
  rcases List.mem_cons.mp he with rfl | he
  · trivial
  · rw [List.mem_singleton.mp he]
    trivial

lemma slugDir_of_isName {slug : String} (h : Path.IsName slug) : s.slugDir slug = s.baseDir ++ [slug] :=
  Path.join_of_isName h _

/-- **A registration** with a plain slug stays in the directory of the slug. -/
lemma inChild_handleRegistration {st : StreamId} {r : Register} (h : Path.IsName r.slug) :
    ∀ e ∈ (s.handleRegistration o st r).2, InChild s.baseDir e := by
  have hdir : ∃ t, Path.IsName t ∧ s.slugDir r.slug = s.baseDir ++ [t] := ⟨_, h, slugDir_of_isName h⟩
  unfold State.handleRegistration
  split
  · exact inChild_nack st _
  · simp only
    split
    · exact List.forall_mem_cons.mpr ⟨hdir, inChild_nack st _⟩
    · split
      · exact List.forall_mem_cons.mpr ⟨hdir, List.forall_mem_cons.mpr ⟨trivial,
          List.forall_mem_cons.mpr ⟨trivial, inChild_fanOut _ _⟩⟩⟩
      · simp [InChild, hdir]

/-- **A departure**, likewise. -/
lemma inChild_handleDeparture {id : ConnId}
    (h : ∀ rec, s.conns.lookup id = some rec → Path.IsName rec.slug) :
    ∀ e ∈ (s.handleDeparture o id).2, InChild s.baseDir e := by
  unfold State.handleDeparture
  split
  · simp
  · rename_i rec hrec
    have hdir : ∃ t, Path.IsName t ∧ s.slugDir rec.slug = s.baseDir ++ [t] :=
      ⟨_, h rec hrec, slugDir_of_isName (h rec hrec)⟩
    exact List.forall_mem_cons.mpr ⟨trivial, List.forall_mem_cons.mpr ⟨hdir, inChild_fanOut _ _⟩⟩

end Effects

/-! ### What is made and removed in the tree -/

/-- The base directory is there, with all that lead to it. -/
def HasBase {ι : Type} (base : Path) (t : FileTree ι) : Prop :=
  ∀ p, p <+: base → t.lookup p = some .dir

section Tree

variable {ι : Type} {base : Path} {t : FileTree ι} {q : Path} {e : Effect} {es : List Effect}

lemma not_child_prefix {s : String} : ¬ base ++ [s] <+: base := by
  intro h
  have := h.length_le
  simp at this

lemma HasBase.onTree (h : HasBase base t) (he : InChild base e) : HasBase base (e.onTree t) := by
  intro p hp
  have hp' := h p hp
  cases e with
  | createDirAll dir ok =>
    cases ok with
    | false => exact hp'
    | true =>
      simp only [Effect.onTree]
      rw [FileTree.lookup_createDirAll, hp', if_neg fun h => by cases h.2]
  | removeDirAll dir =>
    obtain ⟨s, -, rfl⟩ := he
    simp only [Effect.onTree]
    rw [FileTree.lookup_removeDirAll, if_neg fun hq => not_child_prefix (hq.trans hp), hp']
  | write | watch | drop | send => exact hp'

/-- What an effect adds to the tree is a child of the base. -/
lemma onTree_adds (h : HasBase base t) (he : InChild base e) (hq : q ∈ e.onTree t) (hnot : q ∉ t) :
    ∃ s, Path.IsName s ∧ q = base ++ [s] := by
  cases e with
  | createDirAll dir ok =>
    cases ok with
    | false => exact absurd hq hnot
    | true =>
      obtain ⟨s, hs, rfl⟩ := he
      have hpre : q <+: base ++ [s] := by
        by_contra hpre
        refine FileTree.not_mem_iff.mpr ?_ hq
        simp only [Effect.onTree]
        rw [FileTree.lookup_createDirAll, if_neg fun h => hpre h.1, FileTree.not_mem_iff.mp hnot]
      rcases List.prefix_concat_iff.mp hpre with rfl | hbase
      · exact ⟨s, hs, rfl⟩
      · have hnone := FileTree.not_mem_iff.mp hnot
        rw [h q hbase] at hnone
        cases hnone
  | removeDirAll dir =>
    refine absurd hq (FileTree.not_mem_iff.mpr ?_)
    simp only [Effect.onTree]
    rw [FileTree.lookup_removeDirAll, FileTree.not_mem_iff.mp hnot, ite_self]
  | write | watch | drop | send => exact absurd hq hnot

/-- What an effect takes out of the tree is in or below a child of the base. -/
lemma onTree_removes (he : InChild base e) (hq : q ∉ e.onTree t) (hin : q ∈ t) :
    ∃ s, Path.IsName s ∧ base ++ [s] <+: q := by
  have hsome : t.lookup q ≠ none := fun hnone => FileTree.not_mem_iff.mpr hnone hin
  cases e with
  | createDirAll dir ok =>
    cases ok with
    | false => exact absurd hin hq
    | true =>
      have hnone := FileTree.not_mem_iff.mp hq
      simp only [Effect.onTree] at hnone
      rw [FileTree.lookup_createDirAll, if_neg fun h => hsome h.2] at hnone
      exact absurd hnone hsome
  | removeDirAll dir =>
    obtain ⟨s, hs, rfl⟩ := he
    refine ⟨s, hs, ?_⟩
    by_contra hpre
    have hnone := FileTree.not_mem_iff.mp hq
    simp only [Effect.onTree] at hnone
    rw [FileTree.lookup_removeDirAll, if_neg hpre] at hnone
    exact hsome hnone
  | write | watch | drop | send => exact absurd hin hq

/-- **The effects of a handler** add nothing but children of the base, and remove nothing that is not
below one. -/
theorem foldl_onTree (h : HasBase base t) (hes : ∀ e ∈ es, InChild base e) :
    HasBase base (es.foldl Effect.onTree t) ∧
      (∀ q, q ∈ es.foldl Effect.onTree t → q ∉ t → ∃ s, Path.IsName s ∧ q = base ++ [s]) ∧
      ∀ q, q ∉ es.foldl Effect.onTree t → q ∈ t → ∃ s, Path.IsName s ∧ base ++ [s] <+: q := by
  induction es generalizing t with
  | nil => exact ⟨h, fun q hq hnot => absurd hq hnot, fun q hq hin => absurd hin hq⟩
  | cons e es ih =>
    obtain ⟨he, hes⟩ := List.forall_mem_cons.mp hes
    obtain ⟨hbase, hadds, hremoves⟩ := ih (h.onTree he) hes
    rw [List.foldl_cons]
    refine ⟨hbase, fun q hq hnot => ?_, fun q hq hin => ?_⟩
    · by_cases hmid : q ∈ e.onTree t
      · exact onTree_adds h he hmid hnot
      · exact hadds q hq hmid
    · by_cases hmid : q ∈ e.onTree t
      · exact hremoves q hq hmid
      · exact onTree_removes he hmid hin

end Tree

/-! ### The runs -/

/-- The supervisor stays in the children of its base directory: in what it asked for so far, and in
what its next step makes and removes. -/
structure Contained (base : Path) (w : World) : Prop where
  log : ∀ e ∈ w.log, InChild base e
  next : ∀ o w', step w (.handle o) = some w' →
    (∀ q, q ∈ w'.tree → q ∉ w.tree → ∃ s, Path.IsName s ∧ q = base ++ [s]) ∧
      ∀ q, q ∉ w'.tree → q ∈ w.tree → ∃ s, Path.IsName s ∧ base ++ [s] <+: q

/-- The slugs that the supervisor has are plain. -/
structure Plain (base : Path) (w : World) : Prop where
  baseDir : w.state.baseDir = base
  queue : ∀ st r, .registered st r ∈ w.queue → Path.IsName r.slug
  conns : ∀ id rec, w.state.conns.lookup id = some rec → Path.IsName rec.slug
  log : ∀ e ∈ w.log, InChild base e
  tree : HasBase base w.tree

def PlainSlug : Action → Prop
  | .accept r => Path.IsName r.slug
  | _ => True

instance : DecidablePred PlainSlug
  | .accept r => inferInstanceAs (Decidable (Path.IsName r.slug))
  | .depart _ | .handle _ | .place _ _ | .unlink _ => isTrue trivial

section Runs

variable {base : Path} {w w' : World}

lemma plain_init (base : Path) : Plain base (World.init base) where
  baseDir := rfl
  queue st r h := by simp [World.init] at h
  conns id rec h := by simp [World.init, State.new] at h
  log e h := by simp [World.init] at h
  tree p hp := by
    simp only [World.init]
    rw [FileTree.lookup_createDirAll, if_pos ⟨hp, AList.lookup_empty p⟩]

lemma Plain.inChild (h : Plain base w) (o : Outcomes) {e : Event} (he : e ∈ w.queue) :
    ∀ f ∈ (w.state.handleEvent o e).2, InChild base f := by
  cases e with
  | registered st r => exact h.baseDir ▸ inChild_handleRegistration (h.queue st r he)
  | departed id => exact h.baseDir ▸ inChild_handleDeparture (h.conns id)

lemma plain_step {a : Action} (h : Plain base w) (ha : PlainSlug a) (hstep : step w a = some w') :
    Plain base w' := by
  cases stepped_of_step hstep with
  | accept r =>
    refine ⟨h.baseDir, fun st r' hr => ?_, h.conns, h.log, h.tree⟩
    rcases List.mem_append.mp hr with hr | hr
    · exact h.queue st r' hr
    · obtain ⟨-, rfl⟩ := Event.registered.inj (List.mem_singleton.mp hr)
      exact ha
  | depart id =>
    refine ⟨h.baseDir, fun st r hr => h.queue st r ?_, h.conns, h.log, h.tree⟩
    exact (List.mem_append.mp hr).resolve_right fun hr => by cases List.mem_singleton.mp hr
  | handle o e rest hqueue =>
    have he : e ∈ w.queue := hqueue ▸ List.mem_cons_self
    have hin := h.inChild o he
    refine ⟨(baseDir_handleEvent o _ e).trans h.baseDir, fun st r hr => h.queue st r ?_,
      fun id rec hid => ?_, fun f hf => ?_, (foldl_onTree h.tree hin).1⟩
    · rcases List.mem_append.mp hr with hr | hr
      · exact hqueue ▸ List.mem_cons_of_mem _ hr
      · obtain ⟨f, -, hf⟩ := List.mem_filterMap.mp hr
        cases f <;> cases hf
    · rcases conns_handleEvent hid with hid | ⟨-, st, r, rfl, rfl⟩
      · exact h.conns id rec hid
      · exact h.queue st r he
    · exact (List.mem_append.mp hf).elim (h.log f) (hin f)
  | place p node _ hfree =>
    refine ⟨h.baseDir, h.queue, h.conns, h.log, fun q hq => ?_⟩
    have hne : q ≠ p := by
      rintro rfl
      have hnone := FileTree.not_mem_iff.mp hfree
      rw [h.tree q hq] at hnone
      cases hnone
    simp only
    rw [AList.lookup_insert_ne hne, h.tree q hq]
  | unlink p =>
    exact ⟨h.baseDir, h.queue, h.conns, h.log,
      fun q hq => FileTree.lookup_unlink_eq_dir.mpr (h.tree q hq)⟩

lemma Plain.contained (h : Plain base w) : Contained base w where
  log := h.log
  next o w' hstep := by
    cases stepped_of_step hstep with
    | handle _ e rest hqueue =>
      have he : e ∈ w.queue := hqueue ▸ List.mem_cons_self
      exact (foldl_onTree h.tree (h.inChild o he)).2

/-- **Plain slugs keep the supervisor in its base directory**, in every run, each in a directory of
its own. -/
theorem contained_of_run {as : List Action} (hplain : ∀ a ∈ as, PlainSlug a)
    (hrun : exec step (World.init base) as = some w) :
    Contained base w ∧ ∀ r r', .accept r ∈ as → .accept r' ∈ as → r.slug ≠ r'.slug →
      ¬ Path.join base r.slug <+: Path.join base r'.slug := by
  refine ⟨?_, fun r r' hr hr' hne hpre => hne ?_⟩
  · have hmeets : Meets step (fun _ a => PlainSlug a) (World.init base) as := meets_of_forall hplain
    have hinv := exec_inv_of_meets (I := Plain base) (fun _ _ _ h ha hs => plain_step h ha hs)
      (plain_init base) hmeets hrun
    exact hinv.contained
  · rw [Path.join_of_isName (hplain _ hr), Path.join_of_isName (hplain _ hr')] at hpre
    have heq := hpre.eq_of_length (by simp)
    simpa using heq

end Runs

/-! ### Slugs that are not plain -/

/-- **Exactly the plain slugs** have a child of the base that is apart from those of the plain ones. -/
theorem isName_iff_apart (base : Path) (slug : String) : Path.IsName slug ↔
    (∃ n, Path.join base slug = base ++ [n]) ∧ ∀ s, Path.IsName s → s ≠ slug →
      ¬ Path.join base s <+: Path.join base slug ∧ ¬ Path.join base slug <+: Path.join base s := by
  constructor
  · intro h
    refine ⟨⟨slug, Path.join_of_isName h base⟩, fun s hs hne => ?_⟩
    rw [Path.join_of_isName h, Path.join_of_isName hs]
    refine ⟨fun hpre => hne ?_, fun hpre => hne ?_⟩
    · simpa using hpre.eq_of_length (by simp)
    · simpa using (hpre.eq_of_length (by simp)).symm
  · rintro ⟨⟨n, hjoin⟩, hapart⟩
    by_contra hslug
    have hn := Path.isName_of_join_eq hjoin
    refine (hapart n hn fun heq => hslug (heq ▸ hn)).1 ?_
    rw [hjoin, Path.join_of_isName hn]

/-- A server registers with the slug `..`, and departs. -/
def dotDot : List Action :=
  [.accept ⟨"..", "g"⟩, .handle (failing []), .depart 0, .handle (failing [])]

/-- **The slug `..`** takes the base directory away, with all that is in its parent; the parent itself
stays, as the path ends in `..`. -/
theorem base_removed : ∃ w, exec step (World.init ["run", "crossbridge"]) dotDot = some w ∧
    .removeDirAll ["run"] ∈ w.log ∧ ["run", "crossbridge"] ∉ w.tree ∧
      ¬ Contained ["run", "crossbridge"] w := by
  have hrun : exec step (World.init ["run", "crossbridge"]) dotDot = some _ := rfl
  refine ⟨_, hrun, by decide, by decide, fun h => ?_⟩
  obtain ⟨s, -, hs⟩ := h.log (.removeDirAll ["run"]) (by decide)
  simp at hs

/-- A server registers, its peer does, and it departs. -/
def comeAndGo : List Action :=
  [.accept ⟨"repo-a", "g"⟩, .accept ⟨"repo-b", "g"⟩, .handle (failing []), .handle (failing []),
    .depart 0, .handle (failing [])]

theorem contained_of_run_comeAndGo : ∃ w, exec step (World.init ["run"]) comeAndGo = some w ∧
    Contained ["run"] w := by
  have hrun : exec step (World.init ["run"]) comeAndGo = some _ := rfl
  exact ⟨_, hrun, (contained_of_run (by decide) hrun).1⟩

end Crossbridge.Supervisor
