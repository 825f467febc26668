import Crossbridge.Supervisor.Containment

/-!
How long the directory of a slug lives.

A slug is unique within a group, and its directory within the base. The directory of a registered
connection goes, with what others have put into it, exactly when a connection with the same slug
departs, or when the `Ack` to a registration with that slug cannot be written (`Alone`); both can
happen only if the slug is used in two groups.
-/

namespace Crossbridge.Supervisor

open Crossbridge.Protocol Crossbridge.Runs

/-- Each connection has its directory, and what was put there since it registered. -/
def DirsLive (w : World) : Prop :=
  ∀ id rec, w.state.conns.lookup id = some rec →
    w.tree.lookup (w.state.slugDir rec.slug) = some .dir ∧ ∀ p, (id, p) ∈ w.placed → p ∈ w.tree

/-- No other connection has the slug of the one that departs, or of the one whose `Ack` fails. -/
def Alone (w : World) : Action → Prop
  | .handle o =>
    match w.queue with
    | .departed id :: _ => ∀ rec, w.state.conns.lookup id = some rec →
        ∀ id' rec', w.state.conns.lookup id' = some rec' → rec'.slug = rec.slug → id' = id
    | .registered st r :: _ => r.slug ∉ w.state.group r.group → o.createDir = .ok () →
        o.write st = false → ∀ id rec, w.state.conns.lookup id = some rec → rec.slug ≠ r.slug
    | [] => True
  | _ => True

instance (conns : AList fun _ : ConnId => ConnRecord) (P : ConnId → ConnRecord → Prop)
    [∀ id rec, Decidable (P id rec)] : Decidable (∀ id rec, conns.lookup id = some rec → P id rec) :=
  decidable_of_iff (∀ e ∈ conns.entries, P e.1 e.2)
    ⟨fun h id rec hid => h ⟨id, rec⟩ (AList.mem_lookup_iff.mp hid),
      fun h e he => h e.1 e.2 (AList.mem_lookup_iff.mpr he)⟩

instance (o : Option ConnRecord) (P : ConnRecord → Prop) [DecidablePred P] :
    Decidable (∀ rec, o = some rec → P rec) := decidable_of_iff (∀ rec ∈ o, P rec) Iff.rfl

instance (w : World) : DecidablePred (Alone w)
  | .handle o => by
    unfold Alone
    cases w.queue with
    | nil => exact instDecidableTrue
    | cons e _ => cases e <;> exact inferInstance
  | .accept _ | .depart _ | .place _ _ | .unlink _ => instDecidableTrue

/-! ### The invariant -/

structure DirsInv (base : Path) (w : World) : Prop where
  plain : Plain base w
  maps : Consistent w.state
  live : DirsLive w
  /-- What is recorded for a connection is in its directory. -/
  inside : ∀ id rec p, w.state.conns.lookup id = some rec → (id, p) ∈ w.placed →
    base ++ [rec.slug] <+: p
  old : ∀ id p, (id, p) ∈ w.placed → id < w.state.nextId
  /-- There are no files in the base directory itself. -/
  noFile : ∀ n x, w.tree.lookup (base ++ [n]) ≠ some (.file x)

section Keep

variable {base : Path} {w w' : World} {id : ConnId} {rec : ConnRecord}

lemma DirsInv.slugDir (h : DirsInv base w) (hid : w.state.conns.lookup id = some rec) :
    w.state.slugDir rec.slug = base ++ [rec.slug] :=
  h.plain.baseDir ▸ slugDir_of_isName (h.plain.conns id rec hid)

/-- A connection keeps its directory in a tree that is the same below it. -/
lemma DirsInv.keep (h : DirsInv base w) (hid : w.state.conns.lookup id = some rec) {t : FileTree Unit}
    (ht : ∀ q, base ++ [rec.slug] <+: q → q ∈ w.tree → t.lookup q = w.tree.lookup q) :
    t.lookup (w.state.slugDir rec.slug) = some .dir ∧ ∀ p, (id, p) ∈ w.placed → p ∈ t := by
  obtain ⟨hdir, hplaced⟩ := h.live id rec hid
  constructor
  · rw [h.slugDir hid] at hdir ⊢
    rw [ht _ (List.prefix_refl _) (FileTree.mem_of_lookup hdir)]
    exact hdir
  · intro p hp
    by_contra hnot
    have hin := hplaced p hp
    have hnone := FileTree.not_mem_iff.mp hnot
    rw [ht p (h.inside id rec p hid hp) hin] at hnone
    exact FileTree.not_mem_iff.mpr hnone hin

lemma noFile_createDirAll {t : FileTree Unit} {p : Path}
    (h : ∀ n x, t.lookup (base ++ [n]) ≠ some (.file x)) :
    ∀ n x, (t.createDirAll p).lookup (base ++ [n]) ≠ some (.file x) := by
  intro n x hx
  rw [FileTree.lookup_createDirAll] at hx
  split at hx
  · cases hx
  · exact h n x hx

lemma noFile_removeDirAll {t : FileTree Unit} {p : Path}
    (h : ∀ n x, t.lookup (base ++ [n]) ≠ some (.file x)) :
    ∀ n x, (t.removeDirAll p).lookup (base ++ [n]) ≠ some (.file x) := by
  intro n x hx
  rw [FileTree.lookup_removeDirAll] at hx
  split at hx
  · cases hx
  · exact h n x hx

/-- The directory of a slug after it was made. -/
lemma DirsInv.made (h : DirsInv base w) (slug : String) :
    (w.tree.createDirAll (base ++ [slug])).lookup (base ++ [slug]) = some .dir :=
  (FileTree.lookup_createDirAll_child h.noFile).mpr (Or.inl rfl)

/-- What a handled event changes. -/
lemma step_handle {o : Outcomes} (hstep : step w (.handle o) = some w') : ∃ e rest,
    w.queue = e :: rest ∧ w'.state = (w.state.handleEvent o e).1 ∧
      w'.tree = (w.state.handleEvent o e).2.foldl Effect.onTree w.tree ∧ w'.placed = w.placed := by
  cases stepped_of_step hstep with
  | handle _ e rest hqueue => exact ⟨e, rest, hqueue, rfl, rfl, rfl⟩

/-- **Handling an event** that meets the condition. -/
lemma dirsLive_handle {o : Outcomes} (h : DirsInv base w) (halone : Alone w (.handle o))
    (hstep : step w (.handle o) = some w') :
    DirsLive w' ∧ ∀ n x, w'.tree.lookup (base ++ [n]) ≠ some (.file x) := by
  obtain ⟨e, rest, hqueue, hstate, htree, hplaced⟩ := step_handle hstep
  simp only [Alone, hqueue] at halone
  have hmade : ∀ dir id rec, w.state.conns.lookup id = some rec →
      (w.tree.createDirAll dir).lookup (w.state.slugDir rec.slug) = some .dir ∧
        ∀ p, (id, p) ∈ w.placed → p ∈ w.tree.createDirAll dir :=
    fun dir id rec hid => h.keep hid fun q _ hq => FileTree.lookup_createDirAll_of_mem hq
  unfold DirsLive
  rw [hplaced]
  cases e with
  | registered st r =>
    have hdir : w.state.slugDir r.slug = base ++ [r.slug] :=
      h.plain.baseDir ▸ slugDir_of_isName (h.plain.queue st r (hqueue ▸ List.mem_cons_self))
    rw [State.handleEvent] at hstate htree
    rcases handleRegistration_cases o w.state st r with ⟨-, hr⟩ | hu | ha
    · rw [hstate, htree, hr.state, hr.tree]
      exact ⟨h.live, h.noFile⟩
    · rw [hstate, htree, hu.state, hu.tree, hdir]
      refine ⟨fun id rec hid => h.keep hid fun q hq hin => ?_,
        noFile_removeDirAll (noFile_createDirAll h.noFile)⟩
      rw [FileTree.lookup_removeDirAll_of_ne (halone hu.new hu.made hu.failed id rec hid).symm hq,
        FileTree.lookup_createDirAll_of_mem hin]
    · rw [hstate, htree, ha.state, ha.tree, hdir]
      refine ⟨fun id rec hid => ?_, noFile_createDirAll h.noFile⟩
      rw [lookup_conns_insert] at hid
      split at hid
      · -- nothing is recorded for the new connection yet
        rename_i hid'
        obtain rfl := Option.some.inj hid
        refine ⟨?_, fun p hp => absurd (h.old id p hp) (hid' ▸ lt_irrefl _)⟩
        have hdir' : (w.state.insert ⟨r.slug, r.group, st⟩).slugDir r.slug = base ++ [r.slug] := hdir
        rw [hdir']
        exact h.made r.slug
      · exact hmade _ id rec hid
  | departed id₀ =>
    rw [State.handleEvent] at hstate htree
    rcases handleDeparture_cases o w.state id₀ with ⟨-, heq⟩ | ⟨rec₀, hd⟩
    · rw [hstate, htree, heq]
      exact ⟨h.live, h.noFile⟩
    · rw [hstate, htree, hd.state, hd.tree, h.slugDir hd.conn]
      refine ⟨fun id rec hid => ?_, noFile_removeDirAll h.noFile⟩
      rw [lookup_conns_remove] at hid
      split at hid
      · cases hid
      · rename_i hne
        refine h.keep hid fun q hq _ => FileTree.lookup_removeDirAll_of_ne (fun heq => ?_) hq
        exact hne (halone rec₀ hd.conn id rec hid heq.symm)

lemma dirsInv_init (base : Path) : DirsInv base (World.init base) where
  plain := plain_init base
  maps := consistent_new base
  live id rec h := by simp [World.init, State.new] at h
  inside id rec p h := by simp [World.init, State.new] at h
  old id p h := by simp [World.init] at h
  noFile n x h := by
    simp only [World.init] at h
    rw [FileTree.lookup_createDirAll, AList.lookup_empty] at h
    split at h <;> cases h

lemma dirsInv_handle {o : Outcomes} (h : DirsInv base w) (halone : Alone w (.handle o))
    (hstep : step w (.handle o) = some w') (hplain : Plain base w') : DirsInv base w' := by
  obtain ⟨hlive, hnoFile⟩ := dirsLive_handle h halone hstep
  obtain ⟨e, rest, -, hstate, -, hplaced⟩ := step_handle hstep
  refine ⟨hplain, hstate ▸ consistent_handleEvent h.maps o e, hlive, fun id rec p hid hp => ?_,
    fun id p hp => ?_, hnoFile⟩
  · rw [hplaced] at hp
    rw [hstate] at hid
    rcases conns_handleEvent hid with hid | ⟨rfl, -⟩
    · exact h.inside id rec p hid hp
    · exact absurd (h.old _ p hp) (lt_irrefl _)
  · rw [hplaced] at hp
    rw [hstate]
    exact lt_of_lt_of_le (h.old id p hp) (nextId_le_handleEvent o _ e)

/-- What another process puts into the tree is recorded for the directories it is in. -/
lemma dirsInv_place {p : Path} {node : Node Unit} (h : DirsInv base w)
    (hstep : step w (.place p node) = some w') (hplain : Plain base w') : DirsInv base w' := by
  cases stepped_of_step hstep with
  | place _ _ hnode hfree =>
    have hother : ∀ q, q ∈ w.tree → (w.tree.insert p node).lookup q = w.tree.lookup q :=
      fun q hq => AList.lookup_insert_ne fun heq => hfree (heq ▸ hq)
    have hrecorded : ∀ id q, (id, q) ∈ w.placed ++ ((w.state.conns.entries.filter fun e =>
        w.state.slugDir e.2.slug <+: p).map fun e => (e.1, p)) → (id, q) ∈ w.placed ∨
          q = p ∧ ∃ rec, w.state.conns.lookup id = some rec ∧ w.state.slugDir rec.slug <+: p := by
      intro id q hq
      rcases List.mem_append.mp hq with hq | hq
      · exact Or.inl hq
      · obtain ⟨e, he, heq⟩ := List.mem_map.mp hq
        obtain ⟨rfl, rfl⟩ := Prod.ext_iff.mp heq
        rw [List.mem_filter, decide_eq_true_iff] at he
        exact Or.inr ⟨rfl, e.2, AList.mem_lookup_iff.mpr he.1, he.2⟩
    refine ⟨hplain, h.maps, fun id rec hid => ⟨?_, fun q hq => ?_⟩, fun id rec q hid hq => ?_,
      fun id q hq => ?_, fun n x hx => ?_⟩
    · exact (h.keep hid fun q _ hq => hother q hq).1
    · rcases hrecorded id q hq with hq | ⟨rfl, -⟩
      · exact (h.keep hid fun q _ hq => hother q hq).2 q hq
      · exact (AList.mem_insert _).mpr (Or.inl rfl)
    · rcases hrecorded id q hq with hq | ⟨rfl, rec', hid', hpre⟩
      · exact h.inside id rec q hid hq
      · rw [hid] at hid'
        obtain rfl := Option.some.inj hid'
        rwa [h.slugDir hid] at hpre
    · rcases hrecorded id q hq with hq | ⟨-, rec, hid, -⟩
      · exact h.old id q hq
      · exact h.maps.fresh id rec hid
    · simp only at hx
      by_cases hq : base ++ [n] = p
      · rw [hq, AList.lookup_insert] at hx
        rcases hnode with hnode | hne
        · rw [hnode] at hx
          cases hx
        · refine hne ?_
          rw [← hq, List.dropLast_concat]
          exact h.plain.baseDir.symm
      · rw [AList.lookup_insert_ne hq] at hx
        exact h.noFile n x hx

lemma dirsInv_unlink {p : Path} (h : DirsInv base w) (hstep : step w (.unlink p) = some w')
    (hplain : Plain base w') : DirsInv base w' := by
  cases stepped_of_step hstep with
  | unlink =>
    have hplaced : ∀ id q, (id, q) ∈ w.placed.filter (fun x => x.2 ≠ p) → (id, q) ∈ w.placed ∧ q ≠ p := by
      intro id q hq
      rw [List.mem_filter, decide_eq_true_iff] at hq
      exact hq
    refine ⟨hplain, h.maps, fun id rec hid => ⟨?_, fun q hq => ?_⟩, fun id rec q hid hq => ?_,
      fun id q hq => ?_, fun n x hx => ?_⟩
    · exact FileTree.lookup_unlink_eq_dir.mpr (h.live id rec hid).1
    · obtain ⟨hq, hne⟩ := hplaced id q hq
      have hin := (h.live id rec hid).2 q hq
      by_contra hnot
      have hnone := FileTree.not_mem_iff.mp hnot
      rw [FileTree.lookup_unlink_ne hne] at hnone
      exact FileTree.not_mem_iff.mpr hnone hin
    · exact h.inside id rec q hid (hplaced id q hq).1
    · exact h.old id q (hplaced id q hq).1
    · exact h.noFile n x (FileTree.lookup_unlink_eq_file.mp hx).2

/-- **One step** that meets the condition keeps the invariant. -/
theorem dirsInv_step {a : Action} (h : DirsInv base w) (ha : PlainSlug a) (halone : Alone w a)
    (hstep : step w a = some w') : DirsInv base w' := by
  have hplain := plain_step h.plain ha hstep
  cases a with
  | accept r | depart id =>
    cases stepped_of_step hstep
    exact ⟨hplain, h.maps, h.live, h.inside, h.old, h.noFile⟩
  | handle o => exact dirsInv_handle h halone hstep hplain
  | place p node => exact dirsInv_place h hstep hplain
  | unlink p => exact dirsInv_unlink h hstep hplain

/-- **A step against the condition** takes the directory of a connection away. -/
theorem alone_of_dirsLive {a : Action} (hstep : step w a = some w')
    (hlive : DirsLive w') : Alone w a := by
  cases a with
  | handle o =>
    obtain ⟨e, rest, hqueue, hstate, htree, -⟩ := step_handle hstep
    simp only [Alone, hqueue]
    unfold DirsLive at hlive
    cases e with
    | registered st r =>
      intro hnew hmk hw id rec hid heq
      rw [State.handleEvent] at hstate htree
      rcases handleRegistration_cases o w.state st r with ⟨hdup | hfail, -⟩ | hu | ha
      · exact hnew hdup
      · exact hfail hmk
      · rw [hstate, htree, hu.state, hu.tree] at hlive
        have hdir := (hlive id rec hid).1
        rw [heq, FileTree.lookup_removeDirAll, if_pos (List.prefix_refl _)] at hdir
        cases hdir
      · have hheard := ha.heard
        rw [hw] at hheard
        cases hheard
    | departed id₀ =>
      intro rec₀ hid₀ id rec hid heq
      by_contra hne
      rw [State.handleEvent] at hstate htree
      rcases handleDeparture_cases o w.state id₀ with ⟨hnone, -⟩ | ⟨rec₁, hd⟩
      · rw [hid₀] at hnone
        cases hnone
      · obtain rfl := Option.some.inj (hid₀.symm.trans hd.conn)
        rw [hstate, htree, hd.state, hd.tree] at hlive
        have hdir := (hlive id rec (by rw [lookup_conns_remove, if_neg hne]; exact hid)).1
        have hsame : (w.state.remove id₀ rec₀).slugDir rec.slug = w.state.slugDir rec₀.slug :=
          congrArg _ heq
        rw [hsame, FileTree.lookup_removeDirAll, if_pos (List.prefix_refl _)] at hdir
        cases hdir
  | accept | depart | place | unlink => trivial

/-- **Slug directories live as long as their registrants**, in every run in which a slug is alone
whenever a connection with it departs or is not told of its `Ack`; and after such a run a step leaves
them alive exactly if it meets this condition, too. -/
theorem dirsLive_of_run {as : List Action} (hplain : ∀ a ∈ as, PlainSlug a)
    (halone : Meets step Alone (World.init base) as)
    (hrun : exec step (World.init base) as = some w) :
    DirsLive w ∧ ∀ a w', PlainSlug a → step w a = some w' → (DirsLive w' ↔ Alone w a) := by
  have hmeets : Meets step (fun _ a => PlainSlug a) (World.init base) as := meets_of_forall hplain
  have hinv : DirsInv base w := by
    refine exec_inv_of_meets ?_ (dirsInv_init base) (hmeets.and halone) hrun
    intro w a w' h ha hs
    exact dirsInv_step h ha.1 ha.2 hs
  refine ⟨hinv.live, fun a w' ha hs => ⟨fun hlive => alone_of_dirsLive hs hlive, fun hc => ?_⟩⟩
  exact (dirsInv_step hinv ha hc hs).live

end Keep

/-! ### One slug in two groups -/

/-- The slug `repo-a` registers in two groups, and a peer puts a socket into its directory. -/
def twoGroups : List Action :=
  [.accept ⟨"repo-a", "g"⟩, .accept ⟨"repo-a", "h"⟩, .handle (failing []), .handle (failing []),
    .place ["run", "repo-a", "repo-c.socket"] (.file ())]

/-- **The departure in one group** takes the directory of the slug away from the other. -/
theorem dir_lost : (∀ a ∈ twoGroups ++ [.depart 0, .handle (failing [])], PlainSlug a) ∧
    ∃ w, exec step (World.init ["run"]) (twoGroups ++ [.depart 0, .handle (failing [])]) = some w ∧
    w.state.conns.lookup 1 = some ⟨"repo-a", "h", 1⟩ ∧
    (1, ["run", "repo-a", "repo-c.socket"]) ∈ w.placed ∧
    ["run", "repo-a"] ∉ w.tree ∧ ["run", "repo-a", "repo-c.socket"] ∉ w.tree ∧ ¬ DirsLive w := by
  have hrun : exec step (World.init ["run"]) (twoGroups ++ [.depart 0, .handle (failing [])]) =
      some _ := rfl
  refine ⟨by decide, _, hrun, rfl, by decide, by decide, by decide, fun h => ?_⟩
  have hlost := (h 1 ⟨"repo-a", "h", 1⟩ rfl).2 ["run", "repo-a", "repo-c.socket"] (by decide)
  revert hlost
  decide

/-- A third server, which registers with a slug of its own and departs. -/
def repoBDeparts : List Action :=
  [.accept ⟨"repo-b", "g"⟩, .handle (failing []), .depart 2, .handle (failing [])]

/-- The other directories are still there. -/
theorem dirsLive_of_run_twoGroups :
    ∃ w, exec step (World.init ["run"]) (twoGroups ++ repoBDeparts) = some w ∧
      w.state.conns.lookup 2 = none ∧ ["run", "repo-b"] ∉ w.tree ∧
      (1, ["run", "repo-a", "repo-c.socket"]) ∈ w.placed ∧ DirsLive w := by
  have hrun : exec step (World.init ["run"]) (twoGroups ++ repoBDeparts) = some _ := rfl
  exact ⟨_, hrun, rfl, by decide, by decide, (dirsLive_of_run (by decide) (by decide) hrun).1⟩

end Crossbridge.Supervisor
