import Crossbridge.Supervisor.State
import Mathlib.Data.Finset.Basic
import Mathlib.Data.List.Nodup
import Mathlib.Tactic

/-!
The two maps of the supervisor.

`groups` and `conns` say the same thing twice: a slug is in a group under an id exactly if the
connection with that id is one of that slug and group (`Consistent`). Both handlers keep this, and
what they do to the group of a connection is that one slug joins or leaves it (`others_insert`,
`others_remove`).
-/

namespace Crossbridge.Supervisor

open Crossbridge.Protocol

/-- The maps agree, no group is empty, and the next id is new. -/
structure Consistent (s : State) : Prop where
  member : ∀ g slug id, (s.group g).lookup slug = some id ↔
    ∃ st, s.conns.lookup id = some ⟨slug, g, st⟩
  nonempty : ∀ g m, s.groups.lookup g = some m → m.keys ≠ []
  fresh : ∀ id rec, s.conns.lookup id = some rec → id < s.nextId

lemma consistent_new (baseDir : Path) : Consistent (State.new baseDir) where
  member g slug id := by simp [State.new, State.group]
  nonempty g m h := by simp [State.new] at h
  fresh id rec h := by simp [State.new] at h

section Update

variable {s : State} {id id' : ConnId} {rec rec' : ConnRecord} {g slug : String}

lemma lookup_group_insert : ((s.insert rec).group g).lookup slug =
    if g = rec.group ∧ slug = rec.slug then some s.nextId else (s.group g).lookup slug := by
  unfold State.insert State.group
  by_cases hg : g = rec.group
  · subst hg
    rw [AList.lookup_insert, Option.getD_some]
    by_cases hs : slug = rec.slug
    · subst hs
      rw [AList.lookup_insert, if_pos ⟨rfl, rfl⟩]
    · rw [AList.lookup_insert_ne hs, if_neg fun h => hs h.2]
  · rw [AList.lookup_insert_ne hg, if_neg fun h => hg h.1]

lemma lookup_group_remove : ((s.remove id rec).group g).lookup slug =
    if g = rec.group ∧ slug = rec.slug then none else (s.group g).lookup slug := by
  unfold State.remove State.group
  simp only
  cases hm : s.groups.lookup rec.group with
  | none =>
    simp only
    split
    · rename_i h
      rw [h.1, hm]
      rfl
    · rfl
  | some m =>
    simp only
    have herase : (m.erase rec.slug).lookup slug = if slug = rec.slug then none else m.lookup slug := by
      split
      · rename_i hs
        rw [hs, AList.lookup_erase]
      · rename_i hs
        exact AList.lookup_erase_ne hs
    by_cases hg : g = rec.group
    · subst hg
      rw [hm, Option.getD_some]
      by_cases hempty : (m.erase rec.slug).keys = []
      · rw [if_pos hempty, AList.lookup_erase, Option.getD_none]
        have hnone : (m.erase rec.slug).lookup slug = none := by
          rw [AList.lookup_eq_none, AList.mem_keys, hempty]
          exact List.not_mem_nil
        rw [herase] at hnone
        by_cases hs : slug = rec.slug
        · rw [if_pos ⟨rfl, hs⟩]
          rfl
        · rw [if_neg hs] at hnone
          rw [if_neg fun h => hs h.2, hnone]
          rfl
      · rw [if_neg hempty, AList.lookup_insert, Option.getD_some, herase]
        by_cases hs : slug = rec.slug
        · rw [if_pos hs, if_pos ⟨rfl, hs⟩]
        · rw [if_neg hs, if_neg fun h => hs h.2]
    · have hne : ¬ (g = rec.group ∧ slug = rec.slug) := fun h => hg h.1
      rw [if_neg hne]
      split
      · rw [AList.lookup_erase_ne hg]
      · rw [AList.lookup_insert_ne hg]

lemma lookup_conns_insert : (s.insert rec).conns.lookup id =
    if id = s.nextId then some rec else s.conns.lookup id := by
  unfold State.insert
  by_cases hid : id = s.nextId
  · rw [hid, AList.lookup_insert, if_pos rfl]
  · rw [AList.lookup_insert_ne hid, if_neg hid]

lemma lookup_conns_remove : (s.remove id rec).conns.lookup id' =
    if id' = id then none else s.conns.lookup id' := by
  unfold State.remove
  by_cases hid : id' = id
  · rw [hid, AList.lookup_erase, if_pos rfl]
  · rw [AList.lookup_erase_ne hid, if_neg hid]

end Update

/-! ### The maps stay consistent -/

section Keep

variable {s : State} {id : ConnId} {rec : ConnRecord}

/-- A slug of a group has one connection. -/
lemma Consistent.unique (h : Consistent s) {id id' : ConnId} {rec rec' : ConnRecord}
    (hid : s.conns.lookup id = some rec) (hid' : s.conns.lookup id' = some rec')
    (hslug : rec.slug = rec'.slug) (hgroup : rec.group = rec'.group) : id = id' := by
  have hmem := (h.member rec.group rec.slug id).mpr ⟨rec.stream, hid⟩
  have hmem' := (h.member rec'.group rec'.slug id').mpr ⟨rec'.stream, hid'⟩
  rw [hslug, hgroup, hmem'] at hmem
  exact (Option.some.inj hmem).symm

lemma Consistent.mem_group (h : Consistent s) {g slug : String} :
    slug ∈ s.group g ↔ ∃ id st, s.conns.lookup id = some ⟨slug, g, st⟩ := by
  rw [← AList.lookup_isSome, Option.isSome_iff_exists]
  exact exists_congr fun id => h.member g slug id

lemma consistent_insert (h : Consistent s) (hnew : rec.slug ∉ s.group rec.group) :
    Consistent (s.insert rec) where
  member g slug id := by
    rw [lookup_group_insert, lookup_conns_insert]
    by_cases hid : id = s.nextId
    · subst hid
      rw [if_pos rfl]
      have hnone : ∀ g slug, (s.group g).lookup slug ≠ some s.nextId := by
        intro g slug hsome
        obtain ⟨st, hst⟩ := (h.member g slug _).mp hsome
        exact lt_irrefl _ (h.fresh _ _ hst)
      constructor
      · intro hmem
        split at hmem
        · rename_i heq
          exact ⟨rec.stream, by rw [heq.1, heq.2]⟩
        · exact absurd hmem (hnone g slug)
      · rintro ⟨st, hst⟩
        rw [Option.some.inj hst, if_pos ⟨rfl, rfl⟩]
    · rw [if_neg hid, ← h.member]
      split
      · rename_i heq
        have hnone : (s.group g).lookup slug = none := by
          rw [heq.1, heq.2]
          exact AList.lookup_eq_none.mpr hnew
        rw [hnone]
        constructor
        · intro hsome
          exact absurd (Option.some.inj hsome).symm hid
        · intro hsome
          cases hsome
      · rfl
  nonempty g m hm := by
    unfold State.insert at hm
    simp only at hm
    by_cases hg : g = rec.group
    · subst hg
      rw [AList.lookup_insert] at hm
      rw [← Option.some.inj hm, AList.keys_insert]
      exact List.cons_ne_nil _ _
    · rw [AList.lookup_insert_ne hg] at hm
      exact h.nonempty g m hm
  fresh id rec' hid := by
    rw [lookup_conns_insert] at hid
    split at hid
    · rename_i heq
      rw [heq]
      exact Nat.lt_succ_self _
    · exact Nat.lt_succ_of_lt (h.fresh id rec' hid)

lemma consistent_remove (h : Consistent s) (hid : s.conns.lookup id = some rec) :
    Consistent (s.remove id rec) where
  member g slug id' := by
    rw [lookup_group_remove, lookup_conns_remove]
    by_cases heq : g = rec.group ∧ slug = rec.slug
    · rw [if_pos heq]
      constructor
      · intro hnone
        cases hnone
      rintro ⟨st, hst⟩
      split at hst
      · cases hst
      · rename_i hne
        exact absurd (h.unique hst hid heq.2 heq.1) hne
    · rw [if_neg heq, h.member]
      refine exists_congr fun st => ?_
      split
      · rename_i hid'
        subst hid'
        rw [hid]
        constructor
        · intro hrec
          obtain rfl := Option.some.inj hrec
          exact absurd ⟨rfl, rfl⟩ heq
        · intro hnone
          cases hnone
      · rfl
  nonempty g m hm := by
    unfold State.remove at hm
    simp only at hm
    split at hm
    · exact h.nonempty g m hm
    · by_cases hg : g = rec.group
      · subst hg
        split at hm
        · rw [AList.lookup_erase] at hm
          cases hm
        · rename_i hne
          rw [AList.lookup_insert] at hm
          rw [← Option.some.inj hm]
          exact hne
      · split at hm
        · rw [AList.lookup_erase_ne hg] at hm
          exact h.nonempty g m hm
        · rw [AList.lookup_insert_ne hg] at hm
          exact h.nonempty g m hm
  fresh id' rec' hid' := by
    rw [lookup_conns_remove] at hid'
    split at hid'
    · cases hid'
    · exact h.fresh id' rec' hid'

end Keep

/-! ### The group of a connection -/

/-- The slugs registered in the group of a connection, other than its own. -/
def others (s : State) (rec : ConnRecord) : Finset String :=
  (s.group rec.group).keys.toFinset.erase rec.slug

section Others

variable {s : State} {id : ConnId} {rec rec' : ConnRecord} {slug : String}

lemma mem_others : slug ∈ others s rec ↔ slug ≠ rec.slug ∧ slug ∈ s.group rec.group := by
  rw [others, Finset.mem_erase, List.mem_toFinset, ← AList.mem_keys]

lemma mem_group_insert : slug ∈ (s.insert rec).group rec'.group ↔
    (rec'.group = rec.group ∧ slug = rec.slug) ∨ slug ∈ s.group rec'.group := by
  rw [← AList.lookup_isSome, lookup_group_insert, ← AList.lookup_isSome]
  split
  · rename_i h
    simp [h]
  · rename_i h
    simp [h]

lemma mem_group_remove : slug ∈ (s.remove id rec).group rec'.group ↔
    ¬ (rec'.group = rec.group ∧ slug = rec.slug) ∧ slug ∈ s.group rec'.group := by
  rw [← AList.lookup_isSome, lookup_group_remove, ← AList.lookup_isSome]
  split
  · rename_i h
    simp [h]
  · rename_i h
    simp [h]

/-- **A slug joins** a group. -/
theorem others_insert : others (s.insert rec) rec' =
    if rec'.group = rec.group ∧ rec'.slug ≠ rec.slug then insert rec.slug (others s rec')
    else others s rec' := by
  ext slug
  rw [mem_others, mem_group_insert]
  by_cases hg : rec'.group = rec.group
  · by_cases hs : rec'.slug = rec.slug
    · rw [if_neg fun h => h.2 hs, mem_others, hs]
      constructor
      · rintro ⟨hne, ⟨-, heq⟩ | hmem⟩
        · exact absurd heq hne
        · exact ⟨hne, hmem⟩
      · rintro ⟨hne, hmem⟩
        exact ⟨hne, Or.inr hmem⟩
    · rw [if_pos ⟨hg, hs⟩, Finset.mem_insert, mem_others]
      constructor
      · rintro ⟨hne, ⟨-, heq⟩ | hmem⟩
        · exact Or.inl heq
        · exact Or.inr ⟨hne, hmem⟩
      · rintro (heq | ⟨hne, hmem⟩)
        · exact ⟨fun h => hs (h.symm.trans heq), Or.inl ⟨hg, heq⟩⟩
        · exact ⟨hne, Or.inr hmem⟩
  · rw [if_neg fun h => hg h.1, mem_others]
    constructor
    · rintro ⟨hne, ⟨heq, -⟩ | hmem⟩
      · exact absurd heq hg
      · exact ⟨hne, hmem⟩
    · rintro ⟨hne, hmem⟩
      exact ⟨hne, Or.inr hmem⟩

/-- **A slug leaves** a group. -/
theorem others_remove : others (s.remove id rec) rec' =
    if rec'.group = rec.group then (others s rec').erase rec.slug else others s rec' := by
  ext slug
  rw [mem_others, mem_group_remove]
  by_cases hg : rec'.group = rec.group
  · rw [if_pos hg, Finset.mem_erase, mem_others]
    constructor
    · rintro ⟨hne, hnot, hmem⟩
      exact ⟨fun heq => hnot ⟨hg, heq⟩, hne, hmem⟩
    · rintro ⟨hne', hne, hmem⟩
      exact ⟨hne, fun h => hne' h.2, hmem⟩
  · rw [if_neg hg, mem_others]
    constructor
    · rintro ⟨hne, -, hmem⟩
      exact ⟨hne, hmem⟩
    · rintro ⟨hne, hmem⟩
      exact ⟨hne, fun h => hg h.1, hmem⟩

end Others

/-! ### The peers of a group -/

section Peers

variable {s : State} {o : Outcomes} {g : String} {id : ConnId} {rec : ConnRecord}

lemma mem_peerIds (h : Consistent s) : id ∈ o.ids ((s.group g).entries.map Sigma.snd) ↔
    ∃ rec, s.conns.lookup id = some rec ∧ rec.group = g := by
  rw [(o.ids_perm _).mem_iff, List.mem_map]
  constructor
  · rintro ⟨⟨slug, id'⟩, hmem, rfl⟩
    obtain ⟨st, hst⟩ := (h.member g slug id').mp (AList.mem_lookup_iff.mpr hmem)
    exact ⟨_, hst, rfl⟩
  · rintro ⟨rec, hrec, rfl⟩
    have hmem := (h.member rec.group rec.slug id).mpr ⟨rec.stream, hrec⟩
    exact ⟨⟨rec.slug, id⟩, AList.mem_lookup_iff.mp hmem, rfl⟩

lemma nodup_peerIds (h : Consistent s) : (o.ids ((s.group g).entries.map Sigma.snd)).Nodup := by
  rw [(o.ids_perm _).nodup_iff]
  refine List.Nodup.map_on ?_ (s.group g).nodupKeys.nodup
  rintro ⟨slug, id⟩ hmem ⟨slug', id'⟩ hmem' (rfl : id = id')
  obtain ⟨st, hst⟩ := (h.member g slug id).mp (AList.mem_lookup_iff.mpr hmem)
  obtain ⟨st', hst'⟩ := (h.member g slug' id).mp (AList.mem_lookup_iff.mpr hmem')
  rw [hst] at hst'
  injection hst' with hrec
  injection hrec with hslug
  rw [hslug]

/-- **The loop over the peers** meets the connections of the group. -/
theorem mem_peers (h : Consistent s) :
    (id, rec) ∈ s.peers o g ↔ s.conns.lookup id = some rec ∧ rec.group = g := by
  unfold State.peers
  rw [List.mem_filterMap]
  constructor
  · rintro ⟨id', hid', hrec⟩
    obtain ⟨rec', hlook, hpair⟩ := Option.map_eq_some_iff.mp hrec
    obtain ⟨rfl, rfl⟩ := Prod.ext_iff.mp hpair
    obtain ⟨rec'', hlook', hg⟩ := (mem_peerIds h).mp hid'
    rw [hlook] at hlook'
    obtain rfl := Option.some.inj hlook'
    exact ⟨hlook, hg⟩
  · rintro ⟨hlook, hg⟩
    exact ⟨id, (mem_peerIds h).mpr ⟨rec, hlook, hg⟩, by rw [hlook]; rfl⟩

/-- It meets each of them once. -/
lemma nodup_peers (h : Consistent s) : (s.peers o g).Nodup := by
  refine List.Nodup.filterMap (fun a b p ha hb => ?_) (nodup_peerIds h)
  obtain ⟨_, _, rfl⟩ := Option.map_eq_some_iff.mp ha
  obtain ⟨_, _, heq⟩ := Option.map_eq_some_iff.mp hb
  exact (Prod.ext_iff.mp heq).1.symm

end Peers

end Crossbridge.Supervisor
