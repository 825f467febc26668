import Mathlib.Data.Finset.Sort
import Mathlib.Data.String.Basic
import Crossbridge.Client.Commands
import Crossbridge.Lib.FileTree

/-!
Peer discovery: the client lists the sockets in its directory.

Whatever the order in which the directory is read, the peers come out sorted (`listPeers_eq`).
-/

namespace Crossbridge.Client

/-- `str::strip_suffix`. -/
def stripSuffix (s suffix : String) : Option String :=
  if suffix.toList <:+ s.toList then
    some (String.ofList (s.toList.take (s.toList.length - suffix.toList.length)))
  else none

/-- The peer whose socket has this name. -/
def peerOfSocket (name : String) : Option String :=
  (stripSuffix name ".socket").filter fun slug => slug ≠ ""

/-- `list_peers` -/
def listPeers {ι : Type} (t : FileTree ι) (socketDir : Path) : Except String (List String) :=
  match t.lookup socketDir with
  | none => .error "not registered with crossbridge (no socket dir)"
  | some (.file _) =>
    .error ("failed to read socket directory /" ++ String.intercalate "/" socketDir)
  | some .dir => .ok (((t.readDir socketDir).filterMap peerOfSocket).insertionSort (· ≤ ·))

lemma stripSuffix_eq_some {s suffix v : String} : stripSuffix s suffix = some v ↔ s = v ++ suffix := by
  unfold stripSuffix
  constructor
  · intro h
    split at h
    · rename_i hsuffix
      obtain ⟨t, ht⟩ := hsuffix
      have hlen : s.toList.length - suffix.toList.length = t.length := by
        rw [← ht, List.length_append, Nat.add_sub_cancel]
      rw [hlen, ← ht, List.take_left] at h
      rw [← Option.some.inj h, ← String.toList_inj, String.toList_append, String.toList_ofList, ht]
    · cases h
  · rintro rfl
    rw [String.toList_append, if_pos (List.suffix_append _ _), List.length_append,
      Nat.add_sub_cancel, List.take_left, String.ofList_toList]

lemma append_right_injective {v w suffix : String} (h : v ++ suffix = w ++ suffix) : v = w := by
  have hv : stripSuffix (v ++ suffix) suffix = some v := stripSuffix_eq_some.mpr rfl
  rw [h, stripSuffix_eq_some.mpr rfl] at hv
  exact (Option.some.inj hv).symm

lemma peerOfSocket_eq_some {name slug : String} :
    peerOfSocket name = some slug ↔ name = slug ++ ".socket" ∧ slug ≠ "" := by
  unfold peerOfSocket
  rw [Option.filter_eq_some_iff, stripSuffix_eq_some, decide_eq_true_iff]

variable {ι : Type} {t : FileTree ι} {dir : Path} {peers : Finset String}

/-- **What the client finds**: the peers that have a socket in the directory, sorted. -/
theorem listPeers_eq (hdir : t.lookup dir = some .dir)
    (hpeers : ∀ slug, slug ∈ peers ↔ slug ≠ "" ∧ dir ++ [slug ++ ".socket"] ∈ t) :
    listPeers t dir = .ok (peers.sort (· ≤ ·)) := by
  have hmem : ∀ slug, slug ∈ (t.readDir dir).filterMap peerOfSocket ↔ slug ∈ peers := by
    intro slug
    rw [hpeers, List.mem_filterMap]
    constructor
    · rintro ⟨name, hname, hslug⟩
      obtain ⟨rfl, hne⟩ := peerOfSocket_eq_some.mp hslug
      exact ⟨hne, FileTree.mem_readDir.mp hname⟩
    · rintro ⟨hne, hin⟩
      exact ⟨_, FileTree.mem_readDir.mpr hin, peerOfSocket_eq_some.mpr ⟨rfl, hne⟩⟩
  have hnodup : ((t.readDir dir).filterMap peerOfSocket).Nodup := by
    refine (FileTree.nodup_readDir dir).filterMap fun name name' slug h h' => ?_
    rw [(peerOfSocket_eq_some.mp h).1, (peerOfSocket_eq_some.mp h').1]
  have hsort := (List.perm_insertionSort (· ≤ ·) ((t.readDir dir).filterMap peerOfSocket))
  have hset : (((t.readDir dir).filterMap peerOfSocket).insertionSort (· ≤ ·)).toFinset = peers := by
    ext slug
    rw [List.mem_toFinset, hsort.mem_iff, hmem]
  unfold listPeers
  rw [hdir]
  refine congrArg Except.ok ?_
  rw [← hset]
  exact ((List.toFinset_sort _ (hsort.nodup_iff.mpr hnodup)).mpr
    (List.pairwise_insertionSort _ _)).symm

end Crossbridge.Client
