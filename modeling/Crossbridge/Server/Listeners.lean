import Crossbridge.Client.Commands
import Crossbridge.Lib.FileTree
import Crossbridge.Server.Session

/-!
The listening sockets of a repo server.

For a peer the server listens at `<root>/<peer>/<own>.socket`, which is where the clients of the peer
look for it (`listenerSocket_eq_socketPath`). `add` and `remove` change the set and the file tree
together; a file of the tree that is a socket holds the number of the socket that was bound to it.
What the operating system makes of `add` is a parameter (`AddOutcome`).
-/

namespace Crossbridge.Server

open Crossbridge.Protocol

/-- A socket that was bound, by its number. -/
abbrev SockId := ℕ

/-- `Entry`: the socket and its path; `running` until the accept loop stops. -/
structure Entry where
  path : Path
  sock : SockId
  running : Bool
  deriving DecidableEq

/-- `ListenerSet`; the layout is the root, an argument of its functions. -/
structure ListenerSet where
  ownSlug : String
  entries : AList fun _ : String => Entry

/-- `SocketLayout::peer_dir` -/
def peerDir (root : Path) (peer : String) : Path := Path.join root peer

/-- `SocketLayout::listener_socket` -/
def listenerSocket (root : Path) (peer own : String) : Path :=
  Path.join (peerDir root peer) (own ++ ".socket")

/-- The server listens where the clients of the peer connect. -/
lemma listenerSocket_eq_socketPath (root : Path) (peer own : String) :
    listenerSocket root peer own = Client.socketPath root peer own := rfl

/-- With plain slugs it is two levels below the root. -/
lemma listenerSocket_of_isName {root : Path} {peer own : String} (hpeer : Path.IsName peer)
    (hown : Path.IsName own) : listenerSocket root peer own = root ++ [peer] ++ [own ++ ".socket"] := by
  have hsocket : Path.IsName (own ++ ".socket") := Path.isName_append hown (by decide) (by decide)
  rw [listenerSocket, peerDir, Path.join_of_isName hpeer, Path.join_of_isName hsocket]

/-- How a call of `add` ends. -/
inductive AddOutcome where
  | dirFails
  | bindFails
  | bound
  deriving DecidableEq

namespace ListenerSet

/-- The entry goes, and its file. -/
def remove (ls : ListenerSet) (t : FileTree SockId) (peer : String) :
    ListenerSet × FileTree SockId :=
  match ls.entries.lookup peer with
  | none => (ls, t)
  | some e => ({ ls with entries := ls.entries.erase peer }, t.unlink e.path)

/-- `add` up to the bind: the directory is made, a prior entry and a stale file are taken away. -/
def prepare (ls : ListenerSet) (root : Path) (t : FileTree SockId) (peer : String) :
    ListenerSet × FileTree SockId :=
  let r := ls.remove (t.createDirAll (peerDir root peer)) peer
  (r.1, r.2.unlink (listenerSocket root peer ls.ownSlug))

/-- `add`; `sock` is the number of the new socket. -/
def add (ls : ListenerSet) (root : Path) (t : FileTree SockId) (peer : String) (out : AddOutcome)
    (sock : SockId) : ListenerSet × FileTree SockId :=
  let path := listenerSocket root peer ls.ownSlug
  let r := ls.prepare root t peer
  match out with
  | .dirFails => (ls, t)
  | .bindFails => r
  | .bound => ({ r.1 with entries := r.1.entries.insert peer ⟨path, sock, true⟩ },
      r.2.insert path (.file sock))

/-- What the session does on a notification; the peers of an `Ack` are added like those that join. -/
def act (ls : ListenerSet) (root : Path) (t : FileTree SockId) (out : AddOutcome) (sock : SockId) :
    Notification → ListenerSet × FileTree SockId
  | .peerJoined slug => ls.add root t slug out sock
  | .peerLeft slug => ls.remove t slug

/-- Every entry has the path of its peer. -/
def Placed (root : Path) (ls : ListenerSet) : Prop :=
  ∀ peer e, ls.entries.lookup peer = some e → e.path = listenerSocket root peer ls.ownSlug

end ListenerSet

/-! ### What the calls change -/

/-- The peer of a notification. -/
def peerOf : Notification → String
  | .peerJoined slug => slug
  | .peerLeft slug => slug

/-- Two trees with the same files, the path `p` apart, the second one with all directories of the
first and no others but those that lead to `d`. -/
structure SameBut (p d : Path) (t t' : FileTree SockId) : Prop where
  files : ∀ q ≠ p, ∀ k, t'.lookup q = some (.file k) ↔ t.lookup q = some (.file k)
  dirs : ∀ q ≠ p, t.lookup q = some .dir → t'.lookup q = some .dir
  new : ∀ q, t'.lookup q = some .dir → t.lookup q = some .dir ∨ q <+: d

namespace SameBut

variable {p d : Path} {t t' t'' : FileTree SockId}

lemma refl (p d : Path) (t : FileTree SockId) : SameBut p d t t :=
  ⟨fun _ _ _ => Iff.rfl, fun _ _ h => h, fun _ h => Or.inl h⟩

lemma trans (h : SameBut p d t t') (h' : SameBut p d t' t'') : SameBut p d t t'' where
  files q hq k := (h'.files q hq k).trans (h.files q hq k)
  dirs q hq hd := h'.dirs q hq (h.dirs q hq hd)
  new q hd := by
    rcases h'.new q hd with hd | hd
    · exact h.new q hd
    · exact Or.inr hd

lemma createDirAll (p d : Path) (t : FileTree SockId) : SameBut p d t (t.createDirAll d) where
  files q _ k := by
    rw [FileTree.lookup_createDirAll]
    split
    · rename_i h
      rw [h.2]
      simp
    · rfl
  dirs q _ hd := by
    rw [FileTree.lookup_createDirAll_of_mem (FileTree.mem_of_lookup hd)]
    exact hd
  new q hd := by
    rw [FileTree.lookup_createDirAll] at hd
    split at hd
    · rename_i h
      exact Or.inr h.1
    · exact Or.inl hd

lemma unlink (p d : Path) (t : FileTree SockId) : SameBut p d t (t.unlink p) where
  files q hq k := by rw [FileTree.lookup_unlink_ne hq]
  dirs q _ hd := FileTree.lookup_unlink_eq_dir.mpr hd
  new q hd := Or.inl (FileTree.lookup_unlink_eq_dir.mp hd)

lemma insert (p d : Path) (t : FileTree SockId) (k : SockId) :
    SameBut p d t (AList.insert p (.file k) t) where
  files q hq k' := by rw [AList.lookup_insert_ne hq]
  dirs q hq hd := by rw [AList.lookup_insert_ne hq, hd]
  new q hd := by
    by_cases hq : q = p
    · rw [hq, AList.lookup_insert] at hd
      cases hd
    · rw [AList.lookup_insert_ne hq] at hd
      exact Or.inl hd

end SameBut

namespace ListenerSet

variable {root : Path} {ls : ListenerSet} {t : FileTree SockId} {peer : String} {out : AddOutcome}
  {sock : SockId} {n : Notification}

lemma ownSlug_remove : (ls.remove t peer).1.ownSlug = ls.ownSlug := by
  unfold remove
  split <;> rfl

lemma lookup_remove (q : String) : (ls.remove t peer).1.entries.lookup q =
    if q = peer then none else ls.entries.lookup q := by
  unfold remove
  split
  · rename_i hnone
    split
    · rename_i hq
      rw [hq, hnone]
    · rfl
  · split
    · rename_i hq
      rw [hq, AList.lookup_erase]
    · rename_i hq
      exact AList.lookup_erase_ne hq

lemma sameBut_remove (h : Placed root ls) (d : Path) :
    SameBut (listenerSocket root peer ls.ownSlug) d t (ls.remove t peer).2 := by
  unfold remove
  split
  · exact SameBut.refl _ _ _
  · rename_i e he
    rw [← h peer e he]
    exact SameBut.unlink _ _ _

/-- An entry that is removed leaves no file. -/
lemma no_file_remove (h : Placed root ls) (hmem : (ls.entries.lookup peer).isSome) (k : SockId) :
    (ls.remove t peer).2.lookup (listenerSocket root peer ls.ownSlug) ≠ some (.file k) := by
  unfold ListenerSet.remove
  obtain ⟨e, he⟩ := Option.isSome_iff_exists.mp hmem
  rw [he]
  simp only
  rw [← h peer e he]
  exact fun hk => (FileTree.lookup_unlink_eq_file.mp hk).1 rfl

/-- **What a notification changes**: nothing, or the entry and the file of one peer. -/
theorem act_cases (root : Path) (ls : ListenerSet) (t : FileTree SockId) (out : AddOutcome)
    (sock : SockId) (n : Notification) (h : Placed root ls) :
    ls.act root t out sock n = (ls, t) ∨
    ((ls.act root t out sock n).1.entries.lookup (peerOf n) =
        some ⟨listenerSocket root (peerOf n) ls.ownSlug, sock, true⟩ ∧
      (ls.act root t out sock n).2.lookup (listenerSocket root (peerOf n) ls.ownSlug) =
        some (.file sock)) ∨
    ((ls.act root t out sock n).1.entries.lookup (peerOf n) = none ∧
      ∀ k, (ls.act root t out sock n).2.lookup (listenerSocket root (peerOf n) ls.ownSlug) ≠
        some (.file k)) := by
  cases n with
  | peerJoined slug =>
    cases out with
    | dirFails => exact Or.inl rfl
    | bindFails =>
      refine Or.inr (Or.inr ⟨?_, fun k hk => ?_⟩)
      · exact (lookup_remove slug).trans (if_pos rfl)
      · exact (FileTree.lookup_unlink_eq_file.mp hk).1 rfl
    | bound =>
      refine Or.inr (Or.inl ⟨AList.lookup_insert _, ?_⟩)
      exact AList.lookup_insert _
  | peerLeft slug =>
    cases he : ls.entries.lookup slug with
    | none =>
      refine Or.inl ?_
      simp only [act, remove, he]
    | some e =>
      have hsome : (ls.entries.lookup slug).isSome := by
        rw [he]
        rfl
      exact Or.inr (Or.inr ⟨(lookup_remove slug).trans (if_pos rfl), no_file_remove h hsome⟩)

lemma lookup_act_ne {q : String} (hq : q ≠ peerOf n) :
    (ls.act root t out sock n).1.entries.lookup q = ls.entries.lookup q := by
  cases n with
  | peerJoined slug =>
    have hprep : (ls.prepare root t slug).1.entries.lookup q = ls.entries.lookup q :=
      (lookup_remove q).trans (if_neg hq)
    cases out with
    | dirFails => rfl
    | bindFails => exact hprep
    | bound => exact (AList.lookup_insert_ne hq).trans hprep
  | peerLeft slug => exact (lookup_remove q).trans (if_neg hq)

/-- With a bind that succeeds a peer that joins has a listener, and its socket is in place. -/
lemma mem_act_joined {p q : String} :
    q ∈ (ls.act root t .bound sock (.peerJoined p)).1.entries ↔ q = p ∨ q ∈ ls.entries := by
  by_cases hq : q = p
  · refine iff_of_true ?_ (Or.inl hq)
    rw [hq]
    exact (AList.mem_insert _).mpr (Or.inl rfl)
  · rw [← AList.lookup_isSome, lookup_act_ne hq, AList.lookup_isSome]
    exact ⟨Or.inr, fun h => h.resolve_left hq⟩

lemma lookup_act_joined {p : String} : (ls.act root t .bound sock (.peerJoined p)).1.entries.lookup p =
    some ⟨listenerSocket root p ls.ownSlug, sock, true⟩ := AList.lookup_insert _

lemma file_act_joined {p : String} : (ls.act root t .bound sock (.peerJoined p)).2.lookup
    (listenerSocket root p ls.ownSlug) = some (.file sock) := AList.lookup_insert _

/-- A peer that leaves has none. -/
lemma mem_act_left {p q : String} :
    q ∈ (ls.act root t out sock (.peerLeft p)).1.entries ↔ q ≠ p ∧ q ∈ ls.entries := by
  rw [← AList.lookup_isSome, act, lookup_remove, ← AList.lookup_isSome]
  by_cases hq : q = p
  · rw [if_pos hq]
    exact iff_of_false (fun h => by cases h) fun h => h.1 hq
  · rw [if_neg hq]
    exact ⟨fun h => ⟨hq, h⟩, fun h => h.2⟩

lemma ownSlug_act : (ls.act root t out sock n).1.ownSlug = ls.ownSlug := by
  cases n with
  | peerJoined slug =>
    cases out with
    | dirFails => rfl
    | bindFails | bound => exact ownSlug_remove
  | peerLeft slug => exact ownSlug_remove

lemma Placed.act (h : Placed root ls) : Placed root (ls.act root t out sock n).1 := by
  intro q e he
  rw [ownSlug_act]
  by_cases hq : q = peerOf n
  · subst hq
    rcases act_cases root ls t out sock n h with heq | ⟨hentry, -⟩ | ⟨hnone, -⟩
    · rw [heq] at he
      exact h _ e he
    · rw [hentry] at he
      rw [← Option.some.inj he]
    · rw [hnone] at he
      cases he
  · rw [lookup_act_ne hq] at he
    exact h q e he

/-- **The frame of a notification**: the other files, and the directories, stay. -/
theorem sameBut_act (h : Placed root ls) : SameBut (listenerSocket root (peerOf n) ls.ownSlug)
    (peerDir root (peerOf n)) t (ls.act root t out sock n).2 := by
  cases n with
  | peerJoined slug =>
    have hprep : SameBut (listenerSocket root slug ls.ownSlug) (peerDir root slug) t
        (ls.prepare root t slug).2 :=
      ((SameBut.createDirAll _ _ t).trans (sameBut_remove h _)).trans (SameBut.unlink _ _ _)
    cases out with
    | dirFails => exact SameBut.refl _ _ _
    | bindFails => exact hprep
    | bound => exact hprep.trans (SameBut.insert _ _ _ _)
  | peerLeft slug => exact sameBut_remove h _

/-! ### Directories and files, wherever the entries lead -/

lemma dir_remove {q : Path} : (ls.remove t peer).2.lookup q = some .dir ↔ t.lookup q = some .dir := by
  unfold remove
  split
  · rfl
  · exact FileTree.lookup_unlink_eq_dir

lemma file_remove {q : Path} {k : SockId} (h : (ls.remove t peer).2.lookup q = some (.file k)) :
    t.lookup q = some (.file k) := by
  unfold remove at h
  split at h
  · exact h
  · exact (FileTree.lookup_unlink_eq_file.mp h).2

/-- `add` makes the directory of the peer, unless it fails to, and no other directory goes. -/
lemma dir_add {q : Path} (hq : q ≠ listenerSocket root peer ls.ownSlug) :
    (ls.add root t peer out sock).2.lookup q = some .dir ↔
      (if out = .dirFails then t else t.createDirAll (peerDir root peer)).lookup q = some .dir := by
  have hprep : (ls.prepare root t peer).2.lookup q = some .dir ↔
      (t.createDirAll (peerDir root peer)).lookup q = some .dir := by
    rw [prepare, FileTree.lookup_unlink_eq_dir, dir_remove]
  cases out with
  | dirFails => rfl
  | bindFails => exact hprep
  | bound =>
    rw [add, AList.lookup_insert_ne hq]
    exact hprep

/-- No file comes but the socket. -/
lemma file_act {q : Path} {k : SockId} (hq : q ≠ listenerSocket root (peerOf n) ls.ownSlug)
    (h : (ls.act root t out sock n).2.lookup q = some (.file k)) : t.lookup q = some (.file k) := by
  cases n with
  | peerJoined slug =>
    have hprep : (ls.prepare root t slug).2.lookup q = some (.file k) → t.lookup q = some (.file k) := by
      intro hfile
      have hmade := file_remove (FileTree.lookup_unlink_eq_file.mp hfile).2
      rw [FileTree.lookup_createDirAll] at hmade
      split at hmade
      · cases hmade
      · exact hmade
    cases out with
    | dirFails => exact h
    | bindFails => exact hprep h
    | bound => exact hprep ((AList.lookup_insert_ne hq).symm.trans h)
  | peerLeft slug => exact file_remove h

end ListenerSet

end Crossbridge.Server
