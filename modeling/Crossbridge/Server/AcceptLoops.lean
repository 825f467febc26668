import Crossbridge.Lib.Runs
import Crossbridge.Server.Listeners

/-!
A listener set, the accept loops and the socket files.

Three things are to go together: an entry of the set, the task that accepts on its socket, and the
file of that socket. `add`, `remove` and `clear` change them, `add` failing halfway at two places, and
a task may end by itself (`step`). As long as none does, a peer has an entry exactly when one task
accepts for it on the socket whose file is in place, and there is no task and no file beside these
(`exact_of_run`). A task that ends leaves its entry behind (`unlisted_of_stop`).
-/

namespace Crossbridge.Server.AcceptLoops

open Crossbridge.Runs

/-! ### The set and what it acts on -/

/-- A running `listen_loop`: the peer whose connections it accepts, and the path it is bound to. -/
structure Loop where
  slug : String
  path : Path
  deriving DecidableEq

/-- A listener set, the file tree, and the tasks that run; a task has the number of its socket. -/
structure State where
  set : ListenerSet
  tree : FileTree SockId
  loops : AList fun _ : SockId => Loop
  /-- The number of the next socket. -/
  next : SockId
  /-- Whether the other end of the channel is still there, and the connections sent on it. -/
  receiver : Bool
  accepted : List (String × ℕ)

/-- A number that no file of the tree has, nor any greater one. -/
def fresh (t : FileTree SockId) : SockId :=
  (t.entries.map fun e =>
    match e.2 with
    | .dir => 0
    | .file k => k + 1).foldr max 0

/-- `ListenerSet::new`, where there may be files already. -/
def start (own : String) (t : FileTree SockId) : State := ⟨⟨own, ∅⟩, t, ∅, fresh t, true, []⟩

/-- Why `add` failed. -/
inductive AddError where
  | dir
  | bind
  deriving DecidableEq, Repr

/-- How `accept` ends. -/
inductive AcceptOutcome where
  | connection (conn : ℕ)
  | fails
  deriving DecidableEq, Repr

namespace State

/-- `ListenerSet::remove`; the task is aborted. -/
def remove (s : State) (peer : String) : Bool × State :=
  match s.set.entries.lookup peer with
  | none => (false, s)
  | some e =>
    let r := s.set.remove s.tree peer
    (true, { s with set := r.1, tree := r.2, loops := s.loops.erase e.sock })

def withTree (s : State) (t : FileTree SockId) : State := { s with tree := t }

/-- `add` between its two failures: the directory is there, a prior entry and a stale file are taken
away. -/
def prepare (s : State) (root : Path) (peer : String) : State :=
  let s := ((s.withTree (s.tree.createDirAll (peerDir root peer))).remove peer).2
  s.withTree (s.tree.unlink (listenerSocket root peer s.set.ownSlug))

/-- A file stands where a directory is to be made. -/
def blocked (t : FileTree SockId) (d : Path) : Bool :=
  d.inits.any fun q =>
    match t.lookup q with
    | some (.file _) => true
    | _ => false

/-- `ListenerSet::add`; that `create_dir_all` and `bind` fail is up to the operating system. -/
def add (s : State) (root : Path) (peer : String) (dirFails bindFails : Bool) :
    Except AddError Unit × State :=
  if dirFails || blocked s.tree (peerDir root peer) then (.error .dir, s)
  else
    let s := s.prepare root peer
    let path := listenerSocket root peer s.set.ownSlug
    -- `bind` fails when something is left at the path
    if bindFails || path ∈ s.tree then (.error .bind, s)
    else (.ok (), { s with
      set := { s.set with entries := s.set.entries.insert peer ⟨path, s.next, true⟩ }
      tree := s.tree.insert path (.file s.next)
      loops := s.loops.insert s.next ⟨peer, path⟩
      next := s.next + 1 })

/-- `ListenerSet::clear`, the slugs in the order of the map. -/
def clear (s : State) (slugs : List String) : State := slugs.foldl (fun s p => (s.remove p).2) s

/-- The task `k` ends by itself. -/
def stop (s : State) (k : SockId) (l : Loop) : State :=
  { s with
    loops := s.loops.erase k
    set := { s.set with
      entries :=
        match s.set.entries.lookup l.slug with
        | some e => if e.sock = k then s.set.entries.insert l.slug { e with running := false }
          else s.set.entries
        | none => s.set.entries } }

/-- One turn of `listen_loop`. -/
def accept (s : State) (k : SockId) (l : Loop) : AcceptOutcome → State
  | .connection conn =>
    if s.receiver then { s with accepted := s.accepted ++ [(l.slug, conn)] } else s.stop k l
  | .fails => s.stop k l

end State

/-- A call on the set, a turn of a task, or the end of the receiver. -/
inductive Action where
  | add (peer : String) (dirFails bindFails : Bool)
  | remove (peer : String)
  | clear (slugs : List String)
  | accept (k : SockId) (out : AcceptOutcome)
  | dropReceiver
  deriving DecidableEq, Repr

def step (root : Path) (s : State) : Action → Option State
  | .add peer dirFails bindFails => some (s.add root peer dirFails bindFails).2
  | .remove peer => some (s.remove peer).2
  | .clear slugs => if slugs.Perm s.set.entries.keys then some (s.clear slugs) else none
  | .accept k out => (s.loops.lookup k).map fun l => s.accept k l out
  | .dropReceiver => some { s with receiver := false }

/-! ### What the calls do to the set -/

section Calls

variable {s : State} {root : Path} {peer : String}

lemma set_remove (s : State) (peer : String) :
    ((s.remove peer).2.set, (s.remove peer).2.tree) = s.set.remove s.tree peer := by
  unfold State.remove ListenerSet.remove
  cases s.set.entries.lookup peer with
  | none => rfl
  | some e => rfl

lemma ownSlug_remove : (s.remove peer).2.set.ownSlug = s.set.ownSlug := by
  have h := congrArg (fun r => r.1.ownSlug) (set_remove s peer)
  exact h.trans ListenerSet.ownSlug_remove

lemma ownSlug_prepare : (s.prepare root peer).set.ownSlug = s.set.ownSlug := ownSlug_remove

lemma set_prepare (s : State) (root : Path) (peer : String) :
    ((s.prepare root peer).set, (s.prepare root peer).tree) = s.set.prepare root s.tree peer := by
  have h := set_remove (s.withTree (s.tree.createDirAll (peerDir root peer))) peer
  unfold State.prepare ListenerSet.prepare
  dsimp only
  rw [ownSlug_remove, ← show _ = s.set.remove (s.tree.createDirAll (peerDir root peer)) peer from h]
  rfl

/-- **The calls of `add`** are those of the listener set as the rest of the development has it. -/
theorem set_add (s : State) (root : Path) (peer : String) (dirFails bindFails : Bool) :
    ((s.add root peer dirFails bindFails).2.set, (s.add root peer dirFails bindFails).2.tree) =
      s.set.add root s.tree peer
        (match (s.add root peer dirFails bindFails).1 with
        | .error .dir => .dirFails
        | .error .bind => .bindFails
        | .ok () => .bound) s.next := by
  have hprep := set_prepare s root peer
  have hnext : (s.prepare root peer).next = s.next := by
    unfold State.prepare State.remove
    split <;> rfl
  unfold State.add ListenerSet.add
  split
  · rfl
  · dsimp only
    split
    · exact hprep
    · rw [← hprep, ownSlug_prepare, hnext]

end Calls

/-! ### What belongs together -/

/-- The entry of a peer has its task and its socket file. -/
structure Owned (root : Path) (own : String) (first : SockId) (s : State) (p : String) (e : Entry) :
    Prop where
  name : Path.IsName p
  path : e.path = listenerSocket root p own
  running : e.running = true
  since : first ≤ e.sock
  loop : s.loops.lookup e.sock = some ⟨p, e.path⟩
  file : s.tree.lookup e.path = some (.file e.sock)

/-- Entries, tasks and files belong together; the sockets of the set are those from `first` on. -/
structure Inv (root : Path) (own : String) (first : SockId) (s : State) : Prop where
  slug : s.set.ownSlug = own
  entry : ∀ p e, s.set.entries.lookup p = some e → Owned root own first s p e
  loop : ∀ k l, s.loops.lookup k = some l → ∃ e, s.set.entries.lookup l.slug = some e ∧ e.sock = k
  file : ∀ q k, s.tree.lookup q = some (.file k) → first ≤ k →
    ∃ p e, s.set.entries.lookup p = some e ∧ e.path = q
  next : first ≤ s.next
  below : ∀ q k, s.tree.lookup q = some (.file k) → k < s.next

lemma listenerSocket_injective {root : Path} {own p q : String} (hown : Path.IsName own)
    (hp : Path.IsName p) (hq : Path.IsName q)
    (h : listenerSocket root p own = listenerSocket root q own) : p = q := by
  rw [listenerSocket_of_isName hp hown, listenerSocket_of_isName hq hown] at h
  simpa using h

section Inv

variable {root : Path} {own : String} {first : SockId} {s s' : State} {p : String} {e : Entry}

/-- Another tree, with the same files of the set and no others but those that were there. -/
lemma Inv.withTree (h : Inv root own first s) {t : FileTree SockId}
    (hsub : ∀ q k, t.lookup q = some (.file k) → s.tree.lookup q = some (.file k))
    (hkeep : ∀ p e, s.set.entries.lookup p = some e → t.lookup e.path = s.tree.lookup e.path) :
    Inv root own first (s.withTree t) where
  slug := h.slug
  entry p e he := { h.entry p e he with file := (hkeep p e he).trans (h.entry p e he).file }
  loop := h.loop
  file q k hq hk := h.file q k (hsub q k hq) hk
  next := h.next
  below q k hq := h.below q k (hsub q k hq)

lemma Inv.createDirAll (h : Inv root own first s) (d : Path) :
    Inv root own first (s.withTree (s.tree.createDirAll d)) := by
  refine h.withTree (fun q k hq => ?_) fun p e he => ?_
  · rw [FileTree.lookup_createDirAll] at hq
    split at hq
    · cases hq
    · exact hq
  · exact FileTree.lookup_createDirAll_of_mem (FileTree.mem_of_lookup (h.entry p e he).file)

/-- The socket of another peer is another one, and so is its path. -/
lemma Inv.ne_of_ne (hown : Path.IsName own) (h : Inv root own first s) {q : String} {e' : Entry}
    (he : s.set.entries.lookup p = some e) (he' : s.set.entries.lookup q = some e') (hne : q ≠ p) :
    e'.sock ≠ e.sock ∧ e'.path ≠ e.path := by
  have ho := h.entry p e he
  have ho' := h.entry q e' he'
  constructor
  · intro hsock
    have hloop := ho'.loop
    rw [hsock, ho.loop] at hloop
    exact hne (congrArg Loop.slug (Option.some.inj hloop)).symm
  · intro hpath
    rw [ho.path, ho'.path] at hpath
    exact hne (listenerSocket_injective hown ho'.name ho.name hpath)

lemma lookup_remove (s : State) (p q : String) : (s.remove p).2.set.entries.lookup q =
    if q = p then none else s.set.entries.lookup q := by
  have h := congrArg (fun r => r.1.entries.lookup q) (set_remove s p)
  exact h.trans (ListenerSet.lookup_remove q)

/-- A peer that is listed is taken out of the tasks and the files. -/
lemma remove_of_lookup (he : s.set.entries.lookup p = some e) :
    (s.remove p).2.loops = s.loops.erase e.sock ∧ (s.remove p).2.tree = s.tree.unlink e.path ∧
      (s.remove p).2.next = s.next := by
  unfold State.remove ListenerSet.remove
  rw [he]
  exact ⟨rfl, rfl, rfl⟩

/-- **`remove`** takes entry, task and file together. -/
theorem Inv.remove (hown : Path.IsName own) (h : Inv root own first s) (p : String) :
    Inv root own first (s.remove p).2 := by
  cases he : s.set.entries.lookup p with
  | none =>
    have hsame : (s.remove p).2 = s := by
      unfold State.remove
      rw [he]
    rw [hsame]
    exact h
  | some e =>
    have hlookup := lookup_remove s p
    obtain ⟨hloops, htree, hnext⟩ := remove_of_lookup he
    have hfile : ∀ q k, (s.remove p).2.tree.lookup q = some (.file k) →
        q ≠ e.path ∧ s.tree.lookup q = some (.file k) := by
      intro q k hq
      rw [htree] at hq
      exact FileTree.lookup_unlink_eq_file.mp hq
    constructor
    · exact ownSlug_remove.trans h.slug
    · intro q e' he'
      rw [hlookup] at he'
      split at he'
      · cases he'
      · rename_i hne
        have ho := h.entry q e' he'
        obtain ⟨hsock, hpath⟩ := h.ne_of_ne hown he he' hne
        refine { ho with loop := ?_, file := ?_ }
        · rw [hloops, AList.lookup_erase_ne hsock]
          exact ho.loop
        · rw [htree, FileTree.lookup_unlink_ne hpath]
          exact ho.file
    · intro k l hl
      rw [hloops] at hl
      have hk : k ≠ e.sock := by
        rintro rfl
        rw [AList.lookup_erase] at hl
        cases hl
      rw [AList.lookup_erase_ne hk] at hl
      obtain ⟨e', he', hsock⟩ := h.loop k l hl
      refine ⟨e', ?_, hsock⟩
      rw [hlookup, if_neg, he']
      intro hslug
      rw [hslug, he] at he'
      exact hk (hsock.symm.trans (congrArg Entry.sock (Option.some.inj he')).symm)
    · intro q k hq hk
      obtain ⟨hne, hq⟩ := hfile q k hq
      obtain ⟨p', e', he', hpath⟩ := h.file q k hq hk
      refine ⟨p', e', ?_, hpath⟩
      rw [hlookup, if_neg, he']
      rintro rfl
      rw [he] at he'
      exact hne (hpath.symm.trans (congrArg Entry.path (Option.some.inj he')).symm)
    · exact hnext ▸ h.next
    · intro q k hq
      rw [hnext]
      exact h.below q k (hfile q k hq).2

lemma lookup_prepare (s : State) (root : Path) (p : String) :
    (s.prepare root p).set.entries.lookup p = none :=
  (lookup_remove (s.withTree _) p p).trans (if_pos rfl)

lemma Inv.prepare (hown : Path.IsName own) (h : Inv root own first s) (hp : Path.IsName p) :
    Inv root own first (s.prepare root p) := by
  have hremoved := (h.createDirAll (peerDir root p)).remove hown p
  have hnone := lookup_prepare s root p
  refine hremoved.withTree (fun q k hq => (FileTree.lookup_unlink_eq_file.mp hq).2) fun q e he => ?_
  have ho := hremoved.entry q e he
  refine FileTree.lookup_unlink_ne fun hpath => ?_
  rw [ho.path, hremoved.slug] at hpath
  obtain rfl := listenerSocket_injective hown ho.name hp hpath
  exact absurd (hnone.symm.trans he) (by simp)

/-- **`bind`** adds entry, task and file together. -/
lemma Inv.bind (h : Inv root own first s) (hp : Path.IsName p)
    (hnone : s.set.entries.lookup p = none) (hfree : listenerSocket root p own ∉ s.tree) :
    Inv root own first { s with
      set := { s.set with entries := s.set.entries.insert p ⟨listenerSocket root p own, s.next, true⟩ }
      tree := s.tree.insert (listenerSocket root p own) (.file s.next)
      loops := s.loops.insert s.next ⟨p, listenerSocket root p own⟩
      next := s.next + 1 } := by
  -- the number is new, to the files and therefore to the entries and tasks
  have hsock : ∀ q e, s.set.entries.lookup q = some e → e.sock ≠ s.next := by
    intro q e he
    exact Nat.ne_of_lt (h.below _ _ (h.entry q e he).file)
  have hother : ∀ q e, s.set.entries.lookup q = some e → q ≠ p ∧ e.path ≠ listenerSocket root p own := by
    intro q e he
    refine ⟨?_, fun hpath => hfree ?_⟩
    · rintro rfl
      rw [hnone] at he
      cases he
    · rw [← hpath]
      exact FileTree.mem_of_lookup (h.entry q e he).file
  constructor
  · exact h.slug
  · intro q e he
    by_cases hq : q = p
    · subst hq
      dsimp only at he
      rw [AList.lookup_insert] at he
      obtain rfl := Option.some.inj he
      exact ⟨hp, rfl, rfl, h.next, AList.lookup_insert _, AList.lookup_insert _⟩
    · dsimp only at he
      rw [AList.lookup_insert_ne hq] at he
      have ho := h.entry q e he
      refine { ho with loop := ?_, file := ?_ }
      · dsimp only
        rw [AList.lookup_insert_ne (hsock q e he)]
        exact ho.loop
      · dsimp only
        rw [AList.lookup_insert_ne (hother q e he).2]
        exact ho.file
  · intro k l hl
    dsimp only at hl ⊢
    by_cases hk : k = s.next
    · subst hk
      rw [AList.lookup_insert] at hl
      obtain rfl := Option.some.inj hl
      exact ⟨_, AList.lookup_insert _, rfl⟩
    · rw [AList.lookup_insert_ne hk] at hl
      obtain ⟨e, he, rfl⟩ := h.loop k l hl
      exact ⟨e, by rw [AList.lookup_insert_ne (hother _ e he).1, he], rfl⟩
  · intro q k hq hk
    dsimp only at hq ⊢
    by_cases hpath : q = listenerSocket root p own
    · exact ⟨p, _, AList.lookup_insert _, hpath.symm⟩
    · rw [AList.lookup_insert_ne hpath] at hq
      obtain ⟨p', e, he, rfl⟩ := h.file q k hq hk
      exact ⟨p', e, by rw [AList.lookup_insert_ne (hother _ e he).1, he], rfl⟩
  · exact Nat.le_succ_of_le h.next
  · intro q k hq
    dsimp only at hq ⊢
    by_cases hpath : q = listenerSocket root p own
    · rw [hpath, AList.lookup_insert] at hq
      cases hq
      exact Nat.lt_succ_self _
    · rw [AList.lookup_insert_ne hpath] at hq
      exact Nat.lt_succ_of_lt (h.below q k hq)

/-- **`add`**, whatever becomes of it. -/
theorem Inv.add (hown : Path.IsName own) (h : Inv root own first s) (hp : Path.IsName p)
    (dirFails bindFails : Bool) : Inv root own first (s.add root p dirFails bindFails).2 := by
  have hprep := h.prepare hown hp
  unfold State.add
  split
  · exact h
  · dsimp only
    split
    · exact hprep
    · rename_i hbind
      rw [Bool.or_eq_true, not_or, decide_eq_true_iff] at hbind
      have hslug : (s.prepare root p).set.ownSlug = own := hprep.slug
      rw [hslug] at hbind
      have hbound := hprep.bind hp (lookup_prepare s root p) hbind.2
      simpa only [hslug] using hbound

lemma Inv.clear (hown : Path.IsName own) (slugs : List String) (h : Inv root own first s) :
    Inv root own first (s.clear slugs) := by
  unfold State.clear
  induction slugs generalizing s with
  | nil => exact h
  | cons p slugs ih => exact ih (h.remove hown p)

lemma lookup_clear (slugs : List String) (s : State) (q : String) :
    (s.clear slugs).set.entries.lookup q = if q ∈ slugs then none else s.set.entries.lookup q := by
  unfold State.clear
  induction slugs generalizing s with
  | nil => simp
  | cons p slugs ih =>
    rw [List.foldl_cons, ih, lookup_remove]
    by_cases hp : q = p <;> by_cases hq : q ∈ slugs <;> simp [hp, hq]

end Inv

/-! ### Runs -/

/-- The call names a plain slug, and no task ends by itself: `accept` does not fail, and the receiver
is there when a connection is sent. -/
def Undisturbed (s : State) : Action → Prop
  | .add peer _ _ => Path.IsName peer
  | .accept _ .fails => False
  | .accept _ (.connection _) => s.receiver = true
  | _ => True

instance (s : State) (a : Action) : Decidable (Undisturbed s a) := by
  unfold Undisturbed; split <;> infer_instance

/-- One task accepts for the peer, on the socket whose file is where its clients look for it. -/
def Listening (root : Path) (own : String) (s : State) (p : String) : Prop :=
  ∃ k, s.loops.lookup k = some ⟨p, listenerSocket root p own⟩ ∧
    s.tree.lookup (listenerSocket root p own) = some (.file k) ∧
    ∀ k' l, s.loops.lookup k' = some l → l.slug = p → k' = k

/-- The entries are exactly the peers that are listened for, and there is no task and no socket file
that is not listed. -/
structure Exact (root : Path) (own : String) (first : SockId) (s : State) : Prop where
  listed : ∀ p, p ∈ s.set.entries ↔ Listening root own s p
  loops : ∀ k l, s.loops.lookup k = some l → l.slug ∈ s.set.entries
  files : ∀ q k, s.tree.lookup q = some (.file k) → first ≤ k →
    ∃ p ∈ s.set.entries, q = listenerSocket root p own

section Runs

variable {root : Path} {own : String} {first : SockId} {s s' : State} {t : FileTree SockId}

lemma mem_of_lookup {p : String} {e : Entry} (h : s.set.entries.lookup p = some e) :
    p ∈ s.set.entries := by
  rw [← AList.lookup_isSome, h]
  rfl

lemma Inv.exact (h : Inv root own first s) : Exact root own first s where
  listed p := by
    constructor
    · intro hp
      obtain ⟨e, he⟩ := Option.isSome_iff_exists.mp (AList.lookup_isSome.mpr hp)
      have ho := h.entry p e he
      refine ⟨e.sock, ho.path ▸ ho.loop, ho.path ▸ ho.file, fun k l hl hslug => ?_⟩
      obtain ⟨e', he', rfl⟩ := h.loop k l hl
      rw [hslug, he] at he'
      exact congrArg Entry.sock (Option.some.inj he').symm
    · rintro ⟨k, hk, -⟩
      obtain ⟨e, he, -⟩ := h.loop k _ hk
      exact mem_of_lookup he
  loops k l hl := by
    obtain ⟨e, he, -⟩ := h.loop k l hl
    exact mem_of_lookup he
  files q k hq hk := by
    obtain ⟨p, e, he, rfl⟩ := h.file q k hq hk
    exact ⟨p, mem_of_lookup he, (h.entry p e he).path⟩

lemma lt_fresh {q : Path} {k : SockId} (h : t.lookup q = some (.file k)) : k < fresh t := by
  have hmem : (⟨q, .file k⟩ : Σ _ : Path, Node SockId) ∈ t.entries := AList.mem_lookup_iff.mp h
  unfold fresh
  generalize t.entries = entries at hmem
  induction entries with
  | nil => cases hmem
  | cons e entries ih =>
    rw [List.map_cons, List.foldr_cons]
    rcases List.mem_cons.mp hmem with rfl | hmem
    · exact lt_of_lt_of_le (Nat.lt_succ_self k) (le_max_left _ _)
    · exact lt_of_lt_of_le (ih hmem) (le_max_right _ _)

lemma inv_start (root : Path) (own : String) (t : FileTree SockId) :
    Inv root own (fresh t) (start own t) where
  slug := rfl
  entry p e he := by cases he
  loop k l hl := by cases hl
  file q k hq hk := absurd (lt_fresh hq) (Nat.not_lt.mpr hk)
  next := le_rfl
  below q k hq := lt_fresh hq

/-- **One step.** -/
theorem inv_step (hown : Path.IsName own) (a : Action) (h : Inv root own first s)
    (ha : Undisturbed s a) (hstep : step root s a = some s') : Inv root own first s' := by
  cases a with
  | add peer dirFails bindFails =>
    obtain rfl := Option.some.inj hstep
    exact h.add hown ha dirFails bindFails
  | remove peer =>
    obtain rfl := Option.some.inj hstep
    exact h.remove hown peer
  | clear slugs =>
    rw [step] at hstep
    split at hstep
    · obtain rfl := Option.some.inj hstep
      exact h.clear hown slugs
    · cases hstep
  | accept k out =>
    rw [step, Option.map_eq_some_iff] at hstep
    obtain ⟨l, -, rfl⟩ := hstep
    cases out with
    | fails => exact ha.elim
    | connection conn =>
      have hreceiver : s.receiver = true := ha
      rw [State.accept, if_pos hreceiver]
      exact ⟨h.slug, fun p e he => { h.entry p e he with }, h.loop, h.file, h.next, h.below⟩
  | dropReceiver =>
    obtain rfl := Option.some.inj hstep
    exact ⟨h.slug, fun p e he => { h.entry p e he with }, h.loop, h.file, h.next, h.below⟩

/-- **Entries, tasks and files go together.** From any file tree, in every run of calls with plain
slugs in which no accept loop ends by itself: after every step the entries are exactly the peers that
are listened for, there is no task and no file beside them, and a `clear` leaves no file. -/
theorem exact_of_run (hown : Path.IsName own) {as : List Action}
    (hm : Meets (step root) Undisturbed (start own t) as)
    (hrun : exec (step root) (start own t) as = some s) :
    Exact root own (fresh t) s ∧ ∀ slugs s', step root s (.clear slugs) = some s' →
      (∀ k, k ∉ s'.loops) ∧ ∀ q k, s'.tree.lookup q = some (.file k) → k < fresh t := by
  have h : Inv root own (fresh t) s :=
    exec_inv_of_meets (fun s a s' h ha hs => inv_step hown a h ha hs) (inv_start root own t) hm hrun
  refine ⟨h.exact, fun slugs s' hstep => ?_⟩
  have h' := inv_step hown (.clear slugs) h trivial hstep
  have hempty : ∀ p, s'.set.entries.lookup p = none := by
    intro p
    rw [step] at hstep
    split at hstep
    · rename_i hperm
      obtain rfl := Option.some.inj hstep
      rw [lookup_clear]
      split
      · rfl
      · rename_i hp
        exact AList.lookup_eq_none.mpr fun hmem => hp (hperm.mem_iff.mpr (AList.mem_keys.mp hmem))
    · cases hstep
  constructor
  · intro k hk
    obtain ⟨l, hl⟩ := Option.isSome_iff_exists.mp (AList.lookup_isSome.mpr hk)
    obtain ⟨e, he, -⟩ := h'.loop k l hl
    rw [hempty] at he
    cases he
  · intro q k hq
    by_contra hk
    obtain ⟨p, e, he, -⟩ := h'.file q k hq (Nat.le_of_not_lt hk)
    rw [hempty] at he
    cases he

/-- **A task that ends by itself** leaves an entry that nothing is listening for. -/
theorem unlisted_of_stop (h : Inv root own first s) {k : SockId} {l : Loop}
    (hl : s.loops.lookup k = some l) :
    l.slug ∈ (s.stop k l).set.entries ∧ ¬ Listening root own (s.stop k l) l.slug := by
  obtain ⟨e, he, rfl⟩ := h.loop k l hl
  constructor
  · unfold State.stop
    simp only [he, if_true]
    exact (AList.mem_insert _).mpr (Or.inl rfl)
  · rintro ⟨k', hk', -, -⟩
    have hne : k' ≠ e.sock := by
      rintro rfl
      exact absurd ((AList.lookup_erase _ _).symm.trans hk') (by simp)
    have hold : s.loops.lookup k' = some ⟨l.slug, listenerSocket root l.slug own⟩ :=
      (AList.lookup_erase_ne hne).symm.trans hk'
    obtain ⟨e', he', hsock⟩ := h.loop k' _ hold
    obtain rfl := Option.some.inj (he.symm.trans he')
    exact hne hsock.symm

end Runs

/-! ### Two runs of one set -/

def socketRoot : Path := ["run", "crossbridge"]

/-- A tree with a stale socket file. -/
def staleTree : FileTree SockId :=
  (FileTree.createDirAll ∅ ["run", "crossbridge", "repo-a"]).insert
    ["run", "crossbridge", "repo-a", "own.socket"] (.file 0)

/-- A peer is added over the stale file, another one fails to be, and the first one is added again. -/
def calls : List Action :=
  [.add "repo-a" false false, .accept 1 (.connection 7), .add "repo-b" false true,
    .add "repo-a" false false, .accept 2 (.connection 8)]

/-- The calls leave one task and one file. -/
theorem exact_of_run_calls : ∃ s, exec (step socketRoot) (start "own" staleTree) calls = some s ∧
    s.accepted = [("repo-a", 7), ("repo-a", 8)] ∧ Exact socketRoot "own" 1 s := by
  have hown : Path.IsName "own" := by decide
  have hm : Meets (step socketRoot) Undisturbed (start "own" staleTree) calls := by decide
  exact ⟨_, rfl, rfl, (exact_of_run hown hm rfl).1⟩

/-- **An accept error.** The task of a peer ends, and the entry is still there. -/
theorem listed_after_accept_error : ∃ s,
    exec (step socketRoot) (start "own" ∅) [.add "repo-a" false false, .accept 0 .fails] = some s ∧
      "repo-a" ∈ s.set.entries ∧ ¬ Listening socketRoot "own" s "repo-a" := by
  refine ⟨_, rfl, by decide, ?_⟩
  rintro ⟨k, hk, -⟩
  cases hk

end Crossbridge.Server.AcceptLoops
