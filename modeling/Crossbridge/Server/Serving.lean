import Crossbridge.Server.AcceptLoops
import Crossbridge.Server.Attachment
import Crossbridge.Server.Reconnect

/-!
The life of a repo server: `run`, from its start to its exit.

The server registers with the supervisor, serves one session after the other, and ends when the
shutdown token is cancelled, its registration is rejected, or an attempt to register fails with a text
that reads like a rejection. One listener set and one channel of
accepted connections go through all sessions (`Life`). What the operating system makes of a call is
given with each step, any slug may turn up, any task may end by itself, and other processes may change
the file tree.

Whatever happens (`conduct_of_run`): there is no listener, no task and no socket file of the server
outside its sessions; in a session it listens for the peers that the supervisor has told it of;
connections are served in the order in which they were accepted, each once and for the peer at whose
socket it came in, also those that come in at the end of one session and are served in the next; and
each session is a run of the session alone (`Session`).
-/

namespace Crossbridge.Server.Serving

open Crossbridge.Varint Crossbridge.Protocol Crossbridge.Runs Crossbridge.Server.AcceptLoops

/-! ### The source -/

/-- `ServerConfig`, and how the register socket is displayed. -/
structure Config where
  slug : String
  repoPath : Path
  root : Path
  registerSocket : String
  unprintable : Char → Bool

def Config.dbPath (cfg : Config) : Path := Path.join (Path.join cfg.repoPath ".crosslink") "issues.db"

/-- The errors of `run` before it connects. -/
def Config.dbNotFound (cfg : Config) : String :=
  "crosslink DB not found at " ++ displayPath cfg.dbPath ++ " (run `crosslink init` in " ++
    displayPath cfg.repoPath ++ " first)"

def Config.dbNotOpened (cfg : Config) (e : String) : String :=
  "opening crosslink DB at " ++ displayPath cfg.dbPath ++ ": " ++ e

/-- The loop of a session; the bytes received, the calls on the listener set and the clients served are
those of this session. -/
structure InSession where
  stream : Source
  fut : ReadMessage
  received : Bytes
  calls : List ListenerCall
  served : List String

inductive Phase where
  | starting
  /-- In `connect_and_register_with_backoff`. -/
  | connecting
  /-- In the loop over the peers of the `Ack`. -/
  | adding (calls : List ListenerCall) (todo : List String)
  | session (s : InSession)
  | exited (r : Except String Unit)

/-- The server; `arrivals` tells at which sockets connections came in, `troubled` are the peers for
which the last `add` of this session failed or whose task has ended since. -/
structure Life where
  phase : Phase
  /-- The peers of the last `Ack`. -/
  peers : List String
  net : AcceptLoops.State
  /-- How many of the accepted connections were received from the channel. -/
  taken : ℕ
  shutdown : Bool
  /-- The database was opened. -/
  opened : Bool
  handled : List (String × ℕ)
  arrivals : List (Path × ℕ)
  troubled : List String
  /-- The attempts of the last registration. -/
  attempts : List Attempt

def Life.start (cfg : Config) (t : FileTree SockId) : Life :=
  ⟨.starting, [], AcceptLoops.start cfg.slug t, 0, false, false, [], [], [], []⟩

inductive Action where
  /-- The database is looked for and opened. -/
  | openDb (found : Bool) (error : Option String)
  /-- The registration comes to an end, after these attempts. -/
  | register (as : List Attempt) (slugs : List String)
  /-- The shutdown is seen between two sessions. -/
  | quit (slugs : List String)
  | addNext (dirFails bindFails : Bool)
  | enter
  | arrive (bs : Bytes)
  | close (kind : IoErrorKind)
  /-- The loop of the session is polled; the slugs are those of the set, in some order. -/
  | wake (dirFails bindFails : Bool) (slugs : List String)
  /-- A turn of the task `k`. -/
  | accept (k : SockId) (out : AcceptOutcome)
  | cancel
  /-- Other processes change the file tree. -/
  | other (t : FileTree SockId)

namespace Life

/-- `listeners.clear()`; the slugs are in the order of the map. -/
def clear (l : Life) (slugs : List String) : Option Life :=
  if slugs.Perm l.net.set.entries.keys then some { l with net := l.net.clear slugs } else none

/-- `listeners.add(peer)`; that it fails is only logged. -/
def add (l : Life) (root : Path) (peer : String) (dirFails bindFails : Bool) : Life :=
  let r := l.net.add root peer dirFails bindFails
  { l with
    net := r.2
    troubled :=
      match r.1 with
      | .ok () => l.troubled.filter fun p => p ≠ peer
      | .error _ => peer :: l.troubled }

/-- One poll of the `select!` of a session. -/
def turn (l : Life) (cfg : Config) (s : InSession) (dirFails bindFails : Bool) (slugs : List String) :
    Option Life :=
  if l.shutdown then
    -- `run` looks at the token again before it connects
    (l.clear slugs).map fun l => { l with phase := .exited (.ok ()) }
  else
    match poll Postcard.supervisorMessage s.fut s.stream with
    | .ready r src =>
      let s := { s with stream := src, fut := .start }
      match readNotification r with
      | .ok (some (.peerJoined slug)) =>
        let l := l.add cfg.root slug dirFails bindFails
        some { l with phase := .session { s with calls := s.calls ++ [.add slug] } }
      | .ok (some (.peerLeft slug)) =>
        some { l with
          phase := .session { s with calls := s.calls ++ [.remove slug] }
          net := (l.net.remove slug).2 }
      | .ok none | .error _ => (l.clear slugs).map fun l => { l with phase := .connecting }
    | .pending fut src =>
      match l.net.accepted.drop l.taken with
      | [] => some { l with phase := .session { s with stream := src, fut := fut } }
      | conn :: _ =>
        some { l with
          phase := .session { s with stream := src, fut := .start, served := s.served ++ [conn.1] }
          taken := l.taken + 1
          handled := l.handled ++ [conn] }

/-- A turn of a task, which has accepted a connection or ends. -/
def accept (l : Life) (k : SockId) (t : Loop) (out : AcceptOutcome) : Life :=
  match out with
  | .connection conn =>
    { l with net := l.net.accept k t out, arrivals := l.arrivals ++ [(t.path, conn)] }
  | .fails => { l with net := l.net.accept k t out, troubled := t.slug :: l.troubled }

end Life

/-- Files of the set are not made by others. -/
def NoneNew (first : SockId) (t t' : FileTree SockId) : Prop :=
  ∀ e ∈ t'.entries, match e.2 with
    | .file k => first ≤ k → t.lookup e.1 = some (.file k)
    | .dir => True

instance (first : SockId) (t t' : FileTree SockId) : Decidable (NoneNew first t t') := by
  unfold NoneNew
  refine @List.decidableBAll _ _ (fun e => ?_) _
  split <;> infer_instance

/-- A step; the sockets of the set are those from `first` on. -/
def step (cfg : Config) (first : SockId) (l : Life) : Action → Option Life
  | .openDb found error =>
    match l.phase, found, error with
    | .starting, false, _ => some { l with phase := .exited (.error cfg.dbNotFound) }
    | .starting, true, some e => some { l with phase := .exited (.error (cfg.dbNotOpened e)) }
    | .starting, true, none => some { l with phase := .connecting, opened := true }
    | _, _, _ => none
  | .register as slugs =>
    match l.phase, l.shutdown,
      (connectAndRegisterWithBackoff cfg.unprintable cfg.registerSocket initialBackoff as).2 with
    | .connecting, false, some (.ok registration) =>
      some { l with
        phase := .adding [] registration.peers
        peers := registration.peers
        troubled := []
        attempts := as }
    | .connecting, false, some (.error e) =>
      -- the listener set is dropped
      (l.clear slugs).map fun l => { l with phase := .exited (.error e), attempts := as }
    | _, _, _ => none
  | .quit slugs =>
    match l.phase, l.shutdown with
    | .connecting, true => (l.clear slugs).map fun l => { l with phase := .exited (.ok ()) }
    | _, _ => none
  | .addNext dirFails bindFails =>
    match l.phase with
    | .adding calls (peer :: todo) =>
      let l := l.add cfg.root peer dirFails bindFails
      some { l with phase := .adding (calls ++ [.add peer]) todo }
    | _ => none
  | .enter =>
    match l.phase with
    | .adding calls [] => some { l with phase := .session ⟨⟨[], none⟩, .start, [], calls, []⟩ }
    | _ => none
  | .arrive bs =>
    match l.phase with
    | .session s =>
      if s.stream.ending = none then
        some { l with phase := .session { s with
          stream := ⟨s.stream.buf ++ bs, none⟩, received := s.received ++ bs } }
      else none
    | _ => none
  | .close kind =>
    match l.phase with
    | .session s =>
      if s.stream.ending = none then
        some { l with phase := .session { s with stream := ⟨s.stream.buf, some kind⟩ } } else none
    | _ => none
  | .wake dirFails bindFails slugs =>
    match l.phase with
    | .session s => l.turn cfg s dirFails bindFails slugs
    | _ => none
  | .accept k out => (l.net.loops.lookup k).map fun t => l.accept k t out
  | .cancel => some { l with shutdown := true }
  | .other t => if NoneNew first l.net.tree t then some { l with net := l.net.withTree t } else none

/-! ### What is tied to the entries -/

/-- Every task and every socket file of the set belongs to an entry, whatever the slugs, and an entry
whose task has not ended has it. -/
structure Tied (root : Path) (own : String) (first : SockId) (s : AcceptLoops.State) : Prop where
  slug : s.set.ownSlug = own
  entry : ∀ p e, s.set.entries.lookup p = some e → e.path = listenerSocket root p own ∧ e.sock < s.next
  unique : ∀ p q e e', s.set.entries.lookup p = some e → s.set.entries.lookup q = some e' →
    e.sock = e'.sock → p = q
  task : ∀ p e, s.set.entries.lookup p = some e → e.running = true →
    s.loops.lookup e.sock = some ⟨p, e.path⟩
  loop : ∀ k t, s.loops.lookup k = some t → t.path = listenerSocket root t.slug own ∧
    ∃ e, s.set.entries.lookup t.slug = some e ∧ e.sock = k
  file : ∀ q k, s.tree.lookup q = some (.file k) → first ≤ k →
    ∃ p e, s.set.entries.lookup p = some e ∧ e.path = q

section Tied

variable {root : Path} {own : String} {first : SockId} {s s' : AcceptLoops.State} {p : String}

lemma tied_start (root : Path) (own : String) (t : FileTree SockId) :
    Tied root own (fresh t) (AcceptLoops.start own t) where
  slug := rfl
  entry p e he := by cases he
  unique p q e e' he := by cases he
  task p e he := by cases he
  loop k t hk := by cases hk
  file q k hq hk := absurd (lt_fresh hq) (Nat.not_lt.mpr hk)

/-- Another tree, with no new files of the set. -/
lemma Tied.withTree (h : Tied root own first s) {t : FileTree SockId}
    (hsub : ∀ q k, first ≤ k → t.lookup q = some (.file k) → s.tree.lookup q = some (.file k)) :
    Tied root own first (s.withTree t) :=
  ⟨h.slug, h.entry, h.unique, h.task, h.loop, fun q k hq hk => h.file q k (hsub q k hk hq) hk⟩

lemma remove_of_lookup_none (hnone : s.set.entries.lookup p = none) : (s.remove p).2 = s := by
  unfold AcceptLoops.State.remove
  rw [hnone]

/-- **`remove`** takes the task and the file of its entry. -/
lemma Tied.remove (h : Tied root own first s) (p : String) : Tied root own first (s.remove p).2 := by
  cases he : s.set.entries.lookup p with
  | none =>
    rw [remove_of_lookup_none he]
    exact h
  | some e =>
    have hlookup : ∀ q e', (s.remove p).2.set.entries.lookup q = some e' ↔
        q ≠ p ∧ s.set.entries.lookup q = some e' := by
      intro q e'
      rw [lookup_remove]
      split <;> simp_all
    obtain ⟨hloops, htree, hnext⟩ := remove_of_lookup he
    constructor
    · exact ownSlug_remove.trans h.slug
    · intro q e' he'
      rw [hnext]
      exact h.entry q e' ((hlookup q e').mp he').2
    · intro q q' e' e'' he' he''
      exact h.unique q q' e' e'' ((hlookup q e').mp he').2 ((hlookup q' e'').mp he'').2
    · intro q e' he' hrun
      obtain ⟨hne, he'⟩ := (hlookup q e').mp he'
      have hsock : e'.sock ≠ e.sock := fun hsock => hne (h.unique q p e' e he' he hsock)
      rw [hloops, AList.lookup_erase_ne hsock]
      exact h.task q e' he' hrun
    · intro k t ht
      rw [hloops] at ht
      have hk : k ≠ e.sock := by
        rintro rfl
        rw [AList.lookup_erase] at ht
        cases ht
      rw [AList.lookup_erase_ne hk] at ht
      obtain ⟨hpath, e', he', hsock⟩ := h.loop k t ht
      refine ⟨hpath, e', (hlookup _ e').mpr ⟨?_, he'⟩, hsock⟩
      rintro rfl
      rw [he] at he'
      exact hk (hsock.symm.trans (congrArg Entry.sock (Option.some.inj he')).symm)
    · intro q k hq hk
      rw [htree] at hq
      obtain ⟨hne, hq⟩ := FileTree.lookup_unlink_eq_file.mp hq
      obtain ⟨p', e', he', hpath⟩ := h.file q k hq hk
      refine ⟨p', e', (hlookup p' e').mpr ⟨?_, he'⟩, hpath⟩
      rintro rfl
      rw [he] at he'
      exact hne (hpath.symm.trans (congrArg Entry.path (Option.some.inj he')).symm)

lemma Tied.clear (slugs : List String) (h : Tied root own first s) :
    Tied root own first (s.clear slugs) := by
  unfold AcceptLoops.State.clear
  induction slugs generalizing s with
  | nil => exact h
  | cons p slugs ih => exact ih (h.remove p)

lemma Tied.prepare (h : Tied root own first s) (p : String) : Tied root own first (s.prepare root p) := by
  have hdir : Tied root own first (s.withTree (s.tree.createDirAll (peerDir root p))) := by
    refine h.withTree fun q k _ hq => ?_
    rw [FileTree.lookup_createDirAll] at hq
    split at hq
    · cases hq
    · exact hq
  exact (hdir.remove p).withTree fun q k _ hq => (FileTree.lookup_unlink_eq_file.mp hq).2

/-- **`bind`** adds an entry with its task and its file. -/
lemma Tied.bind (h : Tied root own first s) (hnone : s.set.entries.lookup p = none) :
    Tied root own first { s with
      set := { s.set with entries := s.set.entries.insert p ⟨listenerSocket root p own, s.next, true⟩ }
      tree := s.tree.insert (listenerSocket root p own) (.file s.next)
      loops := s.loops.insert s.next ⟨p, listenerSocket root p own⟩
      next := s.next + 1 } := by
  have hlookup : ∀ q e,
      (s.set.entries.insert p ⟨listenerSocket root p own, s.next, true⟩).lookup q = some e ↔
        (q = p ∧ e = ⟨listenerSocket root p own, s.next, true⟩) ∨ s.set.entries.lookup q = some e := by
    intro q e
    by_cases hq : q = p
    · subst hq
      simp [hnone, eq_comm]
    · simp [AList.lookup_insert_ne hq, hq]
  constructor
  · exact h.slug
  · intro q e he
    rcases (hlookup q e).mp he with ⟨rfl, rfl⟩ | he
    · exact ⟨rfl, Nat.lt_succ_self _⟩
    · exact ⟨(h.entry q e he).1, Nat.lt_succ_of_lt (h.entry q e he).2⟩
  · -- the number is a new one
    intro q q' e e' he he' hsock
    rcases (hlookup q e).mp he with ⟨hq, hnew⟩ | hold
    · rcases (hlookup q' e').mp he' with ⟨hq', -⟩ | hold'
      · exact hq.trans hq'.symm
      · rw [hnew] at hsock
        exact absurd hsock.symm (Nat.ne_of_lt (h.entry q' e' hold').2)
    · rcases (hlookup q' e').mp he' with ⟨-, hnew'⟩ | hold'
      · rw [hnew'] at hsock
        exact absurd hsock (Nat.ne_of_lt (h.entry q e hold).2)
      · exact h.unique q q' e e' hold hold' hsock
  · intro q e he hrun
    rcases (hlookup q e).mp he with ⟨rfl, rfl⟩ | he
    · exact AList.lookup_insert _
    · refine (AList.lookup_insert_ne (Nat.ne_of_lt (h.entry q e he).2)).trans ?_
      exact h.task q e he hrun
  · intro k t ht
    dsimp only at ht ⊢
    by_cases hk : k = s.next
    · subst hk
      rw [AList.lookup_insert] at ht
      obtain rfl := Option.some.inj ht
      exact ⟨rfl, _, AList.lookup_insert _, rfl⟩
    · rw [AList.lookup_insert_ne hk] at ht
      obtain ⟨hpath, e, he, hsock⟩ := h.loop k t ht
      exact ⟨hpath, e, (hlookup _ e).mpr (Or.inr he), hsock⟩
  · intro q k hq hk
    dsimp only at hq ⊢
    by_cases hpath : q = listenerSocket root p own
    · exact ⟨p, _, AList.lookup_insert _, hpath.symm⟩
    · rw [AList.lookup_insert_ne hpath] at hq
      obtain ⟨p', e, he, hq'⟩ := h.file q k hq hk
      exact ⟨p', e, (hlookup p' e).mpr (Or.inr he), hq'⟩

/-- **`add`**, whatever becomes of it. -/
lemma Tied.add (h : Tied root own first s) (p : String) (dirFails bindFails : Bool) :
    Tied root own first (s.add root p dirFails bindFails).2 := by
  have hprep := h.prepare p
  unfold AcceptLoops.State.add
  split
  · exact h
  · dsimp only
    split
    · exact hprep
    · have hslug : (s.prepare root p).set.ownSlug = own := hprep.slug
      have hbound := hprep.bind (lookup_prepare s root p)
      simpa only [hslug] using hbound

/-- The entries after a task has ended: that of the task is marked. -/
lemma lookup_stop (h : Tied root own first s) {k : SockId} {t : Loop}
    (hk : s.loops.lookup k = some t) (p : String) (e : Entry) :
    (s.stop k t).set.entries.lookup p = some e ↔ ∃ e₀, s.set.entries.lookup p = some e₀ ∧
      e = if p = t.slug then { e₀ with running := false } else e₀ := by
  obtain ⟨-, e₁, he₁, hsock⟩ := h.loop k t hk
  have hentries : (s.stop k t).set.entries =
      s.set.entries.insert t.slug { e₁ with running := false } := by
    unfold AcceptLoops.State.stop
    simp only [he₁, hsock, if_true]
  rw [hentries]
  by_cases hp : p = t.slug
  · subst hp
    simp [he₁, eq_comm]
  · simp [AList.lookup_insert_ne hp, hp]

/-- **A task ends by itself.** -/
lemma Tied.stop (h : Tied root own first s) {k : SockId} {t : Loop}
    (hk : s.loops.lookup k = some t) : Tied root own first (s.stop k t) := by
  have hlookup := lookup_stop h hk
  constructor
  · exact h.slug
  · intro p e he
    obtain ⟨e₀, he₀, rfl⟩ := (hlookup p e).mp he
    have hentry := h.entry p e₀ he₀
    split <;> exact hentry
  · intro p q e e' he he' hsock
    obtain ⟨e₀, he₀, rfl⟩ := (hlookup p e).mp he
    obtain ⟨e₀', he₀', rfl⟩ := (hlookup q e').mp he'
    refine h.unique p q e₀ e₀' he₀ he₀' ?_
    split at hsock <;> split at hsock <;> exact hsock
  · intro p e he hrun
    obtain ⟨e₀, he₀, rfl⟩ := (hlookup p e).mp he
    split at hrun
    · cases hrun
    · rename_i hp
      have htask := h.task p e₀ he₀ hrun
      rw [if_neg hp]
      have hsock : e₀.sock ≠ k := by
        rintro rfl
        rw [hk] at htask
        exact hp (congrArg Loop.slug (Option.some.inj htask)).symm
      exact (AList.lookup_erase_ne hsock).trans htask
  · intro k' t' ht'
    have hk' : k' ≠ k := by
      rintro rfl
      exact absurd ((AList.lookup_erase _ _).symm.trans ht') (by simp)
    obtain ⟨hpath, e, he, hsock⟩ := h.loop k' t' ((AList.lookup_erase_ne hk').symm.trans ht')
    refine ⟨hpath, _, (hlookup _ _).mpr ⟨e, he, rfl⟩, ?_⟩
    split <;> exact hsock
  · intro q k' hq hk'
    obtain ⟨p, e, he, hpath⟩ := h.file q k' hq hk'
    refine ⟨p, _, (hlookup _ _).mpr ⟨e, he, rfl⟩, ?_⟩
    split <;> exact hpath

lemma Tied.accept (h : Tied root own first s) (hreceiver : s.receiver = true) {k : SockId} {t : Loop}
    (hk : s.loops.lookup k = some t) (out : AcceptOutcome) : Tied root own first (s.accept k t out) := by
  unfold AcceptLoops.State.accept
  cases out with
  | fails => exact h.stop hk
  | connection conn =>
    dsimp only
    rw [if_pos hreceiver]
    exact ⟨h.slug, h.entry, h.unique, h.task, h.loop, h.file⟩

end Tied

/-! ### Whom the server listens for -/

/-- The peers that the supervisor has told of, after the calls this has led to. -/
def told (calls : List ListenerCall) : Finset String :=
  calls.foldl (fun ps c =>
    match c with
    | .add p => insert p ps
    | .remove p => ps.erase p
    | .clear => ∅) ∅

section Told

variable {calls : List ListenerCall} {p : String}

@[simp] lemma told_add : told (calls ++ [.add p]) = insert p (told calls) := by
  unfold told
  rw [List.foldl_append]
  rfl

@[simp] lemma told_remove : told (calls ++ [.remove p]) = (told calls).erase p := by
  unfold told
  rw [List.foldl_append]
  rfl

end Told

/-- The entries are those of the peers told of, but for the troubled ones. -/
structure Listens (s : AcceptLoops.State) (troubled : List String) (ps : Finset String) : Prop where
  listed : ∀ p e, s.set.entries.lookup p = some e → p ∈ ps
  running : ∀ p ∈ ps, p ∉ troubled → ∃ e, s.set.entries.lookup p = some e ∧ e.running = true

section Calls

variable {root : Path} {s : AcceptLoops.State} {troubled : List String} {ps : Finset String} {p : String}

/-- The channel is not touched by the calls. -/
lemma channel_remove (s : AcceptLoops.State) (p : String) :
    (s.remove p).2.receiver = s.receiver ∧ (s.remove p).2.accepted = s.accepted := by
  unfold AcceptLoops.State.remove
  split <;> exact ⟨rfl, rfl⟩

lemma channel_add (s : AcceptLoops.State) (root : Path) (p : String) (dirFails bindFails : Bool) :
    (s.add root p dirFails bindFails).2.receiver = s.receiver ∧
      (s.add root p dirFails bindFails).2.accepted = s.accepted := by
  have hprep : (s.prepare root p).receiver = s.receiver ∧ (s.prepare root p).accepted = s.accepted :=
    channel_remove (s.withTree (s.tree.createDirAll (peerDir root p))) p
  unfold AcceptLoops.State.add
  split
  · exact ⟨rfl, rfl⟩
  · dsimp only
    split <;> exact hprep

lemma channel_clear (slugs : List String) (s : AcceptLoops.State) :
    (s.clear slugs).receiver = s.receiver ∧ (s.clear slugs).accepted = s.accepted := by
  unfold AcceptLoops.State.clear
  induction slugs generalizing s with
  | nil => exact ⟨rfl, rfl⟩
  | cons p slugs ih =>
    obtain ⟨hreceiver, haccepted⟩ := channel_remove s p
    exact ⟨(ih _).1.trans hreceiver, (ih _).2.trans haccepted⟩

/-- **What `add` does to the entries**: only that of the peer changes, and after a success it is there. -/
lemma lookup_add (s : AcceptLoops.State) (root : Path) (p : String) (dirFails bindFails : Bool) :
    (∀ q ≠ p, (s.add root p dirFails bindFails).2.set.entries.lookup q = s.set.entries.lookup q) ∧
      ((s.add root p dirFails bindFails).1 = .ok () →
        ∃ e, (s.add root p dirFails bindFails).2.set.entries.lookup p = some e ∧ e.running = true) := by
  have hprep : ∀ q ≠ p, (s.prepare root p).set.entries.lookup q = s.set.entries.lookup q := fun q hq =>
    (lookup_remove (s.withTree (s.tree.createDirAll (peerDir root p))) p q).trans (if_neg hq)
  unfold AcceptLoops.State.add
  split
  · exact ⟨fun q _ => rfl, fun hok => by cases hok⟩
  · dsimp only
    split
    · exact ⟨hprep, fun hok => by cases hok⟩
    · exact ⟨fun q hq => (AList.lookup_insert_ne hq).trans (hprep q hq),
        fun _ => ⟨_, AList.lookup_insert _, rfl⟩⟩

lemma listens_nothing (hnone : ∀ p, s.set.entries.lookup p = none) : Listens s troubled ∅ where
  listed p e he := by
    rw [hnone] at he
    cases he
  running p hp := absurd hp (Finset.notMem_empty p)

lemma Listens.add {l : Life} (h : Listens l.net l.troubled ps) (root : Path) (p : String)
    (dirFails bindFails : Bool) :
    Listens (l.add root p dirFails bindFails).net (l.add root p dirFails bindFails).troubled
      (insert p ps) := by
  obtain ⟨hother, hadded⟩ := lookup_add l.net root p dirFails bindFails
  constructor
  · intro q e he
    by_cases hq : q = p
    · exact hq ▸ Finset.mem_insert_self p ps
    · exact Finset.mem_insert_of_mem (h.listed q e ((hother q hq).symm.trans he))
  · intro q hq hfine
    unfold Life.add at hfine ⊢
    dsimp only at hfine ⊢
    cases hr : (l.net.add root p dirFails bindFails).1 with
    | ok u =>
      rw [hr] at hfine
      by_cases hqp : q = p
      · exact hqp ▸ hadded hr
      · have hold : q ∉ l.troubled := by simpa [hqp] using hfine
        obtain ⟨e, he, hrun⟩ := h.running q (Finset.mem_of_mem_insert_of_ne hq hqp) hold
        exact ⟨e, (hother q hqp).trans he, hrun⟩
    | error err =>
      rw [hr] at hfine
      obtain ⟨hqp, hold⟩ : q ≠ p ∧ q ∉ l.troubled := by simpa [not_or] using hfine
      obtain ⟨e, he, hrun⟩ := h.running q (Finset.mem_of_mem_insert_of_ne hq hqp) hold
      exact ⟨e, (hother q hqp).trans he, hrun⟩

lemma Listens.remove (h : Listens s troubled ps) (p : String) :
    Listens (s.remove p).2 troubled (ps.erase p) := by
  constructor
  · intro q e he
    rw [lookup_remove] at he
    split at he
    · cases he
    · rename_i hq
      exact Finset.mem_erase.mpr ⟨hq, h.listed q e he⟩
  · intro q hq hfine
    obtain ⟨hne, hq⟩ := Finset.mem_erase.mp hq
    rw [lookup_remove, if_neg hne]
    exact h.running q hq hfine

/-- `clear` with all slugs. -/
lemma lookup_clear_all {slugs : List String} (hperm : slugs.Perm s.set.entries.keys) (p : String) :
    (s.clear slugs).set.entries.lookup p = none := by
  rw [lookup_clear]
  split
  · rfl
  · rename_i hp
    exact AList.lookup_eq_none.mpr fun hmem => hp (hperm.mem_iff.mpr (AList.mem_keys.mp hmem))

lemma Listens.stop {root : Path} {own : String} {first : SockId} (h : Listens s troubled ps)
    (htied : Tied root own first s) {k : SockId} {t : Loop} (hk : s.loops.lookup k = some t) :
    Listens (s.stop k t) (t.slug :: troubled) ps := by
  have hlookup := lookup_stop htied hk
  constructor
  · intro p e he
    obtain ⟨e₀, he₀, -⟩ := (hlookup p e).mp he
    exact h.listed p e₀ he₀
  · intro p hp hfine
    obtain ⟨hne, hold⟩ : p ≠ t.slug ∧ p ∉ troubled := by simpa [not_or] using hfine
    obtain ⟨e, he, hrun⟩ := h.running p hp hold
    exact ⟨e, (hlookup p e).mpr ⟨e, he, (if_neg hne).symm⟩, hrun⟩

end Calls

/-! ### The listener set and the channel through a life -/

/-- The calls of the session that the server is in; none outside its sessions. -/
def Phase.calls : Phase → List ListenerCall
  | .adding calls _ => calls
  | .session s => s.calls
  | _ => []

/-- The listeners are those of the peers `ps`, and the connections are served in order. -/
structure Kept (cfg : Config) (first : SockId) (l : Life) (ps : Finset String) : Prop where
  tied : Tied cfg.root cfg.slug first l.net
  listens : Listens l.net l.troubled ps
  receiver : l.net.receiver = true
  taken : l.taken ≤ l.net.accepted.length
  handled : l.handled = l.net.accepted.take l.taken
  arrivals : l.net.accepted.map (fun c => (listenerSocket cfg.root c.1 cfg.slug, c.2)) = l.arrivals

section Kept

variable {cfg : Config} {first : SockId} {l l' : Life} {ps : Finset String}

lemma kept_start (cfg : Config) (t : FileTree SockId) : Kept cfg (fresh t) (Life.start cfg t) ∅ where
  tied := tied_start cfg.root cfg.slug t
  listens := listens_nothing fun _ => rfl
  receiver := rfl
  taken := le_rfl
  handled := rfl
  arrivals := rfl

lemma Kept.add (h : Kept cfg first l ps) (p : String) (dirFails bindFails : Bool) :
    Kept cfg first (l.add cfg.root p dirFails bindFails) (insert p ps) := by
  obtain ⟨hreceiver, haccepted⟩ := channel_add l.net cfg.root p dirFails bindFails
  constructor
  · exact h.tied.add p dirFails bindFails
  · exact h.listens.add cfg.root p dirFails bindFails
  · exact hreceiver.trans h.receiver
  · exact le_of_le_of_eq h.taken (congrArg List.length haccepted).symm
  · exact h.handled.trans (congrArg (List.take l.taken) haccepted).symm
  · exact (congrArg (List.map _) haccepted).trans h.arrivals

lemma Kept.remove (h : Kept cfg first l ps) (p : String) :
    Kept cfg first { l with net := (l.net.remove p).2 } (ps.erase p) := by
  obtain ⟨hreceiver, haccepted⟩ := channel_remove l.net p
  constructor
  · exact h.tied.remove p
  · exact h.listens.remove p
  · exact hreceiver.trans h.receiver
  · exact le_of_le_of_eq h.taken (congrArg List.length haccepted).symm
  · exact h.handled.trans (congrArg (List.take l.taken) haccepted).symm
  · exact (congrArg (List.map _) haccepted).trans h.arrivals

/-- `clear` changes nothing but the listeners. -/
lemma Kept.clear (h : Kept cfg first l ps) {slugs : List String} (hl : l.clear slugs = some l') :
    Kept cfg first l' ∅ ∧ l' = { l with net := l.net.clear slugs } := by
  unfold Life.clear at hl
  split at hl
  · rename_i hperm
    obtain rfl := Option.some.inj hl
    obtain ⟨hreceiver, haccepted⟩ := channel_clear slugs l.net
    refine ⟨?_, rfl⟩
    constructor
    · exact h.tied.clear slugs
    · exact listens_nothing (lookup_clear_all hperm)
    · exact hreceiver.trans h.receiver
    · exact le_of_le_of_eq h.taken (congrArg List.length haccepted).symm
    · exact h.handled.trans (congrArg (List.take l.taken) haccepted).symm
    · exact (congrArg (List.map _) haccepted).trans h.arrivals
  · cases hl

/-- The first connection that waits is served. -/
lemma Kept.serve (h : Kept cfg first l ps) {conn : String × ℕ} {rest : List (String × ℕ)}
    (hwait : l.net.accepted.drop l.taken = conn :: rest) :
    Kept cfg first { l with taken := l.taken + 1, handled := l.handled ++ [conn] } ps := by
  have hlt : l.taken < l.net.accepted.length := by
    by_contra hle
    rw [List.drop_eq_nil_of_le (Nat.not_lt.mp hle)] at hwait
    cases hwait
  have hconn : l.net.accepted[l.taken] = conn := by
    rw [List.drop_eq_getElem_cons hlt] at hwait
    exact (List.cons.inj hwait).1
  refine ⟨h.tied, h.listens, h.receiver, hlt, ?_, h.arrivals⟩
  dsimp only
  rw [List.take_add_one, h.handled, List.getElem?_eq_getElem hlt, hconn]
  rfl

/-- A task accepts, or ends. -/
lemma Kept.accept (h : Kept cfg first l ps) {k : SockId} {t : Loop} (hk : l.net.loops.lookup k = some t)
    (out : AcceptOutcome) : Kept cfg first (l.accept k t out) ps := by
  have htied := h.tied.accept h.receiver hk out
  cases out with
  | fails => exact ⟨htied, h.listens.stop h.tied hk, h.receiver, h.taken, h.handled, h.arrivals⟩
  | connection conn =>
    have hnet : l.net.accept k t (.connection conn) =
        { l.net with accepted := l.net.accepted ++ [(t.slug, conn)] } := by
      unfold AcceptLoops.State.accept
      dsimp only
      rw [if_pos h.receiver]
    unfold Life.accept
    dsimp only
    rw [hnet] at htied ⊢
    refine ⟨htied, ⟨h.listens.listed, h.listens.running⟩, h.receiver, ?_, ?_, ?_⟩
    · simpa using Nat.le_succ_of_le h.taken
    · exact h.handled.trans (List.take_append_of_le_length h.taken).symm
    · dsimp only
      rw [List.map_append, h.arrivals, (h.tied.loop k t hk).1]
      rfl

lemma Kept.other (h : Kept cfg first l ps) {t : FileTree SockId} (ht : NoneNew first l.net.tree t) :
    Kept cfg first { l with net := l.net.withTree t } ps := by
  have hsub : ∀ q k, first ≤ k → t.lookup q = some (.file k) → l.net.tree.lookup q = some (.file k) := by
    intro q k hk hq
    exact ht ⟨q, .file k⟩ (AList.mem_lookup_iff.mp hq) hk
  exact ⟨h.tied.withTree hsub, ⟨h.listens.listed, h.listens.running⟩, h.receiver, h.taken, h.handled,
    h.arrivals⟩

end Kept

/-! ### Each session is one -/

/-- The session that the server is in. -/
def Life.abs (l : Life) (s : InSession) : Session :=
  ⟨s.stream, s.fut, (l.net.accepted.drop l.taken).map Prod.fst, l.shutdown, s.calls, s.served, none⟩

/-- What an action is to the session. -/
def sessionEvents (l : Life) : Action → List Session.Event
  | .arrive bs => [.arrive bs]
  | .close kind => [.close kind]
  | .wake .. => [.wake]
  | .accept k (.connection _) => (l.net.loops.lookup k).toList.map fun t => .accept t.slug
  | .cancel => [.cancel]
  | _ => []

section Sessions

variable {cfg : Config} {first : SockId} {l l' : Life} {ps : Finset String} {s s' : InSession}

/-- **A turn** of the server in its session is one of the session. -/
lemma abs_turn {dirFails bindFails : Bool} {slugs : List String}
    (h : l.turn cfg s dirFails bindFails slugs = some l') (hs' : l'.phase = .session s') :
    Session.turn (l.abs s) = l'.abs s' ∧ s'.received = s.received ∧ l'.peers = l.peers := by
  unfold Life.turn at h
  split at h
  · rw [Option.map_eq_some_iff] at h
    obtain ⟨l₁, -, rfl⟩ := h
    cases hs'
  · rename_i hshut
    have hopen : (l.abs s).shutdown = false := Bool.eq_false_of_not_eq_true hshut
    unfold Session.turn
    rw [if_neg (by rw [hopen]; decide)]
    dsimp only [Life.abs]
    cases hpoll : poll Postcard.supervisorMessage s.fut s.stream with
    | ready r src =>
      simp only [hpoll] at h ⊢
      split at h
      · rename_i slug hr
        obtain rfl := Option.some.inj h
        cases hs'
        obtain ⟨-, haccepted⟩ := channel_add l.net cfg.root slug dirFails bindFails
        rw [hr]
        refine ⟨?_, rfl, rfl⟩
        exact congrArg (fun acc => (⟨src, .start, (acc.drop l.taken).map Prod.fst, l.shutdown,
          s.calls ++ [.add slug], s.served, none⟩ : Session)) haccepted.symm
      · rename_i slug hr
        obtain rfl := Option.some.inj h
        cases hs'
        obtain ⟨-, haccepted⟩ := channel_remove l.net slug
        rw [hr]
        refine ⟨?_, rfl, rfl⟩
        exact congrArg (fun acc => (⟨src, .start, (acc.drop l.taken).map Prod.fst, l.shutdown,
          s.calls ++ [.remove slug], s.served, none⟩ : Session)) haccepted.symm
      all_goals
        rw [Option.map_eq_some_iff] at h
        obtain ⟨l₁, -, rfl⟩ := h
        cases hs'
    | pending fut src =>
      simp only [hpoll] at h ⊢
      cases hwait : l.net.accepted.drop l.taken with
      | nil =>
        simp only [hwait, Option.some.injEq] at h
        subst h
        cases hs'
        simp [hwait]
      | cons conn rest =>
        simp only [hwait, Option.some.injEq] at h
        subst h
        cases hs'
        have hrest : l.net.accepted.drop (l.taken + 1) = rest := by
          rw [← List.tail_drop, hwait]
          rfl
        simp [hrest]

/-- **A step** of the server in its session is one of the session, or none. -/
theorem abs_step (h : Kept cfg first l ps) {a : Action} (hs : l.phase = .session s)
    (hstep : step cfg first l a = some l') (hs' : l'.phase = .session s') :
    exec Session.step (l.abs s) (sessionEvents l a) = some (l'.abs s') ∧
      s'.received = s.received ++ Session.arrived (sessionEvents l a) ∧ l'.peers = l.peers := by
  cases a with
  | openDb found error => simp [step, hs] at hstep
  | register as slugs => simp [step, hs] at hstep
  | quit slugs => simp [step, hs] at hstep
  | addNext dirFails bindFails => simp [step, hs] at hstep
  | enter => simp [step, hs] at hstep
  | arrive bs =>
    simp only [step, hs] at hstep
    split at hstep
    · rename_i hopen
      obtain rfl := Option.some.inj hstep
      cases hs'
      refine ⟨exec_one (if_pos hopen), ?_, rfl⟩
      simp [sessionEvents, Session.arrived]
    · cases hstep
  | close kind =>
    simp only [step, hs] at hstep
    split at hstep
    · rename_i hopen
      obtain rfl := Option.some.inj hstep
      cases hs'
      exact ⟨exec_one (if_pos hopen), (List.append_nil _).symm, rfl⟩
    · cases hstep
  | wake dirFails bindFails slugs =>
    simp only [step, hs] at hstep
    obtain ⟨hturn, hreceived, hpeers⟩ := abs_turn hstep hs'
    refine ⟨exec_one ?_, hreceived.trans (List.append_nil _).symm, hpeers⟩
    rw [← hturn]
    rfl
  | accept k out =>
    rw [step, Option.map_eq_some_iff] at hstep
    obtain ⟨t, hk, rfl⟩ := hstep
    cases out with
    | fails =>
      have hsame : s' = s := by
        rw [Life.accept, hs] at hs'
        exact (Phase.session.inj hs').symm
      subst hsame
      exact ⟨rfl, (List.append_nil _).symm, rfl⟩
    | connection conn =>
      have hsame : s' = s := by
        rw [Life.accept, hs] at hs'
        exact (Phase.session.inj hs').symm
      subst hsame
      have haccepted : (l.accept k t (.connection conn)).net.accepted =
          l.net.accepted ++ [(t.slug, conn)] := by
        unfold Life.accept AcceptLoops.State.accept
        dsimp only
        rw [if_pos h.receiver]
      have hevents : sessionEvents l (.accept k (.connection conn)) = [.accept t.slug] := by
        rw [sessionEvents, hk]
        rfl
      rw [hevents]
      refine ⟨exec_one ?_, (List.append_nil _).symm, rfl⟩
      unfold Life.abs
      rw [haccepted]
      simp [Session.step, Life.accept, List.drop_append_of_le_length h.taken]
  | cancel =>
    obtain rfl := Option.some.inj hstep
    rw [hs] at hs'
    cases hs'
    exact ⟨rfl, (List.append_nil _).symm, rfl⟩
  | other t =>
    simp only [step] at hstep
    split at hstep
    · obtain rfl := Option.some.inj hstep
      rw [hs] at hs'
      cases hs'
      exact ⟨rfl, (List.append_nil _).symm, rfl⟩
    · cases hstep

/-- Clients that wait from the session before, and a shutdown, come before the first turn. -/
lemma exec_pending (peers pending : List String) (shutdown : Bool) :
    exec Session.step (Session.start peers)
      (pending.map .accept ++ if shutdown then [.cancel] else []) =
        some { Session.start peers with accepted := pending, shutdown := shutdown } := by
  have haccept : ∀ ss : Session, exec Session.step ss
      (pending.map .accept ++ if shutdown then [.cancel] else []) =
        some { ss with accepted := ss.accepted ++ pending, shutdown := shutdown || ss.shutdown } := by
    induction pending with
    | nil =>
      intro ss
      cases shutdown <;> simp [exec_cons, Session.step]
    | cons p pending ih =>
      intro ss
      rw [List.map_cons, List.cons_append, exec_cons]
      simp [Session.step, ih]
  simp [haccept, Session.start]

end Sessions

/-! ### Runs -/

/-- The attempt makes the loop give up: the supervisor rejects the registration, or the attempt fails
with a text from outside that has the phrase of a rejection. -/
def GivesUp (socketPath : String) (a : Attempt) : Prop :=
  (∃ reason, a = .answered (.registerResponse (.nack reason))) ∨ Misleading socketPath a

/-- The reason for which the server ends: the token was cancelled, the database could not be opened, or
an attempt to register has made the loop give up. -/
def Life.Exits (cfg : Config) (l : Life) : Except String Unit → Prop
  | .ok () => l.shutdown = true
  | .error e => (l.opened = false ∧ (e = cfg.dbNotFound ∨ ∃ err, e = cfg.dbNotOpened err)) ∨
      ∃ a ∈ l.attempts, connectAndRegister cfg.unprintable cfg.registerSocket a = .error e ∧
        GivesUp cfg.registerSocket a

/-- The session that the server is in is a run of the session alone, all of whose steps meet `C`. -/
def Life.InRun (C : Session → Session.Event → Prop) (l : Life) (s : InSession) : Prop :=
  ∃ es, exec Session.step (Session.start l.peers) es = some (l.abs s) ∧
    Session.arrived es = s.received ∧ Meets Session.step C (Session.start l.peers) es

/-- The condition `C` on the steps of the sessions, as one on the steps of the server. -/
def InSessions (C : Session → Session.Event → Prop) (l : Life) (a : Action) : Prop :=
  match l.phase with
  | .session s => ∀ e ∈ sessionEvents l a, C (l.abs s) e
  | _ => True

instance (C : Session → Session.Event → Prop) [∀ s e, Decidable (C s e)] (l : Life) (a : Action) :
    Decidable (InSessions C l a) := by
  unfold InSessions; split <;> infer_instance

/-- What is right in the phase that the server is in. -/
def Life.Right (C : Session → Session.Event → Prop) (cfg : Config) (l : Life) : Prop :=
  match l.phase with
  | .starting => l.opened = false
  | .connecting => True
  | .adding calls todo => l.peers.map .add = calls ++ todo.map .add
  | .session s => l.InRun C s
  | .exited r => l.Exits cfg r

structure Inv (C : Session → Session.Event → Prop) (cfg : Config) (first : SockId) (l : Life) :
    Prop where
  kept : Kept cfg first l (told l.phase.calls)
  right : l.Right C cfg

section Runs

variable {C : Session → Session.Event → Prop} {cfg : Config} {first : SockId} {l l' : Life}
  {s s' : InSession} {ps : Finset String}

/-- The loop ends with an error only on an attempt that makes it give up. -/
lemma exists_givesUp_of_backoff {unprintable : Char → Bool} {socketPath e : String} :
    ∀ {as : List Attempt} {backoff : ℕ},
      (connectAndRegisterWithBackoff unprintable socketPath backoff as).2 = some (.error e) →
        ∃ a ∈ as, connectAndRegister unprintable socketPath a = .error e ∧ GivesUp socketPath a
  | [], _, h => by cases h
  | a :: as, backoff, h => by
    rw [connectAndRegisterWithBackoff] at h
    split at h
    · cases h
    · rename_i msg hmsg
      split at h
      · rename_i hphrase
        obtain rfl := Except.error.inj (Option.some.inj h)
        refine ⟨a, List.mem_cons_self, hmsg, ?_⟩
        cases hfailed : a.failed with
        | false => exact Or.inl (exists_nack_of_not_failed hfailed hmsg)
        | true =>
          obtain ⟨msg', hmsg', hiff⟩ := rejection_infix_failure unprintable socketPath hfailed
          obtain rfl := Except.error.inj (hmsg.symm.trans hmsg')
          exact Or.inr (hiff.mp hphrase)
      · obtain ⟨a', ha', hgives⟩ := exists_givesUp_of_backoff h
        exact ⟨a', List.mem_cons_of_mem _ ha', hgives⟩

lemma meets_sessionEvents {a : Action} {ss : Session} (h : ∀ e ∈ sessionEvents l a, C ss e) :
    Meets Session.step C ss (sessionEvents l a) := by
  have hone : (sessionEvents l a).length ≤ 1 := by
    unfold sessionEvents
    split
    case h_4 k _ => cases l.net.loops.lookup k <;> simp
    all_goals simp
  generalize sessionEvents l a = es at h hone
  match es with
  | [] => trivial
  | [e] => exact ⟨h e List.mem_cons_self, fun _ _ => trivial⟩
  | _ :: _ :: _ => simp at hone

/-- **A step in a session** goes on with the run of the session. -/
lemma InRun.step (hkept : Kept cfg first l ps) {a : Action} (hC : InSessions C l a)
    (hs : l.phase = .session s) (hstep : step cfg first l a = some l') (hs' : l'.phase = .session s')
    (h : l.InRun C s) : l'.InRun C s' := by
  obtain ⟨hexec, hreceived, hpeers⟩ := abs_step hkept hs hstep hs'
  obtain ⟨es, hrun, harr, hmeets⟩ := h
  rw [InSessions, hs] at hC
  refine ⟨es ++ sessionEvents l a, ?_, ?_, ?_⟩
  · rw [hpeers]
    exact exec_append hrun hexec
  · rw [hreceived, ← harr]
    exact List.flatMap_append
  · rw [hpeers]
    refine hmeets.trans fun ss hss => ?_
    obtain rfl := Option.some.inj (hrun.symm.trans hss)
    exact meets_sessionEvents hC

lemma inv_start (C : Session → Session.Event → Prop) (cfg : Config) (t : FileTree SockId) :
    Inv C cfg (fresh t) (Life.start cfg t) := ⟨kept_start cfg t, rfl⟩

/-- **A turn** leaves the server in its session, or the session is over and its listeners gone. -/
lemma kept_turn (hkept : Kept cfg first l (told s.calls)) {dirFails bindFails : Bool}
    {slugs : List String} (hl : l.turn cfg s dirFails bindFails slugs = some l') :
    Kept cfg first l' (told l'.phase.calls) ∧
      ((∃ s', l'.phase = .session s') ∨ l'.phase = .connecting ∨
        (l'.phase = .exited (.ok ()) ∧ l'.shutdown = true)) := by
  unfold Life.turn at hl
  split at hl
  · rename_i hshut
    rw [Option.map_eq_some_iff] at hl
    obtain ⟨l₁, hclear, rfl⟩ := hl
    obtain ⟨hkept', rfl⟩ := hkept.clear hclear
    exact ⟨{ hkept' with }, Or.inr (Or.inr ⟨rfl, hshut⟩)⟩
  · split at hl
    · dsimp only at hl
      split at hl
      · rename_i slug hr
        obtain rfl := Option.some.inj hl
        have hadd := hkept.add slug dirFails bindFails
        rw [← told_add] at hadd
        exact ⟨{ hadd with }, Or.inl ⟨_, rfl⟩⟩
      · rename_i slug hr
        obtain rfl := Option.some.inj hl
        have hremove := hkept.remove slug
        rw [← told_remove] at hremove
        exact ⟨{ hremove with }, Or.inl ⟨_, rfl⟩⟩
      all_goals
        rw [Option.map_eq_some_iff] at hl
        obtain ⟨l₁, hclear, rfl⟩ := hl
        obtain ⟨hkept', rfl⟩ := hkept.clear hclear
        exact ⟨{ hkept' with }, Or.inr (Or.inl rfl)⟩
    · split at hl
      · obtain rfl := Option.some.inj hl
        exact ⟨{ hkept with }, Or.inl ⟨_, rfl⟩⟩
      · rename_i conn rest hwait
        obtain rfl := Option.some.inj hl
        exact ⟨{ hkept.serve hwait with }, Or.inl ⟨_, rfl⟩⟩

/-- In a session `C` allows clients and the shutdown at any time. -/
def Free (C : Session → Session.Event → Prop) : Prop :=
  (∀ ss p, C ss (.accept p)) ∧ ∀ ss, C ss .cancel

lemma inRun_enter (hfree : Free C) (pending : List String)
    (habs : l.abs s = { Session.start l.peers with accepted := pending, shutdown := l.shutdown })
    (hreceived : s.received = []) : l.InRun C s := by
  refine ⟨pending.map .accept ++ if l.shutdown then [.cancel] else [], ?_, ?_, ?_⟩
  · rw [habs]
    exact exec_pending l.peers pending l.shutdown
  · rw [hreceived]
    cases l.shutdown <;> simp [Session.arrived]
  · refine (meets_of_forall (D := fun e => ∀ ss, C ss e) fun e he => ?_).mono fun ss e he => he ss
    rcases List.mem_append.mp he with he | he
    · obtain ⟨p, -, rfl⟩ := List.mem_map.mp he
      exact fun ss => hfree.1 ss p
    · split at he
      · obtain rfl := List.mem_singleton.mp he
        exact hfree.2
      · cases he

/-- A step that leaves the server in its phase. -/
lemma right_of_same (hphase : l'.phase = l.phase) (hpeers : l'.peers = l.peers)
    (hopened : l'.opened = l.opened) (hattempts : l'.attempts = l.attempts)
    (hshutdown : l.shutdown = true → l'.shutdown = true)
    (hsession : ∀ s, l.phase = .session s → l.InRun C s → l'.InRun C s) (h : l.Right C cfg) :
    l'.Right C cfg := by
  unfold Life.Right at h ⊢
  rw [hphase]
  cases hph : l.phase with
  | starting =>
    rw [hph] at h
    exact hopened.trans h
  | connecting => trivial
  | adding calls todo =>
    rw [hph] at h
    dsimp only at h ⊢
    rw [hpeers, h]
  | session s =>
    rw [hph] at h
    exact hsession s hph h
  | exited r =>
    rw [hph] at h
    cases r with
    | ok u => exact hshutdown h
    | error e =>
      dsimp only [Life.Exits] at h ⊢
      rw [hopened, hattempts]
      exact h

/-- **The database** is found and opened, or the server ends. -/
lemma inv_openDb {found : Bool} {error : Option String} (h : Inv C cfg first l)
    (hstep : step cfg first l (.openDb found error) = some l') : Inv C cfg first l' := by
  have hkept := h.kept
  have hright := h.right
  unfold Life.Right at hright
  unfold step at hstep
  dsimp only at hstep
  split at hstep
  · rename_i hph
    rw [hph] at hright hkept
    obtain rfl := Option.some.inj hstep
    exact ⟨{ hkept with }, Or.inl ⟨hright, Or.inl rfl⟩⟩
  · rename_i hph
    rw [hph] at hright hkept
    obtain rfl := Option.some.inj hstep
    exact ⟨{ hkept with }, Or.inl ⟨hright, Or.inr ⟨_, rfl⟩⟩⟩
  · rename_i hph
    rw [hph] at hkept
    obtain rfl := Option.some.inj hstep
    exact ⟨{ hkept with }, trivial⟩
  · cases hstep

/-- **The registration** succeeds, or makes the server end. -/
lemma inv_register {attempts : List Attempt} {slugs : List String} (h : Inv C cfg first l)
    (hstep : step cfg first l (.register attempts slugs) = some l') : Inv C cfg first l' := by
  have hkept := h.kept
  rw [step] at hstep
  split at hstep
  · rename_i registration hph hshut hreg
    rw [hph] at hkept
    obtain rfl := Option.some.inj hstep
    have hlistens : Listens l.net [] (told []) :=
      ⟨hkept.listens.listed, fun p hp => absurd hp (Finset.notMem_empty p)⟩
    exact ⟨{ hkept with listens := hlistens }, rfl⟩
  · rename_i e hph hshut hreg
    rw [Option.map_eq_some_iff] at hstep
    obtain ⟨l₁, hclear, rfl⟩ := hstep
    obtain ⟨hkept, rfl⟩ := h.kept.clear hclear
    exact ⟨{ hkept with }, Or.inr (exists_givesUp_of_backoff hreg)⟩
  · cases hstep

/-- **The shutdown** between two sessions. -/
lemma inv_quit {slugs : List String} (h : Inv C cfg first l)
    (hstep : step cfg first l (.quit slugs) = some l') : Inv C cfg first l' := by
  rw [step] at hstep
  split at hstep
  · rename_i hph hshut
    rw [Option.map_eq_some_iff] at hstep
    obtain ⟨l₁, hclear, rfl⟩ := hstep
    obtain ⟨hkept, rfl⟩ := h.kept.clear hclear
    exact ⟨{ hkept with }, hshut⟩
  · cases hstep

/-- **A peer of the `Ack`** is listened for. -/
lemma inv_addNext {dirFails bindFails : Bool} (h : Inv C cfg first l)
    (hstep : step cfg first l (.addNext dirFails bindFails) = some l') : Inv C cfg first l' := by
  have hkept := h.kept
  have hright := h.right
  unfold Life.Right at hright
  rw [step] at hstep
  split at hstep
  · rename_i calls peer todo hph
    rw [hph] at hright hkept
    obtain rfl := Option.some.inj hstep
    have hadd := hkept.add peer dirFails bindFails
    rw [Phase.calls, ← told_add] at hadd
    refine ⟨{ hadd with }, ?_⟩
    exact hright.trans (by simp)
  · cases hstep

/-- **A session** begins. -/
lemma inv_enter (hfree : Free C) (h : Inv C cfg first l) (hstep : step cfg first l .enter = some l') :
    Inv C cfg first l' := by
  have hkept := h.kept
  have hright := h.right
  unfold Life.Right at hright
  rw [step] at hstep
  split at hstep
  · rename_i calls hph
    rw [hph] at hright hkept
    obtain rfl := Option.some.inj hstep
    have hcalls : calls = l.peers.map .add := by simpa using hright.symm
    refine ⟨{ hkept with }, ?_⟩
    refine inRun_enter hfree ((l.net.accepted.drop l.taken).map Prod.fst) ?_ rfl
    rw [hcalls]
    rfl
  · cases hstep

/-- **Bytes of the supervisor** arrive. -/
lemma inv_arrive {bs : Bytes} (h : Inv C cfg first l) (hC : InSessions C l (.arrive bs))
    (hstep : step cfg first l (.arrive bs) = some l') : Inv C cfg first l' := by
  have hkept := h.kept
  have hright := h.right
  unfold Life.Right at hright
  have hstep' := hstep
  rw [step] at hstep
  split at hstep
  · rename_i s hph
    rw [hph] at hright hkept
    split at hstep
    · obtain rfl := Option.some.inj hstep
      exact ⟨{ hkept with }, InRun.step h.kept hC hph hstep' rfl hright⟩
    · cases hstep
  · cases hstep

/-- **The stream of the supervisor** ends. -/
lemma inv_close {kind : IoErrorKind} (h : Inv C cfg first l) (hC : InSessions C l (.close kind))
    (hstep : step cfg first l (.close kind) = some l') : Inv C cfg first l' := by
  have hkept := h.kept
  have hright := h.right
  unfold Life.Right at hright
  have hstep' := hstep
  rw [step] at hstep
  split at hstep
  · rename_i s hph
    rw [hph] at hright hkept
    split at hstep
    · obtain rfl := Option.some.inj hstep
      exact ⟨{ hkept with }, InRun.step h.kept hC hph hstep' rfl hright⟩
    · cases hstep
  · cases hstep

/-- **A turn** of the loop of a session. -/
lemma inv_wake {dirFails bindFails : Bool} {slugs : List String} (h : Inv C cfg first l)
    (hC : InSessions C l (.wake dirFails bindFails slugs))
    (hstep : step cfg first l (.wake dirFails bindFails slugs) = some l') : Inv C cfg first l' := by
  have hkept := h.kept
  have hright := h.right
  unfold Life.Right at hright
  have hstep' := hstep
  rw [step] at hstep
  split at hstep
  · rename_i s hph
    rw [hph] at hright hkept
    obtain ⟨hkept', hphase⟩ := kept_turn hkept hstep
    refine ⟨hkept', ?_⟩
    unfold Life.Right
    rcases hphase with ⟨s', hs'⟩ | hconnecting | ⟨hexited, hshut⟩
    · rw [hs']
      exact InRun.step h.kept hC hph hstep' hs' hright
    · rw [hconnecting]
      trivial
    · rw [hexited]
      exact hshut
  · cases hstep

/-- **A task** accepts, or ends. -/
lemma inv_accept {k : SockId} {out : AcceptOutcome} (h : Inv C cfg first l)
    (hC : InSessions C l (.accept k out)) (hstep : step cfg first l (.accept k out) = some l') :
    Inv C cfg first l' := by
  have hstep' := hstep
  rw [step, Option.map_eq_some_iff] at hstep
  obtain ⟨t, hk, rfl⟩ := hstep
  have hsame : (l.accept k t out).phase = l.phase ∧ (l.accept k t out).peers = l.peers ∧
      (l.accept k t out).opened = l.opened ∧ (l.accept k t out).attempts = l.attempts ∧
      (l.accept k t out).shutdown = l.shutdown := by
    cases out <;> exact ⟨rfl, rfl, rfl, rfl, rfl⟩
  obtain ⟨hphase, hpeers, hopened, hattempts, hshutdown⟩ := hsame
  constructor
  · rw [hphase]
    exact h.kept.accept hk out
  · refine right_of_same hphase hpeers hopened hattempts hshutdown.trans (fun s hs hin => ?_) h.right
    exact InRun.step h.kept hC hs hstep' (hphase.trans hs) hin

/-- **One step.** -/
theorem inv_step (hfree : Free C) {a : Action} (h : Inv C cfg first l) (hC : InSessions C l a)
    (hstep : step cfg first l a = some l') : Inv C cfg first l' := by
  cases a with
  | openDb found error => exact inv_openDb h hstep
  | register attempts slugs => exact inv_register h hstep
  | quit slugs => exact inv_quit h hstep
  | addNext dirFails bindFails => exact inv_addNext h hstep
  | enter => exact inv_enter hfree h hstep
  | arrive bs => exact inv_arrive h hC hstep
  | close kind => exact inv_close h hC hstep
  | wake dirFails bindFails slugs => exact inv_wake h hC hstep
  | accept k out => exact inv_accept h hC hstep
  | cancel =>
    have hstep' := hstep
    obtain rfl := Option.some.inj hstep
    refine ⟨{ h.kept with }, ?_⟩
    refine right_of_same (l := l) rfl rfl rfl rfl (fun _ => rfl) (fun s hs hin => ?_) h.right
    exact InRun.step h.kept hC hs hstep' hs hin
  | other t =>
    have hstep' := hstep
    rw [step] at hstep
    split at hstep
    · rename_i ht
      obtain rfl := Option.some.inj hstep
      refine ⟨h.kept.other ht, right_of_same rfl rfl rfl rfl id (fun s hs hin => ?_) h.right⟩
      exact InRun.step h.kept hC hs hstep' hs hin
    · cases hstep

/-- What holds of a server at any time. -/
structure Conduct (cfg : Config) (first : SockId) (l : Life) : Prop where
  /-- Its tasks accept for the peers that it was told of in this session, one for each, at the sockets
  where the clients of these peers connect. -/
  tasks : ∀ k t, l.net.loops.lookup k = some t → t.slug ∈ told l.phase.calls ∧
    t.path = listenerSocket cfg.root t.slug cfg.slug ∧
      ∀ k' t', l.net.loops.lookup k' = some t' → t'.slug = t.slug → k' = k
  /-- There is one for every peer for which the last `add` did not fail, until it ends by itself. -/
  listening : ∀ p ∈ told l.phase.calls, p ∉ l.troubled →
    ∃ k, l.net.loops.lookup k = some ⟨p, listenerSocket cfg.root p cfg.slug⟩
  /-- It leaves no other socket file, and therefore none outside its sessions. -/
  files : ∀ q k, l.net.tree.lookup q = some (.file k) → first ≤ k →
    ∃ p ∈ told l.phase.calls, q = listenerSocket cfg.root p cfg.slug
  /-- Connections are served in the order in which they came in, each once, and for the peer at whose
  socket it did. -/
  served : l.handled.map (fun c => (listenerSocket cfg.root c.1 cfg.slug, c.2)) =
    l.arrivals.take l.taken
  /-- Each session is one with the peers of its `Ack` and what was received in it, to which the clients
  that are left from the session before come first. -/
  session : ∀ s, l.phase = .session s → ∃ es,
    exec Session.step (Session.start l.peers) es = some (l.abs s) ∧ Session.arrived es = s.received
  exits : ∀ r, l.phase = .exited r → l.Exits cfg r

lemma Inv.conduct (h : Inv (fun _ _ => True) cfg first l) : Conduct cfg first l where
  tasks k t hk := by
    obtain ⟨hpath, e, he, hsock⟩ := h.kept.tied.loop k t hk
    refine ⟨h.kept.listens.listed t.slug e he, hpath, fun k' t' hk' hslug => ?_⟩
    obtain ⟨-, e', he', hsock'⟩ := h.kept.tied.loop k' t' hk'
    rw [hslug, he] at he'
    rw [← hsock, ← hsock', Option.some.inj he']
  listening p hp hfine := by
    obtain ⟨e, he, hrun⟩ := h.kept.listens.running p hp hfine
    refine ⟨e.sock, ?_⟩
    rw [← (h.kept.tied.entry p e he).1]
    exact h.kept.tied.task p e he hrun
  files q k hq hk := by
    obtain ⟨p, e, he, rfl⟩ := h.kept.tied.file q k hq hk
    exact ⟨p, h.kept.listens.listed p e he, (h.kept.tied.entry p e he).1⟩
  served := by
    rw [h.kept.handled, ← h.kept.arrivals, List.map_take]
  session s hs := by
    have hright := h.right
    rw [Life.Right, hs] at hright
    obtain ⟨es, hexec, harr, -⟩ := hright
    exact ⟨es, hexec, harr⟩
  exits r hr := by
    have hright := h.right
    rw [Life.Right, hr] at hright
    exact hright

/-- **Sessions in which nothing is lost.** As long as no client is served while a frame has arrived in
part, in each of the sessions of a server it listens for the peers of the `Ack` and those of the
notifications that were written: it has acted on those that have arrived, in order. -/
theorem faithful_of_life {t : FileTree SockId} {as : List Action} {ns : List Notification}
    (hm : Meets (step cfg (fresh t)) (InSessions Session.Whole) (Life.start cfg t) as)
    (hrun : exec (step cfg (fresh t)) (Life.start cfg t) as = some l) (hs : l.phase = .session s)
    (hreceived : s.received <+: Session.wire (Session.written ns)) :
    ∃ acted, Session.Faithful l.peers (Session.written ns) s.received.length (l.abs s) acted := by
  have hfree : Free Session.Whole := ⟨fun ss p he => (by cases he), fun ss he => (by cases he)⟩
  have h : Inv Session.Whole cfg (fresh t) l :=
    exec_inv_of_meets (fun l a l' h hC hstep => inv_step hfree h hC hstep) (inv_start _ cfg t) hm hrun
  have hright := h.right
  rw [Life.Right, hs] at hright
  obtain ⟨es, hexec, harr, hwhole⟩ := hright
  rw [← harr] at hreceived ⊢
  have hfit : ∀ n ∈ Session.written ns, Fits Session.wireCodec (.notification n) :=
    fun n => Session.fits_of_mem_written
  obtain ⟨acted, hholds⟩ : ∃ acted, Session.Holds l.peers (Session.written ns)
      (Session.arrived es) (l.abs s) acted := by
    have hall := exec_hist_of_meets (C := Session.Whole)
      (H := fun es ss => Session.arrived es <+: Session.wire (Session.written ns) →
        ∃ acted, Session.Holds l.peers (Session.written ns) (Session.arrived es) ss acted) ?_
      (fun _ => ⟨[], Session.holds_start l.peers (Session.written ns)⟩) hwhole hexec
    · exact hall hreceived
    · intro es ss e ss' hI hw hstep hpre
      have happend : Session.arrived (es ++ [e]) = Session.arrived es ++ Session.arrived [e] :=
        List.flatMap_append
      obtain ⟨acted, hacted⟩ := hI ((happend ▸ List.prefix_append _ _ : _ <+: _).trans hpre)
      exact Session.holds_step hfit hpre hacted hw hstep
  exact ⟨acted, hholds.faithful hfit hreceived⟩

end Runs

/-! ### Two sessions -/

def repoB : Config := ⟨"repo-b", ["srv", "b"], ["run"], "/run/register.socket", fun _ => false⟩

/-- The supervisor is not there at first. A client is served, then a peer joins for which `bind` fails,
and another client comes in at the end of the session. -/
def firstSession : List Action :=
  [.openDb true none, .register [.connectFails "refused", .answered (.registerResponse (.ack ["a"]))] [],
    .addNext false false, .enter, .accept 0 (.connection 7), .wake false false [],
    .arrive [0, 0, 0, 4, 1, 0, 1, 98], .wake false true []]

/-- The next session begins with that client, and the token is cancelled. -/
def secondSession : List Action :=
  [.accept 0 (.connection 8), .close .unexpectedEof, .wake false false ["a"],
    .register [.answered (.registerResponse (.ack ["a"]))] [], .addNext false false, .enter,
    .wake false false [], .cancel, .wake false false ["a"]]

/-- A server whose supervisor is not there yet, and whose socket path has the phrase: it ends at once. -/
example : ∃ l, exec (step { repoB with registerSocket := "/tmp/supervisor rejected registration/r.socket" }
      (fresh ∅)) (Life.start repoB ∅) [.openDb true none, .register [.connectFails "refused"] []] = some l ∧
    l.shutdown = false ∧ l.phase = .exited (.error ("connecting to supervisor at " ++
      "/tmp/supervisor rejected registration/r.socket: refused")) := by
  exact ⟨_, rfl, rfl, rfl⟩

theorem faithful_of_life_firstSession : ∃ l s,
    exec (step repoB (fresh ∅)) (Life.start repoB ∅) firstSession = some l ∧ l.phase = .session s ∧
      ∃ acted, Session.Faithful ["a"] (Session.written [.peerJoined "b"]) 8 (l.abs s) acted := by
  have hrun : exec (step repoB (fresh ∅)) (Life.start repoB ∅) firstSession = some _ := rfl
  have hwhole : Meets (step repoB (fresh ∅)) (InSessions Session.Whole) (Life.start repoB ∅)
      firstSession := by decide
  exact ⟨_, _, hrun, rfl, faithful_of_life hwhole hrun rfl (by decide)⟩

end Crossbridge.Server.Serving
