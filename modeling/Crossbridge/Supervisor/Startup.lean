import Crossbridge.Server.Attachment
import Crossbridge.Topology.Model

/-!
How the supervisor starts: `run` up to its loop.

`prepare_base_dir` empties the directory of the register socket or makes it, entry by entry in the
order in which the system lists them, and stops at the first call that fails; a directory may then be
removed in part (`Answers`). The tree is given as the system has it, with the links on the way to
the base resolved; what is in the base may be a link, which is not followed.

A socket path that is a file name alone has the empty path for its parent. The system finds no directory
there, and has none to make: nothing is emptied, and the socket comes into the working directory.

`sweep_spec` says what the loop leaves, by induction on the entries. Whatever is left of an earlier
run, a start that succeeds finds an empty directory for its socket, if its path has one (`start_spec`), and
does with it what the model of the whole topology takes for granted (`prepareBaseDir_eq`).
-/

namespace Crossbridge.Supervisor.Startup

open Crossbridge.FileTree Crossbridge.Server

variable {ι : Type}

/-! ### The source -/

/-- The path of the register socket: with a directory, or a file name alone. -/
inductive SocketPath where
  /-- The links on the way are resolved, and so is the working directory. -/
  | inDir (p : Path)
  | bare (name : String) (h : Path.IsName name)

/-- What the system answers. -/
structure Answers where
  /-- The directory cannot be read. -/
  readDir : Option String
  /-- The error for a path through a file, or to one. -/
  notDirectory : String
  order : List String → List String
  order_perm : ∀ names, (order names).Perm names
  /-- The entry `k` cannot be read. -/
  entry : ℕ → Option String
  fileType : ℕ → Option String
  /-- The entry `k` cannot be removed, or not all of it; what is not removed is given. -/
  remove : ℕ → Option (String × (Path → Bool))
  /-- The directory cannot be made, or only the first so many on the way. -/
  create : Option (String × ℕ)
  bind : Option String

/-- What is not at `p` nor below, or is left there. -/
def removeSome (t : FileTree ι) (p : Path) (left : Path → Bool) : FileTree ι :=
  ⟨t.entries.filter fun e => ¬ p <+: e.1 ∨ left e.1, t.nodupKeys.sublist List.filter_sublist⟩

/-- A file on the way. -/
def Blocked (t : FileTree ι) (p : Path) : Prop :=
  ∃ q ∈ p.inits, match t.lookup q with
    | some (.file _) => True
    | _ => False

instance (t : FileTree ι) (p : Path) : Decidable (Blocked t p) := by
  unfold Blocked
  refine @List.decidableBEx _ _ (fun q => ?_) _
  split <;> infer_instance

/-- The loop over the entries; `k` counts them. -/
def sweep (o : Answers) (base : Path) : ℕ → List String → FileTree ι → Except String Unit × FileTree ι
  | _, [], t => (.ok (), t)
  | k, name :: names, t =>
    match o.entry k, o.fileType k with
    | some e, _ => (.error e, t)
    | none, some e => (.error e, t)
    | none, none =>
      let path := base ++ [name]
      match t.lookup path, o.remove k with
      | some .dir, some (e, left) =>
        (.error ("removing directory " ++ displayPath path ++ ": " ++ e), removeSome t path left)
      | some .dir, none => sweep o base (k + 1) names (t.removeDirAll path)
      | _, some (e, _) => (.error ("removing file " ++ displayPath path ++ ": " ++ e), t)
      | _, none => sweep o base (k + 1) names (t.unlink path)

/-- `prepare_base_dir` -/
def prepareBaseDir (o : Answers) (t : FileTree ι) (base : Path) : Except String Unit × FileTree ι :=
  match t.lookup base with
  | some .dir =>
    match o.readDir with
    | some e => (.error e, t)
    | none => sweep o base 0 (o.order (t.readDir base)) t
  | some (.file _) => (.error o.notDirectory, t)
  | none =>
    if Blocked t base then (.error o.notDirectory, t)
    else
      match o.create with
      | some (e, k) => (.error ("creating " ++ displayPath base ++ ": " ++ e), t.createDirAll (base.take k))
      | none => (.ok (), t.createDirAll base)

/-- `bind` of `run`, at a path that is shown as `shown`, and the maps. -/
def bind (o : Answers) (x : ι) (t : FileTree ι) (base socket : Path) (shown : String) :
    Except String State × FileTree ι :=
  match o.bind, t.lookup socket with
  | some e, _ => (.error ("binding register socket at " ++ shown ++ ": " ++ e), t)
  | none, some _ =>
    (.error ("binding register socket at " ++ shown ++ ": Address already in use (os error 98)"), t)
  | none, none => (.ok (State.new base), t.insert socket (.file x))

/-- `run` up to its loop in the working directory `cwd`, with `x` for the register socket. -/
def start (o : Answers) (x : ι) (t : FileTree ι) (cwd : Path) :
    SocketPath → Except String State × FileTree ι
  | .inDir socketPath =>
    if socketPath = [] then (.error ("socket path '" ++ displayPath [] ++ "' has no parent directory"), t)
    else
      let base := socketPath.dropLast
      match prepareBaseDir o t base with
      | (.error e, t) => (.error ("preparing base directory: " ++ e), t)
      | (.ok (), t) => bind o x t base socketPath (displayPath socketPath)
  -- `read_dir` of the empty path is `NotFound`, and `create_dir_all` of it does nothing
  | .bare name _ => bind o x t cwd (cwd ++ [name]) name

/-! ### What the loop leaves -/

section Sweep

variable {o : Answers} {base p q : Path} {t t' : FileTree ι} {names : List String} {k : ℕ}

lemma lookup_removeSome {left : Path → Bool} : (removeSome t p left).lookup q =
    if p <+: q ∧ left q = false then none else t.lookup q := by
  ext x
  have hmem : x ∈ (removeSome t p left).lookup q ↔
      (¬ p <+: q ∨ left q = true) ∧ x ∈ t.lookup q := by
    rw [AList.mem_lookup_iff, AList.mem_lookup_iff]
    unfold removeSome
    rw [List.mem_filter, decide_eq_true_iff]
    exact and_comm
  rw [← Option.mem_def, hmem]
  by_cases hp : p <+: q <;> cases left q <;> simp [hp]

/-- Only what is below one of the names is gone. -/
structure Cleared (base : Path) (names : List String) (t t' : FileTree ι) : Prop where
  gone : ∀ q, t'.lookup q = t.lookup q ∨ t'.lookup q = none
  apart : ∀ q, (∀ n ∈ names, ¬ base ++ [n] <+: q) → t'.lookup q = t.lookup q

lemma cleared_refl (base : Path) (names : List String) (t : FileTree ι) : Cleared base names t t :=
  ⟨fun _ => Or.inl rfl, fun _ _ => rfl⟩

lemma Cleared.cons {name : String} {t'' : FileTree ι} (h : Cleared base [name] t t')
    (h' : Cleared base names t' t'') : Cleared base (name :: names) t t'' where
  gone q := by
    rcases h'.gone q with heq | hnone
    · rw [heq]
      exact h.gone q
    · exact Or.inr hnone
  apart q hq := by
    have hname := hq name List.mem_cons_self
    rw [h'.apart q fun n hn => hq n (List.mem_cons_of_mem _ hn), h.apart q (by simpa using hname)]

lemma cleared_removeDirAll (name : String) : Cleared base [name] t (t.removeDirAll (base ++ [name])) where
  gone q := by
    rw [lookup_removeDirAll]
    split
    · exact Or.inr rfl
    · exact Or.inl rfl
  apart q hq := by
    rw [lookup_removeDirAll, if_neg (hq name (List.mem_singleton_self _))]

lemma cleared_removeSome (name : String) (left : Path → Bool) :
    Cleared base [name] t (removeSome t (base ++ [name]) left) where
  gone q := by
    rw [lookup_removeSome]
    split
    · exact Or.inr rfl
    · exact Or.inl rfl
  apart q hq := by
    rw [lookup_removeSome, if_neg fun h => hq name (List.mem_singleton_self _) h.1]

lemma cleared_unlink (name : String) : Cleared base [name] t (t.unlink (base ++ [name])) where
  gone q := by
    by_cases hq : q = base ++ [name]
    · subst hq
      unfold FileTree.unlink
      split
      · exact Or.inr (AList.lookup_erase _ _)
      · exact Or.inl rfl
    · exact Or.inl (lookup_unlink_ne hq)
  apart q hq := by
    refine lookup_unlink_ne ?_
    rintro rfl
    exact hq name (List.mem_singleton_self _) (List.prefix_refl _)

/-- Each of the names is a directory, or a file with nothing below. -/
def Listed (base : Path) (names : List String) (t : FileTree ι) : Prop :=
  ∀ n ∈ names, t.lookup (base ++ [n]) = some .dir ∨ (∃ x, t.lookup (base ++ [n]) = some (.file x)) ∧
    ∀ q, base ++ [n] <+: q → q ≠ base ++ [n] → t.lookup q = none

lemma Listed.congr (h : Listed base names t)
    (hsame : ∀ n ∈ names, ∀ q, base ++ [n] <+: q → t'.lookup q = t.lookup q) : Listed base names t' := by
  intro n hn
  rw [hsame n hn _ (List.prefix_refl _)]
  refine (h n hn).imp_right fun ⟨hfile, hbelow⟩ => ⟨hfile, fun q hq hne => ?_⟩
  rw [hsame n hn q hq]
  exact hbelow q hq hne

/-- The other names are as they were. -/
lemma Cleared.listed {name : String} (h : Cleared base [name] t t') (hnodup : (name :: names).Nodup)
    (hlisted : Listed base (name :: names) t) : Listed base names t' := by
  have hrest : Listed base names t := fun n hn => hlisted n (List.mem_cons_of_mem _ hn)
  refine hrest.congr fun n hn q hq => h.apart q fun m hm => ?_
  obtain rfl := List.mem_singleton.mp hm
  refine Path.not_prefix_of_ne ?_ hq
  rintro rfl
  exact (List.nodup_cons.mp hnodup).1 hn

/-- No entry makes a call fail. -/
def Answers.Sweeps (o : Answers) : Prop :=
  ∀ k, o.entry k = none ∧ o.fileType k = none ∧ o.remove k = none

/-- What a loop over the names comes to: only what is below them may be gone; if it ends well, all of
that is; and it does if no call fails. -/
structure Swept (o : Answers) (base : Path) (names : List String) (t : FileTree ι)
    (r : Except String Unit × FileTree ι) : Prop where
  cleared : Cleared base names t r.2
  empty : r.1 = .ok () → ∀ n ∈ names, ∀ q, base ++ [n] <+: q → r.2.lookup q = none
  succeeds : o.Sweeps → r.1 = .ok ()

lemma swept_error {name : String} (e : String) (h : Cleared base [name] t t')
    (hfails : ∃ k, o.entry k ≠ none ∨ o.fileType k ≠ none ∨ o.remove k ≠ none) :
    Swept o base (name :: names) t (.error e, t') where
  cleared := h.cons (cleared_refl _ _ _)
  empty hends := by cases hends
  succeeds hno := by
    obtain ⟨k, hk⟩ := hfails
    obtain ⟨hentry, htype, hremove⟩ := hno k
    rcases hk with hk | hk | hk
    · exact absurd hentry hk
    · exact absurd htype hk
    · exact absurd hremove hk

/-- One entry is gone, and the rest is swept. -/
lemma Swept.cons {name : String} {r : Except String Unit × FileTree ι} (h : Swept o base names t' r)
    (hcleared : Cleared base [name] t t') (hnone : ∀ q, base ++ [name] <+: q → t'.lookup q = none) :
    Swept o base (name :: names) t r where
  cleared := hcleared.cons h.cleared
  empty hends n hn q hq := by
    rcases List.mem_cons.mp hn with rfl | hn
    · rcases h.cleared.gone q with heq | hgone
      · rw [heq, hnone q hq]
      · exact hgone
    · exact h.empty hends n hn q hq
  succeeds := h.succeeds

/-- **The loop.** -/
theorem sweep_spec (hnodup : names.Nodup) (hlisted : Listed base names t) :
    Swept o base names t (sweep o base k names t) := by
  induction names generalizing k t with
  | nil => exact ⟨cleared_refl _ _ _, (fun _ n hn => by cases hn), fun _ => rfl⟩
  | cons name names ih =>
    have hrest : ∀ {t'}, Cleared base [name] t t' → Swept o base names t' (sweep o base (k + 1) names t') :=
      fun h => ih (List.nodup_cons.mp hnodup).2 (h.listed hnodup hlisted)
    have hkeep : Cleared base [name] t t := cleared_refl _ _ _
    rw [sweep]
    cases hentry : o.entry k with
    | some e => exact swept_error e hkeep ⟨k, Or.inl (by simp [hentry])⟩
    | none =>
      cases htype : o.fileType k with
      | some e => exact swept_error e hkeep ⟨k, Or.inr (Or.inl (by simp [htype]))⟩
      | none =>
        simp only
        rcases hlisted name List.mem_cons_self with hdir | ⟨⟨x, hfile⟩, hbelow⟩
        · cases hremove : o.remove k with
          | some r =>
            simp only [hdir]
            exact swept_error _ (cleared_removeSome name r.2) ⟨k, Or.inr (Or.inr (by simp [hremove]))⟩
          | none =>
            simp only [hdir]
            refine (hrest (cleared_removeDirAll name)).cons (cleared_removeDirAll name) fun q hq => ?_
            rw [lookup_removeDirAll, if_pos hq]
        · cases hremove : o.remove k with
          | some r =>
            simp only [hfile]
            exact swept_error _ hkeep ⟨k, Or.inr (Or.inr (by simp [hremove]))⟩
          | none =>
            simp only [hfile]
            refine (hrest (cleared_unlink name)).cons (cleared_unlink name) fun q hq => ?_
            by_cases hne : q = base ++ [name]
            · subst hne
              unfold FileTree.unlink
              rw [hfile]
              exact AList.lookup_erase _ _
            · rw [lookup_unlink_ne hne, hbelow q hq hne]

end Sweep

/-! ### What the start leaves -/

/-- Strictly below. -/
def Below (base q : Path) : Prop := base <+: q ∧ q ≠ base

/-- The system makes no call of `prepare_base_dir` fail. -/
def Answers.Prepares (o : Answers) : Prop := o.Sweeps ∧ o.readDir = none ∧ o.create = none

/-- What `prepare_base_dir` comes to. -/
structure Prepared (o : Answers) (base : Path) (t : FileTree ι) (r : Except String Unit × FileTree ι) :
    Prop where
  /-- Elsewhere nothing is changed, but that directories are made on the way to the base. -/
  outside : ∀ q, ¬ Below base q →
    r.2.lookup q = t.lookup q ∨ (q <+: base ∧ t.lookup q = none ∧ r.2.lookup q = some .dir)
  /-- Below the base nothing is new. -/
  below : ∀ q, Below base q → r.2.lookup q = t.lookup q ∨ r.2.lookup q = none
  done : r.1 = .ok () → r.2.lookup base = some .dir ∧ ∀ q, Below base q → r.2.lookup q = none
  succeeds : o.Prepares → ¬ Blocked t base → r.1 = .ok ()

section Start

variable {o : Answers} {base q : Path} {t : FileTree ι}

lemma not_below_of_prefix {p : Path} (h : q <+: p) (hp : p <+: base) : ¬ Below base q := by
  rintro ⟨hb, hne⟩
  exact hne ((h.trans hp).eq_of_length_le hb.length_le)

lemma below_child {n : String} (h : base ++ [n] <+: q) : Below base q := by
  refine ⟨(List.prefix_append _ _).trans h, ?_⟩
  rintro rfl
  have hlen := h.length_le
  simp at hlen

lemma blocked_of_file {x : ι} (h : t.lookup base = some (.file x)) : Blocked t base :=
  ⟨base, (List.mem_inits _ _).mpr (List.prefix_refl _), by rw [h]; trivial⟩

lemma listed_readDir (ht : Rooted t) (o : Answers) : Listed base (o.order (t.readDir base)) t := by
  intro n hn
  have hmem : base ++ [n] ∈ t := mem_readDir.mp ((o.order_perm _).mem_iff.mp hn)
  cases hnode : t.lookup (base ++ [n]) with
  | none => exact absurd hmem (not_mem_iff.mpr hnode)
  | some node =>
    cases node with
    | dir => exact Or.inl rfl
    | file x => exact Or.inr ⟨⟨x, rfl⟩, fun q hq hne => ht.lookup_below_file hnode hq hne⟩

/-- Nothing was done. -/
lemma prepared_error (e : String) (h : o.Prepares → Blocked t base) :
    Prepared o base t (.error e, t) where
  outside _ _ := Or.inl rfl
  below _ _ := Or.inl rfl
  done hends := by cases hends
  succeeds hp hb := absurd (h hp) hb

/-- **The base is there**, and is swept. -/
lemma prepared_sweep (ht : Rooted t) (hdir : t.lookup base = some .dir) :
    Prepared o base t (sweep o base 0 (o.order (t.readDir base)) t) := by
  have hnodup : (o.order (t.readDir base)).Nodup := (o.order_perm _).nodup_iff.mpr (nodup_readDir base)
  have h : Swept o base (o.order (t.readDir base)) t (sweep o base 0 (o.order (t.readDir base)) t) :=
    sweep_spec hnodup (listed_readDir ht o)
  have hout : ∀ q, ¬ Below base q → (sweep o base 0 (o.order (t.readDir base)) t).2.lookup q = t.lookup q :=
    fun q hq => h.cleared.apart q fun n _ hn => hq (below_child hn)
  refine ⟨fun q hq => Or.inl (hout q hq), fun q _ => h.cleared.gone q, fun hends => ⟨?_, fun q hq => ?_⟩,
    fun hp _ => h.succeeds hp.1⟩
  · rw [hout base fun hb => hb.2 rfl, hdir]
  · obtain ⟨n, hn⟩ := exists_child_of_prefix hq.1 hq.2
    by_cases hmem : n ∈ o.order (t.readDir base)
    · exact h.empty hends n hmem q hn
    · -- there was nothing of that name
      have hchild : t.lookup (base ++ [n]) = none := by
        rw [(o.order_perm _).mem_iff, mem_readDir] at hmem
        exact not_mem_iff.mp hmem
      have hnone : t.lookup q = none := by
        by_contra hq'
        by_cases heq : q = base ++ [n]
        · exact hq' (heq ▸ hchild)
        · rw [ht.lookup_prefix hq' hn heq] at hchild
          cases hchild
      rcases h.cleared.gone q with hsame | hgone
      · rw [hsame, hnone]
      · exact hgone

/-- Directories are made on the way to the base. -/
lemma lookup_createDirAll_way {p : Path} (hp : p <+: base) :
    (t.createDirAll p).lookup q = t.lookup q ∨
      (q <+: base ∧ t.lookup q = none ∧ (t.createDirAll p).lookup q = some .dir) := by
  rw [lookup_createDirAll]
  split
  · rename_i h
    exact Or.inr ⟨h.1.trans hp, h.2, rfl⟩
  · exact Or.inl rfl

lemma lookup_createDirAll_below {p : Path} (hp : p <+: base) (hq : Below base q) :
    (t.createDirAll p).lookup q = t.lookup q := by
  rw [lookup_createDirAll, if_neg]
  rintro ⟨hpre, -⟩
  exact not_below_of_prefix hpre hp hq

/-- **`prepare_base_dir`.** -/
theorem prepared_prepareBaseDir (o : Answers) (base : Path) (ht : Rooted t) :
    Prepared o base t (prepareBaseDir o t base) := by
  unfold prepareBaseDir
  cases hbase : t.lookup base with
  | some node =>
    cases node with
    | file x => exact prepared_error _ fun _ => blocked_of_file hbase
    | dir =>
      simp only
      cases hread : o.readDir with
      | some e =>
        refine prepared_error e fun hp => ?_
        rw [hp.2.1] at hread
        cases hread
      | none => exact prepared_sweep ht hbase
  | none =>
    simp only
    split
    · rename_i hb
      exact prepared_error _ fun _ => hb
    · cases hcreate : o.create with
      | some r =>
        have htake : base.take r.2 <+: base := List.take_prefix r.2 base
        refine ⟨fun q _ => lookup_createDirAll_way htake,
          fun q hq => Or.inl (lookup_createDirAll_below htake hq), (fun hends => by cases hends),
          fun hp _ => ?_⟩
        rw [hp.2.2] at hcreate
        cases hcreate
      | none =>
        have hself : base <+: base := List.prefix_refl base
        refine ⟨fun q _ => lookup_createDirAll_way hself,
          fun q hq => Or.inl (lookup_createDirAll_below hself hq), fun _ => ⟨?_, fun q hq => ?_⟩,
          fun _ _ => rfl⟩
        · rw [lookup_createDirAll, if_pos ⟨hself, hbase⟩]
        · show (t.createDirAll base).lookup q = none
          rw [lookup_createDirAll_below hself hq]
          by_contra hq'
          rw [ht.lookup_prefix hq' hq.1 hq.2] at hbase
          cases hbase

/-- **The sweep is what the topology takes for granted**: when it ends well, every path is as after one
step that clears the base and makes it. -/
theorem prepareBaseDir_eq {t : FileTree SockId} (ht : Rooted t)
    (hok : (prepareBaseDir o t base).1 = .ok ()) (q : Path) :
    (prepareBaseDir o t base).2.lookup q = (Topology.prepareBaseDir t base).lookup q := by
  have h : Prepared o base t (prepareBaseDir o t base) := prepared_prepareBaseDir o base ht
  obtain ⟨hdir, hempty⟩ := h.done hok
  unfold Topology.prepareBaseDir
  rw [lookup_createDirAll]
  by_cases hq : Below base q
  · have hnot : ¬ q <+: base := fun hpre => not_below_of_prefix hpre (List.prefix_refl _) hq
    have hclear : (t.clearDir base).lookup q = none := lookup_clearDir.trans (if_pos hq)
    rw [hempty q hq, if_neg fun hpre => hnot hpre.1, hclear]
  · have hclear : (t.clearDir base).lookup q = t.lookup q := lookup_clearDir.trans (if_neg hq)
    rw [hclear]
    by_cases hway : q <+: base ∧ t.lookup q = none
    · rw [if_pos hway]
      -- on the way to the base, which is there
      by_cases heq : q = base
      · rw [heq, hdir]
      · have hnone : t.lookup base = none := by
          by_contra hb
          have hdir' := ht.lookup_prefix hb hway.1 fun h => heq h.symm
          rw [hway.2] at hdir'
          cases hdir'
        unfold prepareBaseDir at hok ⊢
        rw [hnone] at hok ⊢
        simp only at hok ⊢
        split at hok
        · cases hok
        · rename_i hblocked
          rw [if_neg hblocked]
          cases hcreate : o.create with
          | some r =>
            rw [hcreate] at hok
            cases hok
          | none => exact lookup_createDirAll.trans (if_pos hway)
    · rw [if_neg hway]
      exact (h.outside q hq).resolve_right fun hmade => hway ⟨hmade.1, hmade.2.1⟩

/-- What the start comes to, with `x` for the register socket, if the socket has a directory. -/
structure Started (o : Answers) (x : ι) (t : FileTree ι) (socketPath : Path)
    (r : Except String State × FileTree ι) : Prop where
  /-- The loop begins with empty maps, and with an empty directory but for its socket. -/
  loop : ∀ s, r.1 = .ok s → socketPath ≠ [] ∧ s = State.new socketPath.dropLast ∧
    r.2.lookup socketPath.dropLast = some .dir ∧
    ∀ q, Below socketPath.dropLast q → r.2.lookup q = if q = socketPath then some (.file x) else none
  /-- Otherwise nothing that is new is below the base. -/
  failed : ∀ e, r.1 = .error e → ∀ q, Below socketPath.dropLast q →
    r.2.lookup q = t.lookup q ∨ r.2.lookup q = none
  /-- Elsewhere nothing is changed, but that directories are made on the way to the base. -/
  outside : ∀ q, ¬ Below socketPath.dropLast q → r.2.lookup q = t.lookup q ∨
    (q <+: socketPath.dropLast ∧ t.lookup q = none ∧ r.2.lookup q = some .dir)
  /-- It comes to the loop, whatever was left below the base. -/
  succeeds : socketPath ≠ [] → o.Prepares → o.bind = none → ¬ Blocked t socketPath.dropLast →
    ∃ s, r.1 = .ok s

/-- What the start comes to if the socket path is a file name alone. -/
structure StartedHere (o : Answers) (x : ι) (t : FileTree ι) (cwd : Path) (name : String)
    (r : Except String State × FileTree ι) : Prop where
  /-- The loop begins with empty maps, and the socket is all that is new. -/
  loop : ∀ s, r.1 = .ok s → s = State.new cwd ∧ r.2 = t.insert (cwd ++ [name]) (.file x)
  /-- Otherwise nothing is changed. -/
  failed : ∀ e, r.1 = .error e → r.2 = t
  /-- Nothing is emptied: it comes to the loop only if nothing of this name was left. -/
  succeeds : (∃ s, r.1 = .ok s) ↔ o.bind = none ∧ t.lookup (cwd ++ [name]) = none

/-- What the start comes to. -/
def StartsAs (o : Answers) (x : ι) (t : FileTree ι) (cwd : Path) (r : Except String State × FileTree ι) :
    SocketPath → Prop
  | .inDir p => Started o x t p r
  | .bare name _ => StartedHere o x t cwd name r

/-- The socket is bound where nothing is, or nothing is changed. -/
lemma bind_cases (o : Answers) (x : ι) (t : FileTree ι) (base socket : Path) (shown : String) :
    (o.bind = none ∧ t.lookup socket = none ∧
      bind o x t base socket shown = (.ok (State.new base), t.insert socket (.file x))) ∨
    (¬ (o.bind = none ∧ t.lookup socket = none) ∧ ∃ e, bind o x t base socket shown = (.error e, t)) := by
  unfold bind
  cases hbind : o.bind with
  | some e => exact Or.inr ⟨by simp, _, rfl⟩
  | none =>
    cases hlook : t.lookup socket with
    | some node => exact Or.inr ⟨by simp, _, rfl⟩
    | none => exact Or.inl ⟨rfl, rfl, rfl⟩

lemma started_inDir (o : Answers) (x : ι) (cwd socketPath : Path) (ht : Rooted t) :
    Started o x t socketPath (start o x t cwd (.inDir socketPath)) := by
  rw [start]
  split
  · rename_i hroot
    exact ⟨(fun s hok => by cases hok), fun _ _ _ _ => Or.inl rfl, fun _ _ => Or.inl rfl,
      fun hne => absurd hroot hne⟩
  · rename_i hroot
    have h := prepared_prepareBaseDir o socketPath.dropLast ht
    have hsock : Below socketPath.dropLast socketPath := by
      refine ⟨List.dropLast_prefix _, fun heq => ?_⟩
      have hlen := congrArg List.length heq
      have hpos := List.length_pos_of_ne_nil hroot
      rw [List.length_dropLast] at hlen
      omega
    rcases hp : prepareBaseDir o t socketPath.dropLast with ⟨e | _, t'⟩
    · rw [hp] at h
      simp only [hp]
      refine ⟨(fun s hok => by cases hok), fun _ _ => h.below, h.outside, fun _ hprep _ hb => ?_⟩
      cases h.succeeds hprep hb
    · rw [hp] at h
      obtain ⟨hdir, hempty⟩ := h.done rfl
      have hnone : t'.lookup socketPath = none := hempty socketPath hsock
      simp only [hp]
      rcases bind_cases o x t' socketPath.dropLast socketPath (displayPath socketPath) with
        ⟨-, -, heq⟩ | ⟨hfails, e, heq⟩
      · rw [heq]
        refine ⟨fun s hok => ⟨hroot, (Except.ok.inj hok).symm, ?_, fun q hq => ?_⟩,
          (fun e herr => by cases herr), fun q hq => ?_, fun _ _ _ _ => ⟨_, rfl⟩⟩
        · show (t'.insert socketPath (.file x)).lookup socketPath.dropLast = _
          rw [AList.lookup_insert_ne fun heq => hsock.2 heq.symm, hdir]
        · show (t'.insert socketPath (.file x)).lookup q = _
          by_cases heq : q = socketPath
          · rw [if_pos heq, heq, AList.lookup_insert]
          · rw [if_neg heq, AList.lookup_insert_ne heq, hempty q hq]
        · show (t'.insert socketPath (.file x)).lookup q = _ ∨ _
          have hne : q ≠ socketPath := fun heq => hq (heq ▸ hsock)
          rw [AList.lookup_insert_ne hne]
          exact h.outside q hq
      · rw [heq]
        exact ⟨(fun s hok => by cases hok), fun _ _ => h.below, h.outside,
          fun _ _ hno _ => absurd ⟨hno, hnone⟩ hfails⟩

lemma started_bare (o : Answers) (x : ι) (t : FileTree ι) (cwd : Path) (name : String)
    (hname : Path.IsName name) : StartedHere o x t cwd name (start o x t cwd (.bare name hname)) := by
  rw [start]
  rcases bind_cases o x t cwd (cwd ++ [name]) name with ⟨hbind, hnone, heq⟩ | ⟨hfails, e, heq⟩
  · rw [heq]
    exact ⟨fun s hok => ⟨(Except.ok.inj hok).symm, rfl⟩, (fun e herr => by cases herr),
      fun _ => ⟨hbind, hnone⟩, fun _ => ⟨_, rfl⟩⟩
  · rw [heq]
    exact ⟨(fun s hok => by cases hok), fun _ _ => rfl, (fun ⟨s, hok⟩ => by cases hok),
      fun h => absurd h hfails⟩

end Start

/-! ### A start over leftovers -/

/-- A supervisor and a server were killed: their sockets are left, and the directory of the server. There
is a link to a directory elsewhere besides. -/
def leftovers : FileTree (Entry Unit) :=
  [⟨[], .dir⟩, ⟨["home"], .dir⟩, ⟨["home", "notes"], .file (.data ())⟩, ⟨["run"], .dir⟩,
    ⟨["run", "register.socket"], .file (.data ())⟩, ⟨["run", "repo-a"], .dir⟩,
    ⟨["run", "repo-a", "repo-b.socket"], .file (.data ())⟩,
    ⟨["run", "out"], .file (.link ["home"])⟩].toAList

/-- No call fails, and the entries are listed backwards. -/
def backwards : Answers where
  readDir := none
  notDirectory := "Not a directory (os error 20)"
  order := List.reverse
  order_perm := List.reverse_perm
  entry _ := none
  fileType _ := none
  remove _ := none
  create := none
  bind := none

/-- The socket path as a file name alone. -/
def alone : SocketPath := .bare "register.socket" (by decide)

end Crossbridge.Supervisor.Startup
