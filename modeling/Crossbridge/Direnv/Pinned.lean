import Crossbridge.Bridge.OriginUrls
import Crossbridge.Client.Slug
import Crossbridge.Direnv.OneServer
import Crossbridge.Lib.FileTree
import Crossbridge.Server.Slug

/-!
The slug of a server and the slug of the clients in its repo.

Both look at their flag first, then at `CROSSBRIDGE_OWN_SLUG`, and last they derive the slug from the
`origin` remote, which they do in different ways. `crossbridge_up` is to spare them that: it passes the
slug to the server that it starts, and exports it for the clients. But where a server is running for the
root it starts none, and exports its slug all the same.

`settled_of_run` says what comes of that, in every run of calls that do not disturb each other, for a
call that could start a server or found one: the clients in its shell, when it is done, find the repo of
the one server of their root, and they use its slug exactly when the call that has started it had the
same one.
-/

namespace Crossbridge

open Text

/-! ### The order in which a slug is looked for -/

/-- The value of an environment variable; one that is not UTF-8 is of no use. -/
inductive OsString where
  | text (s : String)
  | bytes
  deriving DecidableEq, Repr

/-- `own_slug_from_env`, given what `CROSSBRIDGE_OWN_SLUG` is. -/
def ownSlugFromEnv : Option OsString → Option String
  | some (.text s) => if trim s.toList = [] then none else some (String.ofList (trim s.toList))
  | some .bytes | none => none

/-- The flag, the environment, and then what is derived from the repository. -/
def resolveWith (derive : Checkout → Except String String) (flag : Option String) (env : Option OsString)
    (c : Checkout) : Except String String :=
  match flag with
  | some s =>
    if trim s.toList = [] then .error "--slug must be a non-empty string"
    else .ok (String.ofList (trim s.toList))
  | none =>
    match ownSlugFromEnv env with
    | some s => .ok s
    | none => derive c

namespace Server

def deriveFromRepo (c : Checkout) : Except String String :=
  match originRemoteUrl c with
  | .error e => .error e
  | .ok none => .error ("pass `--slug <NAME>` explicitly: cannot auto-derive repo slug for " ++ c.path ++
      " (no `origin` remote configured)\n\nExample:\n    crossbridge-server --group <GROUP> --slug <NAME>")
  | .ok (some url) =>
    match parseSlug url with
    | some slug => .ok slug
    | none => .error ("could not parse repo slug from origin remote URL `" ++ url ++ "` for " ++ c.path)

/-- `resolve_slug` -/
def resolveSlug : Option String → Option OsString → Checkout → Except String String :=
  resolveWith deriveFromRepo

end Server

namespace Client

def deriveOwnSlug (c : Checkout) : Except String String :=
  match readOriginUrl c with
  | .error e => .error e
  | .ok url =>
    match parseOriginUrl url with
    | some slug => .ok slug
    | none => .error noOrigin

/-- `resolve_own_slug` -/
def resolveOwnSlug : Option String → Option OsString → Checkout → Except String String :=
  resolveWith deriveOwnSlug

/-! ### The repo of a client -/

section Repo

variable {ι : Type}

/-- `.crosslink/issues.db` exists. -/
def hasDb (t : FileTree ι) (p : Path) : Bool := Path.join (Path.join p ".crosslink") "issues.db" ∈ t

/-- The loop of `repo_root_from`; the names of `cur` are in reverse. -/
def walkUp (found : Path → Bool) : List String → Option Path
  | [] => if found [] then some [] else none
  | x :: parent => if found (x :: parent).reverse then some (x :: parent).reverse else walkUp found parent

def repoRootFrom (t : FileTree ι) (start : Path) : Path := (walkUp (hasDb t) start.reverse).getD start

/-- What `run` begins with: the repo and the slug, in the directory `cwd`. -/
def locate (flag : Option String) (env : Option OsString) (t : FileTree ι) (checkout : Path → Checkout)
    (cwd : Path) : Path × Except String String :=
  (repoRootFrom t cwd, resolveOwnSlug flag env (checkout (repoRootFrom t cwd)))

/-- The nearest of the ancestors of a path with a database, the path itself being one. -/
structure Nearest (found : Path → Bool) (start p : Path) : Prop where
  ancestor : p <+: start
  has : found p = true
  nearest : ∀ q, p <+: q → q <+: start → found q = true → q = p

variable {found : Path → Bool} {start p q : Path}

lemma walkUp_spec (found : Path → Bool) (r : List String) :
    (∃ p, walkUp found r = some p ∧ Nearest found r.reverse p) ∨
    (walkUp found r = none ∧ ∀ q, q <+: r.reverse → found q = false) := by
  induction r with
  | nil =>
    rw [walkUp]
    split
    · rename_i h
      exact Or.inl ⟨[], rfl, List.prefix_rfl, h, fun q _ hq _ => List.prefix_nil.mp hq⟩
    · rename_i h
      refine Or.inr ⟨rfl, fun q hq => ?_⟩
      rw [List.prefix_nil.mp hq]
      exact Bool.eq_false_of_not_eq_true h
  | cons x parent ih =>
    rw [walkUp]
    split
    · rename_i h
      refine Or.inl ⟨_, rfl, List.prefix_rfl, h, fun q hp hq _ => ?_⟩
      exact hq.eq_of_length (le_antisymm hq.length_le hp.length_le)
    · rename_i h
      have hup : ∀ q, q <+: (x :: parent).reverse → found q = true → q <+: parent.reverse := by
        intro q hq hfound
        rw [List.reverse_cons, List.prefix_concat_iff] at hq
        rcases hq with rfl | hq
        · rw [List.reverse_cons] at h
          exact absurd hfound h
        · exact hq
      have hparent : parent.reverse <+: (x :: parent).reverse := by
        rw [List.reverse_cons]
        exact List.prefix_append _ _
      rcases ih with ⟨p, hp, hnear⟩ | ⟨hnone, hall⟩
      · refine Or.inl ⟨p, hp, hnear.ancestor.trans hparent, hnear.has, fun q hpq hq hfound => ?_⟩
        exact hnear.nearest q hpq (hup q hq hfound) hfound
      · refine Or.inr ⟨hnone, fun q hq => ?_⟩
        by_contra hfound
        rw [Bool.not_eq_false] at hfound
        exact Bool.false_ne_true ((hall q (hup q hq hfound)).symm.trans hfound)

lemma Nearest.unique (hp : Nearest found start p) (hq : Nearest found start q) : p = q := by
  rcases List.prefix_or_prefix_of_prefix hp.ancestor hq.ancestor with h | h
  · exact (hp.nearest q h hq.ancestor hq.has).symm
  · exact hq.nearest p h hp.ancestor hp.has

/-- **`repo_root_from`** finds the nearest ancestor with a database, or else stays where it is. -/
theorem repoRootFrom_eq (t : FileTree ι) (h : Nearest (hasDb t) start p) : repoRootFrom t start = p := by
  unfold repoRootFrom
  rcases walkUp_spec (hasDb t) start.reverse with ⟨q, hq, hnear⟩ | ⟨-, hall⟩
  · rw [List.reverse_reverse] at hnear
    rw [hq]
    exact hnear.unique h
  · rw [List.reverse_reverse] at hall
    exact absurd ((hall p h.ancestor).symm.trans h.has) Bool.false_ne_true

end Repo

end Client

/-! ### The slug that a server was started with, and the one that was exported -/

section Slugs

variable {derive : Checkout → Except String String} {exported started : String} {c : Checkout}

/-- Two slugs that are one when they are read: the exported one, or what is derived if it is blank. -/
def SameSlug (derived : Except String String) (exported started : String) : Prop :=
  trim started.toList ≠ [] ∧ (trim exported.toList = trim started.toList ∨
    trim exported.toList = [] ∧ derived = .ok (String.ofList (trim started.toList)))

lemma resolveWith_flag (env : Option OsString) (slug : String) :
    resolveWith derive (some started) env c = .ok slug ↔
      trim started.toList ≠ [] ∧ slug = String.ofList (trim started.toList) := by
  rw [resolveWith]
  split_ifs with hblank
  · exact ⟨(fun h => by cases h), fun h => absurd hblank h.1⟩
  · rw [Except.ok.injEq]
    exact ⟨fun h => ⟨hblank, h.symm⟩, fun h => h.2.symm⟩

lemma resolveWith_env (slug : String) :
    resolveWith derive none (some (.text exported)) c = .ok slug ↔
      (trim exported.toList ≠ [] ∧ slug = String.ofList (trim exported.toList)) ∨
      (trim exported.toList = [] ∧ derive c = .ok slug) := by
  rw [resolveWith, ownSlugFromEnv]
  by_cases hblank : trim exported.toList = []
  · rw [if_pos hblank]
    refine ⟨fun h => Or.inr ⟨hblank, h⟩, fun h => ?_⟩
    exact (h.resolve_left fun h => h.1 hblank).2
  · rw [if_neg hblank, Except.ok.injEq]
    refine ⟨fun h => Or.inl ⟨hblank, h.symm⟩, fun h => ?_⟩
    exact (h.resolve_right fun h => hblank h.1).2.symm

/-- **When the two are the same.** -/
lemma same_iff (derive' : Checkout → Except String String) (env : Option OsString) (c' : Checkout) :
    (∃ slug, resolveWith derive' (some started) env c' = .ok slug ∧
      resolveWith derive none (some (.text exported)) c = .ok slug) ↔
      SameSlug (derive c) exported started := by
  simp only [resolveWith_flag, resolveWith_env]
  constructor
  · rintro ⟨slug, ⟨hne, rfl⟩, ⟨-, heq⟩ | ⟨hblank, hderived⟩⟩
    · exact ⟨hne, Or.inl (String.ofList_injective heq).symm⟩
    · exact ⟨hne, Or.inr ⟨hblank, hderived⟩⟩
  · rintro ⟨hne, heq | ⟨hblank, hderived⟩⟩
    · exact ⟨_, ⟨hne, rfl⟩, Or.inl ⟨heq ▸ hne, by rw [heq]⟩⟩
    · exact ⟨_, ⟨hne, rfl⟩, Or.inr ⟨hblank, hderived⟩⟩

end Slugs

/-! ### The shells of a repo -/

namespace Direnv.Pinned

open Runs
open Client (hasDb locate Nearest)

variable {ι : Type}

/-- The slug of a call, which it exports, and with which it starts a server if it does. -/
def slugOf (cfg : Config ι) (i : ι) : String := (cfg.calls i).slug cfg.loc

/-- The root of a call. -/
def repoOf (cfg : Config ι) (i : ι) : Path := Path.join [] (cfg.root i)

/-- What a shell is left with by a call that is done: the server of its root, whoever has started it, and
for a client in the shell, in a directory whose nearest database is that of the root, the repo and the
slug of that server, if this is the same as the one that was exported. -/
structure Settled (cfg : Config ι) (s : State ι) (i : ι) (v : Direnv.Server ι) : Prop where
  only : s.serversOf (cfg.root i) = [v]
  visible : v.visible = true
  started : ∀ j, v.owner = some j → cfg.root j = cfg.root i ∧
    ∃ pid, v.line = processLine pid ((cfg.calls j).serverCommand cfg.loc)
  repo : ∀ {κ : Type} (t : FileTree κ) cwd, Nearest (hasDb t) cwd (repoOf cfg i) → ∀ flag env checkout,
    (locate flag env t checkout cwd).1 = repoOf cfg i
  slug : ∀ {κ : Type} (t : FileTree κ) cwd, Nearest (hasDb t) cwd (repoOf cfg i) → ∀ checkout j,
    v.owner = some j → ∀ env,
    ((∃ slug, Server.resolveSlug (some (slugOf cfg j)) env (checkout (repoOf cfg j)) = .ok slug ∧
      (locate none (some (.text (slugOf cfg i))) t checkout cwd).2 = .ok slug) ↔
        SameSlug (Client.deriveOwnSlug (checkout (repoOf cfg i))) (slugOf cfg i) (slugOf cfg j))

variable [DecidableEq ι] {cfg : Config ι} {s : State ι} {as : List (Action ι)} {i : ι}

omit [DecidableEq ι] in
lemma line_of_owner {v : Direnv.Server ι} {j : ι} (h : Origin cfg v) (howner : v.owner = some j) :
    ∃ pid, v.line = processLine pid ((cfg.calls j).serverCommand cfg.loc) := by
  rcases h with ⟨-, hnone, -⟩ | ⟨k, pid, -, -, hk, -, hline⟩
  · rw [howner] at hnone
    cases hnone
  · obtain rfl : j = k := Option.some.inj (howner.symm.trans hk)
    exact ⟨pid, hline⟩

omit [DecidableEq ι] in
/-- Where a server of the root has come up, it is the only one. -/
lemma up_of_visible (hinv : Inv cfg s) (hready : cfg.Ready i)
    (hup : ∃ v ∈ s.serversOf (cfg.root i), v.visible = true) :
    ∃ v, s.serversOf (cfg.root i) = [v] ∧ v.visible = true := by
  obtain ⟨v, hv, hvis⟩ := hup
  cases hinv.roots i hready with
  | absent _ hempty _ =>
    rw [hempty] at hv
    cases hv
  | coming k v' _ hone hvis' _ _ _ _ =>
    rw [hone, List.mem_singleton] at hv
    rw [← hv, hvis] at hvis'
    cases hvis'
  | up v' hone hvis' _ => exact ⟨v', hone, hvis'⟩

/-- A call that can open its log, or for whose root a server was running. -/
def Served (cfg : Config ι) (i : ι) : Prop := cfg.Logs i ∨ ¬ cfg.NoneRunning (cfg.root i)

/-- For the root of such a call, when it is done, a server has come up. -/
def DoneUp (cfg : Config ι) (s : State ι) : Prop :=
  ∀ i, cfg.Ready i → Served cfg i → s.pc i = .finished → ∃ v ∈ s.serversOf (cfg.root i), v.visible = true

omit [DecidableEq ι] in
/-- Servers stay, and no call is done that was not. -/
lemma DoneUp.frame {s' : State ι} (h : DoneUp cfg s) (hservers : s'.servers = s.servers)
    (hpc : ∀ i, cfg.Ready i → s'.pc i = .finished → s.pc i = .finished) : DoneUp cfg s' := by
  intro i hready hserved hdone
  rw [State.serversOf, hservers]
  exact h i hready hserved (hpc i hready hdone)

/-- **A call is done** when the server of its root has come up. -/
theorem doneUp_step {s' : State ι} (hcfg : Orderly cfg) (hinv : Inv cfg s) (h : DoneUp cfg s)
    (hstep : Stepped cfg s s') : DoneUp cfg s' := by
  have hgoto : ∀ (k : ι) (p : Pc), (p ≠ .finished ∨ ¬ cfg.Ready k) → ∀ i, cfg.Ready i →
      Function.update s.pc k p i = .finished → s.pc i = .finished := by
    intro k p hp i hready hdone
    by_cases hik : i = k
    · subst hik
      rw [Function.update_self] at hdone
      exact absurd hready (hp.resolve_left (not_not_intro hdone))
    · rwa [Function.update_of_ne hik] at hdone
  -- the end of a call, for whose root a server has come up
  have hfinish : ∀ k, (Served cfg k → ∃ v ∈ s.serversOf (cfg.root k), v.visible = true) →
      DoneUp cfg (s.finish cfg k) := by
    intro k hup i hready hserved hdone
    rw [State.serversOf, servers_finish]
    by_cases hik : i = k
    · subst hik
      exact hup hserved
    · rw [pc_finish, Function.update_of_ne hik] at hdone
      exact h i hready hserved hdone
  cases hstep with
  | enter k p hidle hp =>
    refine h.frame rfl (hgoto k p ?_)
    rcases hp with ⟨-, rfl | ⟨rfl, -⟩⟩ | ⟨hnot, -⟩
    · exact Or.inl (by decide)
    · exact Or.inl (by decide)
    · exact Or.inr hnot
  | acquire k l => exact h.frame rfl (hgoto k .checking (Or.inl (by decide)))
  | absent k greps => exact h.frame rfl (hgoto k .starting (Or.inl (by decide)))
  | present k greps hk hlook hdet =>
    have hready := hinv.locked.ready_of_critical (hk.imp_right Or.inr)
    obtain ⟨v, hone, hvis⟩ := up_of_detects hcfg hinv hready hlook hdet
    exact hfinish k fun _ => ⟨v, hone ▸ List.mem_singleton_self v, hvis⟩
  | spawn k pid =>
    intro i hready hserved hdone
    obtain ⟨v, hv, hvis⟩ := h i hready hserved (hgoto k .polling (Or.inl (by decide)) i hready hdone)
    rw [State.serversOf, servers_goto, List.filter_append]
    exact ⟨v, List.mem_append_left _ hv, hvis⟩
  | unlogged k => exact h.frame rfl (hgoto k .polling (Or.inl (by decide)))
  | appear k =>
    intro i hready hserved hdone
    obtain ⟨v, hv, hvis⟩ := h i hready hserved hdone
    rw [serversOf_appear]
    exact ⟨_, List.mem_map_of_mem hv, visible_shown (Or.inl hvis)⟩
  | exhaust k hpoll hup =>
    refine hfinish k fun hserved => ?_
    rcases up_of_exhaust hcfg hinv hpoll hup with ⟨v, hone, hvis⟩ | ⟨hunlogged, hnone, -⟩
    · exact ⟨v, hone ▸ List.mem_singleton_self v, hvis⟩
    · rcases hserved with hlogs | hrunning
      · exact absurd hlogs hunlogged
      · exact absurd hnone hrunning

lemma doneUp_of_run (hcfg : Orderly cfg) (hrun : exec (step cfg) (State.init cfg) as = some s) :
    Inv cfg s ∧ DoneUp cfg s := by
  have hinit : DoneUp cfg (State.init cfg) := fun _ _ _ hdone => by cases hdone
  refine exec_inv (I := fun s => Inv cfg s ∧ DoneUp cfg s) (fun s a s' h hstep => ?_)
    ⟨inv_init hcfg, hinit⟩ hrun
  have hstepped := stepped_of_step hstep
  exact ⟨inv_step hcfg h.1 hstepped, doneUp_step hcfg h.1 h.2 hstepped⟩

/-- Two shells enter one repo. The names of their slugs and groups differ, and their lock files do not. -/
def oneLock : Config Bool :=
  { twoShells with
    calls first :=
      if first then entering "ops" "app.dev" "/home/u/app" else entering "dev.ops" "app" "/home/u/app"
    lockFile path :=
      if path = "/home/u/.local/state/crossbridge/app.dev.ops.lock" then some 0 else none }

end Direnv.Pinned

end Crossbridge
