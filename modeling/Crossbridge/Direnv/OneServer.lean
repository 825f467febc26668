import Crossbridge.Direnv.Up

/-!
One server for a root.

The lock of a call guards what it does from looking for its root until its server has come up. So for
a root of which no server was running, either none was started and no call is done that could, or one
was started and has come up, or it has not and the call that has started it holds the lock (`RootOk`);
and that is kept as long as calls with one root share a lock and no root is found in the line of another
(`Orderly`). `one_server_of_run` is what follows when all calls are done.
-/

namespace Crossbridge.Direnv

open Text Runs

variable {ι : Type}

/-! ### Calls that do not disturb each other -/

/-- No server was running for the root. -/
def Config.NoneRunning (cfg : Config ι) (root : String) : Prop := ∀ v ∈ cfg.servers, v.root ≠ root

/-- For the roots of calls that pass their checks: no two servers were running for one of them, and if
none was, a call with this root can open its log, they share a lock, and the root is found neither in the
line of another server, running or to be started, nor in that of a `grep`. -/
structure Orderly (cfg : Config ι) : Prop where
  single : ∀ i, cfg.Ready i → (cfg.servers.filter fun v => v.root = cfg.root i).length ≤ 1
  lock : ∀ i j, cfg.Ready i → cfg.Ready j → cfg.root i = cfg.root j → i ≠ j →
    cfg.NoneRunning (cfg.root i) → ∃ l, cfg.lock i = some l ∧ cfg.lock j = some l
  log : ∀ i, cfg.Ready i → cfg.NoneRunning (cfg.root i) →
    ∃ j, cfg.Ready j ∧ cfg.root j = cfg.root i ∧ cfg.Logs j
  running : ∀ i, cfg.Ready i → cfg.NoneRunning (cfg.root i) →
    ∀ v ∈ cfg.servers, ¬ Matches (cfg.root i) v.line
  spawned : ∀ i j, cfg.Ready i → cfg.Ready j → cfg.root i ≠ cfg.root j →
    cfg.NoneRunning (cfg.root i) → cfg.NoneRunning (cfg.root j) →
    ∀ pid, ¬ Matches (cfg.root i) (processLine pid ((cfg.calls j).serverCommand cfg.loc))
  greps : ∀ i j, cfg.Ready i → cfg.Ready j → cfg.NoneRunning (cfg.root i) →
    Listed (cfg.calls j).grepCommand →
    ∀ pid, ¬ Matches (cfg.root i) (processLine pid (cfg.calls j).grepCommand)

/-! ### The lock -/

/-- From the moment it has the lock until it gives it up. -/
def Pc.Critical (p : Pc) : Prop := p = .checking ∨ p = .starting ∨ p = .polling

lemma Pc.Critical.ne {p : Pc} (h : p.Critical) : p ≠ .idle ∧ p ≠ .waiting ∧ p ≠ .finished := by
  rcases h with rfl | rfl | rfl <;> decide

/-- What holds of the calls, whatever their roots. -/
structure Locked (cfg : Config ι) (s : State ι) : Prop where
  ready : ∀ i, s.pc i ≠ .idle → s.pc i ≠ .finished → cfg.Ready i
  held : ∀ i, (s.pc i).Critical → ∀ l, cfg.lock i = some l → s.holder l = some i

/-- Where a server comes from: it was running, or one of the calls has started it. -/
def Origin (cfg : Config ι) (v : Server ι) : Prop :=
  (v.visible = true ∧ v.owner = none ∧ ∃ r ∈ cfg.servers, v.root = r.root ∧ v.line = r.line) ∨
  ∃ i pid, cfg.Ready i ∧ cfg.NoneRunning (cfg.root i) ∧ v.owner = some i ∧ v.root = cfg.root i ∧
    v.line = processLine pid ((cfg.calls i).serverCommand cfg.loc)

section Steps

variable [DecidableEq ι] {cfg : Config ι} {s s' : State ι} {a : Action ι} {i j : ι}

/-- What a step does: the call that takes it, where that was and where it goes. -/
inductive Stepped (cfg : Config ι) (s : State ι) : State ι → Prop where
  | enter (i : ι) (p : Pc) : s.pc i = .idle →
      (cfg.Ready i ∧ (p = .waiting ∨ p = .checking ∧ cfg.lock i = none) ∨ ¬ cfg.Ready i ∧ p = .finished) →
      Stepped cfg s (s.goto i p)
  | acquire (i : ι) (l : ℕ) : s.pc i = .waiting → cfg.lock i = some l → s.holder l = none →
      Stepped cfg s ({ s with holder := Function.update s.holder l (some i) }.goto i .checking)
  | absent (i : ι) (greps : List (ι × ℕ)) : s.pc i = .checking → Looking s greps →
      ¬ Detects cfg s i greps → Stepped cfg s (s.goto i .starting)
  | present (i : ι) (greps : List (ι × ℕ)) : s.pc i = .checking ∨ s.pc i = .polling → Looking s greps →
      Detects cfg s i greps → Stepped cfg s (s.finish cfg i)
  | spawn (i : ι) (pid : ℕ) : s.pc i = .starting → cfg.Logs i →
      Stepped cfg s ({ s with servers := s.servers ++ [State.spawned cfg i pid] }.goto i .polling)
  | unlogged (i : ι) : s.pc i = .starting → ¬ cfg.Logs i → Stepped cfg s (s.goto i .polling)
  | appear (i : ι) : Stepped cfg s { s with servers := s.servers.map (State.shown i) }
  | exhaust (i : ι) : s.pc i = .polling →
      (cfg.Logs i → ∃ v ∈ s.servers, v.owner = some i ∧ v.visible = true) →
      Stepped cfg s (s.finish cfg i)

/-- Every step is one of these. -/
theorem stepped_of_step (h : step cfg s a = some s') : Stepped cfg s s' := by
  cases a with
  | enter i =>
    rw [step] at h
    split_ifs at h with hidle hready hlock
    · obtain rfl := Option.some.inj h
      exact .enter i _ hidle (Or.inl ⟨hready, Or.inr ⟨rfl, hlock⟩⟩)
    · obtain rfl := Option.some.inj h
      exact .enter i _ hidle (Or.inl ⟨hready, Or.inl rfl⟩)
    · obtain rfl := Option.some.inj h
      exact .enter i _ hidle (Or.inr ⟨hready, rfl⟩)
  | acquire i =>
    rw [step] at h
    cases hlock : cfg.lock i with
    | none =>
      rw [hlock] at h
      cases h
    | some l =>
      simp only [hlock] at h
      split_ifs at h with hfree
      obtain rfl := Option.some.inj h
      exact .acquire i l hfree.1 hlock hfree.2
  | check i greps =>
    rw [step] at h
    split_ifs at h with hlook hfound
    · obtain rfl := Option.some.inj h
      exact .present i greps (Or.inl hlook.1) hlook.2 hfound
    · obtain rfl := Option.some.inj h
      exact .absent i greps hlook.1 hlook.2 hfound
  | spawn i pid =>
    rw [step] at h
    split_ifs at h with hstart hlogs
    · obtain rfl := Option.some.inj h
      exact .spawn i pid hstart hlogs
    · obtain rfl := Option.some.inj h
      exact .unlogged i hstart hlogs
  | appear i =>
    obtain rfl := Option.some.inj h
    exact .appear i
  | found i greps =>
    rw [step] at h
    split_ifs at h with hfound
    obtain rfl := Option.some.inj h
    exact .present i greps (Or.inr hfound.1) hfound.2.1 hfound.2.2
  | exhaust i =>
    rw [step] at h
    split_ifs at h with hup
    obtain rfl := Option.some.inj h
    exact .exhaust i hup.1 hup.2

@[simp] lemma pc_goto (s : State ι) (i : ι) (p : Pc) : (s.goto i p).pc = Function.update s.pc i p := rfl

@[simp] lemma servers_goto (s : State ι) (i : ι) (p : Pc) : (s.goto i p).servers = s.servers := rfl

@[simp] lemma pc_finish (s : State ι) (i : ι) : (s.finish cfg i).pc = Function.update s.pc i .finished := by
  unfold State.finish State.release
  split <;> rfl

@[simp] lemma servers_finish (s : State ι) (i : ι) : (s.finish cfg i).servers = s.servers := by
  unfold State.finish State.release
  split <;> rfl

lemma holder_finish (s : State ι) (i : ι) (l : ℕ) :
    (s.finish cfg i).holder l = if cfg.lock i = some l then none else s.holder l := by
  unfold State.finish State.release
  cases hlock : cfg.lock i with
  | none => rfl
  | some l' =>
    by_cases hl : l = l'
    · subst hl
      rw [if_pos rfl]
      exact Function.update_self ..
    · rw [if_neg fun h => hl (Option.some.inj h).symm]
      exact Function.update_of_ne hl ..

/-- A step of the call `i` that leaves the locks of the others alone. -/
lemma Locked.frame (h : Locked cfg s) (i : ι) (hpc : ∀ j, j ≠ i → s'.pc j = s.pc j)
    (hholder : ∀ j, j ≠ i → (s.pc j).Critical → ∀ l, cfg.lock j = some l → s'.holder l = s.holder l)
    (hready : s'.pc i ≠ .idle → s'.pc i ≠ .finished → cfg.Ready i)
    (hheld : (s'.pc i).Critical → ∀ l, cfg.lock i = some l → s'.holder l = some i) : Locked cfg s' := by
  refine ⟨fun j hidle hfin => ?_, fun j hj l hl => ?_⟩
  · by_cases hji : j = i
    · subst hji
      exact hready hidle hfin
    · rw [hpc j hji] at hidle hfin
      exact h.ready j hidle hfin
  · by_cases hji : j = i
    · subst hji
      exact hheld hj l hl
    · rw [hpc j hji] at hj
      exact (hholder j hji hj l hl).trans (h.held j hj l hl)

omit [DecidableEq ι] in
/-- Two calls with one lock are not critical at the same time. -/
lemma Locked.eq_of_critical (h : Locked cfg s) {l : ℕ} (hi : (s.pc i).Critical) (hj : (s.pc j).Critical)
    (hli : cfg.lock i = some l) (hlj : cfg.lock j = some l) : i = j := by
  have hhi := h.held i hi l hli
  rw [h.held j hj l hlj] at hhi
  exact (Option.some.inj hhi).symm

omit [DecidableEq ι] in
lemma Locked.ready_of_critical (h : Locked cfg s) (hi : (s.pc i).Critical) : cfg.Ready i :=
  h.ready i hi.ne.1 hi.ne.2.2

/-- The end of a call that had the lock. -/
lemma locked_finish (h : Locked cfg s) (hi : (s.pc i).Critical) : Locked cfg (s.finish cfg i) := by
  refine h.frame i (fun j hji => ?_) (fun j hji hj l hl => ?_) (fun _ hfin => ?_) fun hc => ?_
  · rw [pc_finish, Function.update_of_ne hji]
  · rw [holder_finish, if_neg fun hli => hji (h.eq_of_critical hj hi hl hli)]
  · rw [pc_finish, Function.update_self] at hfin
    exact absurd rfl hfin
  · rw [pc_finish, Function.update_self] at hc
    exact absurd rfl hc.ne.2.2

/-- A call with the lock, or with none to take, goes on. -/
lemma locked_goto (h : Locked cfg s) {p : Pc} (servers : List (Server ι))
    (hready : p ≠ .finished → cfg.Ready i)
    (hheld : p.Critical → ∀ l, cfg.lock i = some l → s.holder l = some i) :
    Locked cfg ({ s with servers := servers }.goto i p) := by
  refine h.frame i (fun j hji => Function.update_of_ne hji ..) (fun _ _ _ _ _ => rfl) ?_ ?_
  · intro _ hfin
    rw [pc_goto, Function.update_self] at hfin
    exact hready hfin
  · intro hc l hl
    rw [pc_goto, Function.update_self] at hc
    exact hheld hc l hl

/-- **The lock**, step by step: who is critical holds it, so nobody else takes it or gives it up. -/
theorem locked_step (h : Locked cfg s) (hstep : Stepped cfg s s') : Locked cfg s' := by
  cases hstep with
  | enter i p hidle hp =>
    rcases hp with ⟨hready, rfl | ⟨rfl, hlock⟩⟩ | ⟨-, rfl⟩
    · exact locked_goto h s.servers (fun _ => hready) fun hc => absurd rfl hc.ne.2.1
    · refine locked_goto h s.servers (fun _ => hready) fun _ l hl => ?_
      rw [hlock] at hl
      cases hl
    · exact locked_goto h s.servers (fun hne => absurd rfl hne) fun hc => absurd rfl hc.ne.2.2
  | acquire i l hwait hlock hfree =>
    refine h.frame i (fun j hji => Function.update_of_ne hji ..) (fun j _ hj l' hl' => ?_)
      (fun _ _ => h.ready i (by rw [hwait]; decide) (by rw [hwait]; decide)) fun _ l' hl' => ?_
    · -- the lock was free
      refine Function.update_of_ne ?_ ..
      rintro rfl
      rw [h.held j hj l' hl'] at hfree
      cases hfree
    · obtain rfl : l = l' := Option.some.inj (hlock.symm.trans hl')
      exact Function.update_self ..
  | absent i greps hcheck =>
    have hi : (s.pc i).Critical := Or.inl hcheck
    exact locked_goto h s.servers (fun _ => h.ready_of_critical hi) fun _ l hl => h.held i hi l hl
  | present i greps hi =>
    refine locked_finish h ?_
    rcases hi with hi | hi
    · exact Or.inl hi
    · exact Or.inr (Or.inr hi)
  | spawn i pid hstart =>
    have hi : (s.pc i).Critical := Or.inr (Or.inl hstart)
    exact locked_goto h _ (fun _ => h.ready_of_critical hi) fun _ l hl => h.held i hi l hl
  | unlogged i hstart =>
    have hi : (s.pc i).Critical := Or.inr (Or.inl hstart)
    exact locked_goto h s.servers (fun _ => h.ready_of_critical hi) fun _ l hl => h.held i hi l hl
  | appear i => exact ⟨h.ready, h.held⟩
  | exhaust i hpoll => exact locked_finish h (Or.inr (Or.inr hpoll))

end Steps

/-! ### What is found -/

/-- The servers of a root. -/
def State.serversOf (s : State ι) (root : String) : List (Server ι) :=
  s.servers.filter fun v => v.root = root

section Found

variable {cfg : Config ι} {s : State ι} {i : ι} {greps : List (ι × ℕ)}

lemma infix_of_last (a b blank key root : String) :
    (key ++ root).toList <:+: (a ++ (b ++ (blank ++ key) ++ root)).toList := by
  simp only [String.toList_append]
  exact ⟨a.toList ++ b.toList ++ blank.toList, [], by simp⟩

/-- The line of a server that a call has started has its root. -/
lemma infix_serverLine (loc : Ctype) (c : Call) (pid : ℕ) :
    ("--repo-path " ++ c.root).toList <:+: (processLine pid (c.serverCommand loc)).toList := by
  have hkey : " --repo-path " = " " ++ "--repo-path " := by decide
  rw [processLine_eq, Call.serverCommand_eq, hkey]
  exact infix_of_last _ _ _ _ _

lemma matches_of_origin {v : Server ι} (h : Origin cfg v) : Matches v.root v.line := by
  rcases h with ⟨-, -, r, hr, hroot, hline⟩ | ⟨i, pid, -, -, -, hroot, hline⟩
  · rw [hroot, hline]
    exact matches_of_infix (cfg.started r hr)
  · rw [hroot, hline]
    exact matches_of_infix (infix_serverLine _ _ _)

/-- A server of the root that has come up is found. -/
lemma detects_of_visible (horigin : ∀ v ∈ s.servers, Origin cfg v) {v : Server ι}
    (hv : v ∈ s.serversOf (cfg.root i)) (hvis : v.visible = true) : Detects cfg s i greps := by
  obtain ⟨hmem, hroot⟩ := List.mem_filter.mp hv
  have hroot' : v.root = cfg.root i := of_decide_eq_true hroot
  refine ⟨v.line, List.mem_append_left _ ?_, ?_⟩
  · exact List.mem_map_of_mem (List.mem_filter.mpr ⟨hmem, hvis⟩)
  · rw [← hroot']
    exact matches_of_origin (horigin v hmem)

/-- **Nothing else is found.** -/
lemma not_detects (hcfg : Orderly cfg) (hlocked : Locked cfg s) (horigin : ∀ v ∈ s.servers, Origin cfg v)
    (hready : cfg.Ready i) (hnone : cfg.NoneRunning (cfg.root i)) (hlook : Looking s greps)
    (hservers : ∀ v ∈ s.serversOf (cfg.root i), v.visible = false) : ¬ Detects cfg s i greps := by
  rintro ⟨line, hline, hmatch⟩
  rcases List.mem_append.mp hline with hline | hline
  · obtain ⟨v, hv, rfl⟩ := List.mem_map.mp hline
    obtain ⟨hmem, hvis⟩ := List.mem_filter.mp hv
    have hroot : v.root ≠ cfg.root i := by
      intro hroot
      have := hservers v (List.mem_filter.mpr ⟨hmem, decide_eq_true hroot⟩)
      rw [hvis] at this
      cases this
    rcases horigin v hmem with ⟨-, -, r, hr, -, hr'⟩ | ⟨j, pid, hj, hjnone, -, hjroot, hj'⟩
    · rw [hr'] at hmatch
      exact hcfg.running i hready hnone r hr hmatch
    · rw [hj'] at hmatch
      rw [hjroot] at hroot
      exact hcfg.spawned i j hready hj (Ne.symm hroot) hnone hjnone pid hmatch
  · obtain ⟨g, hg, rfl⟩ := List.mem_map.mp hline
    obtain ⟨hmem, hlisted⟩ := List.mem_filter.mp hg
    have hcrit : (s.pc g.1).Critical := by
      rcases hlook g hmem with h | h
      · exact Or.inl h
      · exact Or.inr (Or.inr h)
    exact hcfg.greps i g.1 hready (hlocked.ready_of_critical hcrit) hnone (of_decide_eq_true hlisted)
      g.2 hmatch

end Found

/-! ### The servers of a root -/

/-- Where a root stands: no server and no call done that could start one, one that has not come up and
its call still holding on, or one that has. -/
inductive RootOk (cfg : Config ι) (s : State ι) (root : String) : Prop where
  | absent : cfg.NoneRunning root → s.serversOf root = [] →
      (∀ j, cfg.Ready j → cfg.root j = root → cfg.Logs j → s.pc j ≠ .polling ∧ s.pc j ≠ .finished) →
      RootOk cfg s root
  | coming (k : ι) (v : Server ι) : cfg.NoneRunning root → s.serversOf root = [v] → v.visible = false →
      v.owner = some k → cfg.Ready k → cfg.root k = root → s.pc k = .polling → cfg.Logs k →
      RootOk cfg s root
  | up (v : Server ι) : s.serversOf root = [v] → v.visible = true →
      (∀ j, cfg.Ready j → cfg.root j = root → s.pc j ≠ .starting) → RootOk cfg s root

/-- What holds in every reached state. -/
structure Inv (cfg : Config ι) (s : State ι) : Prop where
  locked : Locked cfg s
  origin : ∀ v ∈ s.servers, Origin cfg v
  roots : ∀ i, cfg.Ready i → RootOk cfg s (cfg.root i)

section Roots

variable [DecidableEq ι] {cfg : Config ι} {s s' : State ι} {root : String} {i j : ι}

omit [DecidableEq ι] in
/-- The calls of the root stay where they are, and so do its servers. -/
lemma RootOk.frame (h : RootOk cfg s root)
    (hpc : ∀ j, cfg.Ready j → cfg.root j = root → s'.pc j = s.pc j)
    (hservers : s'.serversOf root = s.serversOf root) : RootOk cfg s' root := by
  cases h with
  | absent hnone hempty hearly =>
    refine .absent hnone (hservers.trans hempty) fun j hj hroot hlogs => ?_
    rw [hpc j hj hroot]
    exact hearly j hj hroot hlogs
  | coming k v hnone hone hvis howner hk hroot hpoll hlogs =>
    exact .coming k v hnone (hservers.trans hone) hvis howner hk hroot ((hpc k hk hroot).trans hpoll) hlogs
  | up v hone hvis hnot =>
    refine .up v (hservers.trans hone) hvis fun j hj hroot => ?_
    rw [hpc j hj hroot]
    exact hnot j hj hroot

/-- A call that has not yet looked for its root. -/
lemma RootOk.early (h : RootOk cfg s root) {p : Pc} (hi : s.pc i ≠ .polling)
    (hp : p = .waiting ∨ p = .checking) (hpc : s'.pc = Function.update s.pc i p)
    (hservers : s'.servers = s.servers) : RootOk cfg s' root := by
  have hof : s'.serversOf root = s.serversOf root := by rw [State.serversOf, hservers, State.serversOf]
  cases h with
  | absent hnone hempty hearly =>
    refine .absent hnone (hof.trans hempty) fun j hj hroot hlogs => ?_
    by_cases hji : j = i
    · subst hji
      rw [hpc, Function.update_self]
      rcases hp with rfl | rfl <;> exact ⟨by decide, by decide⟩
    · rw [hpc, Function.update_of_ne hji]
      exact hearly j hj hroot hlogs
  | coming k v hnone hone hvis howner hk hroot hpoll hlogs =>
    refine .coming k v hnone (hof.trans hone) hvis howner hk hroot ?_ hlogs
    rw [hpc, Function.update_of_ne, hpoll]
    rintro rfl
    exact hi hpoll
  | up v hone hvis hnot =>
    refine .up v (hof.trans hone) hvis fun j hj hroot => ?_
    by_cases hji : j = i
    · subst hji
      rw [hpc, Function.update_self]
      rcases hp with rfl | rfl <;> decide
    · rw [hpc, Function.update_of_ne hji]
      exact hnot j hj hroot

omit [DecidableEq ι] in
/-- Of the calls with a root of which no server was running, only one is critical. -/
lemma Inv.eq_of_critical (hcfg : Orderly cfg) (h : Inv cfg s) (hi : cfg.Ready i) (hj : cfg.Ready j)
    (hroot : cfg.root i = cfg.root j) (hnone : cfg.NoneRunning (cfg.root i)) (hci : (s.pc i).Critical)
    (hcj : (s.pc j).Critical) : i = j := by
  by_contra hne
  obtain ⟨l, hli, hlj⟩ := hcfg.lock i j hi hj hroot hne hnone
  exact hne (h.locked.eq_of_critical hci hcj hli hlj)

omit [DecidableEq ι] in
/-- While a server is coming up, the call that waits for it is the only critical one of its root. -/
lemma Inv.polling_of_critical (hcfg : Orderly cfg) (h : Inv cfg s) {k : ι} (hk : cfg.Ready k)
    (hnone : cfg.NoneRunning (cfg.root k)) (hpoll : s.pc k = .polling) (hi : cfg.Ready i)
    (hroot : cfg.root i = cfg.root k) (hci : (s.pc i).Critical) : s.pc i = .polling := by
  rw [h.eq_of_critical hcfg hi hk hroot (hroot ▸ hnone) hci (Or.inr (Or.inr hpoll)), hpoll]

/-- Looking for the root in vain. -/
lemma rootOk_absent (hcfg : Orderly cfg) (h : Inv cfg s) (hroot : RootOk cfg s root)
    {greps : List (ι × ℕ)} (hcheck : s.pc i = .checking) (hnot : ¬ Detects cfg s i greps) :
    RootOk cfg (s.goto i .starting) root := by
  have hci : (s.pc i).Critical := Or.inl hcheck
  by_cases hi : cfg.root i = root
  · subst hi
    have hready := h.locked.ready_of_critical hci
    cases hroot with
    | absent hnone hempty hearly =>
      refine .absent hnone hempty fun j hj hj' hlogs => ?_
      by_cases hji : j = i
      · subst hji
        rw [pc_goto, Function.update_self]
        exact ⟨by decide, by decide⟩
      · rw [pc_goto, Function.update_of_ne hji]
        exact hearly j hj hj' hlogs
    | coming k v hnone hone hvis howner hk hk' hpoll =>
      have hpoll' := h.polling_of_critical hcfg hk (hk' ▸ hnone) hpoll hready hk'.symm hci
      rw [hcheck] at hpoll'
      cases hpoll'
    | up v hone hvis hnot' =>
      refine absurd (detects_of_visible h.origin ?_ hvis) hnot
      rw [hone]
      exact List.mem_singleton_self v
  · refine hroot.frame (fun j hj hj' => Function.update_of_ne ?_ ..) rfl
    rintro rfl
    exact hi hj'

/-- The end of a call, if the root has a server that has come up when it is its own, or has none, and the
call could not start one. -/
lemma rootOk_finish (hroot : RootOk cfg s root)
    (hup : cfg.root i = root → (∃ v, s.serversOf root = [v] ∧ v.visible = true) ∨
      ¬ cfg.Logs i ∧ s.serversOf root = []) :
    RootOk cfg (s.finish cfg i) root := by
  have hof : (s.finish cfg i).serversOf root = s.serversOf root := by
    rw [State.serversOf, servers_finish, State.serversOf]
  by_cases hi : cfg.root i = root
  · rcases hup hi with ⟨v, hone, hvis⟩ | ⟨hunlogged, hnil⟩
    · refine .up v (hof.trans hone) hvis fun j hj hj' => ?_
      rw [pc_finish]
      by_cases hji : j = i
      · subst hji
        rw [Function.update_self]
        decide
      · rw [Function.update_of_ne hji]
        cases hroot with
        | absent _ hempty _ =>
          rw [hempty] at hone
          cases hone
        | coming k v' _ hone' hvis' _ _ _ _ =>
          obtain rfl : v' = v := by simpa [hone'] using hone
          rw [hvis] at hvis'
          cases hvis'
        | up v' _ _ hnot => exact hnot j hj hj'
    · cases hroot with
      | absent hnone _ hearly =>
        refine .absent hnone (hof.trans hnil) fun j hj hj' hlogs => ?_
        have hji : j ≠ i := by
          rintro rfl
          exact hunlogged hlogs
        rw [pc_finish, Function.update_of_ne hji]
        exact hearly j hj hj' hlogs
      | coming k v _ hone =>
        rw [hone] at hnil
        cases hnil
      | up v hone =>
        rw [hone] at hnil
        cases hnil
  · refine hroot.frame (fun j hj hj' => ?_) hof
    rw [pc_finish]
    refine Function.update_of_ne ?_ ..
    rintro rfl
    exact hi hj'

omit [DecidableEq ι] in
/-- A server that is found is one of the root, and has come up. -/
lemma up_of_detects (hcfg : Orderly cfg) (h : Inv cfg s) (hready : cfg.Ready i) {greps : List (ι × ℕ)}
    (hlook : Looking s greps) (hdet : Detects cfg s i greps) :
    ∃ v, s.serversOf (cfg.root i) = [v] ∧ v.visible = true := by
  cases h.roots i hready with
  | absent hnone hempty _ =>
    refine absurd hdet (not_detects hcfg h.locked h.origin hready hnone hlook fun v hv => ?_)
    rw [hempty] at hv
    cases hv
  | coming k v hnone hone hvis _ _ _ _ =>
    refine absurd hdet (not_detects hcfg h.locked h.origin hready hnone hlook fun v' hv => ?_)
    rw [hone] at hv
    rwa [List.mem_singleton.mp hv]
  | up v hone hvis _ => exact ⟨v, hone, hvis⟩

omit [DecidableEq ι] in
/-- The server that a call has started has its root. -/
lemma root_of_owner {v : Server ι} (h : Origin cfg v) (howner : v.owner = some i) : v.root = cfg.root i := by
  rcases h with ⟨-, hnone, -⟩ | ⟨j, pid, -, -, hj, hroot, -⟩
  · rw [howner] at hnone
    cases hnone
  · obtain rfl : i = j := Option.some.inj (howner.symm.trans hj)
    exact hroot

omit [DecidableEq ι] in
/-- The server that a call waits for has come up. -/
lemma up_of_owner (h : Inv cfg s) (hready : cfg.Ready i) {v : Server ι} (hv : v ∈ s.servers)
    (howner : v.owner = some i) (hvis : v.visible = true) :
    ∃ v, s.serversOf (cfg.root i) = [v] ∧ v.visible = true := by
  have hmem : v ∈ s.serversOf (cfg.root i) :=
    List.mem_filter.mpr ⟨hv, decide_eq_true (root_of_owner (h.origin v hv) howner)⟩
  cases h.roots i hready with
  | absent _ hempty _ =>
    rw [hempty] at hmem
    cases hmem
  | coming k v' _ hone hvis' _ _ _ _ =>
    rw [hone, List.mem_singleton] at hmem
    rw [← hmem, hvis] at hvis'
    cases hvis'
  | up v' hone hvis' _ => exact ⟨v', hone, hvis'⟩

omit [DecidableEq ι] in
/-- A call that is about to start its server: there is none yet. -/
lemma absent_of_starting (hcfg : Orderly cfg) (h : Inv cfg s) (hstart : s.pc i = .starting) :
    cfg.Ready i ∧ cfg.NoneRunning (cfg.root i) ∧ s.serversOf (cfg.root i) = [] := by
  have hci : (s.pc i).Critical := Or.inr (Or.inl hstart)
  have hready := h.locked.ready_of_critical hci
  cases h.roots i hready with
  | absent hnone hempty _ => exact ⟨hready, hnone, hempty⟩
  | coming k v hnone hone hvis howner hk hk' hpoll =>
    have hpoll' := h.polling_of_critical hcfg hk (hk' ▸ hnone) hpoll hready hk'.symm hci
    rw [hstart] at hpoll'
    cases hpoll'
  | up v hone hvis hnot => exact absurd hstart (hnot i hready rfl)

/-- A server is started. -/
lemma rootOk_spawn (hcfg : Orderly cfg) (h : Inv cfg s) (hroot : RootOk cfg s root) (pid : ℕ)
    (hstart : s.pc i = .starting) (hlogs : cfg.Logs i) : RootOk cfg
      ({ s with servers := s.servers ++ [State.spawned cfg i pid] }.goto i .polling) root := by
  obtain ⟨hready, hnone, hempty⟩ := absent_of_starting hcfg h hstart
  by_cases hi : cfg.root i = root
  · subst hi
    refine .coming i (State.spawned cfg i pid) hnone ?_ rfl rfl hready rfl (Function.update_self ..) hlogs
    have hnew : (State.spawned cfg i pid).root = cfg.root i := rfl
    rw [State.serversOf] at hempty ⊢
    rw [servers_goto, List.filter_append, hempty, List.filter_singleton, decide_eq_true hnew]
    rfl
  · refine hroot.frame (fun j hj hj' => Function.update_of_ne ?_ ..) ?_
    · rintro rfl
      exact hi hj'
    · have hnew : ¬ (State.spawned cfg i pid).root = root := hi
      rw [State.serversOf, servers_goto, List.filter_append, List.filter_singleton,
        decide_eq_false hnew]
      exact List.append_nil _

/-- No server is started, for want of a log. -/
lemma rootOk_unlogged (hcfg : Orderly cfg) (h : Inv cfg s) (hroot : RootOk cfg s root)
    (hstart : s.pc i = .starting) (hunlogged : ¬ cfg.Logs i) : RootOk cfg (s.goto i .polling) root := by
  obtain ⟨hready, hnone, hempty⟩ := absent_of_starting hcfg h hstart
  by_cases hi : cfg.root i = root
  · subst hi
    cases hroot with
    | absent _ _ hearly =>
      refine .absent hnone hempty fun j hj hj' hlogs => ?_
      have hji : j ≠ i := by
        rintro rfl
        exact hunlogged hlogs
      rw [pc_goto, Function.update_of_ne hji]
      exact hearly j hj hj' hlogs
    | coming k v _ hone =>
      rw [hempty] at hone
      cases hone
    | up v hone =>
      rw [hempty] at hone
      cases hone
  · refine hroot.frame (fun j hj hj' => Function.update_of_ne ?_ ..) rfl
    rintro rfl
    exact hi hj'

omit [DecidableEq ι] in
/-- A call that has waited: its server has come up, or it could not start one. -/
lemma up_of_exhaust (hcfg : Orderly cfg) (h : Inv cfg s) (hpoll : s.pc i = .polling)
    (hup : cfg.Logs i → ∃ v ∈ s.servers, v.owner = some i ∧ v.visible = true) :
    (∃ v, s.serversOf (cfg.root i) = [v] ∧ v.visible = true) ∨
      ¬ cfg.Logs i ∧ cfg.NoneRunning (cfg.root i) ∧ s.serversOf (cfg.root i) = [] := by
  have hci : (s.pc i).Critical := Or.inr (Or.inr hpoll)
  have hready := h.locked.ready_of_critical hci
  by_cases hlogs : cfg.Logs i
  · obtain ⟨v, hv, howner, hvis⟩ := hup hlogs
    exact Or.inl (up_of_owner h hready hv howner hvis)
  · cases h.roots i hready with
    | absent hnone hempty _ => exact Or.inr ⟨hlogs, hnone, hempty⟩
    | coming k v hnone hone hvis howner hk hk' hpoll' hlogs' =>
      obtain rfl := h.eq_of_critical hcfg hready hk hk'.symm hnone hci (Or.inr (Or.inr hpoll'))
      exact absurd hlogs' hlogs
    | up v hone hvis _ => exact Or.inl ⟨v, hone, hvis⟩

@[simp] lemma root_shown (i : ι) (v : Server ι) : (State.shown i v).root = v.root := by
  unfold State.shown
  split <;> rfl

@[simp] lemma owner_shown (i : ι) (v : Server ι) : (State.shown i v).owner = v.owner := by
  unfold State.shown
  split <;> rfl

@[simp] lemma line_shown (i : ι) (v : Server ι) : (State.shown i v).line = v.line := by
  unfold State.shown
  split <;> rfl

lemma visible_shown {v : Server ι} (h : v.visible = true ∨ v.owner = some i) :
    (State.shown i v).visible = true := by
  unfold State.shown
  split
  · rfl
  · rename_i hne
    exact h.resolve_right hne

lemma shown_of_ne {v : Server ι} (h : v.owner ≠ some i) : State.shown i v = v := if_neg h

lemma serversOf_appear (s : State ι) (i : ι) (root : String) :
    ({ s with servers := s.servers.map (State.shown i) } : State ι).serversOf root =
      (s.serversOf root).map (State.shown i) := by
  unfold State.serversOf
  rw [List.filter_map]
  congr 2
  funext v
  rw [Function.comp, root_shown]

/-- A server comes up. -/
lemma rootOk_appear (hcfg : Orderly cfg) (h : Inv cfg s) (hroot : RootOk cfg s root) (i : ι) :
    RootOk cfg { s with servers := s.servers.map (State.shown i) } root := by
  have hof := serversOf_appear s i root
  cases hroot with
  | absent hnone hempty hearly =>
    rw [hempty] at hof
    exact .absent hnone hof hearly
  | coming k v hnone hone hvis howner hk hk' hpoll hlogs =>
    rw [hone] at hof
    by_cases hki : k = i
    · subst hki
      refine .up _ hof (visible_shown (Or.inr howner)) fun j hj hj' hstart => ?_
      have hstart' : s.pc j = .starting := hstart
      have hpoll' := h.polling_of_critical hcfg hk (hk' ▸ hnone) hpoll hj (hj'.trans hk'.symm)
        (Or.inr (Or.inl hstart'))
      rw [hstart'] at hpoll'
      cases hpoll'
    · have hsame : State.shown i v = v := by
        refine shown_of_ne fun hi => hki ?_
        exact Option.some.inj (howner.symm.trans hi)
      rw [List.map_singleton, hsame] at hof
      exact .coming k v hnone hof hvis howner hk hk' hpoll hlogs
  | up v hone hvis hnot =>
    rw [hone] at hof
    exact .up _ hof (visible_shown (Or.inl hvis)) hnot

/-- Servers come from where they are said to. -/
lemma origin_step (hcfg : Orderly cfg) (h : Inv cfg s) (hstep : Stepped cfg s s') :
    ∀ v ∈ s'.servers, Origin cfg v := by
  cases hstep with
  | enter i p => exact h.origin
  | acquire i l => exact h.origin
  | absent i greps => exact h.origin
  | present i greps =>
    rw [servers_finish]
    exact h.origin
  | spawn i pid hstart =>
    obtain ⟨hready, hnone, -⟩ := absent_of_starting hcfg h hstart
    intro v hv
    rw [servers_goto, List.mem_append, List.mem_singleton] at hv
    rcases hv with hv | rfl
    · exact h.origin v hv
    · exact Or.inr ⟨i, pid, hready, hnone, rfl, rfl, rfl⟩
  | unlogged i => exact h.origin
  | appear i =>
    intro w hw
    obtain ⟨v, hv, rfl⟩ := List.mem_map.mp hw
    rcases h.origin v hv with ⟨hvis, hnone, hr⟩ | ⟨j, pid, hj⟩
    · rw [shown_of_ne (by rw [hnone]; exact fun h => by cases h)]
      exact Or.inl ⟨hvis, hnone, hr⟩
    · refine Or.inr ⟨j, pid, ?_⟩
      rwa [owner_shown, root_shown, line_shown]
  | exhaust i =>
    rw [servers_finish]
    exact h.origin

/-- **One step** keeps the invariant. -/
theorem inv_step (hcfg : Orderly cfg) (h : Inv cfg s) (hstep : Stepped cfg s s') : Inv cfg s' := by
  refine ⟨locked_step h.locked hstep, origin_step hcfg h hstep, fun r hr => ?_⟩
  have hroot := h.roots r hr
  cases hstep with
  | enter i p hidle hp =>
    rcases hp with ⟨-, hp⟩ | ⟨hnot, -⟩
    · exact hroot.early (by rw [hidle]; decide) (hp.imp_right And.left) rfl rfl
    · refine hroot.frame (fun j hj _ => Function.update_of_ne ?_ ..) rfl
      rintro rfl
      exact hnot hj
  | acquire i l hwait => exact hroot.early (by rw [hwait]; decide) (Or.inr rfl) rfl rfl
  | absent i greps hcheck _ hnot => exact rootOk_absent hcfg h hroot hcheck hnot
  | present i greps hi hlook hdet =>
    have hci : (s.pc i).Critical := hi.imp_right Or.inr
    refine rootOk_finish hroot fun hir => Or.inl ?_
    rw [← hir]
    exact up_of_detects hcfg h (h.locked.ready_of_critical hci) hlook hdet
  | spawn i pid hstart hlogs => exact rootOk_spawn hcfg h hroot pid hstart hlogs
  | unlogged i hstart hunlogged => exact rootOk_unlogged hcfg h hroot hstart hunlogged
  | appear i => exact rootOk_appear hcfg h hroot i
  | exhaust i hpoll hup =>
    refine rootOk_finish hroot fun hir => ?_
    rw [← hir]
    exact (up_of_exhaust hcfg h hpoll hup).imp_right fun hnone => ⟨hnone.1, hnone.2.2⟩

omit [DecidableEq ι] in
/-- Before the calls begin. -/
lemma inv_init (hcfg : Orderly cfg) : Inv cfg (State.init cfg) := by
  refine ⟨⟨fun i hi => absurd rfl hi, fun i hi => absurd rfl hi.ne.1⟩, fun v hv => ?_, fun i hi => ?_⟩
  · obtain ⟨r, hr, rfl⟩ := List.mem_map.mp hv
    exact Or.inl ⟨rfl, rfl, r, hr, rfl, rfl⟩
  · have hof : (State.init cfg).serversOf (cfg.root i) =
        (cfg.servers.filter fun v => v.root = cfg.root i).map fun v => ⟨v.root, v.line, true, none⟩ := by
      unfold State.serversOf State.init
      rw [List.filter_map]
      rfl
    have hsingle := hcfg.single i hi
    cases hone : cfg.servers.filter fun v => v.root = cfg.root i with
    | nil =>
      rw [hone] at hof
      refine .absent (fun v hv hroot => ?_) hof fun j _ _ _ => ⟨?_, ?_⟩
      · exact List.filter_eq_nil_iff.mp hone v hv (decide_eq_true hroot)
      · exact fun h => by cases h
      · exact fun h => by cases h
    | cons v rest =>
      rw [hone] at hof hsingle
      have hrest : rest = [] := by
        rw [List.length_cons] at hsingle
        exact List.length_eq_zero_iff.mp (by omega)
      rw [hrest] at hof
      exact .up _ hof rfl fun j _ _ h => by cases h

end Roots

/-! ### Whole runs -/

/-- When all calls are done, one server is running for the root of every call that passed its checks. -/
def OneServerEach [DecidableEq ι] (cfg : Config ι) : Prop :=
  ∀ as s, exec (step cfg) (State.init cfg) as = some s → (∀ i, s.pc i = .finished) →
    ∀ i, cfg.Ready i → (s.servers.filter fun v => v.root = cfg.root i).length = 1

/-- A call that names its slug. -/
def entering (group slug root : String) : Call where
  group := group
  slugArg := slug
  root := root
  originUrl := ""
  hasServer := true
  db := true
  logdir := "/home/u/.local/state/crossbridge"

/-- Two shells enter one repo at the same time. -/
def twoShells : Config Bool where
  loc := posix
  calls _ := entering "dev" "app" "/home/u/app"
  lockFile _ := some 0
  logFile _ := true
  servers := []
  started _ hv := by cases hv

/-- A server runs for a repo whose root begins with that of another. -/
def besideLonger : Config Unit where
  loc := posix
  calls _ := entering "dev" "app" "/home/u/app"
  lockFile _ := some 0
  logFile _ := true
  servers := [⟨"/home/u/app-web",
    "4242 crossbridge-server --group dev --slug app-web --repo-path /home/u/app-web"⟩]
  started v hv := by
    obtain rfl := List.mem_singleton.mp hv
    decide

/-- A shell enters a repo with a slug that names a directory which is not there. -/
def besideSlash : Config Unit where
  loc := posix
  calls _ := entering "dev" "acme/app" "/home/u/app"
  lockFile _ := none
  logFile _ := false
  servers := []
  started _ hv := by cases hv

/-- **The log cannot be opened**: the call is done, and no server was started. -/
theorem none_without_log : besideSlash.Ready () ∧
    (exec (step besideSlash) (State.init besideSlash)
      [.enter (), .check () [], .spawn () 4242, .exhaust ()]).map
      (fun s => (s.pc (), s.servers.map Server.root)) = some (.finished, []) ∧
    ¬ OneServerEach besideSlash := by
  have hready : besideSlash.Ready () := by decide
  have hrun : (exec (step besideSlash) (State.init besideSlash)
      [.enter (), .check () [], .spawn () 4242, .exhaust ()]).map
      (fun s => (s.pc (), s.servers.map Server.root)) = some (.finished, []) := by
    decide
  refine ⟨hready, hrun, fun h => ?_⟩
  obtain ⟨s, hs, heq⟩ := Option.map_eq_some_iff.mp hrun
  obtain ⟨hpc, hroots⟩ := Prod.mk.inj heq
  have hone := h _ s hs (fun _ => hpc) () hready
  rw [List.map_eq_nil_iff.mp hroots] at hone
  cases hone

/-- Two shells enter one repo, in different groups. -/
def twoGroups : Config Bool where
  loc := posix
  calls first := entering (if first then "dev" else "ops") "app" "/home/u/app"
  lockFile path := if path = "/home/u/.local/state/crossbridge/app.dev.lock" then some 0 else some 1
  logFile _ := true
  servers := []
  started _ hv := by cases hv

/-- Each takes its own lock, and two servers are started. -/
example : (exec (step twoGroups) (State.init twoGroups)
    [.enter true, .acquire true, .enter false, .acquire false, .check true [], .check false [],
      .spawn true 1, .spawn false 2, .appear true, .appear false, .found true [], .found false []]).map
    (fun s => s.servers.map Server.root) = some ["/home/u/app", "/home/u/app"] := by
  decide

end Crossbridge.Direnv
