import Crossbridge.Supervisor.News
import Crossbridge.Topology.ProcStep

/-!
How processes, streams and connections belong together.

A process holds a stream that it has opened and that is open on its side, and an open stream is held
by the process that has opened it. What is registered on a stream, in a `Register` that is not read,
in the queue or as a connection, is the slug and the group of its owner. Until that registration is
handled (`Sys.Waits`) nothing is written on the stream; from then on the supervisor has it open
exactly as long as it has a connection on it.
-/

namespace Crossbridge.Topology

open Crossbridge.Protocol Crossbridge.Server Crossbridge.Supervisor

/-- What the owner of a stream registers. -/
def Sys.registerOf (y : Sys) (st : StreamId) : Register :=
  ⟨(y.proc (y.stream st).owner).slug, (y.proc (y.stream st).owner).group⟩

/-- The registration on a stream has not been read, or not been handled. -/
def Sys.Waits (y : Sys) (st : StreamId) : Prop :=
  (y.stream st).register ≠ none ∨ ∃ s, y.sup = some s ∧ st ∈ waiting s.queue

/-- What the supervisor knows of the streams. -/
structure SupLinked (y : Sys) (s : Sup) : Prop where
  base : s.state.baseDir = y.root
  maps : Consistent s.state
  streams : OwnStreams s.state
  nodup : (waiting s.queue).Nodup
  queue : ∀ st r, .registered st r ∈ s.queue → st < y.nextStream ∧ r = y.registerOf st ∧
    (y.stream st).register = none ∧ (y.stream st).supOpen = true
  conns : ∀ id rec, s.state.conns.lookup id = some rec → rec.stream < y.nextStream ∧
    ⟨rec.slug, rec.group⟩ = y.registerOf rec.stream ∧ ¬ y.Waits rec.stream ∧
    (y.stream rec.stream).supOpen = true
  opened : ∀ st < y.nextStream, (y.stream st).supOpen = true → ¬ y.Waits st →
    ∃ id rec, s.state.conns.lookup id = some rec ∧ rec.stream = st

structure Linked (y : Sys) : Prop where
  holds : ∀ x st, (y.proc x).phase.stream = some st →
    st < y.nextStream ∧ (y.stream st).owner = x ∧ (y.stream st).srvOpen = true
  held : ∀ st, (y.stream st).srvOpen = true → (y.proc (y.stream st).owner).phase.stream = some st
  started : ∀ st < y.nextStream, (y.proc (y.stream st).owner).phase ≠ .absent
  idle : ∀ x, (y.proc x).phase.Idle → (y.proc x).listeners.entries = ∅
  register : ∀ st r, (y.stream st).register = some r → st < y.nextStream ∧ r = y.registerOf st
  quiet : ∀ st, y.Waits st → (y.stream st).inbox = [] ∧ ((y.stream st).srvOpen = true →
    (y.proc (y.stream st).owner).phase = .registering st)
  down : y.sup = none → ∀ st, (y.stream st).supOpen = false
  sup : ∀ s, y.sup = some s → SupLinked y s

lemma linked_init (root : Path) : Linked (Sys.init root) where
  holds x st h := by cases h
  held st h := by cases h
  started st h := absurd h (Nat.not_lt_zero st)
  idle x _ := rfl
  register st r h := by cases h
  quiet st h := by
    rcases h with h | ⟨s, hs, -⟩
    · exact absurd rfl h
    · cases hs
  down _ _ := rfl
  sup s h := by cases h

/-! ### The steps of one process -/

section Proc

variable {x : ProcId} {y y' : Sys}

lemma ProcStep.registerOf (hp : ProcStep x y y') (st : StreamId) :
    y'.registerOf st = y.registerOf st := by
  unfold Sys.registerOf
  rw [hp.owner]
  by_cases hx : (y.stream st).owner = x
  · rw [hx, hp.slug, hp.group]
  · rw [hp.other _ hx]

lemma ProcStep.waits (hp : ProcStep x y y') (st : StreamId) : y'.Waits st ↔ y.Waits st := by
  unfold Sys.Waits
  rw [hp.register, hp.sup]

lemma SupLinked.proc {s : Sup} (hl : SupLinked y s) (hp : ProcStep x y y') : SupLinked y' s where
  base := by rw [hp.root, hl.base]
  maps := hl.maps
  streams := hl.streams
  nodup := hl.nodup
  queue st r hr := by
    rw [hp.next, hp.registerOf, hp.register, hp.supOpen]
    exact hl.queue st r hr
  conns id rec hid := by
    rw [hp.next, hp.registerOf, hp.waits, hp.supOpen]
    exact hl.conns id rec hid
  opened st hst := by
    rw [hp.supOpen, hp.waits]
    exact hl.opened st (hp.next ▸ hst)

/-- **A step of a process** keeps the links. -/
theorem Linked.proc (h : Linked y) (hp : ProcStep x y y') : Linked y' where
  holds x' st hst := by
    rw [hp.next, hp.owner]
    by_cases hx : x' = x
    · subst hx
      obtain ⟨hold, hopen⟩ := hp.keeps st hst
      rw [hopen]
      exact h.holds x' st hold
    · rw [hp.other x' hx] at hst
      obtain ⟨hlt, howner, hopen⟩ := h.holds x' st hst
      refine ⟨hlt, howner, ?_⟩
      rw [hp.stream st, hopen]
      intro heq
      exact hx (howner.symm.trans (h.holds x st heq).2.1)
  held st hopen := by
    rw [hp.owner]
    obtain ⟨hopen, hkept⟩ := hp.srvOpen st hopen
    have hst := h.held st hopen
    by_cases hx : (y.stream st).owner = x
    · rw [hx] at hst ⊢
      exact hkept hst
    · rw [hp.other _ hx, hst]
  started st hst := by
    rw [hp.owner]
    by_cases hx : (y.stream st).owner = x
    · rw [hx]
      exact hp.started
    · rw [hp.other _ hx]
      exact h.started st (hp.next ▸ hst)
  idle x' hidle := by
    by_cases hx : x' = x
    · subst hx
      exact hp.idle hidle
    · rw [hp.other x' hx] at hidle ⊢
      exact h.idle x' hidle
  register st r hr := by
    rw [hp.next, hp.registerOf]
    exact h.register st r (hp.register st ▸ hr)
  quiet st hw := by
    obtain ⟨hin, hreg⟩ := h.quiet st ((hp.waits st).mp hw)
    refine ⟨List.suffix_nil.mp (hin ▸ hp.inbox st), fun hopen => ?_⟩
    rw [hp.owner]
    obtain ⟨hopen, hkept⟩ := hp.srvOpen st hopen
    have hph := hreg hopen
    by_cases hx : (y.stream st).owner = x
    · rw [hx] at hph ⊢
      exact hp.quiet st hph (hkept (by rw [hph]; rfl)) hin
    · rw [hp.other _ hx, hph]
  down hnone st := by
    rw [hp.supOpen]
    exact h.down (hp.sup ▸ hnone) st
  sup s hs := (h.sup s (hp.sup ▸ hs)).proc hp

end Proc

/-! ### The other steps -/

section Steps

variable {y y' : Sys} {x : ProcId} {st : StreamId} {s : Sup}

lemma Linked.waits_lt (h : Linked y) (hw : y.Waits st) : st < y.nextStream := by
  rcases hw with hr | ⟨s, hs, hin⟩
  · obtain ⟨r, hr⟩ := Option.ne_none_iff_exists'.mp hr
    exact (h.register st r hr).1
  · obtain ⟨r, hr⟩ := mem_waiting.mp hin
    exact ((h.sup s hs).queue st r hr).1

/-- The process that owns a stream has started. -/
lemma Linked.owner_ne (h : Linked y) (habsent : (y.proc x).phase = .absent)
    (hst : st < y.nextStream) : (y.stream st).owner ≠ x := by
  rintro rfl
  exact h.started st hst habsent

/-- **A process starts.** -/
lemma Linked.start (h : Linked y) (habsent : (y.proc x).phase = .absent) (slug group : String) :
    Linked (y.setProc x ⟨group, ⟨slug, ∅⟩, .offline⟩) := by
  have hother : ∀ st < y.nextStream, (y.setProc x ⟨group, ⟨slug, ∅⟩, .offline⟩).proc
      (y.stream st).owner = y.proc (y.stream st).owner := fun st hst => by
    rw [Sys.setProc_proc, if_neg (h.owner_ne habsent hst)]
  have hreg : ∀ st < y.nextStream,
      (y.setProc x ⟨group, ⟨slug, ∅⟩, .offline⟩).registerOf st = y.registerOf st := fun st hst => by
    unfold Sys.registerOf
    rw [Sys.setProc_stream, hother st hst]
  refine ⟨fun x' st hst => ?_, fun st hopen => ?_, fun st hst => ?_, fun x' hidle => ?_,
    fun st r hr => ?_, fun st hw => ?_, h.down, fun s hs => ?_⟩
  · rw [Sys.setProc_proc] at hst
    split at hst
    · cases hst
    · exact h.holds x' st hst
  · have hst := h.held st hopen
    rw [Sys.setProc_stream, hother st (h.holds _ st hst).1]
    exact hst
  · rw [Sys.setProc_stream, hother st hst]
    exact h.started st hst
  · rw [Sys.setProc_proc] at hidle ⊢
    split at hidle
    · rename_i hx
      rw [if_pos hx]
    · rename_i hx
      rw [if_neg hx]
      exact h.idle x' hidle
  · obtain ⟨hlt, heq⟩ := h.register st r hr
    exact ⟨hlt, heq.trans (hreg st hlt).symm⟩
  · obtain ⟨hin, hph⟩ := h.quiet st hw
    refine ⟨hin, fun hopen => ?_⟩
    rw [Sys.setProc_stream, hother st (h.waits_lt hw)]
    exact hph hopen
  · obtain ⟨hbase, hmaps, hstreams, hnodup, hqueue, hconns, hopened⟩ := h.sup s hs
    refine ⟨hbase, hmaps, hstreams, hnodup, fun st r hr => ?_, fun id rec hid => ?_, hopened⟩
    · obtain ⟨hlt, heq, hrest⟩ := hqueue st r hr
      exact ⟨hlt, heq.trans (hreg st hlt).symm, hrest⟩
    · obtain ⟨hlt, heq, hrest⟩ := hconns id rec hid
      exact ⟨hlt, heq.trans (hreg _ hlt).symm, hrest⟩

lemma step_start {slug group : String} (hstep : step y (.start x slug group) = some y') :
    (y.proc x).phase = .absent ∧ y' = y.setProc x ⟨group, ⟨slug, ∅⟩, .offline⟩ := by
  simp only [step] at hstep
  split at hstep
  · rename_i habsent
    exact ⟨habsent, (Option.some.inj hstep).symm⟩
  · cases hstep

lemma step_read (hstep : step y (.read st) = some y') : ∃ s r, y.sup = some s ∧
    (y.stream st).register = some r ∧ (y.stream st).supOpen = true ∧
    y' = { y.setStream st { y.stream st with register := none } with
      sup := some { s with queue := s.queue ++ [.registered st r] } } := by
  simp only [step] at hstep
  split at hstep
  · rename_i s r hsup hr
    split at hstep
    · rename_i hopen
      exact ⟨s, r, hsup, hr, hopen, (Option.some.inj hstep).symm⟩
    · cases hstep
  · cases hstep

lemma step_eof {id : ConnId} (hstep : step y (.eof id) = some y') : ∃ s rec, y.sup = some s ∧
    s.state.conns.lookup id = some rec ∧ (y.stream rec.stream).srvOpen = false ∧
    y' = { y with sup := some { s with queue := s.queue ++ [.departed id] } } := by
  simp only [step] at hstep
  split at hstep
  · cases hstep
  · rename_i s hsup
    split at hstep
    · cases hstep
    · rename_i rec hid
      split at hstep
      · cases hstep
      · rename_i hclosed
        exact ⟨s, rec, hsup, hid, Bool.not_eq_true _ ▸ hclosed, (Option.some.inj hstep).symm⟩

lemma step_supKill (hstep : step y .supKill = some y') : (∃ s, y.sup = some s) ∧
    y' = { y with sup := none, stream := fun st => { y.stream st with supOpen := false } } := by
  simp only [step] at hstep
  split at hstep
  · cases hstep
  · rename_i s hsup
    exact ⟨⟨s, hsup⟩, (Option.some.inj hstep).symm⟩

lemma step_supStart (hstep : step y .supStart = some y') : y.sup = none ∧
    y' = { y with sup := some ⟨State.new y.root, []⟩, tree := prepareBaseDir y.tree y.root } := by
  simp only [step] at hstep
  split at hstep
  · cases hstep
  · rename_i hnone
    exact ⟨hnone, (Option.some.inj hstep).symm⟩

/-- A process gets a new stream. -/
structure Connects (x : ProcId) (y y' : Sys) : Prop where
  up : y.sup ≠ none
  offline : (y.proc x).phase = .offline
  root : y'.root = y.root
  sup : y'.sup = y.sup
  tree : y'.tree = y.tree
  next : y'.nextStream = y.nextStream + 1
  new : y'.stream y.nextStream = ⟨x, some ⟨(y.proc x).slug, (y.proc x).group⟩, [], true, true⟩
  old : ∀ st, st ≠ y.nextStream → y'.stream st = y.stream st
  proc : ∀ x', y'.proc x' =
    if x' = x then { y.proc x with phase := .registering y.nextStream } else y.proc x'

lemma step_connect (hstep : step y (.connect x) = some y') : Connects x y y' := by
  cases hsup : y.sup with
  | none => simp [step, hsup] at hstep
  | some s =>
    cases hph : (y.proc x).phase with
    | offline =>
      simp only [step, hsup, hph, Option.some.injEq] at hstep
      subst hstep
      refine ⟨?_, hph, rfl, rfl, rfl, rfl, Function.update_self .., fun st hst => ?_, fun x' => ?_⟩
      · rw [hsup]
        exact Option.some_ne_none s
      · exact Function.update_of_ne hst ..
      · exact Sys.setPhase_proc ..
    | absent | registering | session | closing | exited => simp [step, hsup, hph] at hstep

lemma Connects.owned (hc : Connects x y y') (x' : ProcId) : (y'.proc x').listeners = (y.proc x').listeners ∧
    (y'.proc x').group = (y.proc x').group := by
  rw [hc.proc]
  split
  · rename_i hx
    rw [hx]
    exact ⟨rfl, rfl⟩
  · exact ⟨rfl, rfl⟩

lemma Connects.registerOf (hc : Connects x y y') (hst : st ≠ y.nextStream) :
    y'.registerOf st = y.registerOf st := by
  unfold Sys.registerOf Proc.slug
  rw [hc.old st hst, (hc.owned _).1, (hc.owned _).2]

lemma Connects.waits (hc : Connects x y y') (hst : st ≠ y.nextStream) :
    y'.Waits st ↔ y.Waits st := by
  unfold Sys.Waits
  rw [hc.old st hst, hc.sup]

lemma Connects.lt (hc : Connects x y y') (hst : st < y.nextStream) :
    st < y'.nextStream ∧ st ≠ y.nextStream := by
  rw [hc.next]
  exact ⟨Nat.lt_succ_of_lt hst, ne_of_lt hst⟩

lemma Connects.back (hc : Connects x y y') (hst : st < y'.nextStream) (hne : st ≠ y.nextStream) :
    st < y.nextStream := by
  rw [hc.next] at hst
  exact lt_of_le_of_ne (Nat.lt_succ_iff.mp hst) hne

/-- **A process connects.** -/
lemma Linked.connect (h : Linked y) (hc : Connects x y y') : Linked y' := by
  have hself : y'.proc x = { y.proc x with phase := .registering y.nextStream } := by
    rw [hc.proc, if_pos rfl]
  -- the process had no stream
  have hfree : ∀ st, (y.proc x).phase.stream ≠ some st := fun st hst => by
    rw [hc.offline] at hst
    cases hst
  refine ⟨fun x' st hst => ?_, fun st hopen => ?_, fun st hst => ?_, fun x' hidle => ?_,
    fun st r hr => ?_, fun st hw => ?_, fun hnone => ?_, fun s hs => ?_⟩
  · by_cases hx : x' = x
    · rw [hx, hself] at hst
      obtain rfl := Option.some.inj hst
      rw [hc.new, hc.next, hx]
      exact ⟨Nat.lt_succ_self _, rfl, rfl⟩
    · rw [hc.proc, if_neg hx] at hst
      obtain ⟨hst', howner, hopen⟩ := h.holds x' st hst
      rw [hc.old st (hc.lt hst').2]
      exact ⟨(hc.lt hst').1, howner, hopen⟩
  · by_cases hst : st = y.nextStream
    · rw [hst, hc.new, hself]
      rfl
    · rw [hc.old st hst] at hopen ⊢
      have hst' := h.held st hopen
      rw [hc.proc, if_neg, hst']
      intro hx
      exact hfree st (hx ▸ hst')
  · rw [hc.proc]
    split
    · intro hph
      cases hph
    · rename_i hx
      by_cases hst' : st = y.nextStream
      · rw [hst', hc.new] at hx
        exact absurd rfl hx
      · rw [hc.old st hst']
        exact h.started st (hc.back hst hst')
  · have hidle' : (y.proc x').phase.Idle := by
      by_cases hx : x' = x
      · rw [hx, hc.offline]
        trivial
      · rwa [hc.proc, if_neg hx] at hidle
    rw [hc.proc]
    split
    · rename_i hx
      exact hx ▸ h.idle x' hidle'
    · exact h.idle x' hidle'
  · by_cases hst : st = y.nextStream
    · rw [hst, hc.new] at hr
      rw [hst, hc.next, ← Option.some.inj hr]
      refine ⟨Nat.lt_succ_self _, ?_⟩
      rw [Sys.registerOf, hc.new]
      simp only [Proc.slug, (hc.owned x).1, (hc.owned x).2]
    · rw [hc.old st hst] at hr
      obtain ⟨hst', heq⟩ := h.register st r hr
      exact ⟨(hc.lt hst').1, heq.trans (hc.registerOf hst).symm⟩
  · by_cases hst : st = y.nextStream
    · rw [hst, hc.new, hself]
      exact ⟨rfl, fun _ => rfl⟩
    · obtain ⟨hin, hph⟩ := h.quiet st ((hc.waits hst).mp hw)
      rw [hc.old st hst]
      refine ⟨hin, fun hopen => ?_⟩
      have hph := hph hopen
      rw [hc.proc, if_neg, hph]
      intro hx
      rw [hx, hc.offline] at hph
      cases hph
  · exact absurd (hc.sup ▸ hnone) hc.up
  · have hl := h.sup s (hc.sup ▸ hs)
    refine ⟨hc.root ▸ hl.base, hl.maps, hl.streams, hl.nodup, fun st r hr => ?_, fun id rec hid => ?_,
      fun st hst hopen hw => ?_⟩
    · obtain ⟨hst, heq, hrest⟩ := hl.queue st r hr
      rw [hc.registerOf (hc.lt hst).2, hc.old st (hc.lt hst).2]
      exact ⟨(hc.lt hst).1, heq, hrest⟩
    · obtain ⟨hst, heq, hw, hopen⟩ := hl.conns id rec hid
      rw [hc.registerOf (hc.lt hst).2, hc.old _ (hc.lt hst).2, hc.waits (hc.lt hst).2]
      exact ⟨(hc.lt hst).1, heq, hw, hopen⟩
    · by_cases hst' : st = y.nextStream
      · refine absurd (Or.inl ?_) hw
        rw [hst', hc.new]
        exact Option.some_ne_none _
      · rw [hc.old st hst'] at hopen
        rw [hc.waits hst'] at hw
        exact hl.opened st (hc.back hst hst') hopen hw

/-- **An event comes** to the queue: the registration of a stream, which is off the stream then, or a
departure. -/
lemma Linked.enqueue {q : List Event} (h : Linked y) (hsup : y.sup = some s)
    (hq : ∀ st r, .registered st r ∈ q → (y.stream st).register = some r ∧ (y.stream st).supOpen = true)
    (hnodup : (waiting q).Nodup)
    (hsup' : y'.sup = some { s with queue := s.queue ++ q }) (hroot : y'.root = y.root)
    (hnext : y'.nextStream = y.nextStream) (hproc : y'.proc = y.proc)
    (hstream : ∀ st, y'.stream st = { y.stream st with
      register := if st ∈ waiting q then none else (y.stream st).register }) : Linked y' := by
  have hl := h.sup s hsup
  have hreg : ∀ st, y'.registerOf st = y.registerOf st := fun st => by
    unfold Sys.registerOf
    rw [hstream, hproc]
  have hwaits : ∀ st, y'.Waits st ↔ y.Waits st := by
    intro st
    unfold Sys.Waits
    rw [hstream]
    by_cases hin : st ∈ waiting q
    · obtain ⟨r, hr⟩ := mem_waiting.mp hin
      refine iff_of_true (Or.inr ⟨_, hsup', ?_⟩) (Or.inl ?_)
      · rw [waiting_append]
        exact List.mem_append_right _ hin
      · rw [(hq st r hr).1]
        exact Option.some_ne_none r
    · simp only [hsup, hsup', Option.some.injEq, exists_eq_left', waiting_append, List.mem_append, hin,
        or_false, if_false]
  refine ⟨fun x st hst => ?_, fun st hopen => ?_, fun st hst => ?_, fun x => hproc ▸ h.idle x,
    fun st r hr => ?_, fun st hw => ?_, fun hnone => ?_, fun s' hs' => ?_⟩
  · rw [hproc] at hst
    rw [hstream, hnext]
    exact h.holds x st hst
  · rw [hstream] at hopen ⊢
    rw [hproc]
    exact h.held st hopen
  · rw [hstream, hproc]
    exact h.started st (hnext ▸ hst)
  · rw [hstream] at hr
    rw [hnext, hreg]
    simp only at hr
    split at hr
    · cases hr
    · exact h.register st r hr
  · rw [hstream, hproc]
    exact h.quiet st ((hwaits st).mp hw)
  · rw [hsup'] at hnone
    cases hnone
  · obtain rfl := Option.some.inj (hsup'.symm.trans hs')
    refine ⟨hroot ▸ hl.base, hl.maps, hl.streams, ?_, fun st r hr => ?_, fun id rec hid => ?_,
      fun st hst => ?_⟩
    · rw [waiting_append]
      refine hl.nodup.append hnodup fun st hst hst' => ?_
      obtain ⟨r, hr⟩ := mem_waiting.mp hst
      obtain ⟨r', hr'⟩ := mem_waiting.mp hst'
      have hnone := (hl.queue st r hr).2.2.1
      rw [(hq st r' hr').1] at hnone
      cases hnone
    · rw [hnext, hreg, hstream]
      rcases List.mem_append.mp hr with hr | hr
      · obtain ⟨hlt, heq, hnone, hopen⟩ := hl.queue st r hr
        refine ⟨hlt, heq, ?_, hopen⟩
        simp only [hnone, ite_self]
      · obtain ⟨hr', hopen⟩ := hq st r hr
        obtain ⟨hlt, heq⟩ := h.register st r hr'
        exact ⟨hlt, heq, if_pos (mem_waiting.mpr ⟨r, hr⟩), hopen⟩
    · rw [hnext, hreg, hstream, hwaits]
      exact hl.conns id rec hid
    · rw [hstream, hwaits]
      exact hl.opened st (hnext ▸ hst)

/-- **The supervisor is killed.** -/
lemma Linked.supKill (h : Linked y) :
    Linked { y with sup := none, stream := fun st => { y.stream st with supOpen := false } } := by
  refine ⟨h.holds, h.held, h.started, h.idle, h.register, fun st hw => h.quiet st ?_, fun _ _ => rfl,
    fun s hs => by cases hs⟩
  rcases hw with hr | ⟨s, hs, -⟩
  · exact Or.inl hr
  · cases hs

/-- **The supervisor starts.** -/
lemma Linked.supStart (h : Linked y) (hnone : y.sup = none) (t : FileTree SockId) :
    Linked { y with sup := some ⟨State.new y.root, []⟩, tree := t } := by
  refine ⟨h.holds, h.held, h.started, h.idle, h.register, fun st hw => h.quiet st ?_, fun hs => ?_,
    fun s hs => ?_⟩
  · rcases hw with hr | ⟨s, hs, hin⟩
    · exact Or.inl hr
    · obtain rfl := Option.some.inj hs
      cases hin
  · cases hs
  · obtain rfl := Option.some.inj hs
    refine ⟨rfl, consistent_new _, fun id rec id' rec' hid => ?_, List.nodup_nil, fun st r hr => ?_,
      fun id rec hid => ?_, fun st _ hopen _ => ?_⟩
    · simp [State.new] at hid
    · cases hr
    · simp [State.new] at hid
    · rw [h.down hnone st] at hopen
      cases hopen

/-! ### Handling an event -/

/-- The supervisor after an event. -/
def handled (y : Sys) (res : State × List Effect) (rest : List Event) : Sys :=
  { y with
    sup := some ⟨res.1, rest ++ sentEvents res.2⟩
    tree := res.2.foldl Effect.onTree y.tree
    stream := streamsAfter res.2 y.stream }

lemma step_handle {o : Outcomes} (hstep : step y (.handle o) = some y') : ∃ s e rest,
    y.sup = some s ∧ s.queue = e :: rest ∧ y' = handled y (s.state.handleEvent o e) rest := by
  simp only [step] at hstep
  split at hstep
  · cases hstep
  · rename_i s hs
    split at hstep
    · cases hstep
    · rename_i e rest hqueue
      exact ⟨s, e, rest, hs, hqueue, (Option.some.inj hstep).symm⟩

variable {e : Event} {rest : List Event} {res : State × List Effect}

lemma SupLinked.waits_of_mem (hsup : y.sup = some s) (hqueue : s.queue = e :: rest)
    (hst : st ∈ waiting [e]) : y.Waits st := by
  refine Or.inr ⟨s, hsup, ?_⟩
  rw [hqueue, ← List.singleton_append, waiting_append]
  exact List.mem_append_left _ hst

/-- The stream of a registration is new to the supervisor. -/
lemma SupLinked.handling (hl : SupLinked y s) (hsup : y.sup = some s) (hqueue : s.queue = e :: rest)
    (o : Outcomes) : Handling s.state e (s.state.handleEvent o e) :=
  Supervisor.handling o hl.maps hl.streams fun _ hst id rec hid heq =>
    (hl.conns id rec hid).2.2.1 (heq ▸ SupLinked.waits_of_mem hsup hqueue hst)

/-- The stream of the event waits no longer, the others do. -/
lemma SupLinked.waits_handled (hl : SupLinked y s) (hsup : y.sup = some s)
    (hqueue : s.queue = e :: rest) :
    (handled y res rest).Waits st ↔ y.Waits st ∧ st ∉ waiting [e] := by
  have hnodup := hl.nodup
  rw [hqueue, ← List.singleton_append, waiting_append] at hnodup
  have hsplit : waiting s.queue = waiting [e] ++ waiting rest := by
    rw [hqueue, ← List.singleton_append, waiting_append]
  have hqueue' : waiting (rest ++ sentEvents res.2) = waiting rest := by
    rw [waiting_append, waiting_sentEvents, List.append_nil]
  constructor
  · rintro (hr | ⟨s', hs', hin⟩)
    · refine ⟨Or.inl hr, fun hst => ?_⟩
      obtain ⟨r, hr'⟩ := mem_waiting.mp (hsplit ▸ List.mem_append_left _ hst)
      exact hr (hl.queue st r hr').2.2.1
    · obtain rfl := Option.some.inj hs'
      rw [hqueue'] at hin
      exact ⟨Or.inr ⟨s, hsup, hsplit ▸ List.mem_append_right _ hin⟩,
        fun hst => List.disjoint_of_nodup_append hnodup hst hin⟩
  · rintro ⟨hr | ⟨s', hs', hin⟩, hst⟩
    · exact Or.inl hr
    · obtain rfl := Option.some.inj (hsup.symm.trans hs')
      rw [hsplit] at hin
      refine Or.inr ⟨_, rfl, ?_⟩
      rw [hqueue']
      exact (List.mem_append.mp hin).resolve_left hst

/-- Nothing is written on a stream that waits. -/
lemma SupLinked.silent (hl : SupLinked y s) (hr : Handling s.state e res) (hw : y.Waits st)
    (hst : st ∉ waiting [e]) : writesOn st res.2 = [] := by
  refine hr.silent st hst fun id rec hid heq => ?_
  rcases hr.conns id rec hid with ⟨hid, -, -⟩ | ⟨he, -⟩
  · exact (hl.conns id rec hid).2.2.1 (heq ▸ hw)
  · exact hst (heq ▸ mem_waiting_of_eq he)

lemma supOpen_handled : ((handled y res rest).stream st).supOpen = true ↔
    (y.stream st).supOpen = true ∧ .drop st ∉ res.2 := by
  simp only [handled, streamsAfter, Bool.and_eq_true, decide_eq_true_iff]

/-- **The supervisor handles an event.** -/
lemma Linked.handled (h : Linked y) (hsup : y.sup = some s) (hqueue : s.queue = e :: rest)
    (hr : Handling s.state e res) : Linked (handled y res rest) := by
  have hl := h.sup s hsup
  refine ⟨h.holds, h.held, h.started, h.idle, h.register, fun st hw => ?_,
    fun hnone => absurd hnone (Option.some_ne_none _), fun s' hs' => ?_⟩
  · obtain ⟨hw, hst⟩ := (hl.waits_handled hsup hqueue).mp hw
    obtain ⟨hin, hph⟩ := h.quiet st hw
    refine ⟨?_, hph⟩
    have hnone := hl.silent hr hw hst
    simp only [Topology.handled, streamsAfter, hin, hnone, List.filter_nil, List.map_nil,
      List.append_nil]
  · obtain rfl := Option.some.inj hs'
    refine ⟨hr.base.trans hl.base, hr.maps, hr.streams, ?_, fun st r hin => ?_, fun id rec hid => ?_,
      fun st hlt hopen hw => ?_⟩
    · have hnodup := hl.nodup
      rw [hqueue, ← List.singleton_append, waiting_append] at hnodup
      rw [waiting_append, waiting_sentEvents, List.append_nil]
      exact hnodup.of_append_right
    · have hin' : st ∈ waiting rest := by
        have hmem := mem_waiting.mpr ⟨r, hin⟩
        rwa [waiting_append, waiting_sentEvents, List.append_nil] at hmem
      obtain ⟨r', hr'⟩ := mem_waiting.mp hin'
      have hreg : .registered st r ∈ rest := by
        refine (List.mem_append.mp hin).resolve_right fun hsent => ?_
        have hmem := mem_waiting.mpr ⟨r, hsent⟩
        rw [waiting_sentEvents] at hmem
        cases hmem
      obtain ⟨hlt, heq, hnone, hopen⟩ := hl.queue st r (hqueue ▸ List.mem_cons_of_mem _ hreg)
      refine ⟨hlt, heq, hnone, supOpen_handled.mpr ⟨hopen, fun hdrop => ?_⟩⟩
      obtain ⟨hst | ⟨id, rec, hid, hst⟩, -⟩ := (hr.drops st).mp hdrop
      · have hnodup := hl.nodup
        rw [hqueue, ← List.singleton_append, waiting_append] at hnodup
        exact List.disjoint_of_nodup_append hnodup hst hin'
      · refine (hl.conns id rec hid).2.2.1 (Or.inr ⟨s, hsup, ?_⟩)
        rw [hst, hqueue, ← List.singleton_append, waiting_append]
        exact List.mem_append_right _ hin'
    · have hkept : .drop rec.stream ∉ res.2 := fun hdrop =>
        ((hr.drops _).mp hdrop).2 id rec hid rfl
      rcases hr.conns id rec hid with ⟨hid, -, -⟩ | ⟨he, -⟩
      · obtain ⟨hlt, heq, hw, hopen⟩ := hl.conns id rec hid
        exact ⟨hlt, heq, fun hw' => hw ((hl.waits_handled hsup hqueue).mp hw').1,
          supOpen_handled.mpr ⟨hopen, hkept⟩⟩
      · have hin : .registered rec.stream ⟨rec.slug, rec.group⟩ ∈ s.queue := by
          rw [hqueue, he]
          exact List.mem_cons_self
        obtain ⟨hlt, heq, -, hopen⟩ := hl.queue rec.stream _ hin
        exact ⟨hlt, heq, fun hw' => ((hl.waits_handled hsup hqueue).mp hw').2 (mem_waiting_of_eq he),
          supOpen_handled.mpr ⟨hopen, hkept⟩⟩
    · obtain ⟨hopen, hkept⟩ := supOpen_handled.mp hopen
      have hknown : st ∈ waiting [e] ∨ ∃ id rec, s.state.conns.lookup id = some rec ∧ rec.stream = st := by
        by_cases hst : st ∈ waiting [e]
        · exact Or.inl hst
        · exact Or.inr (hl.opened st hlt hopen fun hw' =>
            hw ((hl.waits_handled hsup hqueue).mpr ⟨hw', hst⟩))
      by_contra hnone
      exact hkept ((hr.drops st).mpr ⟨hknown, fun id rec hid heq => hnone ⟨id, rec, hid, heq⟩⟩)

end Steps

/-- **One step** keeps the links. -/
theorem linked_step {y y' : Sys} {a : Action} (h : Linked y) (hstep : step y a = some y') :
    Linked y' := by
  cases a with
  | start x slug group =>
    obtain ⟨habsent, rfl⟩ := step_start hstep
    exact h.start habsent slug group
  | connect x => exact h.connect (step_connect hstep)
  | read st =>
    obtain ⟨s, r, hsup, hr, hopen, rfl⟩ := step_read hstep
    refine h.enqueue (q := [.registered st r]) hsup (fun st' r' hin => ?_)
      (List.nodup_singleton _) rfl rfl rfl rfl fun st' => ?_
    · obtain ⟨rfl, rfl⟩ := Event.registered.inj (List.mem_singleton.mp hin)
      exact ⟨hr, hopen⟩
    · have hmem : st' ∈ waiting [Event.registered st r] ↔ st' = st := List.mem_singleton
      rw [Sys.setStream_stream]
      by_cases hst : st' = st
      · rw [if_pos hst, if_pos (hmem.mpr hst), hst]
      · rw [if_neg hst, if_neg fun hin => hst (hmem.mp hin)]
  | eof id =>
    obtain ⟨s, rec, hsup, -, -, rfl⟩ := step_eof hstep
    refine h.enqueue (q := [.departed id]) hsup (fun st r hin => ?_) List.nodup_nil rfl rfl rfl
      rfl fun st => rfl
    cases List.mem_singleton.mp hin
  | handle o =>
    obtain ⟨s, e, rest, hsup, hqueue, rfl⟩ := step_handle hstep
    exact h.handled hsup hqueue ((h.sup s hsup).handling hsup hqueue o)
  | supKill =>
    obtain ⟨-, rfl⟩ := step_supKill hstep
    exact h.supKill
  | supStart =>
    obtain ⟨hnone, rfl⟩ := step_supStart hstep
    exact h.supStart hnone _
  | recv x | addNext x | recvEof x | fail x | shutdown x | clearOne x | finish x | kill x
  | acceptError x => exact h.proc (procStep_of_step rfl (h.idle x) hstep)

end Crossbridge.Topology
