import Crossbridge.Topology.Model

/-!
What a step of one server process can do to the rest.

A process that has connected makes its steps in few ways, whatever the action (`OwnStep`): it reads
the `Ack`, acts on a notification, drops its stream, begins to shut down, is killed, or an accept loop
of it stops. All of them have a common frame, `ProcStep`: they change that process and the stream it
holds, take messages off that stream, keep it or drop it, and learn of no peer but from the `Ack` and
the notifications they read. Invariants use the frame; what the single actions do to listeners is
looked up where it matters.
-/

namespace Crossbridge.Topology

open Crossbridge.Protocol Crossbridge.Server Crossbridge.Supervisor

/-- The peers still to be added. -/
def Phase.todo : Phase → List String
  | .session _ todo => todo
  | _ => []

/-- The phases without listeners. -/
def Phase.Idle : Phase → Prop
  | .session _ _ | .closing _ _ => False
  | _ => True

/-- A process that has started and not ended. -/
def Phase.Live : Phase → Prop
  | .absent | .exited => False
  | _ => True

lemma Phase.live_of_not_idle {ph : Phase} (h : ¬ ph.Idle) : ph.Live := by
  cases ph with
  | absent | exited => exact absurd trivial h
  | offline | registering | session | closing => trivial

lemma Phase.live_of_stream {ph : Phase} (h : ph.stream ≠ none) : ph.Live := by
  cases ph with
  | absent | exited => exact h rfl
  | offline | registering | session | closing => trivial

/-- The peers that a message names. -/
def namesOf : SupervisorMessage → List String
  | .registerResponse (.ack peers) => peers
  | .registerResponse (.nack _) => []
  | .notification n => [peerOf n]

/-- The process that an action is a step of, after it has connected. -/
def Action.actor : Action → Option ProcId
  | .recv x _ | .addNext x _ | .recvEof x | .fail x | .shutdown x | .clearOne x _ | .finish x | .kill x
  | .acceptError x _ => some x
  | _ => none

/-- How the call of `add` in a step ends. -/
def Action.out : Action → AddOutcome
  | .recv _ out | .addNext _ out => out
  | _ => .bound

/-- The notification that a process acts on in a step: one that it reads, a peer of the `Ack` that
joins, or a peer that leaves with `clear`. -/
def Sys.heard (y : Sys) : Action → Option Notification
  | .recv x _ =>
    match (y.proc x).phase with
    | .session st [] =>
      match (y.stream st).inbox with
      | .notification n :: _ => some n
      | _ => none
    | _ => none
  | .addNext x _ => (y.proc x).phase.todo.head?.map Notification.peerJoined
  | .clearOne x peer =>
    match (y.proc x).phase with
    | .closing _ _ => some (.peerLeft peer)
    | _ => none
  | _ => none

/-! ### The parts of a state after an update -/

namespace Sys

variable (y : Sys) (x x' : ProcId) (st st' : StreamId) (s : Stream) (p : Proc) (ph : Phase)
  (out : AddOutcome) (n : Notification)

@[simp] lemma setStream_root : (y.setStream st s).root = y.root := rfl
@[simp] lemma setStream_sup : (y.setStream st s).sup = y.sup := rfl
@[simp] lemma setStream_tree : (y.setStream st s).tree = y.tree := rfl
@[simp] lemma setStream_proc : (y.setStream st s).proc = y.proc := rfl
@[simp] lemma setStream_nextStream : (y.setStream st s).nextStream = y.nextStream := rfl
@[simp] lemma setStream_nextSock : (y.setStream st s).nextSock = y.nextSock := rfl
@[simp] lemma setStream_stream : (y.setStream st s).stream st' =
    if st' = st then s else y.stream st' := by
  simp only [setStream, Function.update_apply]

@[simp] lemma setProc_root : (y.setProc x p).root = y.root := rfl
@[simp] lemma setProc_sup : (y.setProc x p).sup = y.sup := rfl
@[simp] lemma setProc_tree : (y.setProc x p).tree = y.tree := rfl
@[simp] lemma setProc_stream : (y.setProc x p).stream = y.stream := rfl
@[simp] lemma setProc_nextStream : (y.setProc x p).nextStream = y.nextStream := rfl
@[simp] lemma setProc_nextSock : (y.setProc x p).nextSock = y.nextSock := rfl
@[simp] lemma setProc_proc : (y.setProc x p).proc x' = if x' = x then p else y.proc x' := by
  simp only [setProc, Function.update_apply]

@[simp] lemma setPhase_root : (y.setPhase x ph).root = y.root := rfl
@[simp] lemma setPhase_sup : (y.setPhase x ph).sup = y.sup := rfl
@[simp] lemma setPhase_tree : (y.setPhase x ph).tree = y.tree := rfl
@[simp] lemma setPhase_stream : (y.setPhase x ph).stream = y.stream := rfl
@[simp] lemma setPhase_nextStream : (y.setPhase x ph).nextStream = y.nextStream := rfl
@[simp] lemma setPhase_nextSock : (y.setPhase x ph).nextSock = y.nextSock := rfl
@[simp] lemma setPhase_proc : (y.setPhase x ph).proc x' =
    if x' = x then { y.proc x with phase := ph } else y.proc x' := setProc_proc y x x' _

@[simp] lemma hangUp_root : (y.hangUp x).root = y.root := by unfold hangUp; split <;> rfl
@[simp] lemma hangUp_sup : (y.hangUp x).sup = y.sup := by unfold hangUp; split <;> rfl
@[simp] lemma hangUp_tree : (y.hangUp x).tree = y.tree := by unfold hangUp; split <;> rfl
@[simp] lemma hangUp_proc : (y.hangUp x).proc = y.proc := by unfold hangUp; split <;> rfl
@[simp] lemma hangUp_nextStream : (y.hangUp x).nextStream = y.nextStream := by
  unfold hangUp; split <;> rfl
@[simp] lemma hangUp_nextSock : (y.hangUp x).nextSock = y.nextSock := by unfold hangUp; split <;> rfl
@[simp] lemma hangUp_stream : (y.hangUp x).stream st =
    if (y.proc x).phase.stream = some st then { y.stream st with srvOpen := false }
    else y.stream st := by
  unfold hangUp
  split
  · rename_i h
    simp [h]
  · rename_i st' h
    rw [h, setStream_stream]
    by_cases hst : st = st'
    · simp [hst]
    · simp [hst, Ne.symm hst]

@[simp] lemma act_root : (y.act x out n).root = y.root := rfl
@[simp] lemma act_sup : (y.act x out n).sup = y.sup := rfl
@[simp] lemma act_stream : (y.act x out n).stream = y.stream := rfl
@[simp] lemma act_nextStream : (y.act x out n).nextStream = y.nextStream := rfl
@[simp] lemma act_nextSock : (y.act x out n).nextSock = y.nextSock + 1 := rfl
@[simp] lemma act_tree : (y.act x out n).tree =
    ((y.proc x).listeners.act y.root y.tree out y.nextSock n).2 := rfl
@[simp] lemma act_proc : (y.act x out n).proc x' = if x' = x then
    { y.proc x with
      listeners := ((y.proc x).listeners.act y.root y.tree out y.nextSock n).1 }
    else y.proc x' := setProc_proc y x x' _

end Sys

/-! ### The frame -/

structure ProcStep (x : ProcId) (y y' : Sys) : Prop where
  root : y'.root = y.root
  sup : y'.sup = y.sup
  next : y'.nextStream = y.nextStream
  other : ∀ x' ≠ x, y'.proc x' = y.proc x'
  slug : (y'.proc x).slug = (y.proc x).slug
  group : (y'.proc x).group = (y.proc x).group
  live : (y.proc x).phase.Live
  started : (y'.proc x).phase ≠ .absent
  /-- The streams of others are left alone. -/
  stream : ∀ st, (y.proc x).phase.stream ≠ some st → y'.stream st = y.stream st
  owner : ∀ st, (y'.stream st).owner = (y.stream st).owner
  register : ∀ st, (y'.stream st).register = (y.stream st).register
  supOpen : ∀ st, (y'.stream st).supOpen = (y.stream st).supOpen
  inbox : ∀ st, (y'.stream st).inbox <:+ (y.stream st).inbox
  /-- The stream is kept open, or dropped. -/
  srvOpen : ∀ st, (y'.stream st).srvOpen = true →
    (y.stream st).srvOpen = true ∧
      ((y.proc x).phase.stream = some st → (y'.proc x).phase.stream = some st)
  keeps : ∀ st, (y'.proc x).phase.stream = some st → (y.proc x).phase.stream = some st ∧
    (y'.stream st).srvOpen = (y.stream st).srvOpen
  /-- Without a response the process goes on waiting for it. -/
  quiet : ∀ st, (y.proc x).phase = .registering st → (y'.proc x).phase.stream = some st →
    (y.stream st).inbox = [] → (y'.proc x).phase = .registering st
  idle : (y'.proc x).phase.Idle → (y'.proc x).listeners.entries = ∅
  names : ∀ p, p ∈ (y'.proc x).listeners.entries ∨ p ∈ (y'.proc x).phase.todo →
    p ∈ (y.proc x).listeners.entries ∨ p ∈ (y.proc x).phase.todo ∨
      ∃ st m, (y.proc x).phase.stream = some st ∧ m ∈ (y.stream st).inbox ∧ p ∈ namesOf m

section Frame

variable {x : ProcId} {y y' : Sys} {ph : Phase}

/-- The process takes a message off its stream, or none. -/
structure Pops (x : ProcId) (y z : Sys) : Prop where
  root : z.root = y.root
  sup : z.sup = y.sup
  next : z.nextStream = y.nextStream
  sock : z.nextSock = y.nextSock
  proc : z.proc = y.proc
  stream : ∀ st, (y.proc x).phase.stream ≠ some st → z.stream st = y.stream st
  owner : ∀ st, (z.stream st).owner = (y.stream st).owner
  register : ∀ st, (z.stream st).register = (y.stream st).register
  supOpen : ∀ st, (z.stream st).supOpen = (y.stream st).supOpen
  srvOpen : ∀ st, (z.stream st).srvOpen = (y.stream st).srvOpen
  inbox : ∀ st, (z.stream st).inbox <:+ (y.stream st).inbox

lemma Pops.refl (x : ProcId) (y : Sys) : Pops x y y :=
  ⟨rfl, rfl, rfl, rfl, rfl, fun _ _ => rfl, fun _ => rfl, fun _ => rfl, fun _ => rfl, fun _ => rfl,
    fun _ => List.suffix_refl _⟩

lemma pops_setStream {st : StreamId} {m : SupervisorMessage} {rest : List SupervisorMessage}
    (hph : (y.proc x).phase.stream = some st) (hinbox : (y.stream st).inbox = m :: rest) :
    Pops x y (y.setStream st { y.stream st with inbox := rest }) where
  root := rfl
  sup := rfl
  next := rfl
  sock := rfl
  proc := rfl
  stream st' h := by
    rw [Sys.setStream_stream, if_neg]
    rintro rfl
    exact h hph
  owner st' := by rw [Sys.setStream_stream]; split <;> simp_all
  register st' := by rw [Sys.setStream_stream]; split <;> simp_all
  supOpen st' := by rw [Sys.setStream_stream]; split <;> simp_all
  srvOpen st' := by rw [Sys.setStream_stream]; split <;> simp_all
  inbox st' := by
    rw [Sys.setStream_stream]
    split
    · rename_i h
      rw [h, hinbox]
      exact List.suffix_cons _ _
    · exact List.suffix_refl _

/-- A process that drops its stream. -/
lemma procStep_leave {z : Sys} (hz : Pops x y z) (hlive : (y.proc x).phase.Live) {p : Proc}
    (hslug : p.slug = (y.proc x).slug) (hgroup : p.group = (y.proc x).group)
    (hstream : p.phase.stream = none) (htodo : p.phase.todo = []) (hstarted : p.phase ≠ .absent)
    (hentries : ∀ q, q ∈ p.listeners.entries → q ∈ (y.proc x).listeners.entries)
    (hidle : p.phase.Idle → p.listeners.entries = ∅) : ProcStep x y ((z.hangUp x).setProc x p) := by
  have hproc : ((z.hangUp x).setProc x p).proc x = p := by rw [Sys.setProc_proc, if_pos rfl]
  refine ⟨?_, ?_, ?_, fun x' hx' => ?_, ?_, ?_, hlive, ?_, fun st h => ?_, fun st => ?_, fun st => ?_,
    fun st => ?_, fun st => ?_, fun st h => ?_, fun st h => ?_, fun st _ h => ?_, fun h => ?_,
    fun q h => ?_⟩
  · rw [Sys.setProc_root, Sys.hangUp_root, hz.root]
  · rw [Sys.setProc_sup, Sys.hangUp_sup, hz.sup]
  · rw [Sys.setProc_nextStream, Sys.hangUp_nextStream, hz.next]
  · rw [Sys.setProc_proc, if_neg hx', Sys.hangUp_proc, hz.proc]
  · rw [hproc, hslug]
  · rw [hproc, hgroup]
  · rw [hproc]
    exact hstarted
  · rw [Sys.setProc_stream, Sys.hangUp_stream, hz.proc, if_neg h, hz.stream st h]
  · rw [Sys.setProc_stream, Sys.hangUp_stream, ← hz.owner]
    split <;> rfl
  · rw [Sys.setProc_stream, Sys.hangUp_stream, ← hz.register]
    split <;> rfl
  · rw [Sys.setProc_stream, Sys.hangUp_stream, ← hz.supOpen]
    split <;> rfl
  · rw [Sys.setProc_stream, Sys.hangUp_stream]
    split <;> exact hz.inbox st
  · rw [Sys.setProc_stream, Sys.hangUp_stream, hz.proc] at h
    split at h
    · cases h
    · rename_i hne
      exact ⟨hz.srvOpen st ▸ h, fun heq => absurd heq hne⟩
  · rw [hproc, hstream] at h
    cases h
  · rw [hproc, hstream] at h
    cases h
  · rw [hproc] at h ⊢
    exact hidle h
  · rw [hproc, htodo] at h
    exact Or.inl (hentries q (h.resolve_right List.not_mem_nil))

lemma procStep_leave_phase {z : Sys} (hz : Pops x y z) (hlive : (y.proc x).phase.Live)
    (hstream : ph.stream = none) (htodo : ph.todo = []) (hstarted : ph ≠ .absent)
    (hidle : ph.Idle → (y.proc x).listeners.entries = ∅) :
    ProcStep x y ((z.hangUp x).setPhase x ph) := by
  have hproc : (z.hangUp x).proc x = y.proc x := by rw [Sys.hangUp_proc, hz.proc]
  unfold Sys.setPhase
  rw [hproc]
  exact procStep_leave hz hlive rfl rfl hstream htodo hstarted (fun _ h => h) hidle

/-- A process that keeps its stream. -/
lemma procStep_stay {z : Sys} (hz : Pops x y z) (hlive : (y.proc x).phase.Live) {p : Proc}
    (hroot : y'.root = z.root) (hsup : y'.sup = z.sup) (hnext : y'.nextStream = z.nextStream)
    (hstreams : y'.stream = z.stream)
    (hproc : ∀ x', y'.proc x' = if x' = x then p else z.proc x')
    (hslug : p.slug = (y.proc x).slug) (hgroup : p.group = (y.proc x).group)
    (hstarted : p.phase ≠ .absent)
    (hstream : ∀ st, p.phase.stream = some st → (y.proc x).phase.stream = some st)
    (hkept : (y.proc x).phase.stream ≠ none → p.phase.stream ≠ none)
    (hquiet : ∀ st, (y.proc x).phase = .registering st → (y.stream st).inbox = [] →
      p.phase = .registering st)
    (hidle : p.phase.Idle → p.listeners.entries = ∅)
    (hnames : ∀ q, q ∈ p.listeners.entries ∨ q ∈ p.phase.todo →
      q ∈ (y.proc x).listeners.entries ∨ q ∈ (y.proc x).phase.todo ∨
        ∃ st m, (y.proc x).phase.stream = some st ∧ m ∈ (y.stream st).inbox ∧ q ∈ namesOf m) :
    ProcStep x y y' := by
  have hself : y'.proc x = p := by rw [hproc, if_pos rfl]
  refine ⟨hroot.trans hz.root, hsup.trans hz.sup, hnext.trans hz.next, fun x' hx' => ?_, ?_, ?_, hlive,
    ?_, fun st h => ?_, fun st => ?_, fun st => ?_, fun st => ?_, fun st => ?_, fun st h => ?_,
    fun st h => ?_, fun st hreg _ hin => ?_, fun h => ?_, fun q h => ?_⟩
  · rw [hproc, if_neg hx', hz.proc]
  · rw [hself, hslug]
  · rw [hself, hgroup]
  · rw [hself]
    exact hstarted
  · rw [hstreams, hz.stream st h]
  · rw [hstreams, hz.owner]
  · rw [hstreams, hz.register]
  · rw [hstreams, hz.supOpen]
  · rw [hstreams]
    exact hz.inbox st
  · rw [hstreams, hz.srvOpen] at h
    refine ⟨h, fun heq => ?_⟩
    rw [hself]
    have hsome := hkept (by rw [heq]; exact fun h => by cases h)
    obtain ⟨st', hst'⟩ := Option.ne_none_iff_exists'.mp hsome
    rw [hst', ← heq, ← hstream st' hst']
  · rw [hself] at h
    exact ⟨hstream st h, by rw [hstreams, hz.srvOpen]⟩
  · rw [hself]
    exact hquiet st hreg hin
  · rw [hself] at h ⊢
    exact hidle h
  · rw [hself] at h
    exact hnames q h

lemma mem_act {ls : ListenerSet} {root : Path} {t : FileTree SockId} {out : AddOutcome}
    {sock : SockId} {n : Notification} {q : String}
    (h : q ∈ (ls.act root t out sock n).1.entries) : q = peerOf n ∨ q ∈ ls.entries := by
  by_cases hq : q = peerOf n
  · exact Or.inl hq
  · rw [← AList.lookup_isSome, ListenerSet.lookup_act_ne hq, AList.lookup_isSome] at h
    exact Or.inr h

/-- A process that acts on a notification it knows of. -/
lemma procStep_act (ph : Phase) (out : AddOutcome) (n : Notification) {z : Sys} (hz : Pops x y z)
    (hph : (y.proc x).phase.stream = ph.stream) (hidle : ¬ (y.proc x).phase.Idle) (hph' : ¬ ph.Idle)
    (htodo : ∀ q ∈ ph.todo, q ∈ (y.proc x).phase.todo)
    (hn : peerOf n ∈ (y.proc x).listeners.entries ∨ peerOf n ∈ (y.proc x).phase.todo ∨
      ∃ st m, (y.proc x).phase.stream = some st ∧ m ∈ (y.stream st).inbox ∧ peerOf n ∈ namesOf m)
    (hproc : ∀ x', y'.proc x' = if x' = x then { z.proc x with
      listeners := ((z.proc x).listeners.act z.root z.tree out z.nextSock n).1, phase := ph }
      else z.proc x')
    (hroot : y'.root = z.root) (hsup : y'.sup = z.sup) (hnext : y'.nextStream = z.nextStream)
    (hstreams : y'.stream = z.stream) : ProcStep x y y' := by
  have hlive := Phase.live_of_not_idle hidle
  refine procStep_stay hz hlive hroot hsup hnext hstreams hproc ?_ ?_ ?_ (fun st h => ?_)
    (fun h => ?_) (fun st h => ?_) (fun h => absurd h hph') fun q hq => ?_
  · simp only [Proc.slug, ListenerSet.ownSlug_act, hz.proc]
  · simp only [hz.proc]
  · rintro rfl
    exact hph' trivial
  · rw [hph, h]
  · rwa [hph] at h
  · rw [h] at hidle
    exact absurd trivial hidle
  · rcases hq with hq | hq
    · rcases mem_act hq with rfl | hq
      · exact hn
      · rw [hz.proc] at hq
        exact Or.inl hq
    · exact Or.inr (Or.inl (htodo q hq))

end Frame

/-! ### The ways of a step -/

/-- What a process does in a step. -/
inductive OwnStep (x : ProcId) (y : Sys) : Action → Sys → Prop where
  /-- It reads the `Ack`. -/
  | ack {st : StreamId} {peers : List String} {rest : List SupervisorMessage} (out : AddOutcome)
    (hph : (y.proc x).phase = .registering st)
    (hinbox : (y.stream st).inbox = .registerResponse (.ack peers) :: rest) :
    OwnStep x y (.recv x out)
      ((y.setStream st { y.stream st with inbox := rest }).setPhase x (.session st peers))
  /-- It reads a notification, and acts on it. -/
  | news {st : StreamId} {n : Notification} {rest : List SupervisorMessage} (out : AddOutcome)
    (hph : (y.proc x).phase = .session st []) (hinbox : (y.stream st).inbox = .notification n :: rest) :
    OwnStep x y (.recv x out) ((y.setStream st { y.stream st with inbox := rest }).act x out n)
  | addNext {st : StreamId} {peer : String} {todo : List String} (out : AddOutcome)
    (hph : (y.proc x).phase = .session st (peer :: todo)) :
    OwnStep x y (.addNext x out) ((y.act x out (.peerJoined peer)).setPhase x (.session st todo))
  | clearOne {st : Option StreamId} {exit : Bool} {peer : String}
    (hph : (y.proc x).phase = .closing st exit) (hmem : peer ∈ (y.proc x).listeners.entries) :
    OwnStep x y (.clearOne x peer) (y.act x .bound (.peerLeft peer))
  /-- It drops its stream, maybe after it has read a message. -/
  | leave {a : Action} {z : Sys} {ph : Phase} (hz : Pops x y z) (htree : z.tree = y.tree)
    (hheard : y.heard a = none) (hlive : (y.proc x).phase.Live) (hstream : ph.stream = none)
    (htodo : ph.todo = []) (hstarted : ph ≠ .absent)
    (hidle : ph.Idle → (y.proc x).phase.Idle ∨ (y.proc x).listeners.entries = ∅) :
    OwnStep x y a ((z.hangUp x).setPhase x ph)
  /-- It begins to shut down, with its stream. -/
  | close {st : Option StreamId} (hlive : (y.proc x).phase.Live)
    (hstream : (y.proc x).phase.stream = st) (hph : ∀ st', (y.proc x).phase ≠ .registering st') :
    OwnStep x y (.shutdown x) (y.setPhase x (.closing st true))
  | kill (hlive : (y.proc x).phase.Live) :
    OwnStep x y (.kill x) ((y.hangUp x).setProc x ⟨(y.proc x).group, ⟨(y.proc x).slug, ∅⟩, .exited⟩)
  | acceptError {peer : String} {e : Entry} (he : (y.proc x).listeners.entries.lookup peer = some e) :
    OwnStep x y (.acceptError x peer) (y.setProc x { y.proc x with
      listeners := ⟨(y.proc x).slug,
        (y.proc x).listeners.entries.insert peer { e with running := false }⟩ })

section OwnStep

variable {x : ProcId} {y y' : Sys}

/-- It reads a message. -/
lemma ownStep_recv {out : AddOutcome} (hstep : step y (.recv x out) = some y') :
    OwnStep x y (.recv x out) y' := by
  simp only [step] at hstep
  split at hstep
  · rename_i st hph
    have hlive : (y.proc x).phase.Live := by rw [hph]; trivial
    have hheard : y.heard (.recv x out) = none := by rw [Sys.heard, hph]
    split at hstep
    · cases hstep
    · rename_i m rest hinbox
      have hpop : Pops x y (y.setStream st { y.stream st with inbox := rest }) :=
        pops_setStream (by rw [hph]; rfl) hinbox
      split at hstep
      · obtain rfl := Option.some.inj hstep
        exact .ack out hph hinbox
      · obtain rfl := Option.some.inj hstep
        exact .leave hpop rfl hheard hlive rfl rfl (fun h => by cases h) fun h => absurd h id
      · obtain rfl := Option.some.inj hstep
        refine .leave hpop rfl hheard hlive rfl rfl (fun h => by cases h) fun _ => Or.inl ?_
        rw [hph]
        trivial
  · rename_i st hph
    have hlive : (y.proc x).phase.Live := by rw [hph]; trivial
    split at hstep
    · cases hstep
    · rename_i m rest hinbox
      split at hstep
      · obtain rfl := Option.some.inj hstep
        exact .news out hph hinbox
      · obtain rfl := Option.some.inj hstep
        refine .leave (pops_setStream (by rw [hph]; rfl) hinbox) rfl ?_ hlive rfl rfl
          (fun h => by cases h) fun h => absurd h id
        simp only [Sys.heard, hph, hinbox]
  · cases hstep

lemma ownStep_addNext {out : AddOutcome} (hstep : step y (.addNext x out) = some y') :
    OwnStep x y (.addNext x out) y' := by
  simp only [step] at hstep
  split at hstep
  · rename_i hph
    obtain rfl := Option.some.inj hstep
    exact .addNext out hph
  · cases hstep

/-- It drops its stream, as it waits for the response or in a session. -/
lemma ownStep_drop {a : Action} {ph : Phase} (hheard : y.heard a = none)
    (hfrom : (∃ st, (y.proc x).phase = .registering st) ∨ ∃ st, (y.proc x).phase = .session st [])
    (hph : ph = .offline ∧ (∃ st, (y.proc x).phase = .registering st) ∨ ∃ exit, ph = .closing none exit) :
    OwnStep x y a ((y.hangUp x).setPhase x ph) := by
  have hlive : (y.proc x).phase.Live := by
    rcases hfrom with ⟨st, h⟩ | ⟨st, h⟩
    · rw [h]
      trivial
    · rw [h]
      trivial
  rcases hph with ⟨rfl, st, hreg⟩ | ⟨exit, rfl⟩
  · refine .leave (Pops.refl _ _) rfl hheard hlive rfl rfl (fun h => by cases h) fun _ => Or.inl ?_
    rw [hreg]
    trivial
  · exact .leave (Pops.refl _ _) rfl hheard hlive rfl rfl (fun h => by cases h) fun h => absurd h id

lemma ownStep_recvEof (hstep : step y (.recvEof x) = some y') : OwnStep x y (.recvEof x) y' := by
  simp only [step] at hstep
  split at hstep
  · rename_i st hph
    split_ifs at hstep
    obtain rfl := Option.some.inj hstep
    exact ownStep_drop rfl (Or.inl ⟨st, hph⟩) (Or.inl ⟨rfl, st, hph⟩)
  · rename_i st hph
    split_ifs at hstep
    obtain rfl := Option.some.inj hstep
    exact ownStep_drop rfl (Or.inr ⟨st, hph⟩) (Or.inr ⟨false, rfl⟩)
  · cases hstep

lemma ownStep_fail (hstep : step y (.fail x) = some y') : OwnStep x y (.fail x) y' := by
  simp only [step] at hstep
  split at hstep
  · rename_i st hph
    obtain rfl := Option.some.inj hstep
    exact ownStep_drop rfl (Or.inl ⟨st, hph⟩) (Or.inl ⟨rfl, st, hph⟩)
  · rename_i st hph
    obtain rfl := Option.some.inj hstep
    exact ownStep_drop rfl (Or.inr ⟨st, hph⟩) (Or.inr ⟨false, rfl⟩)
  · cases hstep

lemma ownStep_shutdown (hstep : step y (.shutdown x) = some y') : OwnStep x y (.shutdown x) y' := by
  simp only [step] at hstep
  split at hstep
  · rename_i hph
    obtain rfl := Option.some.inj hstep
    exact .close (by rw [hph]; trivial) (by rw [hph]; rfl) fun st' h => by rw [hph] at h; cases h
  · rename_i st hph
    obtain rfl := Option.some.inj hstep
    exact ownStep_drop rfl (Or.inl ⟨st, hph⟩) (Or.inr ⟨true, rfl⟩)
  · rename_i st hph
    obtain rfl := Option.some.inj hstep
    exact .close (by rw [hph]; trivial) (by rw [hph]; rfl) fun st' h => by rw [hph] at h; cases h
  · cases hstep

/-- It removes a listener, or is done with that. -/
lemma ownStep_clearOne {peer : String} (hstep : step y (.clearOne x peer) = some y') :
    OwnStep x y (.clearOne x peer) y' := by
  simp only [step] at hstep
  split at hstep
  · rename_i hph
    split_ifs at hstep with hmem
    obtain rfl := Option.some.inj hstep
    exact .clearOne hph hmem
  · cases hstep

lemma ownStep_finish (hstep : step y (.finish x) = some y') : OwnStep x y (.finish x) y' := by
  simp only [step] at hstep
  split at hstep
  · rename_i st exit hph
    split at hstep
    · rename_i hkeys
      obtain rfl := Option.some.inj hstep
      refine .leave (Pops.refl _ _) rfl rfl (by rw [hph]; trivial) (by cases exit <;> rfl)
        (by cases exit <;> rfl) (by cases exit <;> exact fun h => by cases h) fun _ => Or.inr ?_
      exact AList.ext (List.map_eq_nil_iff.mp hkeys)
    · cases hstep
  · cases hstep

lemma ownStep_kill (hstep : step y (.kill x) = some y') : OwnStep x y (.kill x) y' := by
  simp only [step] at hstep
  split at hstep
  · cases hstep
  · cases hstep
  · rename_i hne₁ hne₂
    obtain rfl := Option.some.inj hstep
    refine .kill ?_
    cases h : (y.proc x).phase with
    | absent => exact absurd h hne₁
    | exited => exact absurd h hne₂
    | offline | registering | session | closing => trivial

lemma ownStep_acceptError {peer : String} (hstep : step y (.acceptError x peer) = some y') :
    OwnStep x y (.acceptError x peer) y' := by
  simp only [step] at hstep
  split at hstep
  · cases hstep
  · rename_i e he
    obtain rfl := Option.some.inj hstep
    exact .acceptError he

/-- **The ways of a step**, of a process that has connected. -/
theorem ownStep_of_step {a : Action} (ha : a.actor = some x) (hstep : step y a = some y') :
    OwnStep x y a y' := by
  cases a with
  | recv x₀ =>
    obtain rfl : x₀ = x := Option.some.inj ha
    exact ownStep_recv hstep
  | addNext x₀ =>
    obtain rfl : x₀ = x := Option.some.inj ha
    exact ownStep_addNext hstep
  | recvEof x₀ =>
    obtain rfl : x₀ = x := Option.some.inj ha
    exact ownStep_recvEof hstep
  | fail x₀ =>
    obtain rfl : x₀ = x := Option.some.inj ha
    exact ownStep_fail hstep
  | shutdown x₀ =>
    obtain rfl : x₀ = x := Option.some.inj ha
    exact ownStep_shutdown hstep
  | clearOne x₀ =>
    obtain rfl : x₀ = x := Option.some.inj ha
    exact ownStep_clearOne hstep
  | finish x₀ =>
    obtain rfl : x₀ = x := Option.some.inj ha
    exact ownStep_finish hstep
  | kill x₀ =>
    obtain rfl : x₀ = x := Option.some.inj ha
    exact ownStep_kill hstep
  | acceptError x₀ =>
    obtain rfl : x₀ = x := Option.some.inj ha
    exact ownStep_acceptError hstep
  | start | connect | read | eof | handle | supKill | supStart => cases ha

/-- **The steps of a process** are in the frame. -/
theorem procStep_of_step {a : Action} (ha : a.actor = some x)
    (hidle : (y.proc x).phase.Idle → (y.proc x).listeners.entries = ∅) (hstep : step y a = some y') :
    ProcStep x y y' := by
  cases ownStep_of_step ha hstep with
  | @ack st peers rest out hph hinbox =>
    have hstream : (y.proc x).phase.stream = some st := by rw [hph]; rfl
    refine procStep_stay (pops_setStream hstream hinbox) (by rw [hph]; trivial) rfl rfl rfl rfl
      (Sys.setPhase_proc _ _ · _) rfl rfl (fun h => by cases h) (fun st' h => ?_)
      (fun _ h => by cases h) (fun st' h hin => ?_) (fun h => absurd h id) fun q hq => ?_
    · rw [hstream]
      exact h
    · rw [hph] at h
      obtain rfl := Phase.registering.inj h
      rw [hinbox] at hin
      cases hin
    · rcases hq with hq | hq
      · exact Or.inl hq
      · exact Or.inr (Or.inr ⟨st, .registerResponse (.ack peers), hstream,
          hinbox ▸ List.mem_cons_self, hq⟩)
  | @news st n rest out hph hinbox =>
    have hstream : (y.proc x).phase.stream = some st := by rw [hph]; rfl
    have hpop := pops_setStream hstream hinbox
    refine procStep_act (.session st []) out n hpop hstream (by rw [hph]; exact id) id
      (fun q hq => by cases hq) (Or.inr (Or.inr ⟨st, .notification n, hstream, ?_, ?_⟩))
      (fun x' => ?_) rfl rfl rfl rfl
    · exact hinbox ▸ List.mem_cons_self
    · exact List.mem_singleton_self _
    · rw [Sys.act_proc, hpop.proc, ← hph]
  | @addNext st peer todo out hph =>
    refine procStep_act (.session st todo) out (.peerJoined peer) (Pops.refl _ _) (by rw [hph]; rfl)
      (by rw [hph]; exact id) id (fun q hq => ?_) (Or.inr (Or.inl ?_)) (fun x' => ?_) rfl rfl rfl rfl
    · rw [hph]
      exact List.mem_cons_of_mem _ hq
    · rw [hph]
      exact List.mem_cons_self
    · rw [Sys.setPhase_proc]
      split
      · rw [Sys.act_proc, if_pos rfl]
      · rename_i hne
        rw [Sys.act_proc, if_neg hne]
  | @clearOne st exit peer hph hmem =>
    refine procStep_act (.closing st exit) .bound (.peerLeft peer) (Pops.refl _ _) (by rw [hph])
      (by rw [hph]; exact id) id (fun q hq => by cases hq) (Or.inl hmem) (fun x' => ?_)
      rfl rfl rfl rfl
    rw [Sys.act_proc, ← hph]
  | leave hz _ _ hlive hstream htodo hstarted hidle' =>
    exact procStep_leave_phase hz hlive hstream htodo hstarted fun h => (hidle' h).elim hidle id
  | close hlive hstream hph =>
    exact procStep_stay (Pops.refl _ _) hlive rfl rfl rfl rfl (Sys.setPhase_proc _ _ · _) rfl rfl
      (fun h => by cases h) (fun st' h => hstream.trans h) (fun h => hstream ▸ h)
      (fun st' h => absurd h (hph st')) (fun h => absurd h id)
      fun q hq => Or.inl (hq.resolve_right List.not_mem_nil)
  | kill hlive =>
    exact procStep_leave (Pops.refl _ _) hlive rfl rfl rfl rfl (fun h => by cases h)
      (fun q hq => absurd hq (AList.notMem_empty q)) fun _ => rfl
  | @acceptError peer e he =>
    have hbusy : ¬ (y.proc x).phase.Idle := by
      intro h
      rw [hidle h] at he
      cases he
    refine procStep_stay (Pops.refl _ _) (Phase.live_of_not_idle hbusy) rfl rfl rfl rfl
      (Sys.setProc_proc _ _ · _) rfl rfl (fun h => ?_) (fun _ h => h) id (fun _ h _ => h)
      (fun h => absurd h hbusy) fun q hq => ?_
    · exact hbusy (by rw [show (y.proc x).phase = .absent from h]; trivial)
    · rcases hq with hq | hq
      · rcases (AList.mem_insert _).mp hq with rfl | hq
        · exact Or.inl (AList.lookup_isSome.mp (by rw [he]; rfl))
        · exact Or.inl hq
      · exact Or.inr (Or.inl hq)

end OwnStep

end Crossbridge.Topology
