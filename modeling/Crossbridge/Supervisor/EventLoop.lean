import Crossbridge.Lib.Runs
import Crossbridge.Supervisor.Effects

/-!
The event loop of the supervisor.

The supervisor handles the events of its queue one at a time. A stream that is accepted and whose
`Register` is read gives a `Registered` event; an EOF watcher, or a write that failed, a `Departed`
one, which may come twice and for a connection that is gone. Other processes put files and
directories below the base directory, and take files away.

The log of the effects is what the supervisor has done.
-/

namespace Crossbridge.Supervisor

open Crossbridge.Protocol Crossbridge.Runs

structure World where
  state : State
  queue : List Event
  nextStream : StreamId
  /-- What the supervisor has done. -/
  log : List Effect
  tree : FileTree Unit
  /-- What others have put into the directory of a connection since it registered. -/
  placed : List (ConnId × Path)

/-- The supervisor after `prepare_base_dir`. -/
def World.init (baseDir : Path) : World :=
  ⟨State.new baseDir, [], 0, [], FileTree.createDirAll ∅ baseDir, []⟩

inductive Action where
  /-- A stream is accepted, and its `Register` is read. -/
  | accept (r : Register)
  /-- The EOF watcher of a connection sends its event. -/
  | depart (id : ConnId)
  /-- The next event is handled. -/
  | handle (o : Outcomes)
  /-- Another process puts something at a path, a file not into the base directory itself. -/
  | place (p : Path) (node : Node Unit)
  /-- Another process takes a file away. -/
  | unlink (p : Path)

def step (w : World) : Action → Option World
  | .accept r =>
    some { w with queue := w.queue ++ [.registered w.nextStream r], nextStream := w.nextStream + 1 }
  | .depart id => some { w with queue := w.queue ++ [.departed id] }
  | .handle o =>
    match w.queue with
    | [] => none
    | e :: queue =>
      let r := w.state.handleEvent o e
      some { w with
        state := r.1
        queue := queue ++ sentEvents r.2
        log := w.log ++ r.2
        tree := r.2.foldl Effect.onTree w.tree }
  | .place p node =>
    if (node = .dir ∨ p.dropLast ≠ w.state.baseDir) ∧ w.tree.lookup p.dropLast = some .dir ∧
        p ∉ w.tree then
      some { w with
        tree := w.tree.insert p node
        placed := w.placed ++ ((w.state.conns.entries.filter fun e =>
          w.state.slugDir e.2.slug <+: p).map fun e => (e.1, p)) }
    else none
  | .unlink p =>
    match w.tree.lookup p with
    | some (.file _) =>
      some { w with tree := w.tree.unlink p, placed := w.placed.filter fun x => x.2 ≠ p }
    | _ => none

/-- What a step finds, and what it leaves. -/
inductive Stepped (w : World) : Action → World → Prop where
  | accept (r : Register) : Stepped w (.accept r) { w with
      queue := w.queue ++ [.registered w.nextStream r]
      nextStream := w.nextStream + 1 }
  | depart (id : ConnId) : Stepped w (.depart id) { w with queue := w.queue ++ [.departed id] }
  | handle (o : Outcomes) (e : Event) (queue : List Event) : w.queue = e :: queue →
      Stepped w (.handle o) { w with
        state := (w.state.handleEvent o e).1
        queue := queue ++ sentEvents (w.state.handleEvent o e).2
        log := w.log ++ (w.state.handleEvent o e).2
        tree := (w.state.handleEvent o e).2.foldl Effect.onTree w.tree }
  | place (p : Path) (node : Node Unit) : node = .dir ∨ p.dropLast ≠ w.state.baseDir → p ∉ w.tree →
      Stepped w (.place p node) { w with
        tree := w.tree.insert p node
        placed := w.placed ++ ((w.state.conns.entries.filter fun e =>
          w.state.slugDir e.2.slug <+: p).map fun e => (e.1, p)) }
  | unlink (p : Path) : Stepped w (.unlink p) { w with
      tree := w.tree.unlink p
      placed := w.placed.filter fun x => x.2 ≠ p }

/-- Every step is one of these. -/
theorem stepped_of_step {w w' : World} {a : Action} (h : step w a = some w') : Stepped w a w' := by
  cases a with
  | accept r =>
    obtain rfl := Option.some.inj h
    exact .accept r
  | depart id =>
    obtain rfl := Option.some.inj h
    exact .depart id
  | handle o =>
    simp only [step] at h
    split at h
    · cases h
    · rename_i e queue hqueue
      obtain rfl := Option.some.inj h
      exact .handle o e queue hqueue
  | place p node =>
    simp only [step] at h
    split at h
    · rename_i hguard
      obtain rfl := Option.some.inj h
      exact .place p node hguard.1 hguard.2.2
    · cases h
  | unlink p =>
    simp only [step] at h
    split at h
    · obtain rfl := Option.some.inj h
      exact .unlink p
    · cases h

end Crossbridge.Supervisor
