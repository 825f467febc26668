import Crossbridge.Topology.ProcStep

/-!
What a step of a process does to its listeners.

The listeners, and the files, change in three ways only: a notification is acted on (`Sys.heard`), the
process is killed, or an accept loop stops (`listeners_of_step`).
-/

namespace Crossbridge.Topology

open Crossbridge.Protocol Crossbridge.Server Crossbridge.Supervisor

/-- A process that acts on a notification has started. -/
lemma live_of_heard {x : ProcId} {y : Sys} {a : Action} {n : Notification} (ha : a.actor = some x)
    (hn : y.heard a = some n) : (y.proc x).phase.Live := by
  cases h : (y.proc x).phase with
  | absent | exited =>
    cases a with
    | recv x₀ | addNext x₀ | clearOne x₀ =>
      obtain rfl : x₀ = x := Option.some.inj ha
      simp [Sys.heard, h, Phase.todo] at hn
    | start | connect | recvEof | fail | shutdown | finish | kill | acceptError | read | eof | handle
    | supKill | supStart => cases hn
  | offline | registering | session | closing => trivial

section Listeners

variable {x : ProcId} {y y' : Sys} {a : Action}

/-- **The listeners after a step of their process**: they and the files are as before; or a
notification was acted on; or the process was killed; or an accept loop stopped. -/
theorem listeners_of_step (ha : a.actor = some x) (hstep : step y a = some y') :
    (y.heard a = none ∧ y'.tree = y.tree ∧ (y'.proc x).listeners = (y.proc x).listeners) ∨
    (∃ n, y.heard a = some n ∧ ((y'.proc x).listeners, y'.tree) =
        (y.proc x).listeners.act y.root y.tree a.out y.nextSock n ∧
      (peerOf n ∈ (y.proc x).listeners.entries ∨ peerOf n ∈ (y.proc x).phase.todo ∨
        ∃ st m, (y.proc x).phase.stream = some st ∧ m ∈ (y.stream st).inbox ∧ peerOf n ∈ namesOf m)) ∨
    (a = .kill x ∧ y'.tree = y.tree ∧ (y'.proc x).listeners = ⟨(y.proc x).slug, ∅⟩) ∨
    ∃ p e, a = .acceptError x p ∧ y'.tree = y.tree ∧
      (y.proc x).listeners.entries.lookup p = some e ∧ (y'.proc x).listeners =
        ⟨(y.proc x).slug, (y.proc x).listeners.entries.insert p { e with running := false }⟩ := by
  cases ownStep_of_step ha hstep with
  | ack out hph hinbox => exact Or.inl ⟨by rw [Sys.heard, hph], rfl, by simp⟩
  | @news st n rest out hph hinbox =>
    refine Or.inr (Or.inl ⟨n, ?_, ?_,
      Or.inr (Or.inr ⟨st, .notification n, by rw [hph]; rfl, ?_, List.mem_singleton_self _⟩)⟩)
    · simp only [Sys.heard, hph, hinbox]
    · rw [Sys.act_proc, if_pos rfl]
      rfl
    · exact hinbox ▸ List.mem_cons_self
  | @addNext st peer todo out hph =>
    refine Or.inr (Or.inl ⟨.peerJoined peer, ?_, ?_, Or.inr (Or.inl ?_)⟩)
    · rw [Sys.heard, hph]
      rfl
    · rw [Sys.setPhase_proc, if_pos rfl, Sys.act_proc, if_pos rfl]
      rfl
    · rw [hph]
      exact List.mem_cons_self
  | @clearOne st exit peer hph hmem =>
    refine Or.inr (Or.inl ⟨.peerLeft peer, ?_, ?_, Or.inl hmem⟩)
    · simp only [Sys.heard, hph]
    · rw [Sys.act_proc, if_pos rfl]
      rfl
  | leave hz htree hheard => exact Or.inl ⟨hheard, by simpa using htree, by simp [hz.proc]⟩
  | close => exact Or.inl ⟨rfl, rfl, by simp⟩
  | kill => exact Or.inr (Or.inr (Or.inl ⟨rfl, by simp, by simp⟩))
  | @acceptError peer e he => exact Or.inr (Or.inr (Or.inr ⟨peer, e, rfl, rfl, he, by simp⟩))

/-- A notification that is acted on takes a number for its socket. -/
lemma nextSock_of_step (ha : a.actor = some x) (hstep : step y a = some y') :
    y'.nextSock = if y.heard a = none then y.nextSock else y.nextSock + 1 := by
  cases ownStep_of_step ha hstep with
  | ack out hph hinbox =>
    have hheard : y.heard (.recv x out) = none := by rw [Sys.heard, hph]
    simp [hheard]
  | @news st n rest out hph hinbox =>
    have hheard : y.heard (.recv x out) = some n := by simp only [Sys.heard, hph, hinbox]
    simp [hheard]
  | @addNext st peer todo out hph =>
    have hheard : y.heard (.addNext x out) = some (.peerJoined peer) := by
      rw [Sys.heard, hph]
      rfl
    simp [hheard]
  | @clearOne st exit peer hph hmem =>
    have hheard : y.heard (.clearOne x peer) = some (.peerLeft peer) := by simp only [Sys.heard, hph]
    simp [hheard]
  | leave hz htree hheard => simp [hheard, hz.sock]
  | close | kill | acceptError => simp [Sys.heard]

end Listeners

end Crossbridge.Topology
