import Crossbridge.Protocol.Frames
import Crossbridge.Server.Session

/-!
How the stream from the supervisor ends.

The bytes of a stream begin with the frames of some notifications (`leading`), and repeated calls of
`read_notification` return these; the call after them meets what is left. If nothing is left, this
is the end of the stream, and if it is not a notification, an error. But a stream that ends inside a
frame is taken for one that ends between two: `read_exact` fails with the same error in both cases.
-/

namespace Crossbridge.Server

open Crossbridge.Varint Crossbridge.Protocol Crossbridge.Protocol.Streams
open Session (wireCodec)

/-- `read_notification`, and the stream after it. -/
def nextRead (s : Stream) : Except NotificationError (Option Notification) × Stream :=
  (readNotification (readMessage wireCodec s).1, (readMessage wireCodec s).2)

/-- The results of `k` calls of `read_notification`. -/
def readNotifications : ℕ → Stream → List (Except NotificationError (Option Notification))
  | 0, _ => []
  | k + 1, s => (nextRead s).1 :: readNotifications k (nextRead s).2

/-- The notification whose frame comes first, and the bytes after it. -/
def leadingFrame (bs : Bytes) : Option (Notification × Bytes) :=
  match head bs with
  | .frame payload rest =>
    match wireCodec.dec payload with
    | .ok (.notification n, _) => some (n, rest)
    | _ => none
  | _ => none

lemma head_of_leadingFrame {bs rest : Bytes} {n : Notification} (h : leadingFrame bs = some (n, rest)) :
    ∃ payload extra, head bs = .frame payload rest ∧
      wireCodec.dec payload = .ok (.notification n, extra) := by
  unfold leadingFrame at h
  split at h
  · rename_i payload rest' hhead
    split at h
    · rename_i n' extra hdec
      obtain ⟨rfl, rfl⟩ := Prod.ext_iff.mp (Option.some.inj h)
      exact ⟨payload, extra, hhead, hdec⟩
    · cases h
  · cases h

/-- The notifications whose frames the bytes begin with, and the bytes after them. -/
def leading (bs : Bytes) : List Notification × Bytes :=
  match h : leadingFrame bs with
  | some (n, rest) =>
    have : rest.length < bs.length := by
      obtain ⟨payload, extra, hhead, -⟩ := head_of_leadingFrame h
      exact length_lt_of_head_frame hhead
    (n :: (leading rest).1, (leading rest).2)
  | none => ([], bs)
termination_by bs.length

/-- The end of a stream is reported: the calls return the leading notifications, and the next one
that the stream is at its end exactly if no bytes are left, and an error if they end in a frame. -/
def ReportsEnd (s : Stream) : Prop :=
  ∃ last, readNotifications ((leading s.bytes).1.length + 1) s =
      (leading s.bytes).1.map (fun n => .ok (some n)) ++ [last] ∧
    (last = .ok none ↔ s.ending = .unexpectedEof ∧ (leading s.bytes).2 = []) ∧
    (MidFrame (leading s.bytes).2 → ∃ e, last = .error e)

/-! ### One call -/

section Call

variable {s : Stream}

lemma nextRead_spec (s : Stream) :
    (nextRead s).1 = readNotification ((head s.bytes).outcome wireCodec s.ending).1 ∧
    (nextRead s).2.bytes = ((head s.bytes).outcome wireCodec s.ending).2 ∧
    (nextRead s).2.ending = s.ending := by
  obtain ⟨hread, hbytes, hend⟩ := Reader.async.read_head wireCodec s
  exact ⟨congrArg readNotification hread, hbytes, hend⟩

lemma nextRead_of_leadingFrame {n : Notification} {rest : Bytes}
    (h : leadingFrame s.bytes = some (n, rest)) :
    (nextRead s).1 = .ok (some n) ∧ (nextRead s).2.bytes = rest ∧ (nextRead s).2.ending = s.ending := by
  obtain ⟨payload, extra, hhead, hdec⟩ := head_of_leadingFrame h
  obtain ⟨hread, hbytes, hend⟩ := nextRead_spec s
  rw [hhead, Head.outcome, hdec] at hread hbytes
  exact ⟨hread, hbytes, hend⟩

/-- An error of the stream is the end of it if it is `UnexpectedEof`. -/
lemma readNotification_io (kind : IoErrorKind) : readNotification (.error (.io kind)) =
    if kind = .unexpectedEof then .ok none else .error (.reading (.io kind)) := by
  cases kind <;> rfl

/-- What a call returns that finds no notification. -/
lemma nextRead_of_none (h : leadingFrame s.bytes = none) :
    ((head s.bytes = .ended ∨ head s.bytes = .cut) ∧
      (nextRead s).1 = if s.ending = .unexpectedEof then .ok none
        else .error (.reading (.io s.ending))) ∨
    (head s.bytes ≠ .ended ∧ head s.bytes ≠ .cut ∧ ∃ e, (nextRead s).1 = .error e) := by
  obtain ⟨hread, -, -⟩ := nextRead_spec s
  unfold leadingFrame at h
  cases hhead : head s.bytes with
  | ended =>
    rw [hhead] at hread
    exact Or.inl ⟨Or.inl rfl, hread.trans (readNotification_io _)⟩
  | cut =>
    rw [hhead] at hread
    exact Or.inl ⟨Or.inr rfl, hread.trans (readNotification_io _)⟩
  | oversized len rest =>
    rw [hhead] at hread
    exact Or.inr ⟨by simp, by simp, _, hread⟩
  | frame payload rest =>
    rw [hhead, Head.outcome] at hread
    simp only [hhead] at h
    refine Or.inr ⟨by simp, by simp, ?_⟩
    cases hdec : wireCodec.dec payload with
    | error e =>
      rw [hdec] at hread
      exact ⟨_, hread⟩
    | ok m =>
      obtain ⟨msg, extra⟩ := m
      rw [hdec] at hread
      cases msg with
      | registerResponse r => exact ⟨_, hread⟩
      | notification n => simp [hdec] at h

end Call

/-! ### Repeated calls -/

/-- **The leading notifications** are returned, and then the calls go on with what is left. -/
theorem readNotifications_leading (s : Stream) : ∃ t : Stream, t.bytes = (leading s.bytes).2 ∧
    t.ending = s.ending ∧ leadingFrame t.bytes = none ∧
      ∀ k, readNotifications ((leading s.bytes).1.length + k) s =
        (leading s.bytes).1.map (fun n => .ok (some n)) ++ readNotifications k t := by
  -- on the bytes that are left: a frame that is read makes them fewer
  induction hlen : s.bytes.length using Nat.strong_induction_on generalizing s with
  | _ len ih =>
    cases h : leadingFrame s.bytes with
    | none =>
      have hlead : leading s.bytes = ([], s.bytes) := by
        rw [leading]
        split
        · rename_i heq
          rw [h] at heq
          cases heq
        · rfl
      exact ⟨s, by rw [hlead], rfl, h, fun k => by simp [hlead]⟩
    | some p =>
      obtain ⟨n, rest⟩ := p
      have hlead : leading s.bytes = (n :: (leading rest).1, (leading rest).2) := by
        rw [leading]
        split
        · rename_i heq
          rw [h] at heq
          obtain ⟨rfl, rfl⟩ := Prod.ext_iff.mp (Option.some.inj heq)
          rfl
        · rename_i heq
          rw [h] at heq
          cases heq
      obtain ⟨hread, hbytes, hend⟩ := nextRead_of_leadingFrame h
      obtain ⟨payload, extra, hhead, -⟩ := head_of_leadingFrame h
      have hlt : (nextRead s).2.bytes.length < len := by
        rw [hbytes, ← hlen]
        exact length_lt_of_head_frame hhead
      obtain ⟨t, htail, htend, hnone, hcalls⟩ := ih _ hlt (nextRead s).2 rfl
      rw [hbytes] at htail hcalls
      refine ⟨t, by rw [hlead, htail], htend.trans hend, hnone, fun k => ?_⟩
      rw [hlead, List.length_cons, Nat.add_right_comm, readNotifications, hread, hcalls, List.map_cons,
        List.cons_append]

/-- **When the end of a stream is reported.** On every stream that is not cut by an end of file: the
leading notifications are returned, and then what there is to say about its end. -/
theorem reportsEnd_iff (s : Stream) :
    ReportsEnd s ↔ (s.ending = .unexpectedEof → head (leading s.bytes).2 ≠ .cut) := by
  obtain ⟨t, hbytes, hend, hnone, hcalls⟩ := readNotifications_leading s
  have hlast : ∀ last, readNotifications ((leading s.bytes).1.length + 1) s =
      (leading s.bytes).1.map (fun n => .ok (some n)) ++ [last] ↔ last = (nextRead t).1 := by
    intro last
    rw [hcalls, readNotifications, readNotifications, List.append_cancel_left_eq, List.cons.injEq]
    exact ⟨fun h => h.1.symm, fun h => ⟨h.symm, rfl⟩⟩
  unfold ReportsEnd
  simp only [hlast, exists_eq_left, ← hbytes, ← hend, ← head_eq_ended]
  rcases nextRead_of_none hnone with ⟨hhead, hread⟩ | ⟨hended, hcut, e, hread⟩
  · rw [hread]
    by_cases heof : t.ending = .unexpectedEof
    · rcases hhead with hhead | hhead
      · have hmid : ¬ MidFrame t.bytes := fun h => h.1 (head_eq_ended.mp hhead)
        simp [heof, hhead, hmid]
      · have hmid : MidFrame t.bytes := midFrame_of_head_cut hhead
        simp [heof, hhead, hmid]
    · simp [heof]
  · rw [hread]
    simp [hended, hcut]

/-- **Two bytes of a length**, and the end of the stream: it is reported as an orderly end. -/
theorem not_reportsEnd_cut : readNotifications 1 ⟨[[0, 0]], .unexpectedEof⟩ = [.ok none] ∧
    MidFrame [0, 0] ∧ ¬ ReportsEnd ⟨[[0, 0]], .unexpectedEof⟩ := by
  refine ⟨rfl, by decide, ?_⟩
  rintro ⟨last, hcalls, -, herror⟩
  have hlead : leading [0, 0] = ([], [0, 0]) := by
    rw [leading]
    rfl
  have hbytes : Stream.bytes ⟨[[0, 0]], .unexpectedEof⟩ = [0, 0] := rfl
  rw [hbytes, hlead] at hcalls herror
  obtain ⟨e, rfl⟩ := herror (by decide)
  have hread : readNotifications 1 ⟨[[0, 0]], .unexpectedEof⟩ = [.ok none] := rfl
  rw [List.length_nil, hread] at hcalls
  cases hcalls

end Crossbridge.Server
