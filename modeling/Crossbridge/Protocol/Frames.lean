import Crossbridge.Protocol.Streams

/-!
The bytes of a stream as a reader takes them apart.

A reader that comes to `bs` finds nothing, a frame that is cut, a length that is too large, or a
whole frame (`Head`). What either reader does on any stream follows from this (`Reader.read_head`):
at the end and in a cut frame it fails with the error of the stream, and a whole frame it decodes.
-/

namespace Crossbridge.Protocol.Streams

open Crossbridge.Varint

variable {α : Type}

/-- How the bytes of a stream begin. -/
inductive Head where
  | ended
  /-- The bytes end inside a length, or inside a payload of a length that is allowed. -/
  | cut
  | oversized (len : ℕ) (rest : Bytes)
  | frame (payload rest : Bytes)
  deriving DecidableEq, Repr

def head (bs : Bytes) : Head :=
  if bs = [] then .ended
  else if bs.length < 4 then .cut
  else if maxFrameSize < fromBeBytes (bs.take 4) then .oversized (fromBeBytes (bs.take 4)) (bs.drop 4)
  else if bs.length < 4 + fromBeBytes (bs.take 4) then .cut
  else .frame ((bs.drop 4).take (fromBeBytes (bs.take 4))) ((bs.drop 4).drop (fromBeBytes (bs.take 4)))

/-- What a reader returns on bytes that begin so, when the stream ends with `ending`, and the bytes
that are left. -/
def Head.outcome (c : Postcard.Codec α) (ending : IoErrorKind) : Head → Except Error α × Bytes
  | .ended | .cut => (.error (.io ending), [])
  | .oversized len rest => (.error (.frameTooLarge len maxFrameSize), rest)
  | .frame payload rest =>
    match c.dec payload with
    | .error e => (.error (.postcard e), rest)
    | .ok (m, _) => (.ok m, rest)

section Head

variable {c : Postcard.Codec α} {bs payload rest : Bytes}

lemma head_eq_ended : head bs = .ended ↔ bs = [] := by
  unfold head
  constructor
  · intro h
    by_contra hne
    rw [if_neg hne] at h
    split_ifs at h
  · intro h
    rw [if_pos h]

/-- A frame is its length, a payload and what follows. -/
lemma eq_of_head_frame (h : head bs = .frame payload rest) :
    ∃ len, len.length = 4 ∧ fromBeBytes len = payload.length ∧ payload.length ≤ maxFrameSize ∧
      bs = len ++ payload ++ rest := by
  unfold head at h
  split_ifs at h with hne h4 hlarge hcut
  obtain ⟨rfl, rfl⟩ := Head.frame.inj h
  have hlen : ((bs.drop 4).take (fromBeBytes (bs.take 4))).length = fromBeBytes (bs.take 4) := by
    rw [List.length_take, List.length_drop]
    omega
  refine ⟨bs.take 4, ?_, hlen.symm, ?_, ?_⟩
  · rw [List.length_take]
    omega
  · rw [hlen]
    exact Nat.le_of_not_lt hlarge
  · rw [List.append_assoc, List.take_append_drop, List.take_append_drop]

lemma length_lt_of_head_frame (h : head bs = .frame payload rest) : rest.length < bs.length := by
  obtain ⟨len, hlen, -, -, rfl⟩ := eq_of_head_frame h
  rw [List.length_append, List.length_append]
  omega

lemma head_frame {len : Bytes} (hlen : len.length = 4) (hpayload : fromBeBytes len = payload.length)
    (hmax : payload.length ≤ maxFrameSize) (rest : Bytes) :
    head (len ++ payload ++ rest) = .frame payload rest := by
  have htake : (len ++ payload ++ rest).take 4 = len := by
    rw [List.append_assoc, ← hlen, List.take_left]
  have hdrop : (len ++ payload ++ rest).drop 4 = payload ++ rest := by
    rw [List.append_assoc, ← hlen, List.drop_left]
  have hlength : (len ++ payload ++ rest).length = 4 + payload.length + rest.length := by
    rw [List.length_append, List.length_append, hlen]
  have hne : len ++ payload ++ rest ≠ [] := by
    intro h
    rw [h, List.length_nil] at hlength
    omega
  unfold head
  rw [if_neg hne, htake, hdrop, hpayload, if_neg (by omega), if_neg (by omega), if_neg (by omega),
    List.take_left, List.drop_left]

/-- Bytes that are cut end inside a frame. -/
lemma midFrame_of_head_cut (h : head bs = .cut) : MidFrame bs := by
  unfold head at h
  split_ifs at h with hne h4 hlarge hcut
  · exact ⟨hne, Or.inl h4⟩
  · exact ⟨hne, Or.inr hcut⟩

/-- **One poll** that has all the bytes. -/
lemma poll_all (c : Postcard.Codec α) (bs : Bytes) (ending : IoErrorKind) :
    poll c .start ⟨bs, some ending⟩ =
      .ready ((head bs).outcome c ending).1 ⟨((head bs).outcome c ending).2, some ending⟩ := by
  unfold ReadMessage.start head
  rw [poll, pollExact_all]
  by_cases hne : bs = []
  · subst hne
    rfl
  by_cases h4 : bs.length < 4
  · rw [if_neg (Nat.not_le.mpr h4), if_neg hne, if_pos h4]
    rfl
  rw [if_pos (Nat.le_of_not_lt h4), if_neg hne, if_neg h4]
  simp only
  by_cases hlarge : maxFrameSize < fromBeBytes (bs.take 4)
  · rw [if_pos hlarge, if_pos hlarge]
    rfl
  rw [if_neg hlarge, if_neg hlarge]
  unfold pollPayload
  rw [pollExact_all]
  by_cases hcut : bs.length < 4 + fromBeBytes (bs.take 4)
  · have hshort : ¬ fromBeBytes (bs.take 4) ≤ (bs.drop 4).length := by
      rw [List.length_drop]
      omega
    rw [if_neg hshort, if_pos hcut]
    rfl
  · have hall : fromBeBytes (bs.take 4) ≤ (bs.drop 4).length := by
      rw [List.length_drop]
      omega
    rw [if_pos hall, if_neg hcut]
    simp only [Head.outcome]
    cases c.dec ((bs.drop 4).take (fromBeBytes (bs.take 4))) with
    | error e => rfl
    | ok m => rfl

/-- **What the readers do**, on every stream and however its bytes arrive. -/
theorem Reader.read_head (c : Postcard.Codec α) (r : Reader) (s : Stream) :
    (r.read c s).1 = ((head s.bytes).outcome c s.ending).1 ∧
    (r.read c s).2.bytes = ((head s.bytes).outcome c s.ending).2 ∧
    (r.read c s).2.ending = s.ending := by
  obtain ⟨hread, hend⟩ := r.read_spec c s
  rw [poll_all] at hread
  obtain ⟨hresult, hsrc⟩ := Poll.ready.inj hread
  exact ⟨hresult.symm, (congrArg Source.buf hsrc).symm, hend⟩

/-! #### A poll of a stream that may go on -/

/-- The message that the bytes begin with, if they begin with the frame of one. -/
def first (c : Postcard.Codec α) (bs : Bytes) : Option α :=
  match head bs with
  | .frame payload _ =>
    match c.dec payload with
    | .ok (m, _) => some m
    | .error _ => none
  | _ => none

lemma outcome_eq_ok {ending : IoErrorKind} {m : α} :
    ((head bs).outcome c ending).1 = .ok m ↔ first c bs = some m := by
  unfold first
  cases head bs with
  | ended | cut | oversized => simp [Head.outcome]
  | frame payload rest =>
    simp only [Head.outcome]
    cases c.dec payload <;> simp

/-- Only bytes that stop short of a frame make a read fail with the error of the stream. -/
lemma short_of_outcome_io {ending : IoErrorKind}
    (h : ((head bs).outcome c ending).1 = .error (.io ending)) : head bs = .ended ∨ head bs = .cut := by
  cases hhead : head bs with
  | ended => exact Or.inl rfl
  | cut => exact Or.inr rfl
  | oversized len rest =>
    rw [hhead] at h
    cases h
  | frame payload rest =>
    rw [hhead, Head.outcome] at h
    cases hdec : c.dec payload with
    | error e =>
      rw [hdec] at h
      cases h
    | ok m =>
      rw [hdec] at h
      cases h

/-- The bytes go on after a frame. -/
lemma head_append (h : head bs = .frame payload rest) (more : Bytes) :
    head (bs ++ more) = .frame payload (rest ++ more) := by
  obtain ⟨len, hlen, hpayload, hmax, rfl⟩ := eq_of_head_frame h
  rw [List.append_assoc]
  exact head_frame hlen hpayload hmax _

lemma head_append_oversized {len : ℕ} (h : head bs = .oversized len rest) (more : Bytes) :
    head (bs ++ more) = .oversized len (rest ++ more) := by
  unfold head at h
  split_ifs at h with hne h4 hlarge
  obtain ⟨rfl, rfl⟩ := Head.oversized.inj h
  have hlen : 4 ≤ bs.length := Nat.le_of_not_lt h4
  have htake : (bs ++ more).take 4 = bs.take 4 := List.take_append_of_le_length hlen
  have hdrop : (bs ++ more).drop 4 = bs.drop 4 ++ more := List.drop_append_of_le_length hlen
  unfold head
  rw [if_neg (by simp [hne]), if_neg (by rw [List.length_append]; omega), htake, if_pos hlarge, hdrop]

lemma first_append {m : α} (h : first c bs = some m) (more : Bytes) :
    first c (bs ++ more) = some m := by
  unfold first at h ⊢
  split at h
  · rename_i payload rest hhead
    rw [head_append hhead]
    exact h
  · cases h

lemma first_frame {m : α} (h : Fits c m) (rest : Bytes) : first c (frame c m ++ rest) = some m := by
  have hpoll := poll_frame h rest (some .unexpectedEof)
  rw [poll_all] at hpoll
  exact outcome_eq_ok.mp (Poll.ready.inj hpoll).1

/-- A short stream begins with no frame. -/
lemma first_short (h : Short c bs) : first c bs = none := by
  have hpoll := poll_short_ended h .unexpectedEof
  rw [poll_all] at hpoll
  have herr := (Poll.ready.inj hpoll).1
  cases hfirst : first c bs with
  | none => rfl
  | some m =>
    rw [outcome_eq_ok.mpr hfirst] at herr
    cases herr

/-- What is read from the beginning of a frame is its message. -/
lemma eq_of_first {m m' : α} (h : Fits c m) (hp : bs <+: frame c m)
    (hfirst : first c bs = some m') : m' = m := by
  obtain ⟨more, hmore⟩ := hp
  have hall := first_append hfirst more
  have hframe := first_frame h []
  rw [List.append_nil, ← hmore, hall] at hframe
  exact Option.some.inj hframe

/-- On the beginning of a frame, while the stream is open, no read fails. -/
lemma poll_ne_error_of_prefix {m : α} (h : Fits c m) {fut : ReadMessage} (hw : fut.Waiting)
    {src src' : Source} (hopen : src.ending = none) (hp : fut.bytes ++ src.buf <+: frame c m)
    (e : Error) : poll c fut src ≠ .ready (.error e) src' := by
  intro hpoll
  rw [poll_eq_start hw, hopen] at hpoll
  by_cases hlt : (fut.bytes ++ src.buf).length < (frame c m).length
  · obtain ⟨fut', hpending, -⟩ := poll_short (Or.inr ⟨m, h, hp, hlt⟩)
    rw [hpending] at hpoll
    cases hpoll
  · have hall : fut.bytes ++ src.buf = frame c m :=
      hp.eq_of_length (le_antisymm hp.length_le (Nat.le_of_not_lt hlt))
    have hframe := poll_frame h [] none
    rw [List.append_nil, ← hall, hpoll] at hframe
    cases hframe

/-- **A poll that comes to a result**: it is that of all the bytes so far. -/
theorem poll_ready_outcome {fut : ReadMessage} {src src' : Source} {r : Except Error α}
    (hw : fut.Waiting) (h : poll c fut src = .ready r src') : src'.ending = src.ending ∧
      ∃ ending, r = ((head (fut.bytes ++ src.buf)).outcome c ending).1 ∧
        src'.buf = ((head (fut.bytes ++ src.buf)).outcome c ending).2 := by
  refine ⟨ending_of_poll_ready h, ?_⟩
  have hall : ∀ ending buf, poll c fut ⟨src.buf, some ending⟩ = .ready r ⟨buf, some ending⟩ →
      r = ((head (fut.bytes ++ src.buf)).outcome c ending).1 ∧
        buf = ((head (fut.bytes ++ src.buf)).outcome c ending).2 := by
    intro ending buf hpoll
    rw [poll_eq_start hw, poll_all] at hpoll
    obtain ⟨hr, hsrc⟩ := Poll.ready.inj hpoll
    exact ⟨hr.symm, (congrArg Source.buf hsrc).symm⟩
  cases hend : src.ending with
  | none =>
    have hmore := poll_ready_more h hend [] (some .unexpectedEof)
    rw [List.append_nil, List.append_nil] at hmore
    exact ⟨_, hall _ _ hmore⟩
  | some ending =>
    refine ⟨ending, hall _ _ ?_⟩
    rw [← hend, h, ← ending_of_poll_ready h]

/-- **A poll that has to wait**: the bytes so far stop short of a frame. -/
theorem head_of_poll_pending {fut fut' : ReadMessage} {src src' : Source} (hw : fut.Waiting)
    (h : poll c fut src = .pending fut' src') :
    head (fut.bytes ++ src.buf) = .ended ∨ head (fut.bytes ++ src.buf) = .cut := by
  obtain ⟨rfl, hw', -⟩ := poll_pending_bytes hw h
  have hmore := poll_pending_more h [] (some .unexpectedEof)
  rw [List.append_nil, List.append_nil, poll_waiting_ended hw', poll_eq_start hw, poll_all] at hmore
  exact short_of_outcome_io (Poll.ready.inj hmore).1

/-- The bytes so far stop short of a frame. -/
def Stops (bs : Bytes) : Prop := head bs = .ended ∨ head bs = .cut

instance (bs : Bytes) : Decidable (Stops bs) := by unfold Stops; infer_instance

/-- **When a read waits**: on a stream that is open, as long as the bytes stop short of a frame. -/
theorem exists_pending_iff {fut : ReadMessage} {src : Source} (hw : fut.Waiting) :
    (∃ fut' src', poll c fut src = .pending fut' src') ↔
      src.ending = none ∧ Stops (fut.bytes ++ src.buf) := by
  constructor
  · rintro ⟨fut', src', h⟩
    exact ⟨ending_of_poll_pending h, head_of_poll_pending hw h⟩
  · rintro ⟨hopen, hstops⟩
    cases hpoll : poll c fut src with
    | pending fut' src' => exact ⟨fut', src', rfl⟩
    | ready r src' =>
      -- the result would be the error of the stream, whichever that comes to be
      exfalso
      have hall : ∀ ending, r = .error (.io ending) := by
        intro ending
        have hmore := poll_ready_more hpoll hopen [] (some ending)
        rw [List.append_nil, poll_eq_start hw, poll_all] at hmore
        rw [← (Poll.ready.inj hmore).1]
        rcases hstops with h | h <;> rw [h] <;> rfl
      have hboth := (hall .unexpectedEof).symm.trans (hall .connectionReset)
      cases hboth

lemma stops_of_append {more : Bytes} (h : Stops (bs ++ more)) : Stops bs := by
  unfold Stops at h ⊢
  cases hhead : head bs with
  | ended => exact Or.inl rfl
  | cut => exact Or.inr rfl
  | frame payload rest =>
    rw [head_append hhead] at h
    rcases h with h | h <;> cases h
  | oversized len rest =>
    rw [head_append_oversized hhead] at h
    rcases h with h | h <;> cases h

/-- More bytes do not change the message that is there. -/
lemma first_append_of_not_stops (h : ¬ Stops bs) (more : Bytes) : first c (bs ++ more) = first c bs := by
  unfold first
  cases hhead : head bs with
  | ended => exact absurd (Or.inl hhead) h
  | cut => exact absurd (Or.inr hhead) h
  | frame payload rest => rw [head_append hhead]
  | oversized len rest => rw [head_append_oversized hhead]

end Head

end Crossbridge.Protocol.Streams
