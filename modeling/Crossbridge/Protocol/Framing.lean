import Crossbridge.Protocol.Message

/-!
Length-prefixed framing.

A frame is the length of the payload, four bytes big-endian, and the postcard payload. Writing is a
function of the message. Reading is the state machine the compiler makes of the `async fn`: the
future (`ReadMessage`) stands at one of its two `read_exact` calls and holds the bytes that call
has consumed, and a poll takes what the stream has to offer. The synchronous reader is the same
machine on a stream that makes it wait.

`poll_eq_start` says that a future in progress behaves like a fresh one to which its bytes were
given back; `poll_frame` and `poll_partial` say what a fresh one does on a stream that begins with
a frame, and on one that holds only part of it.
-/

namespace Crossbridge.Protocol

open Crossbridge.Varint

/-- Maximum allowed payload: 16 MiB. -/
def maxFrameSize : ℕ := 16 * 1024 * 1024

/-- The `std::io::ErrorKind` of a failed read; an orderly end of the stream is `unexpectedEof`. -/
inductive IoErrorKind where
  | unexpectedEof
  | connectionReset
  | other
  deriving DecidableEq, Repr

/-- The errors of the framing helpers. -/
inductive Error where
  | io (kind : IoErrorKind)
  | postcard (e : PostcardError)
  | frameTooLarge (size max : ℕ)
  deriving DecidableEq, Repr

/-- The texts of the errors that come from outside: of `std::io` and of postcard. -/
structure ErrorTexts where
  io : IoErrorKind → String
  postcard : PostcardError → String

/-- The `Display` of an error. -/
def Error.display (t : ErrorTexts) : Error → String
  | .io kind => "io error: " ++ t.io kind
  | .postcard e => "postcard error: " ++ t.postcard e
  | .frameTooLarge size max =>
    "frame too large: " ++ toString size ++ " bytes (max " ++ toString max ++ ")"

section Display

variable (t : ErrorTexts)

@[simp] lemma display_io (kind : IoErrorKind) : (Error.io kind).display t = "io error: " ++ t.io kind :=
  rfl

@[simp] lemma display_postcard (e : PostcardError) :
    (Error.postcard e).display t = "postcard error: " ++ t.postcard e := rfl

@[simp] lemma display_frameTooLarge (size max : ℕ) : (Error.frameTooLarge size max).display t =
    "frame too large: " ++ toString size ++ " bytes (max " ++ toString max ++ ")" := rfl

end Display

/-! ### Big-endian lengths -/

/-- `u32::to_be_bytes`. -/
def toBeBytes (n : ℕ) : Bytes :=
  [UInt8.ofNat (n / 2 ^ 24), UInt8.ofNat (n / 2 ^ 16), UInt8.ofNat (n / 2 ^ 8), UInt8.ofNat n]

/-- `u32::from_be_bytes`. -/
def fromBeBytes (bs : Bytes) : ℕ := bs.foldl (fun n b => 256 * n + b.toNat) 0

lemma toBeBytes_length (n : ℕ) : (toBeBytes n).length = 4 := rfl

lemma toBeBytes_fromBeBytes {bs : Bytes} (h : bs.length = 4) : toBeBytes (fromBeBytes bs) = bs := by
  obtain ⟨a, b, c, d, rfl⟩ : ∃ a b c d, bs = [a, b, c, d] := by
    rcases bs with _ | ⟨a, _ | ⟨b, _ | ⟨c, _ | ⟨d, _ | ⟨e, bs⟩⟩⟩⟩⟩ <;> simp at h
    exact ⟨a, b, c, d, rfl⟩
  have hbyte : ∀ (n : ℕ) (x : UInt8), n % 256 = x.toNat → UInt8.ofNat n = x := by
    intro n x hn
    rw [← UInt8.toNat_inj, UInt8.toNat_ofNat']
    exact hn
  have ha := a.toNat_lt
  have hb := b.toNat_lt
  have hc := c.toNat_lt
  have hd := d.toNat_lt
  simp only [toBeBytes, fromBeBytes, List.foldl_cons, List.foldl_nil, List.cons.injEq, and_true]
  refine ⟨hbyte _ _ ?_, hbyte _ _ ?_, hbyte _ _ ?_, hbyte _ _ ?_⟩ <;> omega

lemma fromBeBytes_toBeBytes {n : ℕ} (h : n < 2 ^ 32) : fromBeBytes (toBeBytes n) = n := by
  simp only [fromBeBytes, toBeBytes, List.foldl_cons, List.foldl_nil, UInt8.toNat_ofNat']
  omega

/-! ### Writing -/

section Write

variable {α : Type} (c : Postcard.Codec α)

/-- The payload of a message, unless it is too large to be framed. -/
def encode (m : α) : Except Error Bytes :=
  if maxFrameSize < (c.enc m).length then .error (.frameTooLarge (c.enc m).length maxFrameSize)
  else .ok (c.enc m)

/-- The bytes `write_message` hands to the stream. -/
def writeMessage (m : α) : Except Error Bytes :=
  match encode c m with
  | .error e => .error e
  | .ok payload => .ok (toBeBytes payload.length ++ payload)

/-- The frame of a message: its length and its payload. -/
def frame (m : α) : Bytes := toBeBytes (c.enc m).length ++ c.enc m

/-- The payload of a message can be framed. -/
def Fits (m : α) : Prop := (c.enc m).length ≤ maxFrameSize

instance (m : α) : Decidable (Fits c m) := by unfold Fits; infer_instance

variable {c}

lemma writeMessage_of_fits {m : α} (h : Fits c m) : writeMessage c m = .ok (frame c m) := by
  have h' : ¬ maxFrameSize < (c.enc m).length := Nat.not_lt.mpr h
  unfold writeMessage encode
  rw [if_neg h']
  rfl

lemma writeMessage_of_not_fits {m : α} (h : ¬ Fits c m) :
    writeMessage c m = .error (.frameTooLarge (c.enc m).length maxFrameSize) := by
  unfold writeMessage encode
  rw [if_pos (Nat.lt_of_not_le h)]

lemma frame_length (m : α) : (frame c m).length = 4 + (c.enc m).length := by
  rw [frame, List.length_append, toBeBytes_length]

end Write

/-! ### Reading -/

/-- The receiving side of a stream: what has arrived and was not read, and how the stream ended
(`none` while the other side is open). -/
structure Source where
  buf : Bytes
  ending : Option IoErrorKind
  deriving DecidableEq, Repr

/-- What a poll of `read_exact` gives. -/
inductive ExactPoll where
  | ready (buf : Bytes) (src : Source)
  | failed (kind : IoErrorKind) (src : Source)
  | pending (got : Bytes) (src : Source)

/-- One poll of `read_exact` of `n` bytes, the call having consumed `got` so far. -/
def pollExact (n : ℕ) (got : Bytes) (src : Source) : ExactPoll :=
  let got' := got ++ src.buf.take (n - got.length)
  let src' := { src with buf := src.buf.drop (n - got.length) }
  if got'.length = n then .ready got' src'
  else
    match src.ending with
    | some kind => .failed kind src'
    | none => .pending got' src'

/-- The future of `read_message`: at its first `read_exact`, or at its second, of `len` bytes. -/
inductive ReadMessage where
  | header (got : Bytes)
  | payload (len : ℕ) (got : Bytes)
  deriving DecidableEq, Repr

/-- A future that has not been polled. -/
def ReadMessage.start : ReadMessage := .header []

/-- What a poll of `read_message` gives. -/
inductive Poll (α : Type) where
  | ready (r : Except Error α) (src : Source)
  | pending (fut : ReadMessage) (src : Source)

variable {α : Type} (c : Postcard.Codec α)

/-- The second half of `read_message`: the payload, and `postcard::from_bytes` of it. -/
def pollPayload (len : ℕ) (got : Bytes) (src : Source) : Poll α :=
  match pollExact len got src with
  | .failed kind src => .ready (.error (.io kind)) src
  | .pending got src => .pending (.payload len got) src
  | .ready buf src =>
    match c.dec buf with
    | .error e => .ready (.error (.postcard e)) src
    | .ok (m, _) => .ready (.ok m) src

/-- One poll of `read_message`. -/
def poll : ReadMessage → Source → Poll α
  | .header got, src =>
    match pollExact 4 got src with
    | .failed kind src => .ready (.error (.io kind)) src
    | .pending got src => .pending (.header got) src
    | .ready buf src =>
      -- `check_incoming_len`
      if maxFrameSize < fromBeBytes buf then
        .ready (.error (.frameTooLarge (fromBeBytes buf) maxFrameSize)) src
      else pollPayload c (fromBeBytes buf) [] src
  | .payload len got, src => pollPayload c len got src

/-- The bytes of the stream a future has consumed. -/
def ReadMessage.bytes : ReadMessage → Bytes
  | .header got => got
  | .payload len got => toBeBytes len ++ got

/-- A future that still waits for bytes. -/
def ReadMessage.Waiting : ReadMessage → Prop
  | .header got => got.length < 4
  | .payload len got => got.length < len ∧ len ≤ maxFrameSize

lemma ReadMessage.waiting_start : ReadMessage.start.Waiting := by
  show (0 : ℕ) < 4
  omega

/-! ### What `read_exact` does -/

lemma pollExact_got {n : ℕ} {got : Bytes} (h : got.length ≤ n) (src : Source) :
    pollExact n got src = pollExact n [] { src with buf := got ++ src.buf } := by
  have h1 : (got ++ src.buf).take n = got ++ src.buf.take (n - got.length) := by
    rw [List.take_append, List.take_of_length_le h]
  have h2 : (got ++ src.buf).drop n = src.buf.drop (n - got.length) := by
    rw [List.drop_append, List.drop_of_length_le h, List.nil_append]
  unfold pollExact
  simp only [List.length_nil, Nat.sub_zero, List.nil_append, h1, h2]

lemma pollExact_nil_append (buf rest : Bytes) (ending : Option IoErrorKind) :
    pollExact buf.length [] ⟨buf ++ rest, ending⟩ = .ready buf ⟨rest, ending⟩ := by
  unfold pollExact
  simp

lemma pollExact_nil_short {n : ℕ} {buf : Bytes} (h : buf.length < n) :
    pollExact n [] ⟨buf, none⟩ = .pending buf ⟨[], none⟩ := by
  unfold pollExact
  simp only [List.length_nil, Nat.sub_zero, List.nil_append, List.take_of_length_le h.le,
    List.drop_of_length_le h.le, if_neg h.ne]

lemma pollExact_nil_short_ended {n : ℕ} {buf : Bytes} (h : buf.length < n) (kind : IoErrorKind) :
    pollExact n [] ⟨buf, some kind⟩ = .failed kind ⟨[], some kind⟩ := by
  unfold pollExact
  simp only [List.length_nil, Nat.sub_zero, List.nil_append, List.take_of_length_le h.le,
    List.drop_of_length_le h.le, if_neg h.ne]

/-! ### What `read_message` does -/

variable {c}

lemma pollPayload_got {len : ℕ} {got : Bytes} (h : got.length ≤ len) (src : Source) :
    pollPayload c len got src = pollPayload c len [] { src with buf := got ++ src.buf } := by
  unfold pollPayload
  rw [pollExact_got h]

lemma poll_start_header {len : ℕ} (h : len ≤ maxFrameSize) (buf : Bytes)
    (ending : Option IoErrorKind) :
    poll c .start ⟨toBeBytes len ++ buf, ending⟩ = pollPayload c len [] ⟨buf, ending⟩ := by
  have hlen : fromBeBytes (toBeBytes len) = len :=
    fromBeBytes_toBeBytes (lt_of_le_of_lt h (by decide))
  have h4 := pollExact_nil_append (toBeBytes len) buf ending
  rw [toBeBytes_length] at h4
  unfold poll ReadMessage.start
  simp only [h4, hlen, if_neg (Nat.not_lt.mpr h)]

/-- **A future in progress is a fresh one whose bytes were given back.** -/
theorem poll_eq_start {fut : ReadMessage} (h : fut.Waiting) (src : Source) :
    poll c fut src = poll c .start { src with buf := fut.bytes ++ src.buf } := by
  cases fut with
  | header got =>
    have h4 : got.length ≤ 4 := Nat.le_of_lt h
    unfold poll ReadMessage.start ReadMessage.bytes
    simp only [pollExact_got h4]
  | payload len got =>
    obtain ⟨hlt, hle⟩ := h
    have := poll_start_header (c := c) hle (got ++ src.buf) src.ending
    rw [ReadMessage.bytes, List.append_assoc, this]
    exact pollPayload_got hlt.le src

/-- **A whole frame.** The message is read, and exactly its frame is consumed. -/
theorem poll_frame {m : α} (h : Fits c m) (rest : Bytes) (ending : Option IoErrorKind) :
    poll c .start ⟨frame c m ++ rest, ending⟩ = .ready (.ok m) ⟨rest, ending⟩ := by
  have hlim : (c.enc m).length < Postcard.lim := lt_of_le_of_lt h (by decide)
  have hdec : c.dec (c.enc m) = .ok (m, []) := by simpa using c.dec_enc m [] hlim
  rw [frame, List.append_assoc, poll_start_header h]
  unfold pollPayload
  simp only [pollExact_nil_append, hdec]

lemma exists_eq_toBeBytes_append {m : α} {buf : Bytes} (hp : buf <+: frame c m)
    (h4 : 4 ≤ buf.length) : ∃ got, buf = toBeBytes (c.enc m).length ++ got := by
  have hlen : (toBeBytes (c.enc m).length).length ≤ buf.length := h4
  obtain ⟨got, hgot⟩ := List.prefix_of_prefix_length_le (List.prefix_append _ _) hp hlen
  exact ⟨got, hgot.symm⟩

/-- **Part of a frame**, the stream still open. The future keeps what there is and waits. -/
theorem poll_partial {m : α} (h : Fits c m) {buf : Bytes} (hp : buf <+: frame c m)
    (hlt : buf.length < (frame c m).length) :
    ∃ fut, poll c .start ⟨buf, none⟩ = .pending fut ⟨[], none⟩ ∧ fut.bytes = buf ∧
      fut.Waiting := by
  rw [frame_length] at hlt
  by_cases h4 : buf.length < 4
  · refine ⟨.header buf, ?_, rfl, h4⟩
    unfold poll ReadMessage.start
    simp only [pollExact_nil_short h4]
  · obtain ⟨got, rfl⟩ := exists_eq_toBeBytes_append hp (Nat.le_of_not_lt h4)
    rw [List.length_append, toBeBytes_length] at hlt
    refine ⟨.payload (c.enc m).length got, ?_, rfl, by omega, h⟩
    rw [poll_start_header h]
    unfold pollPayload
    simp only [pollExact_nil_short (show got.length < (c.enc m).length by omega)]

/-- **Part of a frame**, the stream at its end. The read fails with the error of the stream. -/
theorem poll_partial_ended {m : α} (h : Fits c m) {buf : Bytes} (hp : buf <+: frame c m)
    (hlt : buf.length < (frame c m).length) (kind : IoErrorKind) :
    poll c .start ⟨buf, some kind⟩ = .ready (.error (.io kind)) ⟨[], some kind⟩ := by
  rw [frame_length] at hlt
  by_cases h4 : buf.length < 4
  · unfold poll ReadMessage.start
    simp only [pollExact_nil_short_ended h4]
  · obtain ⟨got, rfl⟩ := exists_eq_toBeBytes_append hp (Nat.le_of_not_lt h4)
    rw [List.length_append, toBeBytes_length] at hlt
    rw [poll_start_header h]
    unfold pollPayload
    simp only [pollExact_nil_short_ended (show got.length < (c.enc m).length by omega)]

/-! ### When a read waits -/

lemma ending_of_pollExact_pending {n : ℕ} {got got' : Bytes} {src src' : Source}
    (h : pollExact n got src = .pending got' src') : src.ending = none := by
  cases hsrc : src.ending with
  | none => rfl
  | some kind =>
    simp only [pollExact, hsrc] at h
    split at h <;> cases h

lemma ending_of_pollExact_ready {n : ℕ} {got buf : Bytes} {src src' : Source}
    (h : pollExact n got src = .ready buf src') : src'.ending = src.ending := by
  unfold pollExact at h
  by_cases hlen : (got ++ src.buf.take (n - got.length)).length = n
  · simp only [if_pos hlen, ExactPoll.ready.injEq] at h
    rw [← h.2]
  · simp only [if_neg hlen] at h
    split at h <;> cases h

lemma ending_of_pollPayload_pending {len : ℕ} {got : Bytes} {fut : ReadMessage} {src src' : Source}
    (h : pollPayload c len got src = .pending fut src') : src.ending = none := by
  unfold pollPayload at h
  split at h
  · cases h
  · rename_i hp
    exact ending_of_pollExact_pending hp
  · split at h <;> cases h

/-- A read waits only as long as the stream is open. -/
lemma ending_of_poll_pending {fut fut' : ReadMessage} {src src' : Source}
    (h : poll c fut src = .pending fut' src') : src.ending = none := by
  cases fut with
  | header got =>
    rw [poll] at h
    split at h
    · cases h
    · rename_i hp
      exact ending_of_pollExact_pending hp
    · rename_i hp
      split at h
      · cases h
      · rw [← ending_of_pollExact_ready hp]
        exact ending_of_pollPayload_pending h
  | payload len got => exact ending_of_pollPayload_pending h

lemma pollExact_pending_bytes {n : ℕ} {got got' : Bytes} {src src' : Source} (hlt : got.length < n)
    (h : pollExact n got src = .pending got' src') :
    src' = ⟨[], none⟩ ∧ got'.length < n ∧ got' = got ++ src.buf := by
  have hopen := ending_of_pollExact_pending h
  unfold pollExact at h
  by_cases hlen : (got ++ src.buf.take (n - got.length)).length = n
  · simp only [if_pos hlen] at h
    cases h
  · simp only [if_neg hlen, hopen, ExactPoll.pending.injEq] at h
    obtain ⟨rfl, rfl⟩ := h
    rw [List.length_append, List.length_take] at hlen
    have hall : src.buf.length ≤ n - got.length := by omega
    rw [List.take_of_length_le hall, List.drop_of_length_le hall]
    refine ⟨rfl, ?_, rfl⟩
    rw [List.length_append]
    omega

lemma pollExact_ready_bytes {n : ℕ} {got buf : Bytes} {src src' : Source}
    (h : pollExact n got src = .ready buf src') : buf.length = n ∧ buf ++ src'.buf = got ++ src.buf := by
  unfold pollExact at h
  by_cases hlen : (got ++ src.buf.take (n - got.length)).length = n
  · simp only [if_pos hlen] at h
    obtain ⟨rfl, rfl⟩ := ExactPoll.ready.inj h
    exact ⟨hlen, by rw [List.append_assoc, List.take_append_drop]⟩
  · simp only [if_neg hlen] at h
    split at h <;> cases h

lemma pollPayload_pending_bytes {len : ℕ} {got : Bytes} {fut : ReadMessage} {src src' : Source}
    (hle : len ≤ maxFrameSize) (hlt : got.length < len ∨ got = [])
    (h : pollPayload c len got src = .pending fut src') :
    src' = ⟨[], none⟩ ∧ fut.Waiting ∧ fut.bytes = toBeBytes len ++ (got ++ src.buf) := by
  unfold pollPayload at h
  split at h
  · cases h
  · rename_i got' src₁ hp
    obtain ⟨rfl, rfl⟩ := Poll.pending.inj h
    have hlt' : got.length < len := by
      rcases hlt with hlt | rfl
      · exact hlt
      · -- nothing is asked for, and nothing is waited for
        by_contra hzero
        obtain rfl : len = 0 := by simpa using hzero
        simp [pollExact] at hp
    obtain ⟨hsrc, hgot, rfl⟩ := pollExact_pending_bytes hlt' hp
    exact ⟨hsrc, ⟨hgot, hle⟩, rfl⟩
  · split at h <;> cases h

/-- A read of nothing stays where it is. -/
lemma poll_nil {fut : ReadMessage} (hw : fut.Waiting) :
    poll c fut ⟨[], none⟩ = .pending fut ⟨[], none⟩ := by
  cases fut with
  | header got =>
    have hlt : ¬ got.length = 4 := Nat.ne_of_lt hw
    simp [poll, pollExact, hlt]
  | payload len got =>
    have hlt : ¬ got.length = len := Nat.ne_of_lt hw.1
    simp [poll, pollPayload, pollExact, hlt]

/-- **A read that waits** has taken all there was, and holds it. -/
theorem poll_pending_bytes {fut fut' : ReadMessage} {src src' : Source} (hw : fut.Waiting)
    (h : poll c fut src = .pending fut' src') :
    src' = ⟨[], none⟩ ∧ fut'.Waiting ∧ fut'.bytes = fut.bytes ++ src.buf := by
  cases fut with
  | header got =>
    rw [poll] at h
    split at h
    · cases h
    · rename_i got' src₁ hp
      obtain ⟨rfl, rfl⟩ := Poll.pending.inj h
      obtain ⟨hsrc, hgot, rfl⟩ := pollExact_pending_bytes hw hp
      exact ⟨hsrc, hgot, rfl⟩
    · rename_i buf src₁ hp
      obtain ⟨hlen, hbytes⟩ := pollExact_ready_bytes hp
      split at h
      · cases h
      · rename_i hsmall
        obtain ⟨hsrc, hwait, hfut⟩ := pollPayload_pending_bytes (Nat.le_of_not_lt hsmall) (Or.inr rfl) h
        refine ⟨hsrc, hwait, ?_⟩
        rw [hfut, toBeBytes_fromBeBytes hlen, List.nil_append, hbytes]
        rfl
  | payload len got =>
    obtain ⟨hlt, hle⟩ := hw
    obtain ⟨hsrc, hwait, hfut⟩ := pollPayload_pending_bytes hle (Or.inl hlt) h
    refine ⟨hsrc, hwait, ?_⟩
    rw [hfut, ReadMessage.bytes, List.append_assoc]

/-- A read that waits when the stream ends, and nothing more has come. -/
lemma poll_waiting_ended {fut : ReadMessage} (hw : fut.Waiting) (kind : IoErrorKind) :
    poll c fut ⟨[], some kind⟩ = .ready (.error (.io kind)) ⟨[], some kind⟩ := by
  have hexact : ∀ {n : ℕ} {got : Bytes}, got.length < n →
      pollExact n got ⟨[], some kind⟩ = .failed kind ⟨[], some kind⟩ := by
    intro n got hlt
    unfold pollExact
    simp only [List.take_nil, List.append_nil, List.drop_nil, if_neg hlt.ne]
  cases fut with
  | header got => rw [poll, hexact hw]
  | payload len got => rw [poll, pollPayload, hexact hw.1]

/-! ### What is not a whole frame -/

/-- The bytes end inside a frame: in its length, or before the payload has the length announced. -/
def MidFrame (bs : Bytes) : Prop :=
  bs ≠ [] ∧ (bs.length < 4 ∨ bs.length < 4 + fromBeBytes (bs.take 4))

instance (bs : Bytes) : Decidable (MidFrame bs) := by unfold MidFrame; infer_instance

variable (c) in
/-- Nothing, or the beginning of the frame of some message. -/
def Short (bs : Bytes) : Prop :=
  bs = [] ∨ ∃ m, Fits c m ∧ bs <+: frame c m ∧ bs.length < (frame c m).length

lemma Short.midFrame {bs : Bytes} (h : Short c bs) (hne : bs ≠ []) : MidFrame bs := by
  rcases h with rfl | ⟨m, hfit, hp, hlt⟩
  · exact absurd rfl hne
  · refine ⟨hne, ?_⟩
    by_cases h4 : bs.length < 4
    · exact Or.inl h4
    · obtain ⟨got, rfl⟩ := exists_eq_toBeBytes_append hp (Nat.le_of_not_lt h4)
      have hlen : fromBeBytes (toBeBytes (c.enc m).length) = (c.enc m).length :=
        fromBeBytes_toBeBytes (lt_of_le_of_lt hfit (by decide))
      right
      rw [List.take_append_of_le_length (by rw [toBeBytes_length]),
        List.take_of_length_le (by rw [toBeBytes_length]), hlen]
      rwa [frame_length] at hlt

/-- **A short stream**, still open: everything is taken, and the future waits. -/
theorem poll_short {bs : Bytes} (h : Short c bs) :
    ∃ fut, poll c .start ⟨bs, none⟩ = .pending fut ⟨[], none⟩ ∧ fut.bytes = bs ∧ fut.Waiting := by
  rcases h with rfl | ⟨m, hfit, hp, hlt⟩
  · exact ⟨.start, rfl, rfl, ReadMessage.waiting_start⟩
  · exact poll_partial hfit hp hlt

/-- **A short stream**, at its end: the read fails. -/
theorem poll_short_ended {bs : Bytes} (h : Short c bs) (kind : IoErrorKind) :
    poll c .start ⟨bs, some kind⟩ = .ready (.error (.io kind)) ⟨[], some kind⟩ := by
  rcases h with rfl | ⟨m, hfit, hp, hlt⟩
  · rfl
  · exact poll_partial_ended hfit hp hlt kind

end Crossbridge.Protocol
