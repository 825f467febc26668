import Crossbridge.Protocol.Framing

/-!
Messages back to back on a stream: the two writers and the two readers.

A stream delivers its bytes in chunks (`Stream`), and a sink takes them a few at a time or fails. The
synchronous helpers loop over the calls until they are done; the asynchronous ones are polled, and
go on where they stopped. Both readers do on every stream what one poll does when all the bytes are
there (`Reader.read_spec`), and both writers write a prefix of the frame, all of it on success
(`Writer.write_cases`). The round trip and the behaviour on a stream that is cut follow by induction
on the list of messages.
-/

namespace Crossbridge.Protocol.Streams

open Crossbridge.Varint

variable {α : Type}

/-! ### Reading -/

/-- A stream that delivers its bytes in chunks and then ends. -/
structure Stream where
  chunks : List Bytes
  ending : IoErrorKind
  deriving DecidableEq, Repr

/-- All the bytes of a stream. -/
def Stream.bytes (s : Stream) : Bytes := s.chunks.flatten

/-- `Read::read_exact` of `n` bytes: the bytes, and the chunks that are left; `none` when the stream
ends before. -/
def readExact (n : ℕ) : List Bytes → Option (Bytes × List Bytes)
  | [] => if n = 0 then some ([], []) else none
  | chunk :: later =>
    if n ≤ chunk.length then some (chunk.take n, chunk.drop n :: later)
    else
      match readExact (n - chunk.length) later with
      | none => none
      | some (buf, later) => some (chunk ++ buf, later)

def checkIncomingLen (len : ℕ) : Except Error Unit :=
  if maxFrameSize < len then .error (.frameTooLarge len maxFrameSize) else .ok ()

/-- `read_message_sync`. -/
def readMessageSync (c : Postcard.Codec α) (s : Stream) : Except Error α × Stream :=
  match readExact 4 s.chunks with
  | none => (.error (.io s.ending), ⟨[], s.ending⟩)
  | some (lenBytes, chunks) =>
    match checkIncomingLen (fromBeBytes lenBytes) with
    | .error e => (.error e, ⟨chunks, s.ending⟩)
    | .ok () =>
      match readExact (fromBeBytes lenBytes) chunks with
      | none => (.error (.io s.ending), ⟨[], s.ending⟩)
      | some (buf, chunks) =>
        match c.dec buf with
        | .error e => (.error (.postcard e), ⟨chunks, s.ending⟩)
        | .ok (m, _) => (.ok m, ⟨chunks, s.ending⟩)

/-- The future of `read_message`, polled whenever a chunk has arrived; `buf` is what has arrived and
was not read. -/
def drive (c : Postcard.Codec α) (ending : IoErrorKind) (fut : ReadMessage) (buf : Bytes) :
    List Bytes → Except Error α × Stream
  | [] =>
    match h : poll c fut ⟨buf, some ending⟩ with
    | .ready r src => (r, ⟨[src.buf], ending⟩)
    | .pending _ _ => absurd (ending_of_poll_pending h) (Option.some_ne_none ending)
  | chunk :: later =>
    match poll c fut ⟨buf, none⟩ with
    | .ready r src => (r, ⟨src.buf :: chunk :: later, ending⟩)
    | .pending fut src => drive c ending fut (src.buf ++ chunk) later

/-- `read_message`. -/
def readMessage (c : Postcard.Codec α) (s : Stream) : Except Error α × Stream :=
  drive c s.ending .start [] s.chunks

/-- One of the two readers. -/
inductive Reader where
  | sync
  | async
  deriving DecidableEq, Repr

def Reader.read (c : Postcard.Codec α) : Reader → Stream → Except Error α × Stream
  | .sync => readMessageSync c
  | .async => readMessage c

section Read

variable {c : Postcard.Codec α} {ending : IoErrorKind}

lemma readExact_some : ∀ {chunks : List Bytes} {n : ℕ}, n ≤ chunks.flatten.length →
    ∃ later, readExact n chunks = some (chunks.flatten.take n, later) ∧
      later.flatten = chunks.flatten.drop n
  | [], n, h => by
    obtain rfl : n = 0 := by simpa using h
    exact ⟨[], rfl, rfl⟩
  | chunk :: chunks, n, h => by
    rw [List.flatten_cons, List.length_append] at h
    rw [readExact, List.flatten_cons]
    by_cases hn : n ≤ chunk.length
    · rw [if_pos hn]
      refine ⟨chunk.drop n :: chunks, ?_, ?_⟩
      · rw [List.take_append_of_le_length hn]
      · rw [List.flatten_cons, List.drop_append_of_le_length hn]
    · rw [if_neg hn]
      have hle : chunk.length ≤ n := Nat.le_of_not_le hn
      have hrest : n - chunk.length ≤ chunks.flatten.length := by omega
      obtain ⟨later, hread, hlater⟩ := readExact_some hrest
      refine ⟨later, ?_, ?_⟩
      · rw [hread, List.take_append, List.take_of_length_le hle]
      · rw [hlater, List.drop_append, List.drop_of_length_le hle, List.nil_append]

lemma readExact_none : ∀ {chunks : List Bytes} {n : ℕ}, chunks.flatten.length < n →
    readExact n chunks = none
  | [], n, h => if_neg (Nat.ne_of_gt h)
  | chunk :: chunks, n, h => by
    rw [List.flatten_cons, List.length_append] at h
    rw [readExact, if_neg (by omega), readExact_none (by omega)]

/-- A poll that has all the bytes of the stream. -/
lemma pollExact_all (n : ℕ) (bs : Bytes) (ending : IoErrorKind) :
    pollExact n [] ⟨bs, some ending⟩ =
      if n ≤ bs.length then .ready (bs.take n) ⟨bs.drop n, some ending⟩
      else .failed ending ⟨[], some ending⟩ := by
  by_cases h : n ≤ bs.length
  · rw [if_pos h]
    unfold pollExact
    simp [h]
  · rw [if_neg h]
    exact pollExact_nil_short_ended (by omega) ending

/-- The synchronous reader does what one poll does that has all the bytes. -/
lemma poll_readMessageSync (c : Postcard.Codec α) (s : Stream) :
    poll c .start ⟨s.bytes, some s.ending⟩ =
      .ready (readMessageSync c s).1 ⟨(readMessageSync c s).2.bytes, some s.ending⟩ ∧
    (readMessageSync c s).2.ending = s.ending := by
  unfold poll ReadMessage.start readMessageSync checkIncomingLen Stream.bytes
  simp only [pollExact_all]
  by_cases h4 : 4 ≤ s.chunks.flatten.length
  · obtain ⟨chunks, hread, hchunks⟩ := readExact_some h4
    simp only [h4, if_true, hread]
    split
    · exact ⟨by rw [hchunks], rfl⟩
    · rw [← hchunks]
      unfold pollPayload
      rw [pollExact_all]
      by_cases hlen : fromBeBytes (s.chunks.flatten.take 4) ≤ chunks.flatten.length
      · obtain ⟨later, hread', hlater⟩ := readExact_some hlen
        simp only [hlen, if_true, hread']
        cases c.dec (chunks.flatten.take (fromBeBytes (s.chunks.flatten.take 4))) with
        | error e => exact ⟨by rw [hlater], rfl⟩
        | ok m => exact ⟨by rw [hlater], rfl⟩
      · simp only [hlen, if_false, readExact_none (Nat.lt_of_not_le hlen)]
        exact ⟨rfl, trivial⟩
  · simp only [h4, if_false, readExact_none (Nat.lt_of_not_le h4)]
    exact ⟨rfl, trivial⟩

/-! #### A poll, and what arrives after it -/

lemma pollExact_ready_more {n : ℕ} {got buf : Bytes} {src src' : Source}
    (h : pollExact n got src = .ready buf src') (more : Bytes) (ending : Option IoErrorKind) :
    pollExact n got ⟨src.buf ++ more, ending⟩ = .ready buf ⟨src'.buf ++ more, ending⟩ := by
  unfold pollExact at h
  by_cases hlen : (got ++ src.buf.take (n - got.length)).length = n
  · simp only [if_pos hlen, ExactPoll.ready.injEq] at h
    obtain ⟨rfl, rfl⟩ := h
    have hle : n - got.length ≤ src.buf.length := by
      rw [List.length_append, List.length_take] at hlen
      omega
    unfold pollExact
    simp only [List.take_append_of_le_length hle, List.drop_append_of_le_length hle, if_pos hlen]
  · simp only [if_neg hlen] at h
    split at h <;> cases h

lemma pollExact_pending_more {n : ℕ} {got got' : Bytes} {src src' : Source}
    (h : pollExact n got src = .pending got' src') (more : Bytes) (ending : Option IoErrorKind) :
    pollExact n got ⟨src.buf ++ more, ending⟩ = pollExact n got' ⟨src'.buf ++ more, ending⟩ := by
  unfold pollExact at h
  by_cases hlen : (got ++ src.buf.take (n - got.length)).length = n
  · simp only [if_pos hlen] at h
    cases h
  · simp only [if_neg hlen] at h
    split at h
    · cases h
    · obtain ⟨rfl, rfl⟩ := ExactPoll.pending.inj h
      by_cases hgot : got.length ≤ n
      · -- everything there was has been taken
        have hall : src.buf.length ≤ n - got.length := by
          rw [List.length_append, List.length_take] at hlen
          omega
        have hsub : n - (got ++ src.buf).length = n - got.length - src.buf.length := by
          rw [List.length_append]
          omega
        rw [List.take_of_length_le hall, List.drop_of_length_le hall, List.nil_append]
        unfold pollExact
        rw [hsub]
        simp only [List.take_append, List.drop_append, List.take_of_length_le hall,
          List.drop_of_length_le hall, List.append_assoc, List.nil_append]
      · have hzero : n - got.length = 0 := by omega
        rw [hzero, List.take_zero, List.append_nil, List.drop_zero]

lemma pollPayload_ready_more {len : ℕ} {got : Bytes} {src src' : Source} {r : Except Error α}
    (h : pollPayload c len got src = .ready r src') (hopen : src.ending = none) (more : Bytes)
    (ending : Option IoErrorKind) :
    pollPayload c len got ⟨src.buf ++ more, ending⟩ = .ready r ⟨src'.buf ++ more, ending⟩ := by
  unfold pollPayload at h
  split at h
  · rename_i kind src₁ hp
    exact absurd hp (by unfold pollExact; simp only [hopen]; split <;> simp)
  · cases h
  · rename_i buf src₁ hp
    unfold pollPayload
    simp only [pollExact_ready_more hp]
    cases hdec : c.dec buf with
    | error e =>
      simp only [hdec, Poll.ready.injEq] at h
      obtain ⟨rfl, rfl⟩ := h
      rfl
    | ok m =>
      simp only [hdec, Poll.ready.injEq] at h
      obtain ⟨rfl, rfl⟩ := h
      rfl

lemma pollPayload_pending_more {len : ℕ} {got : Bytes} {src src' : Source} {fut : ReadMessage}
    (h : pollPayload c len got src = .pending fut src') (more : Bytes) (ending : Option IoErrorKind) :
    pollPayload c len got ⟨src.buf ++ more, ending⟩ = poll c fut ⟨src'.buf ++ more, ending⟩ := by
  unfold pollPayload at h
  split at h
  · cases h
  · rename_i got' src₁ hp
    obtain ⟨rfl, rfl⟩ := Poll.pending.inj h
    unfold poll pollPayload
    rw [pollExact_pending_more hp]
  · split at h <;> cases h

/-- A poll on an open stream that comes to a result. -/
lemma poll_ready_more {fut : ReadMessage} {src src' : Source} {r : Except Error α}
    (h : poll c fut src = .ready r src') (hopen : src.ending = none) (more : Bytes)
    (ending : Option IoErrorKind) :
    poll c fut ⟨src.buf ++ more, ending⟩ = .ready r ⟨src'.buf ++ more, ending⟩ := by
  cases fut with
  | payload len got => exact pollPayload_ready_more h hopen more ending
  | header got =>
    rw [poll] at h
    split at h
    · rename_i kind src₁ hp
      exact absurd hp (by unfold pollExact; simp only [hopen]; split <;> simp)
    · cases h
    · rename_i buf src₁ hp
      rw [poll]
      simp only [pollExact_ready_more hp]
      split at h
      · rename_i hlarge
        obtain ⟨rfl, rfl⟩ := Poll.ready.inj h
        rw [if_pos hlarge]
      · rename_i hsmall
        rw [if_neg hsmall]
        exact pollPayload_ready_more h ((ending_of_pollExact_ready hp).trans hopen) more ending

/-- A poll that has to wait: the future goes on where it stopped. -/
lemma poll_pending_more {fut fut' : ReadMessage} {src src' : Source}
    (h : poll c fut src = .pending fut' src') (more : Bytes) (ending : Option IoErrorKind) :
    poll c fut ⟨src.buf ++ more, ending⟩ = poll c fut' ⟨src'.buf ++ more, ending⟩ := by
  cases fut with
  | payload len got => exact pollPayload_pending_more h more ending
  | header got =>
    rw [poll] at h
    split at h
    · cases h
    · rename_i got' src₁ hp
      obtain ⟨rfl, rfl⟩ := Poll.pending.inj h
      rw [poll, poll, pollExact_pending_more hp]
    · rename_i buf src₁ hp
      rw [poll]
      simp only [pollExact_ready_more hp]
      split at h
      · cases h
      · rename_i hsmall
        rw [if_neg hsmall]
        exact pollPayload_pending_more h more ending

lemma ending_of_pollExact_failed {n : ℕ} {got : Bytes} {kind : IoErrorKind} {src src' : Source}
    (h : pollExact n got src = .failed kind src') : src'.ending = src.ending := by
  unfold pollExact at h
  by_cases hlen : (got ++ src.buf.take (n - got.length)).length = n
  · simp only [if_pos hlen] at h
    cases h
  · simp only [if_neg hlen] at h
    split at h
    · obtain ⟨-, rfl⟩ := ExactPoll.failed.inj h
      rfl
    · cases h

lemma ending_of_pollPayload_ready {len : ℕ} {got : Bytes} {src src' : Source} {r : Except Error α}
    (h : pollPayload c len got src = .ready r src') : src'.ending = src.ending := by
  unfold pollPayload at h
  split at h
  · rename_i hp
    obtain ⟨-, rfl⟩ := Poll.ready.inj h
    exact ending_of_pollExact_failed hp
  · cases h
  · rename_i hp
    split at h
    · obtain ⟨-, rfl⟩ := Poll.ready.inj h
      exact ending_of_pollExact_ready hp
    · obtain ⟨-, rfl⟩ := Poll.ready.inj h
      exact ending_of_pollExact_ready hp

lemma ending_of_poll_ready {fut : ReadMessage} {src src' : Source} {r : Except Error α}
    (h : poll c fut src = .ready r src') : src'.ending = src.ending := by
  cases fut with
  | payload len got => exact ending_of_pollPayload_ready h
  | header got =>
    rw [poll] at h
    split at h
    · rename_i hp
      obtain ⟨-, rfl⟩ := Poll.ready.inj h
      exact ending_of_pollExact_failed hp
    · cases h
    · rename_i hp
      split at h
      · obtain ⟨-, rfl⟩ := Poll.ready.inj h
        exact ending_of_pollExact_ready hp
      · exact (ending_of_pollPayload_ready h).trans (ending_of_pollExact_ready hp)

/-- The asynchronous reader does what one poll does that has all the bytes. -/
lemma poll_drive (c : Postcard.Codec α) (ending : IoErrorKind) : ∀ (chunks : List Bytes)
    (fut : ReadMessage) (buf : Bytes), poll c fut ⟨buf ++ chunks.flatten, some ending⟩ =
      .ready (drive c ending fut buf chunks).1 ⟨(drive c ending fut buf chunks).2.bytes, some ending⟩ ∧
    (drive c ending fut buf chunks).2.ending = ending
  | [], fut, buf => by
    rw [List.flatten_nil, List.append_nil]
    unfold drive
    split
    · rename_i r src h
      have hend : src.ending = some ending := ending_of_poll_ready h
      refine ⟨?_, rfl⟩
      rw [h, ← hend]
      simp [Stream.bytes]
    · rename_i h
      exact absurd (ending_of_poll_pending h) (Option.some_ne_none ending)
  | chunk :: later, fut, buf => by
    rw [drive]
    cases h : poll c fut ⟨buf, none⟩ with
    | ready r src =>
      refine ⟨?_, rfl⟩
      exact poll_ready_more h rfl _ _
    | pending fut' src =>
      have hmore := poll_pending_more h (chunk :: later).flatten (some ending)
      obtain ⟨hread, hend⟩ := poll_drive c ending later fut' (src.buf ++ chunk)
      refine ⟨?_, hend⟩
      rw [hmore, ← hread, List.flatten_cons, List.append_assoc]

/-- **Both readers**, on every stream and however its bytes arrive: the result is that of one poll
with all the bytes there, and so is what is left to read. -/
theorem Reader.read_spec (c : Postcard.Codec α) (r : Reader) (s : Stream) :
    poll c .start ⟨s.bytes, some s.ending⟩ =
      .ready (r.read c s).1 ⟨(r.read c s).2.bytes, some s.ending⟩ ∧
    (r.read c s).2.ending = s.ending := by
  cases r with
  | sync => exact poll_readMessageSync c s
  | async => exact poll_drive c s.ending s.chunks .start []

end Read

/-! ### Writing -/

/-- What a call of a sink does: it takes `n + 1` of the bytes, as far as there are so many, or it fails.
That it takes none is the error `WriteZero`. -/
inductive WriteCall where
  | takes (n : ℕ)
  | fails (kind : IoErrorKind)
  deriving DecidableEq, Repr

/-- A sink: what it has taken, and its next calls; after these it takes everything. -/
structure Sink where
  out : Bytes
  calls : List WriteCall

/-- `Write::write_all`. -/
def writeAll (out bs : Bytes) : List WriteCall → Except IoErrorKind Unit × Sink
  | [] => (.ok (), ⟨out ++ bs, []⟩)
  | call :: calls =>
    if bs = [] then (.ok (), ⟨out, call :: calls⟩)
    else
      match call with
      | .fails kind => (.error kind, ⟨out, calls⟩)
      | .takes n => writeAll (out ++ bs.take (n + 1)) (bs.drop (n + 1)) calls

/-- `write_message_sync`. -/
def writeMessageSync (c : Postcard.Codec α) (calls : List WriteCall) (m : α) (out : Bytes) :
    Except Error Unit × Bytes :=
  match encode c m with
  | .error e => (.error e, out)
  | .ok payload =>
    match writeAll out (toBeBytes payload.length) calls with
    | (.error kind, sink) => (.error (.io kind), sink.out)
    | (.ok (), sink) =>
      match writeAll sink.out payload sink.calls with
      | (.error kind, sink) => (.error (.io kind), sink.out)
      | (.ok (), sink) => (.ok (), sink.out)

/-- What a poll of `write_all` gives. -/
inductive WriteAllPoll where
  | ready (sink : Sink)
  | failed (kind : IoErrorKind) (out : Bytes)
  | pending (rest out : Bytes)

/-- One poll of `AsyncWriteExt::write_all`: it waits when the sink takes nothing for now. -/
def pollWriteAll (out bs : Bytes) : List WriteCall → WriteAllPoll
  | [] => if bs = [] then .ready ⟨out, []⟩ else .pending bs out
  | call :: calls =>
    if bs = [] then .ready ⟨out, call :: calls⟩
    else
      match call with
      | .fails kind => .failed kind out
      | .takes n => pollWriteAll (out ++ bs.take (n + 1)) (bs.drop (n + 1)) calls

/-- The future of `write_message`: at its first `write_all`, or at its second. -/
inductive WriteMessage where
  | header (rest payload : Bytes)
  | payload (rest : Bytes)

/-- The bytes it has still to write. -/
def WriteMessage.rest : WriteMessage → Bytes
  | .header rest data => rest ++ data
  | .payload rest => rest

/-- What a poll of `write_message` gives. -/
inductive WritePoll where
  | ready (r : Except Error Unit) (out : Bytes)
  | pending (fut : WriteMessage) (out : Bytes)

def pollWritePayload (out bs : Bytes) (calls : List WriteCall) : WritePoll :=
  match pollWriteAll out bs calls with
  | .ready sink => .ready (.ok ()) sink.out
  | .failed kind out => .ready (.error (.io kind)) out
  | .pending rest out => .pending (.payload rest) out

/-- One poll of `write_message`. -/
def pollWrite (out : Bytes) (calls : List WriteCall) : WriteMessage → WritePoll
  | .payload rest => pollWritePayload out rest calls
  | .header rest payload =>
    match pollWriteAll out rest calls with
    | .ready sink => pollWritePayload sink.out payload sink.calls
    | .failed kind out => .ready (.error (.io kind)) out
    | .pending rest out => .pending (.header rest payload) out

/-- The future polled until it is done, with the calls of the sink in each poll; after these the sink
takes everything. -/
def driveWrite (fut : WriteMessage) (out : Bytes) : List (List WriteCall) → Except Error Unit × Bytes
  | [] => (.ok (), out ++ fut.rest)
  | calls :: polls =>
    match pollWrite out calls fut with
    | .ready r out => (r, out)
    | .pending fut out => driveWrite fut out polls

/-- `write_message`. -/
def writeMessage (c : Postcard.Codec α) (polls : List (List WriteCall)) (m : α) (out : Bytes) :
    Except Error Unit × Bytes :=
  match encode c m with
  | .error e => (.error e, out)
  | .ok payload => driveWrite (.header (toBeBytes payload.length) payload) out polls

/-- One of the two writers, and the calls of the sink while it writes. -/
inductive Writer where
  | sync (calls : List WriteCall)
  | async (polls : List (List WriteCall))

def Writer.write (c : Postcard.Codec α) : Writer → α → Bytes → Except Error Unit × Bytes
  | .sync calls, m, out => writeMessageSync c calls m out
  | .async polls, m, out => writeMessage c polls m out

/-- Every call takes something. -/
def Steady (calls : List WriteCall) : Prop := ∀ call ∈ calls, ∃ n, call = .takes n

def Writer.Steady : Writer → Prop
  | .sync calls => Streams.Steady calls
  | .async polls => ∀ calls ∈ polls, Streams.Steady calls

section Write

variable {c : Postcard.Codec α} {out bs : Bytes} {calls : List WriteCall}

lemma encode_of_fits {m : α} (h : Fits c m) : encode c m = .ok (c.enc m) := if_neg (Nat.not_lt.mpr h)

lemma encode_of_not_fits {m : α} (h : ¬ Fits c m) :
    encode c m = .error (.frameTooLarge (c.enc m).length maxFrameSize) :=
  if_pos (Nat.lt_of_not_le h)

/-- The bytes have been written, or the sink has failed after some of them. -/
def Written (steady : Prop) (out bs : Bytes) (r : Except Error Unit × Bytes) : Prop :=
  r = (.ok (), out ++ bs) ∨ (¬ steady ∧ ∃ kind p, p <+: bs ∧ r = (.error (.io kind), out ++ p))

lemma append_take_prefix {p : Bytes} {n : ℕ} (h : p <+: bs.drop n) : bs.take n ++ p <+: bs := by
  obtain ⟨t, ht⟩ := h
  refine ⟨t, ?_⟩
  rw [List.append_assoc, ht, List.take_append_drop]

lemma not_steady_cons {call : WriteCall} (h : ¬ Steady calls) : ¬ Steady (call :: calls) :=
  fun hs => h fun call' hcall => hs call' (List.mem_cons_of_mem _ hcall)

lemma writeAll_cases : ∀ (calls : List WriteCall) (out bs : Bytes),
    (∃ later, later <:+ calls ∧ writeAll out bs calls = (.ok (), ⟨out ++ bs, later⟩)) ∨
    (¬ Steady calls ∧ ∃ kind p later, p <+: bs ∧ writeAll out bs calls = (.error kind, ⟨out ++ p, later⟩))
  | [], out, bs => Or.inl ⟨[], List.suffix_refl _, rfl⟩
  | call :: calls, out, bs => by
    unfold writeAll
    by_cases hbs : bs = []
    · rw [if_pos hbs, hbs, List.append_nil]
      exact Or.inl ⟨_, List.suffix_refl _, rfl⟩
    · rw [if_neg hbs]
      cases call with
      | fails kind =>
        refine Or.inr ⟨fun hs => ?_, kind, [], calls, List.nil_prefix, by rw [List.append_nil]⟩
        obtain ⟨n, hn⟩ := hs _ List.mem_cons_self
        cases hn
      | takes n =>
        dsimp only
        rcases writeAll_cases calls (out ++ bs.take (n + 1)) (bs.drop (n + 1)) with
          ⟨later, hlater, heq⟩ | ⟨hs, kind, p, later, hp, heq⟩
        · refine Or.inl ⟨later, hlater.trans (List.suffix_cons _ _), ?_⟩
          rw [heq, List.append_assoc, List.take_append_drop]
        · refine Or.inr ⟨not_steady_cons hs, kind, bs.take (n + 1) ++ p, later, append_take_prefix hp, ?_⟩
          rw [heq, List.append_assoc]

lemma written_sync {m : α} (h : Fits c m) (calls : List WriteCall) (out : Bytes) :
    Written (Steady calls) out (frame c m) (writeMessageSync c calls m out) := by
  rw [writeMessageSync, encode_of_fits h]
  rcases writeAll_cases calls out (toBeBytes (c.enc m).length) with
    ⟨later, hlater, heq⟩ | ⟨hs, kind, p, later, hp, heq⟩
  · simp only [heq]
    rcases writeAll_cases later (out ++ toBeBytes (c.enc m).length) (c.enc m) with
      ⟨later', -, heq'⟩ | ⟨hs, kind, p, later', hp, heq'⟩
    · left
      simp only [heq', frame, List.append_assoc]
    · refine Or.inr ⟨fun hsteady => hs fun call hcall => hsteady call (hlater.subset hcall), kind,
        toBeBytes (c.enc m).length ++ p, (List.prefix_append_right_inj _).mpr hp, ?_⟩
      simp only [heq', List.append_assoc]
  · simp only [heq]
    exact Or.inr ⟨hs, kind, p, hp.trans (List.prefix_append _ _), rfl⟩

lemma pollWriteAll_cases : ∀ (calls : List WriteCall) (out bs : Bytes),
    (∃ later, later <:+ calls ∧ pollWriteAll out bs calls = .ready ⟨out ++ bs, later⟩) ∨
    (∃ p rest, bs = p ++ rest ∧ pollWriteAll out bs calls = .pending rest (out ++ p)) ∨
    (¬ Steady calls ∧ ∃ kind p, p <+: bs ∧ pollWriteAll out bs calls = .failed kind (out ++ p))
  | [], out, bs => by
    unfold pollWriteAll
    by_cases hbs : bs = []
    · rw [if_pos hbs, hbs, List.append_nil]
      exact Or.inl ⟨_, List.suffix_refl _, rfl⟩
    · rw [if_neg hbs]
      exact Or.inr (Or.inl ⟨[], bs, rfl, by rw [List.append_nil]⟩)
  | call :: calls, out, bs => by
    unfold pollWriteAll
    by_cases hbs : bs = []
    · rw [if_pos hbs, hbs, List.append_nil]
      exact Or.inl ⟨_, List.suffix_refl _, rfl⟩
    · rw [if_neg hbs]
      cases call with
      | fails kind =>
        refine Or.inr (Or.inr ⟨fun hs => ?_, kind, [], List.nil_prefix, by rw [List.append_nil]⟩)
        obtain ⟨n, hn⟩ := hs _ List.mem_cons_self
        cases hn
      | takes n =>
        dsimp only
        rcases pollWriteAll_cases calls (out ++ bs.take (n + 1)) (bs.drop (n + 1)) with
          ⟨later, hlater, heq⟩ | ⟨p, rest, hrest, heq⟩ | ⟨hs, kind, p, hp, heq⟩
        · refine Or.inl ⟨later, hlater.trans (List.suffix_cons _ _), ?_⟩
          rw [heq, List.append_assoc, List.take_append_drop]
        · refine Or.inr (Or.inl ⟨bs.take (n + 1) ++ p, rest, ?_, ?_⟩)
          · rw [List.append_assoc, ← hrest, List.take_append_drop]
          · rw [heq, List.append_assoc]
        · refine Or.inr (Or.inr ⟨not_steady_cons hs, kind, bs.take (n + 1) ++ p,
            append_take_prefix hp, ?_⟩)
          rw [heq, List.append_assoc]

lemma pollWritePayload_cases (calls : List WriteCall) (out bs : Bytes) :
    (∃ r out', pollWritePayload out bs calls = .ready r out' ∧ Written (Steady calls) out bs (r, out')) ∨
    ∃ fut p, bs = p ++ fut.rest ∧ pollWritePayload out bs calls = .pending fut (out ++ p) := by
  unfold pollWritePayload
  rcases pollWriteAll_cases calls out bs with
    ⟨later, -, heq⟩ | ⟨p, rest, hrest, heq⟩ | ⟨hs, kind, p, hp, heq⟩
  · rw [heq]
    exact Or.inl ⟨_, _, rfl, Or.inl rfl⟩
  · rw [heq]
    exact Or.inr ⟨.payload rest, p, hrest, rfl⟩
  · rw [heq]
    exact Or.inl ⟨_, _, rfl, Or.inr ⟨hs, kind, p, hp, rfl⟩⟩

/-- A poll writes some of the bytes, and all of them if it is done and has not failed. -/
lemma pollWrite_cases (calls : List WriteCall) (out : Bytes) (fut : WriteMessage) :
    (∃ r out', pollWrite out calls fut = .ready r out' ∧
      Written (Steady calls) out fut.rest (r, out')) ∨
    ∃ fut' p, fut.rest = p ++ fut'.rest ∧ pollWrite out calls fut = .pending fut' (out ++ p) := by
  cases fut with
  | payload rest => exact pollWritePayload_cases calls out rest
  | header head data =>
    rw [pollWrite, WriteMessage.rest]
    rcases pollWriteAll_cases calls out head with
      ⟨later, hlater, heq⟩ | ⟨p, rest, rfl, heq⟩ | ⟨hs, kind, p, hp, heq⟩
    · simp only [heq]
      rcases pollWritePayload_cases later (out ++ head) data with
        ⟨r, out', heq', hwritten⟩ | ⟨fut', p, hp, heq'⟩
      · refine Or.inl ⟨r, out', heq', ?_⟩
        rcases hwritten with h | ⟨hs, kind, p, hp, h⟩
        · left
          rw [h, List.append_assoc]
        · refine Or.inr ⟨fun hsteady => hs fun call hcall => hsteady call (hlater.subset hcall), kind,
            head ++ p, (List.prefix_append_right_inj _).mpr hp, ?_⟩
          rw [h, List.append_assoc]
      · refine Or.inr ⟨fut', head ++ p, ?_, ?_⟩
        · rw [hp, List.append_assoc]
        · rw [heq', List.append_assoc]
    · simp only [heq]
      refine Or.inr ⟨.header rest data, p, ?_, rfl⟩
      rw [WriteMessage.rest, List.append_assoc]
    · simp only [heq]
      exact Or.inl ⟨_, _, rfl, Or.inr ⟨hs, kind, p, hp.trans (List.prefix_append _ _), rfl⟩⟩

lemma written_drive : ∀ (polls : List (List WriteCall)) (fut : WriteMessage) (out : Bytes),
    Written (∀ calls ∈ polls, Steady calls) out fut.rest (driveWrite fut out polls)
  | [], _, _ => Or.inl rfl
  | calls :: polls, fut, out => by
    rw [driveWrite]
    rcases pollWrite_cases calls out fut with ⟨r, out', heq, hwritten⟩ | ⟨fut', p, hp, heq⟩
    · simp only [heq]
      rcases hwritten with h | ⟨hs, h⟩
      · exact Or.inl h
      · exact Or.inr ⟨fun hsteady => hs (hsteady calls List.mem_cons_self), h⟩
    · simp only [heq]
      rcases written_drive polls fut' (out ++ p) with h | ⟨hs, kind, q, hq, h⟩
      · left
        rw [h, hp, List.append_assoc]
      · refine Or.inr ⟨fun hsteady => hs fun calls' hcalls => hsteady calls' (List.mem_cons_of_mem _ hcalls),
          kind, p ++ q, ?_, ?_⟩
        · rw [hp]
          exact (List.prefix_append_right_inj _).mpr hq
        · rw [h, List.append_assoc]

/-- **Both writers** on a message that can be framed: the frame is written, or the sink has failed
after part of it. -/
theorem Writer.write_cases {m : α} (h : Fits c m) (w : Writer) (out : Bytes) :
    Written w.Steady out (frame c m) (w.write c m out) := by
  cases w with
  | sync calls => exact written_sync h calls out
  | async polls =>
    rw [Writer.write, writeMessage, encode_of_fits h]
    exact written_drive polls (.header (toBeBytes (c.enc m).length) (c.enc m)) out

/-- **Both writers** refuse a message that cannot, and write nothing. -/
theorem Writer.write_refused {m : α} (h : ¬ Fits c m) (w : Writer) (out : Bytes) :
    w.write c m out = (.error (.frameTooLarge (c.enc m).length maxFrameSize), out) := by
  cases w with
  | sync calls => rw [Writer.write, writeMessageSync, encode_of_not_fits h]
  | async polls => rw [Writer.write, writeMessage, encode_of_not_fits h]

end Write

/-! ### A write that goes on -/

/-- How much a write has still to do. -/
def WriteMessage.size : WriteMessage → ℕ
  | .header rest data => rest.length + data.length + 1
  | .payload rest => rest.length

section GoesOn

variable {calls : List WriteCall} {out out' : Bytes} {fut fut' : WriteMessage}

lemma pollWriteAll_pending {bs rest : Bytes} (h : pollWriteAll out bs calls = .pending rest out') :
    ∃ p, out' = out ++ p ∧ bs = p ++ rest := by
  rcases pollWriteAll_cases calls out bs with
    ⟨later, -, heq⟩ | ⟨p, rest', hrest, heq⟩ | ⟨-, kind, p, -, heq⟩
  · rw [heq] at h
    cases h
  · rw [heq] at h
    cases h
    exact ⟨p, rfl, hrest⟩
  · rw [heq] at h
    cases h

lemma pollWriteAll_ready {bs : Bytes} {sink : Sink} (h : pollWriteAll out bs calls = .ready sink) :
    sink.out = out ++ bs := by
  rcases pollWriteAll_cases calls out bs with
    ⟨later, -, heq⟩ | ⟨p, rest', hrest, heq⟩ | ⟨-, kind, p, -, heq⟩
  · rw [heq] at h
    cases h
    rfl
  · rw [heq] at h
    cases h
  · rw [heq] at h
    cases h

lemma pollWritePayload_pending {bs : Bytes} (h : pollWritePayload out bs calls = .pending fut out') :
    ∃ p rest, out' = out ++ p ∧ bs = p ++ rest ∧ fut = .payload rest := by
  unfold pollWritePayload at h
  split at h
  · cases h
  · cases h
  · rename_i rest out₁ heq
    cases h
    obtain ⟨p, hout, hbs⟩ := pollWriteAll_pending heq
    exact ⟨p, rest, hout, hbs, rfl⟩

/-- **A write that is not done** has less to do than before, or is as it was. -/
lemma pollWrite_pending (h : pollWrite out calls fut = .pending fut' out') :
    ∃ p, out' = out ++ p ∧ p.length + fut'.size ≤ fut.size ∧
      (p = [] → fut' = fut ∨ fut'.size < fut.size) := by
  cases fut with
  | payload bs =>
    obtain ⟨p, rest, hout, rfl, rfl⟩ := pollWritePayload_pending h
    refine ⟨p, hout, by simp [WriteMessage.size], fun hp => Or.inl ?_⟩
    rw [hp, List.nil_append]
  | header bs data =>
    rw [pollWrite] at h
    split at h
    · -- the length is written
      rename_i sink heq
      obtain ⟨p, rest, hout, rfl, rfl⟩ := pollWritePayload_pending h
      rw [pollWriteAll_ready heq, List.append_assoc] at hout
      refine ⟨bs ++ p, hout, ?_, fun hp => Or.inr ?_⟩
      · simp only [WriteMessage.size, List.length_append]
        omega
      · simp only [WriteMessage.size, List.length_append]
        omega
    · cases h
    · rename_i rest out₁ heq
      cases h
      obtain ⟨p, hout, rfl⟩ := pollWriteAll_pending heq
      refine ⟨p, hout, ?_, fun hp => Or.inl ?_⟩
      · simp only [WriteMessage.size, List.length_append]
        omega
      · rw [hp, List.nil_append]

lemma pollWriteAll_one (out bs : Bytes) (n : ℕ) (h : bs.length ≤ n + 1) :
    pollWriteAll out bs [.takes n] = if bs = [] then .ready ⟨out, [.takes n]⟩ else .ready ⟨out ++ bs, []⟩ := by
  unfold pollWriteAll
  split
  · rfl
  · simp [pollWriteAll, List.take_of_length_le h, List.drop_of_length_le h]

/-- A socket that takes what is written is written all of it. -/
lemma exists_pollWrite_ok (out : Bytes) (fut : WriteMessage) :
    ∃ calls, Steady calls ∧ pollWrite out calls fut = .ready (.ok ()) (out ++ fut.rest) := by
  have hpayload : ∀ (out bs : Bytes),
      pollWritePayload out bs [.takes bs.length] = .ready (.ok ()) (out ++ bs) := by
    intro out bs
    rw [pollWritePayload, pollWriteAll_one _ _ _ (Nat.le_succ _)]
    split_ifs with hbs
    · rw [hbs, List.append_nil]
    · rfl
  cases fut with
  | payload bs =>
    exact ⟨[.takes bs.length], fun call hcall => ⟨_, List.mem_singleton.mp hcall⟩, hpayload out bs⟩
  | header bs data =>
    by_cases hbs : bs = []
    · refine ⟨[.takes data.length], fun call hcall => ⟨_, List.mem_singleton.mp hcall⟩, ?_⟩
      rw [pollWrite, pollWriteAll_one _ _ _ (by simp [hbs]), if_pos hbs]
      simp only [WriteMessage.rest, hbs, List.nil_append]
      exact hpayload out data
    · refine ⟨[.takes bs.length, .takes data.length], ?_, ?_⟩
      · intro call hcall
        rcases List.mem_cons.mp hcall with hcall | hcall
        · exact ⟨_, hcall⟩
        · exact ⟨_, List.mem_singleton.mp hcall⟩
      · have hheader : pollWriteAll out bs [.takes bs.length, .takes data.length] =
            .ready ⟨out ++ bs, [.takes data.length]⟩ := by
          simp [pollWriteAll, hbs, List.take_of_length_le, List.drop_of_length_le]
        rw [pollWrite, hheader, WriteMessage.rest, ← List.append_assoc]
        exact hpayload (out ++ bs) data

end GoesOn

/-! ### Messages back to back -/

/-- Writing one message after the other, each with one of the writers, up to the first error. -/
def writeMany (c : Postcard.Codec α) : List (Writer × α) → Bytes → Except Error Unit × Bytes
  | [], out => (.ok (), out)
  | (w, m) :: ws, out =>
    match w.write c m out with
    | (.error e, out) => (.error e, out)
    | (.ok (), out) => writeMany c ws out

/-- Reading again and again, each time with one of the readers. -/
def readMany (c : Postcard.Codec α) : List Reader → Stream → List (Except Error α) × Stream
  | [], s => ([], s)
  | r :: rs, s => ((r.read c s).1 :: (readMany c rs (r.read c s).2).1, (readMany c rs (r.read c s).2).2)

/-- The frames of the messages. -/
def frames (c : Postcard.Codec α) (ms : List α) : Bytes := ms.flatMap (frame c)

/-- The messages whose frames are complete in the first `n` bytes. -/
def complete (c : Postcard.Codec α) : List α → ℕ → List α
  | [], _ => []
  | m :: ms, n => if (frame c m).length ≤ n then m :: complete c ms (n - (frame c m).length) else []

section Many

variable {c : Postcard.Codec α}

lemma frames_cons (m : α) (ms : List α) : frames c (m :: ms) = frame c m ++ frames c ms :=
  List.flatMap_cons

/-- **The complete messages** are a first part of the messages, the longest whose frames take up no
more than the bytes there are. -/
theorem complete_spec : ∀ (ms : List α) (n : ℕ), complete c ms n <+: ms ∧
    ∀ k ≤ ms.length, k ≤ (complete c ms n).length ↔ (frames c (ms.take k)).length ≤ n
  | [], n => by
    refine ⟨List.prefix_refl _, fun k hk => ?_⟩
    obtain rfl : k = 0 := by simpa using hk
    simp [frames]
  | m :: ms, n => by
    obtain ⟨hpre, hlen⟩ := complete_spec ms (n - (frame c m).length)
    rw [complete]
    by_cases h : (frame c m).length ≤ n
    · rw [if_pos h]
      refine ⟨List.cons_prefix_cons.mpr ⟨rfl, hpre⟩, fun k hk => ?_⟩
      cases k with
      | zero => simp [frames]
      | succ k =>
        have hk' := hlen k (by simpa using hk)
        rw [List.length_cons, List.take_succ_cons, frames_cons, List.length_append]
        omega
    · rw [if_neg h]
      refine ⟨List.nil_prefix, fun k hk => ?_⟩
      cases k with
      | zero => simp [frames]
      | succ k =>
        rw [List.take_succ_cons, frames_cons, List.length_append, List.length_nil]
        omega

/-- Writing that succeeds has written the frames. -/
lemma writeMany_ok : ∀ {ws : List (Writer × α)} {out out' : Bytes},
    writeMany c ws out = (.ok (), out') →
      (∀ w ∈ ws, Fits c w.2) ∧ out' = out ++ frames c (ws.map Prod.snd)
  | [], out, out', h => by
    obtain rfl : out = out' := congrArg Prod.snd h
    exact ⟨by simp, (List.append_nil _).symm⟩
  | (w, m) :: ws, out, out', h => by
    rw [writeMany] at h
    by_cases hfit : Fits c m
    · rcases w.write_cases hfit out with heq | ⟨-, kind, p, -, heq⟩
      · simp only [heq] at h
        obtain ⟨hfits, rfl⟩ := writeMany_ok h
        refine ⟨fun w' hw => ?_, ?_⟩
        · rcases List.mem_cons.mp hw with rfl | hw
          · exact hfit
          · exact hfits w' hw
        · rw [List.map_cons, frames_cons, List.append_assoc]
      · simp only [heq] at h
        cases h
    · simp only [w.write_refused hfit] at h
      cases h

/-- A reader on a stream that begins with a frame. -/
lemma read_frame {m : α} (h : Fits c m) (r : Reader) {s : Stream} {rest : Bytes}
    (hs : s.bytes = frame c m ++ rest) :
    (r.read c s).1 = .ok m ∧ (r.read c s).2.bytes = rest ∧ (r.read c s).2.ending = s.ending := by
  obtain ⟨hread, hend⟩ := r.read_spec c s
  rw [hs, poll_frame h] at hread
  obtain ⟨hm, hsrc⟩ := Poll.ready.inj hread
  exact ⟨hm.symm, (congrArg Source.buf hsrc).symm, hend⟩

/-- A reader on a stream that ends inside a frame. -/
lemma read_short (r : Reader) {s : Stream} (hs : Short c s.bytes) :
    (r.read c s).1 = .error (.io s.ending) := by
  obtain ⟨hread, -⟩ := r.read_spec c s
  rw [poll_short_ended hs] at hread
  exact (Poll.ready.inj hread).1.symm

/-- **The round trip.** -/
theorem readMany_frames : ∀ {ms : List α} {rs : List Reader} {s : Stream} {rest : Bytes},
    (∀ m ∈ ms, Fits c m) → s.bytes = frames c ms ++ rest → rs.length = ms.length →
      (readMany c rs s).1 = ms.map .ok ∧ (readMany c rs s).2.bytes = rest
  | [], rs, s, rest, _, hs, hlen => by
    obtain rfl : rs = [] := by simpa using hlen
    exact ⟨rfl, hs⟩
  | m :: ms, [], s, rest, _, _, hlen => by cases hlen
  | m :: ms, r :: rs, s, rest, hfit, hs, hlen => by
    rw [frames_cons, List.append_assoc] at hs
    obtain ⟨hread, hbytes, -⟩ := read_frame (hfit m List.mem_cons_self) r hs
    obtain ⟨hreads, hrest⟩ := readMany_frames (fun m' hm => hfit m' (List.mem_cons_of_mem _ hm)) hbytes
      (Nat.succ.inj hlen)
    rw [readMany, List.map_cons]
    exact ⟨by rw [hread, hreads], hrest⟩

/-- **A stream that is cut.** -/
theorem readMany_cut : ∀ {ms : List α} {n : ℕ} {rs : List Reader} {s : Stream},
    (∀ m ∈ ms, Fits c m) → s.bytes = (frames c ms).take n → rs.length = (complete c ms n).length + 1 →
      (readMany c rs s).1 = (complete c ms n).map .ok ++ [.error (.io s.ending)]
  | ms, n, [], s, _, _, hlen => by cases hlen
  | [], n, r :: rs, s, _, hs, hlen => by
    obtain rfl : rs = [] := by simpa [complete] using hlen
    have hshort : Short c s.bytes := Or.inl (by rw [hs]; simp [frames])
    rw [readMany, read_short r hshort]
    rfl
  | m :: ms, n, r :: rs, s, hfit, hs, hlen => by
    rw [frames_cons] at hs
    rw [complete] at hlen ⊢
    by_cases h : (frame c m).length ≤ n
    · rw [if_pos h] at hlen ⊢
      rw [List.take_append, List.take_of_length_le h] at hs
      obtain ⟨hread, hbytes, hend⟩ := read_frame (hfit m List.mem_cons_self) r hs
      have hreads := readMany_cut (fun m' hm => hfit m' (List.mem_cons_of_mem _ hm)) hbytes
        (Nat.succ.inj hlen)
      rw [readMany, hread, hreads, hend]
      rfl
    · rw [if_neg h] at hlen ⊢
      obtain rfl : rs = [] := by simpa using hlen
      have hlt : n < (frame c m).length := Nat.lt_of_not_le h
      rw [List.take_append_of_le_length hlt.le] at hs
      have hshort : Short c s.bytes := by
        refine Or.inr ⟨m, hfit m List.mem_cons_self, ?_, ?_⟩
        · rw [hs]
          exact List.take_prefix _ _
        · rw [hs, List.length_take]
          omega
      rw [readMany, read_short r hshort]
      rfl

end Many

/-! ### The wire types -/

/-- The types of messages that are framed. -/
inductive WireType where
  | register
  | supervisorMessage
  | clientRequest
  | serverResponse
  deriving DecidableEq, Repr

/-- The messages of a wire type. -/
def WireType.Msg : WireType → Type
  | .register => Register
  | .supervisorMessage => SupervisorMessage
  | .clientRequest => ClientRequest
  | .serverResponse => ServerResponse

def WireType.codec : (t : WireType) → Postcard.Codec t.Msg
  | .register => Postcard.register
  | .supervisorMessage => Postcard.supervisorMessage
  | .clientRequest => Postcard.clientRequest
  | .serverResponse => Postcard.serverResponse

/-- What is written can be read: all of it, or, of a stream that is cut, what is complete. -/
structure RoundTrip (t : WireType) (ms : List t.Msg) (out : Bytes) : Prop where
  /-- Reading as many messages gives these, and leaves what comes after them. -/
  whole : ∀ rs s rest, rs.length = ms.length → s.bytes = out ++ rest →
    (readMany t.codec rs s).1 = ms.map .ok ∧ (readMany t.codec rs s).2.bytes = rest
  /-- Reading on to the end of a stream that is cut gives the complete messages and an error. -/
  cut : ∀ n rs s, rs.length = (complete t.codec ms n).length + 1 → s.bytes = out.take n →
    (readMany t.codec rs s).1 = (complete t.codec ms n).map .ok ++ [.error (.io s.ending)]

/-- What a writer does with a message. -/
structure WriteLimit (t : WireType) (w : Writer) (m : t.Msg) (out : Bytes) : Prop where
  refused : maxFrameSize < (t.codec.enc m).length →
    w.write t.codec m out = (.error (.frameTooLarge (t.codec.enc m).length maxFrameSize), out)
  written : (t.codec.enc m).length ≤ maxFrameSize → w.Steady →
    w.write t.codec m out = (.ok (), out ++ (toBeBytes (t.codec.enc m).length ++ t.codec.enc m))
  accepted : ∀ out', w.write t.codec m out = (.ok (), out') →
    out' = out ++ (toBeBytes (t.codec.enc m).length ++ t.codec.enc m) ∧
      checkIncomingLen (fromBeBytes (toBeBytes (t.codec.enc m).length)) = .ok ()

/-- A notification and the beginning of another, that arrive in two chunks. -/
example : (readMany Postcard.supervisorMessage [.async, .sync]
    ⟨[[0, 0], [0, 4, 1, 0, 1, 98, 0, 0]], .unexpectedEof⟩).1 =
    [.ok (.notification (.peerJoined "b")), .error (.io .unexpectedEof)] := rfl

end Crossbridge.Protocol.Streams
