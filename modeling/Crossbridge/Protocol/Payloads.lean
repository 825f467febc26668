import Crossbridge.Protocol.Frames

/-!
Which payloads the readers accept.

The readers hand the payload of a frame to `postcard::from_bytes`, which takes one value off the
front. All the codecs of the wire are sound (`WireType.sound`): the value was read from its encoding
or from more bytes. So a payload is accepted when it begins with a value, in any spelling and
followed by anything (`reads_leading_value`), and nothing but its length tells whether it is the
encoding of the message it was taken for.
-/

namespace Crossbridge.Protocol

open Crossbridge.Varint

/-! ### Soundness of the codecs -/

namespace Postcard

lemma varint_sound (k last lim : ℕ) (hlast : last < 128) (h : lim = 128 ^ k * (last + 1)) :
    (varint k last lim hlast h).Sound := by
  intro bs n rest hdec
  simp only [varint] at hdec
  split at hdec
  · rename_i r hr
    cases hdec
    obtain ⟨hn, used, rfl, hpad, hused⟩ := varintDec_sound hr
    refine ⟨h ▸ hn, used, rfl, hpad, fun rest' => ?_⟩
    simp only [varint, hused]
  · cases hdec

lemma usize_sound : usize.Sound := varint_sound _ _ _ _ _

lemma u32_sound : u32.Sound := varint_sound _ _ _ _ _

lemma enum_sound {α β : Type} {ca : Codec α} {cb : Codec β} (ha : ca.Sound) (hb : cb.Sound) :
    (enum ca cb).Sound :=
  Codec.Sound.alt u32_sound _ _ ha hb

lemma seq_sound {α : Type} {c : Codec α} (hc : c.Sound) : (seq c).Sound :=
  Codec.Sound.list usize_sound hc

lemma utf8_of_fromUtf8 {bs : Bytes} {s : String} (h : fromUtf8 bs = .ok s) : utf8 s = bs := by
  unfold fromUtf8 String.fromUTF8? at h
  split at h
  · rename_i s' hs
    split_ifs at hs with hvalid
    cases hs
    cases h
    rfl
  · cases h

lemma string_sound : string.Sound :=
  Codec.Sound.bytes usize_sound _ _ fun _ _ h => utf8_of_fromUtf8 h

lemma byteVec_sound : byteVec.Sound := by
  refine Codec.Sound.bytes usize_sound _ _ fun bs a h => ?_
  cases h
  rfl

lemma zigzag_unzigzag {n : ℕ} (h : n < lim) : zigzag (unzigzag n) = n := by
  unfold lim at h
  unfold unzigzag
  by_cases heven : n % 2 = 0
  · have hint : (Int64.ofInt ((n / 2 : ℕ) : ℤ)).toInt = ((n / 2 : ℕ) : ℤ) :=
      Int64.toInt_ofInt_of_le (by omega) (by omega)
    rw [if_pos heven, zigzag, hint, if_pos (by omega)]
    omega
  · have hint : (Int64.ofInt (-((n / 2 : ℕ) : ℤ) - 1)).toInt = -((n / 2 : ℕ) : ℤ) - 1 :=
      Int64.toInt_ofInt_of_le (by omega) (by omega)
    rw [if_neg heven, zigzag, hint, if_neg (by omega)]
    omega

lemma i64_sound : i64.Sound := by
  intro bs i rest h
  simp only [i64] at h
  split at h
  · cases h
  · rename_i n bs₁ hn
    cases h
    obtain ⟨hlt, used, rfl, hpad, hused⟩ := usize_sound _ _ _ hn
    refine ⟨used, rfl, ?_, fun rest' => ?_⟩
    · simpa only [i64, zigzag_unzigzag hlt] using hpad
    · simp only [i64, hused]

lemma register_sound : register.Sound :=
  (string_sound.pair string_sound).map _ fun _ => rfl

lemma registerResponse_sound : registerResponse.Sound :=
  (enum_sound (seq_sound string_sound) string_sound).map _ (by rintro (_ | _) <;> rfl)

lemma notification_sound : notification.Sound :=
  (enum_sound string_sound string_sound).map _ (by rintro (_ | _) <;> rfl)

lemma supervisorMessage_sound : supervisorMessage.Sound :=
  (enum_sound registerResponse_sound notification_sound).map _ (by rintro (_ | _) <;> rfl)

lemma attachment_sound : attachment.Sound :=
  (string_sound.pair byteVec_sound).map _ fun _ => rfl

lemma answerComment_sound : answerComment.Sound :=
  (string_sound.pair string_sound).map _ fun _ => rfl

lemma submitIssue_sound : submitIssue.Sound :=
  (string_sound.pair (string_sound.pair ((seq_sound string_sound).pair (string_sound.pair
    (string_sound.pair (seq_sound attachment_sound)))))).map _ fun _ => rfl

lemma submitAnswer_sound : submitAnswer.Sound :=
  (string_sound.pair ((seq_sound answerComment_sound).pair (seq_sound attachment_sound))).map _
    fun _ => rfl

lemma clientRequest_sound : clientRequest.Sound :=
  (enum_sound submitIssue_sound submitAnswer_sound).map _ (by rintro (_ | _) <;> rfl)

lemma serverResponse_sound : serverResponse.Sound :=
  (enum_sound i64_sound string_sound).map _ (by rintro (_ | _) <;> rfl)

end Postcard

namespace Streams

theorem WireType.sound : (t : WireType) → t.codec.Sound
  | .register => Postcard.register_sound
  | .supervisorMessage => Postcard.supervisorMessage_sound
  | .clientRequest => Postcard.clientRequest_sound
  | .serverResponse => Postcard.serverResponse_sound

/-! ### What the readers accept -/

section Accept

variable {t : WireType} {payload rest : Bytes} {s : Stream}

/-- The bytes of a stream begin with the frame of a payload. -/
def Framed (s : Stream) (payload rest : Bytes) : Prop :=
  payload.length ≤ maxFrameSize ∧ s.bytes = toBeBytes payload.length ++ payload ++ rest

instance : Decidable (Framed s payload rest) := by unfold Framed; infer_instance

/-- A frame is decoded, and what comes after it is left. -/
lemma read_framed (r : Reader) (hs : Framed s payload rest) :
    (r.read t.codec s).1 = ((Head.frame payload rest).outcome t.codec s.ending).1 ∧
      (r.read t.codec s).2.bytes = rest := by
  obtain ⟨hmax, hbytes⟩ := hs
  have hlen : fromBeBytes (toBeBytes payload.length) = payload.length :=
    fromBeBytes_toBeBytes (lt_of_le_of_lt hmax (by decide))
  have hhead : head s.bytes = .frame payload rest := by
    rw [hbytes]
    exact head_frame (toBeBytes_length _) hlen hmax rest
  obtain ⟨hread, hrest, -⟩ := r.read_head t.codec s
  rw [hhead] at hread hrest
  refine ⟨hread, hrest.trans ?_⟩
  cases hdec : t.codec.dec payload with
  | error e => simp only [Head.outcome, hdec]
  | ok a => simp only [Head.outcome, hdec]

/-- What a payload is to the message it is taken for. -/
structure Begins (t : WireType) (payload : Bytes) (m : t.Msg) : Prop where
  /-- The message was read from its encoding or from more bytes, and what follows does not matter. -/
  front : ∃ used left, payload = used ++ left ∧ Padded (t.codec.enc m) used ∧
    ∀ left', t.codec.dec (used ++ left') = .ok (m, left')
  /-- The encoding is not longer, and if it is as long it is the payload. -/
  length_le : (t.codec.enc m).length ≤ payload.length
  exact_iff : t.codec.enc m = payload ↔ (t.codec.enc m).length = payload.length
  /-- The encoding is accepted as the same message. -/
  again : t.codec.dec (t.codec.enc m) = .ok (m, [])

lemma begins_of_dec {m : t.Msg} {left : Bytes} (hmax : payload.length ≤ maxFrameSize)
    (h : t.codec.dec payload = .ok (m, left)) : Begins t payload m := by
  obtain ⟨used, hused, hpad, hdec⟩ := t.sound _ _ _ h
  have hle : used.length + left.length = payload.length := by
    rw [hused, List.length_append]
  have hlength := hpad.length_le
  refine ⟨⟨used, left, hused, hpad, hdec⟩, by omega, ⟨congrArg List.length, fun heq => ?_⟩, ?_⟩
  · -- no byte is left, and the message was read from its encoding
    have hleft : left = [] := List.length_eq_zero_iff.mp (by omega)
    rcases hpad with hpad | hpad
    · rw [hused, hleft, List.append_nil, hpad]
    · omega
  · have hlim : (t.codec.enc m).length < Postcard.lim :=
      lt_of_le_of_lt (hlength.trans (by omega)) (lt_of_le_of_lt hmax (by decide))
    simpa using t.codec.dec_enc m [] hlim

/-- **The readers accept what begins with a message.** A payload is taken for the value at its front,
of which it may be a longer spelling and which anything may follow; it is refused when it begins with
none. -/
theorem reads_leading_value (t : WireType) (r : Reader) (s : Stream) (payload rest : Bytes)
    (hs : Framed s payload rest) :
    (∀ m, (r.read t.codec s).1 = .ok m ↔ ∃ left, t.codec.dec payload = .ok (m, left)) ∧
    (∀ m, (r.read t.codec s).1 = .ok m → Begins t payload m) ∧
    (∀ e, (r.read t.codec s).1 = .error e ↔ ∃ p, e = .postcard p ∧ t.codec.dec payload = .error p) ∧
    (r.read t.codec s).2.bytes = rest := by
  obtain ⟨hread, hrest⟩ := read_framed (t := t) r hs
  have hiff : ∀ m, (r.read t.codec s).1 = .ok m ↔ ∃ left, t.codec.dec payload = .ok (m, left) := by
    intro m
    rw [hread, Head.outcome]
    cases hdec : t.codec.dec payload with
    | error p =>
      constructor
      · intro h
        cases h
      · rintro ⟨left, h⟩
        cases h
    | ok a =>
      constructor
      · intro h
        cases h
        exact ⟨a.2, rfl⟩
      · rintro ⟨left, h⟩
        cases h
        rfl
  refine ⟨hiff, fun m hm => ?_, fun e => ?_, hrest⟩
  · obtain ⟨left, hdec⟩ := (hiff m).mp hm
    exact begins_of_dec hs.1 hdec
  · rw [hread, Head.outcome]
    cases hdec : t.codec.dec payload with
    | error p =>
      constructor
      · intro h
        cases h
        exact ⟨p, rfl, rfl⟩
      · rintro ⟨p', rfl, h⟩
        cases h
        rfl
    | ok a =>
      constructor
      · intro h
        cases h
      · rintro ⟨p, -, h⟩
        cases h

end Accept

/-- A byte after a registration. -/
theorem reads_leading_value_leftover :
    (Reader.async.read Postcard.register ⟨[[0, 0, 0, 3], [0, 0, 7]], .unexpectedEof⟩).1 = .ok ⟨"", ""⟩ ∧
      Begins .register [0, 0, 7] (⟨"", ""⟩ : Register) := by
  obtain ⟨hok, hbegins, -, -⟩ := reads_leading_value .register .async
    ⟨[[0, 0, 0, 3], [0, 0, 7]], .unexpectedEof⟩ [0, 0, 7] [] (by decide)
  have hread := (hok (⟨"", ""⟩ : Register)).mpr ⟨[7], rfl⟩
  exact ⟨hread, hbegins _ hread⟩

/-- A reader that accepts this payload only when it is the encoding of the message. -/
def Strict (t : WireType) (r : Reader) (payload : Bytes) : Prop :=
  ∀ s rest, Framed s payload rest → ∀ m, (r.read t.codec s).1 = .ok m → t.codec.enc m = payload

/-- **The readers are not strict.** Neither minds a byte after the message, a length of more bytes than
it needs, or such a tag. -/
theorem not_strict : ¬ ∃ r : Reader, Strict .register r [0, 0, 7] ∨
    Strict .register r [128, 0, 0] ∨ Strict .supervisorMessage r [129, 0, 1, 0] := by
  rintro ⟨r, h | h | h⟩
  · have henc := h ⟨[[0, 0, 0, 3, 0, 0, 7]], .unexpectedEof⟩ [] (by decide) (⟨"", ""⟩ : Register)
      (by cases r <;> rfl)
    exact absurd henc (by decide)
  · have henc := h ⟨[[0, 0, 0, 3, 128, 0, 0]], .unexpectedEof⟩ [] (by decide) (⟨"", ""⟩ : Register)
      (by cases r <;> rfl)
    exact absurd henc (by decide)
  · have henc := h ⟨[[0, 0, 0, 4, 129, 0, 1, 0]], .unexpectedEof⟩ [] (by decide)
      (SupervisorMessage.notification (.peerLeft "")) (by cases r <;> rfl)
    exact absurd henc (by decide)

end Streams

end Crossbridge.Protocol
