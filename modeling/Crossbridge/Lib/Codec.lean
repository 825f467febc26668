import Crossbridge.Lib.Varint

/-!
Codecs of self-delimiting binary formats, built from smaller ones.

A codec writes a value as a non-empty string of bytes and reads one value off the front of a
string. Its law is the round trip with a suffix (`dec_enc`), for the values whose encoding is
shorter than a limit: a format that writes lengths in a machine word has no encoding of anything
longer. The codec carries the law as a field, so the combinators (`pair`, `map`, `alt`, `list`,
`bytes`) build codecs that are right by construction.

The law says nothing of bytes that are not an encoding. A codec is `Sound` when it reads a value from
its encoding or from more bytes than that, whatever follows; the combinators keep this as well.
-/

namespace Crossbridge

open Crossbridge.Varint

/-- Numbers below a limit, read and written at the front of a string of bytes. -/
structure NumCodec (lim : ℕ) (ε : Type) where
  enc : ℕ → Bytes
  dec : Bytes → Except ε (ℕ × Bytes)
  enc_pos : ∀ n, 0 < (enc n).length
  dec_enc : ∀ n rest, n < lim → dec (enc n ++ rest) = .ok (n, rest)

/-- A codec for `α` with errors in `ε`, faithful below the length `lim`. -/
structure Codec (lim : ℕ) (ε α : Type) where
  enc : α → Bytes
  dec : Bytes → Except ε (α × Bytes)
  enc_pos : ∀ a, 0 < (enc a).length
  dec_enc : ∀ a rest, (enc a).length < lim → dec (enc a ++ rest) = .ok (a, rest)

variable {lim : ℕ} {ε α β : Type}

namespace Codec

/-- A value and then another. -/
def pair (ca : Codec lim ε α) (cb : Codec lim ε β) : Codec lim ε (α × β) where
  enc p := ca.enc p.1 ++ cb.enc p.2
  dec bs :=
    match ca.dec bs with
    | .error e => .error e
    | .ok (a, bs) =>
      match cb.dec bs with
      | .error e => .error e
      | .ok (b, bs) => .ok ((a, b), bs)
  enc_pos p := by
    have := ca.enc_pos p.1
    simp only [List.length_append]; omega
  dec_enc p rest h := by
    rw [List.length_append] at h
    rw [List.append_assoc, ca.dec_enc _ _ (by omega)]
    simp only [cb.dec_enc p.2 rest (by omega)]

/-- The same bytes read as a type with the same values. -/
def map (c : Codec lim ε α) (read : α → β) (write : β → α)
    (h : ∀ b, read (write b) = b) : Codec lim ε β where
  enc b := c.enc (write b)
  dec bs :=
    match c.dec bs with
    | .error e => .error e
    | .ok (a, bs) => .ok (read a, bs)
  enc_pos b := c.enc_pos (write b)
  dec_enc b rest hl := by simp only [c.dec_enc (write b) rest hl, h]

/-- One of two values behind a number that tells which: `0` for the first, `1` for the second.
Any other number is the error `bad`. -/
def alt {n : ℕ} (tag : NumCodec n ε) (hn : 1 < n) (bad : ε) (ca : Codec lim ε α) (cb : Codec lim ε β) :
    Codec lim ε (α ⊕ β) where
  enc
    | .inl a => tag.enc 0 ++ ca.enc a
    | .inr b => tag.enc 1 ++ cb.enc b
  dec bs :=
    match tag.dec bs with
    | .error e => .error e
    | .ok (0, bs) =>
      match ca.dec bs with
      | .error e => .error e
      | .ok (a, bs) => .ok (.inl a, bs)
    | .ok (1, bs) =>
      match cb.dec bs with
      | .error e => .error e
      | .ok (b, bs) => .ok (.inr b, bs)
    | .ok (_, _) => .error bad
  enc_pos s := by
    cases s with
    | inl a => have := tag.enc_pos 0; simp only [List.length_append]; omega
    | inr b => have := tag.enc_pos 1; simp only [List.length_append]; omega
  dec_enc s rest h := by
    cases s with
    | inl a =>
      simp only [List.length_append] at h
      rw [List.append_assoc, tag.dec_enc 0 _ (by omega)]
      simp only [ca.dec_enc a rest (by omega)]
    | inr b =>
      simp only [List.length_append] at h
      rw [List.append_assoc, tag.dec_enc 1 _ hn]
      simp only [cb.dec_enc b rest (by omega)]

/-- `n` values one after the other. -/
def decMany (dec : Bytes → Except ε (α × Bytes)) : ℕ → Bytes → Except ε (List α × Bytes)
  | 0, bs => .ok ([], bs)
  | n + 1, bs =>
    match dec bs with
    | .error e => .error e
    | .ok (a, bs) =>
      match decMany dec n bs with
      | .error e => .error e
      | .ok (as, bs) => .ok (a :: as, bs)

lemma length_le_flatMap_enc (c : Codec lim ε α) (l : List α) :
    l.length ≤ (l.flatMap c.enc).length := by
  induction l with
  | nil => simp
  | cons a l ih =>
    have := c.enc_pos a
    simp only [List.flatMap_cons, List.length_append, List.length_cons]; omega

lemma decMany_flatMap_enc (c : Codec lim ε α) (rest : Bytes) :
    ∀ l : List α, (l.flatMap c.enc).length < lim →
      decMany c.dec l.length (l.flatMap c.enc ++ rest) = .ok (l, rest)
  | [], _ => rfl
  | a :: l, h => by
    simp only [List.flatMap_cons, List.length_append] at h
    have ih := decMany_flatMap_enc c rest l (by omega)
    rw [List.flatMap_cons, List.append_assoc, List.length_cons, decMany,
      c.dec_enc a _ (by omega)]
    simp only [ih]

/-- A list behind its length. -/
def list (len : NumCodec lim ε) (c : Codec lim ε α) : Codec lim ε (List α) where
  enc l := len.enc l.length ++ l.flatMap c.enc
  dec bs :=
    match len.dec bs with
    | .error e => .error e
    | .ok (n, bs) => decMany c.dec n bs
  enc_pos l := by
    have := len.enc_pos l.length
    simp only [List.length_append]; omega
  dec_enc l rest h := by
    have hl := length_le_flatMap_enc c l
    rw [List.length_append] at h
    rw [List.append_assoc, len.dec_enc _ _ (by omega)]
    exact decMany_flatMap_enc c rest l (by omega)

/-- Raw bytes behind their length, read as a type: `short` is the error when there are fewer bytes
than announced. -/
def bytes (len : NumCodec lim ε) (short : ε) (write : α → Bytes) (read : Bytes → Except ε α)
    (h : ∀ a, read (write a) = .ok a) : Codec lim ε α where
  enc a := len.enc (write a).length ++ write a
  dec bs :=
    match len.dec bs with
    | .error e => .error e
    | .ok (n, bs) =>
      if bs.length < n then .error short
      else
        match read (bs.take n) with
        | .error e => .error e
        | .ok a => .ok (a, bs.drop n)
  enc_pos a := by
    have := len.enc_pos (write a).length
    simp only [List.length_append]; omega
  dec_enc a rest hl := by
    rw [List.length_append] at hl
    rw [List.append_assoc, len.dec_enc _ _ (by omega)]
    simp [h]

end Codec

/-! ### Soundness -/

/-- A number that is read is below the limit, and was read from its encoding or from more bytes. -/
def NumCodec.Sound (num : NumCodec lim ε) : Prop :=
  ∀ bs n rest, num.dec bs = .ok (n, rest) → n < lim ∧ ∃ used, bs = used ++ rest ∧
    Padded (num.enc n) used ∧ ∀ rest', num.dec (used ++ rest') = .ok (n, rest')

/-- A value that is read was read from its encoding or from more bytes. -/
def Codec.Sound (c : Codec lim ε α) : Prop :=
  ∀ bs a rest, c.dec bs = .ok (a, rest) → ∃ used, bs = used ++ rest ∧
    Padded (c.enc a) used ∧ ∀ rest', c.dec (used ++ rest') = .ok (a, rest')

namespace Codec

lemma Sound.pair {ca : Codec lim ε α} {cb : Codec lim ε β} (ha : ca.Sound) (hb : cb.Sound) :
    (ca.pair cb).Sound := by
  intro bs p rest h
  simp only [Codec.pair] at h
  split at h
  · cases h
  · rename_i a bs₁ hdeca
    split at h
    · cases h
    · rename_i b bs₂ hdecb
      cases h
      obtain ⟨used, rfl, hpad, hdec⟩ := ha _ _ _ hdeca
      obtain ⟨used', rfl, hpad', hdec'⟩ := hb _ _ _ hdecb
      refine ⟨used ++ used', (List.append_assoc _ _ _).symm, hpad.append hpad', fun rest' => ?_⟩
      simp only [Codec.pair, List.append_assoc, hdec, hdec']

lemma Sound.map {c : Codec lim ε α} (hc : c.Sound) {read : α → β} {write : β → α}
    (h : ∀ b, read (write b) = b) (hwrite : ∀ a, write (read a) = a) :
    (c.map read write h).Sound := by
  intro bs b rest hdec
  simp only [Codec.map] at hdec
  split at hdec
  · cases hdec
  · rename_i a bs₁ hdeca
    cases hdec
    obtain ⟨used, rfl, hpad, hused⟩ := hc _ _ _ hdeca
    refine ⟨used, rfl, ?_, fun rest' => ?_⟩
    · simpa only [Codec.map, hwrite] using hpad
    · simp only [Codec.map, hused]

lemma Sound.alt {n : ℕ} {tag : NumCodec n ε} (htag : tag.Sound) (hn : 1 < n) (bad : ε)
    {ca : Codec lim ε α} {cb : Codec lim ε β} (ha : ca.Sound) (hb : cb.Sound) :
    (Codec.alt tag hn bad ca cb).Sound := by
  intro bs s rest h
  simp only [Codec.alt] at h
  split at h
  · cases h
  · rename_i bs₁ hdect
    obtain ⟨-, used, rfl, hpad, hdec⟩ := htag _ _ _ hdect
    split at h
    · cases h
    · rename_i a bs₂ hdeca
      cases h
      obtain ⟨used', rfl, hpad', hdec'⟩ := ha _ _ _ hdeca
      refine ⟨used ++ used', (List.append_assoc _ _ _).symm, hpad.append hpad', fun rest' => ?_⟩
      simp only [Codec.alt, List.append_assoc, hdec, hdec']
  · rename_i bs₁ hdect
    obtain ⟨-, used, rfl, hpad, hdec⟩ := htag _ _ _ hdect
    split at h
    · cases h
    · rename_i b bs₂ hdecb
      cases h
      obtain ⟨used', rfl, hpad', hdec'⟩ := hb _ _ _ hdecb
      refine ⟨used ++ used', (List.append_assoc _ _ _).symm, hpad.append hpad', fun rest' => ?_⟩
      simp only [Codec.alt, List.append_assoc, hdec, hdec']
  · cases h

lemma decMany_sound {c : Codec lim ε α} (hc : c.Sound) :
    ∀ {n : ℕ} {bs : Bytes} {l : List α} {rest : Bytes}, decMany c.dec n bs = .ok (l, rest) →
      l.length = n ∧ ∃ used, bs = used ++ rest ∧ Padded (l.flatMap c.enc) used ∧
        ∀ rest', decMany c.dec n (used ++ rest') = .ok (l, rest') := by
  intro n
  induction n with
  | zero =>
    intro bs l rest h
    cases h
    exact ⟨rfl, [], rfl, Padded.refl _, fun _ => rfl⟩
  | succ n ih =>
    intro bs l rest h
    rw [decMany] at h
    split at h
    · cases h
    · rename_i a bs₁ hdeca
      split at h
      · cases h
      · rename_i as bs₂ hmany
        cases h
        obtain ⟨used, rfl, hpad, hdec⟩ := hc _ _ _ hdeca
        obtain ⟨hlen, used', rfl, hpad', hdec'⟩ := ih hmany
        refine ⟨by rw [List.length_cons, hlen], used ++ used', (List.append_assoc _ _ _).symm, ?_,
          fun rest' => ?_⟩
        · rw [List.flatMap_cons]
          exact hpad.append hpad'
        · rw [List.append_assoc, decMany, hdec]
          simp only [hdec']

lemma Sound.list {len : NumCodec lim ε} (hlen : len.Sound) {c : Codec lim ε α} (hc : c.Sound) :
    (Codec.list len c).Sound := by
  intro bs l rest h
  simp only [Codec.list] at h
  split at h
  · cases h
  · rename_i n bs₁ hdecn
    obtain ⟨-, used, rfl, hpad, hdec⟩ := hlen _ _ _ hdecn
    obtain ⟨rfl, used', rfl, hpad', hdec'⟩ := decMany_sound hc h
    refine ⟨used ++ used', (List.append_assoc _ _ _).symm, hpad.append hpad', fun rest' => ?_⟩
    simp only [Codec.list, List.append_assoc, hdec, hdec']

lemma Sound.bytes {len : NumCodec lim ε} (hlen : len.Sound) (short : ε) {write : α → Bytes}
    {read : Bytes → Except ε α} (h : ∀ a, read (write a) = .ok a)
    (hread : ∀ bs a, read bs = .ok a → write a = bs) : (Codec.bytes len short write read h).Sound := by
  intro bs a rest hdec
  simp only [Codec.bytes] at hdec
  split at hdec
  · cases hdec
  · rename_i n bs₁ hdecn
    obtain ⟨-, used, rfl, hpad, hused⟩ := hlen _ _ _ hdecn
    split_ifs at hdec with hshort
    split at hdec
    · cases hdec
    · rename_i b hb
      cases hdec
      have hlength : (bs₁.take n).length = n := List.length_take_of_le (Nat.le_of_not_lt hshort)
      have hwrite : write a = bs₁.take n := hread _ _ hb
      refine ⟨used ++ bs₁.take n, ?_, ?_, fun rest' => ?_⟩
      · rw [List.append_assoc, List.take_append_drop]
      · simp only [Codec.bytes, hwrite, hlength]
        exact hpad.append (Padded.refl _)
      · have htake : (bs₁.take n ++ rest').take n = bs₁.take n := List.take_left' hlength
        have hdrop : (bs₁.take n ++ rest').drop n = rest' := List.drop_left' hlength
        have hle : ¬ (bs₁.take n ++ rest').length < n := by
          rw [List.length_append, hlength]
          omega
        simp only [Codec.bytes, List.append_assoc, hused, if_neg hle, htake, hdrop, hb]

end Codec

end Crossbridge
