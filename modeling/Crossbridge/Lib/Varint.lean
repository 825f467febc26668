import Mathlib.Data.List.Basic
import Mathlib.Tactic

/-!
Variable-length numbers, seven bits to a byte, lowest first, the high bit of every byte but the
last set.

Both directions count the bytes that may still follow the present one, and the decoder refuses a
last byte above `last`. `varintDec_varintEnc` is the round trip for the numbers below
`128 ^ k * (last + 1)`: below `2 ^ 64` when nine bytes may follow and `last = 1`, below `2 ^ 32`
when four may and `last = 15`.

The decoder also takes bytes that the encoder does not write: a number may be followed by zeros that
add nothing to it. `varintDec_sound` says how far that goes: what is decoded is what the encoder
writes, or longer (`Padded`).
-/

namespace Crossbridge.Varint

/-- A string of bytes. -/
abbrev Bytes := List UInt8

/-- What the decoder refuses. -/
inductive Bad where
  /-- The bytes end inside the number. -/
  | unexpectedEnd
  /-- The number does not end, or does not fit. -/
  | badVarint
  deriving DecidableEq, Repr

/-- The bytes of a number, at most `k + 1` of them. -/
def varintEnc : ℕ → ℕ → Bytes
  | 0, n => [UInt8.ofNat n]
  | k + 1, n =>
    if n < 128 then [UInt8.ofNat n] else UInt8.ofNat (n % 128 + 128) :: varintEnc k (n / 128)

/-- The number at the front of a string of bytes, of at most `k + 1` bytes, and the bytes after
it. -/
def varintDec (last : ℕ) : ℕ → Bytes → Except Bad (ℕ × Bytes)
  | _, [] => .error .unexpectedEnd
  | 0, b :: bs => if b.toNat ≤ last then .ok (b.toNat, bs) else .error .badVarint
  | k + 1, b :: bs =>
    if b.toNat < 128 then .ok (b.toNat, bs)
    else
      match varintDec last k bs with
      | .ok (m, rest) => .ok (b.toNat - 128 + 128 * m, rest)
      | .error e => .error e

lemma varintEnc_length_pos (k n : ℕ) : 0 < (varintEnc k n).length := by
  cases k with
  | zero => simp [varintEnc]
  | succ k => rw [varintEnc]; split <;> simp

/-- **The round trip.** Decoding what was encoded gives the number and the bytes after it. -/
theorem varintDec_varintEnc {last : ℕ} (hlast : last < 128) (rest : Bytes) :
    ∀ {k n : ℕ}, n < 128 ^ k * (last + 1) →
      varintDec last k (varintEnc k n ++ rest) = .ok (n, rest) := by
  intro k
  induction k with
  | zero =>
    intro n hn
    have hn' : n < last + 1 := by simpa using hn
    have hb : (UInt8.ofNat n).toNat = n := by rw [UInt8.toNat_ofNat']; omega
    rw [varintEnc, List.singleton_append, varintDec, hb, if_pos (by omega)]
  | succ k ih =>
    intro n hn
    by_cases h : n < 128
    · have hb : (UInt8.ofNat n).toNat = n := by rw [UInt8.toNat_ofNat']; omega
      rw [varintEnc, if_pos h, List.singleton_append, varintDec, hb, if_pos h]
    · have hb : (UInt8.ofNat (n % 128 + 128)).toNat = n % 128 + 128 := by
        rw [UInt8.toNat_ofNat']; omega
      have hdiv : n / 128 < 128 ^ k * (last + 1) := by
        rw [Nat.div_lt_iff_lt_mul (by omega)]
        calc n < 128 ^ (k + 1) * (last + 1) := hn
          _ = 128 ^ k * (last + 1) * 128 := by ring
      rw [varintEnc, if_neg h, List.cons_append, varintDec, hb, if_neg (by omega), ih hdiv]
      have : n % 128 + 128 - 128 + 128 * (n / 128) = n := by omega
      simp only [this]

/-! ### What the decoder takes -/

/-- The bytes of an encoding, or more bytes than it has. -/
def Padded (enc used : Bytes) : Prop := enc = used ∨ enc.length < used.length

lemma Padded.refl (bs : Bytes) : Padded bs bs := Or.inl rfl

lemma Padded.length_le {enc used : Bytes} (h : Padded enc used) : enc.length ≤ used.length := by
  rcases h with rfl | h
  · exact le_rfl
  · exact h.le

lemma Padded.append {enc enc' used used' : Bytes} (h : Padded enc used) (h' : Padded enc' used') :
    Padded (enc ++ enc') (used ++ used') := by
  rcases h with rfl | h
  · rcases h' with rfl | h'
    · exact Padded.refl _
    · right
      rw [List.length_append, List.length_append]
      omega
  · right
    have := h'.length_le
    rw [List.length_append, List.length_append]
    omega

/-- A byte that goes on, before what a number was read from. -/
lemma Padded.cons {b : UInt8} {k m : ℕ} {used : Bytes} (hb : 128 ≤ b.toNat)
    (h : Padded (varintEnc k m) used) :
    Padded (varintEnc (k + 1) (b.toNat - 128 + 128 * m)) (b :: used) := by
  have hlt := b.toNat_lt
  rw [varintEnc]
  by_cases hn : b.toNat - 128 + 128 * m < 128
  · -- the number ends in the first byte, and a byte follows it all the same
    have hpos := varintEnc_length_pos k m
    have hle := h.length_le
    rw [if_pos hn]
    right
    rw [List.length_singleton, List.length_cons]
    omega
  · have hmod : (b.toNat - 128 + 128 * m) % 128 + 128 = b.toNat := by omega
    have hdiv : (b.toNat - 128 + 128 * m) / 128 = m := by omega
    rw [if_neg hn, hmod, hdiv, UInt8.ofNat_toNat]
    exact (Padded.refl [b]).append h

/-- **What is decoded** is a number that has an encoding, and it was read from its encoding or from
more bytes, whatever follows them. -/
theorem varintDec_sound {last : ℕ} :
    ∀ {k : ℕ} {bs : Bytes} {n : ℕ} {rest : Bytes}, varintDec last k bs = .ok (n, rest) →
      n < 128 ^ k * (last + 1) ∧ ∃ used, bs = used ++ rest ∧ Padded (varintEnc k n) used ∧
        ∀ rest', varintDec last k (used ++ rest') = .ok (n, rest') := by
  intro k
  induction k with
  | zero =>
    intro bs n rest h
    cases bs with
    | nil => cases h
    | cons b bs =>
      rw [varintDec] at h
      split_ifs at h with hb
      cases h
      refine ⟨by simpa using Nat.lt_succ_of_le hb, [b], rfl, ?_, fun rest' => ?_⟩
      · rw [varintEnc, UInt8.ofNat_toNat]
        exact Padded.refl _
      · rw [List.singleton_append, varintDec, if_pos hb]
  | succ k ih =>
    intro bs n rest h
    cases bs with
    | nil => cases h
    | cons b bs =>
      have hpos : 0 < 128 ^ k * (last + 1) := by positivity
      have hpow : 128 ^ (k + 1) * (last + 1) = 128 ^ k * (last + 1) * 128 := by ring
      rw [varintDec] at h
      by_cases hb : b.toNat < 128
      · rw [if_pos hb] at h
        cases h
        refine ⟨by omega, [b], rfl, ?_, fun rest' => ?_⟩
        · rw [varintEnc, if_pos hb, UInt8.ofNat_toNat]
          exact Padded.refl _
        · rw [List.singleton_append, varintDec, if_pos hb]
      · rw [if_neg hb] at h
        cases hm : varintDec last k bs with
        | error e =>
          rw [hm] at h
          cases h
        | ok r =>
          obtain ⟨m, rest₁⟩ := r
          rw [hm] at h
          cases h
          obtain ⟨hlt, used, rfl, hpad, hdec⟩ := ih hm
          have hb' := b.toNat_lt
          refine ⟨by omega, b :: used, rfl, hpad.cons (Nat.le_of_not_lt hb), fun rest' => ?_⟩
          rw [List.cons_append, varintDec, if_neg hb, hdec]

end Crossbridge.Varint
