import Crossbridge.Lib.Text
import Crossbridge.Protocol.Framing

/-!
Connecting to the supervisor, with a backoff between the attempts.

An attempt ends with an `Ack`, a `Nack` or a failure, and a failure is a text (`connect_and_register`).
The loop is meant to go on until the first `Ack` or `Nack` (`OnlyNackStops`), but it knows a `Nack`
only by a phrase in the text of the failure. Texts from outside are part of these texts, too: when
one of them has the phrase (`Misleading`), the loop gives up. `onlyNackStops_iff` says that there is
no other way for it to go wrong.
-/

namespace Crossbridge.Server

open Crossbridge.Protocol Crossbridge.Text

/-- `INITIAL_BACKOFF`, in seconds. -/
def initialBackoff : ℕ := 1

/-- `MAX_BACKOFF`, in seconds. -/
def maxBackoff : ℕ := 60

/-- `Registration`, less the stream. -/
structure Registration where
  peers : List String
  deriving DecidableEq, Repr

/-- How an attempt goes: a call fails, or the supervisor sends its first message. The texts of the
errors come from outside, and need not be the same each time. -/
inductive Attempt where
  /-- `UnixStream::connect` fails; the text is that of the `std::io::Error`. -/
  | connectFails (e : String)
  | writeFails (t : ErrorTexts) (e : Error)
  | readFails (t : ErrorTexts) (e : Error)
  | answered (m : SupervisorMessage)

/-! ### The texts of failures -/

/-- A character in the `Debug` form of a string. ASCII that is not a control character stands for
itself; of the others, `unprintable` are those that extend a grapheme or cannot be printed. -/
def escapeDebug (unprintable : Char → Bool) (c : Char) : List Char :=
  if c = '"' ∨ c = '\\' then ['\\', c]
  else if c.toNat = 0 then ['\\', '0']
  else if c = '\t' then ['\\', 't']
  else if c = '\r' then ['\\', 'r']
  else if c = '\n' then ['\\', 'n']
  else if (0x20 ≤ c.toNat ∧ c.toNat < 0x7f) ∨ unprintable c = false then [c]
  else '\\' :: 'u' :: '\x7b' :: (Nat.toDigits 16 c.toNat ++ ['\x7d'])

/-- The `Debug` form of a string. -/
def debugStr (unprintable : Char → Bool) (s : String) : String :=
  "\"" ++ String.ofList (s.toList.flatMap (escapeDebug unprintable)) ++ "\""

/-- The `Debug` form of a notification. -/
def debugNotification (unprintable : Char → Bool) : Notification → String
  | .peerJoined slug => "PeerJoined \x7b slug: " ++ debugStr unprintable slug ++ " \x7d"
  | .peerLeft slug => "PeerLeft \x7b slug: " ++ debugStr unprintable slug ++ " \x7d"

section Debug

variable (unprintable : Char → Bool) (slug : String)

lemma debugNotification_peerJoined : debugNotification unprintable (.peerJoined slug) =
    "PeerJoined \x7b slug: " ++ debugStr unprintable slug ++ " \x7d" := rfl

lemma debugNotification_peerLeft : debugNotification unprintable (.peerLeft slug) =
    "PeerLeft \x7b slug: " ++ debugStr unprintable slug ++ " \x7d" := rfl

end Debug

/-- `connect_and_register`; `socketPath` is what the path displays as. -/
def connectAndRegister (unprintable : Char → Bool) (socketPath : String) :
    Attempt → Except String Registration
  | .connectFails e => .error ("connecting to supervisor at " ++ socketPath ++ ": " ++ e)
  | .writeFails t e => .error ("sending Register frame: " ++ e.display t)
  | .readFails t e => .error ("reading RegisterResponse frame: " ++ e.display t)
  | .answered (.registerResponse (.ack peers)) => .ok ⟨peers⟩
  | .answered (.registerResponse (.nack reason)) =>
    .error ("supervisor rejected registration: " ++ reason)
  | .answered (.notification n) => .error ("expected RegisterResponse from supervisor, got " ++
      "Notification: " ++ debugNotification unprintable n)

/-! ### The loop -/

/-- What the loop looks for in the text of a failure. -/
def rejection : List Char := "supervisor rejected registration".toList

/-- `connect_and_register_with_backoff` over the attempts it makes, as far as these are given: how
long it sleeps, and what it returns if it does. -/
def connectAndRegisterWithBackoff (unprintable : Char → Bool) (socketPath : String) :
    ℕ → List Attempt → List ℕ × Option (Except String Registration)
  | _, [] => ([], none)
  | backoff, a :: as =>
    match connectAndRegister unprintable socketPath a with
    | .ok reg => ([], some (.ok reg))
    | .error msg =>
      if rejection <:+: msg.toList then ([], some (.error msg))
      else
        let r := connectAndRegisterWithBackoff unprintable socketPath (min (backoff * 2) maxBackoff) as
        (backoff :: r.1, r.2)

/-- Neither `Ack` nor `Nack`. -/
def Attempt.failed : Attempt → Bool
  | .answered (.registerResponse _) => false
  | _ => true

/-- The loop sleeps after each of the attempts that failed, longer and longer, and returns what the
first one gives that did not. -/
def OnlyNackStops (unprintable : Char → Bool) (socketPath : String) (as : List Attempt) : Prop :=
  let k := (as.takeWhile Attempt.failed).length
  connectAndRegisterWithBackoff unprintable socketPath initialBackoff as =
    ((List.range k).map fun i => min (2 ^ i) maxBackoff,
      as[k]?.map (connectAndRegister unprintable socketPath))

/-- The text from outside in the text of an error. -/
def outside (t : ErrorTexts) : Error → String
  | .io kind => t.io kind
  | .postcard e => t.postcard e
  | .frameTooLarge .. => ""

/-- A text from outside has the phrase that the loop looks for. -/
def Misleading (socketPath : String) : Attempt → Prop
  | .connectFails e => rejection <:+: socketPath.toList ∨ rejection <:+: e.toList
  | .writeFails t e | .readFails t e => rejection <:+: (outside t e).toList
  | .answered (.notification (.peerJoined slug)) | .answered (.notification (.peerLeft slug)) =>
    rejection <:+: slug.toList
  | .answered (.registerResponse _) => False

/-! ### Where the phrase can be -/

lemma rejection_eq : rejection = 's' :: "upervisor rejected registration".toList := rfl

/-- The phrase is printable. -/
lemma printable_of_mem_rejection {c : Char} (h : c ∈ rejection) : 0x20 ≤ c.toNat ∧ c.toNat < 0x7f := by
  have hall : rejection.all fun c => 0x20 ≤ c.toNat ∧ c.toNat < 0x7f := rfl
  exact of_decide_eq_true (List.all_eq_true.mp hall c h)

lemma escapes_escapeDebug (unprintable : Char → Bool) :
    Escapes rejection (escapeDebug unprintable) := by
  intro c
  unfold escapeDebug
  split_ifs with hquote hzero htab hcr hlf hplain
  · refine Or.inr ⟨?_, _, _, rfl, by decide⟩
    rcases hquote with rfl | rfl <;> decide
  · refine Or.inr ⟨fun hc => ?_, _, _, rfl, by decide⟩
    have hprint := printable_of_mem_rejection hc
    omega
  · exact Or.inr ⟨by rw [htab]; decide, _, _, rfl, by decide⟩
  · exact Or.inr ⟨by rw [hcr]; decide, _, _, rfl, by decide⟩
  · exact Or.inr ⟨by rw [hlf]; decide, _, _, rfl, by decide⟩
  · exact Or.inl rfl
  · exact Or.inr ⟨fun hc => hplain (Or.inl (printable_of_mem_rejection hc)), _, _, rfl, by decide⟩

lemma exists_digitChar_of_mem {n : ℕ} {c : Char} (h : c ∈ Nat.toDigits 16 n) :
    ∃ k, c = Nat.digitChar k := by
  induction n using Nat.strong_induction_on with
  | _ n ih =>
    rw [Nat.toDigits_eq_if (by decide)] at h
    split at h
    · exact ⟨n, List.mem_singleton.mp h⟩
    · rename_i hn
      rcases List.mem_append.mp h with h | h
      · exact ih (n / 16) (by omega) h
      · exact ⟨_, List.mem_singleton.mp h⟩

lemma digitChar_ne_s : ∀ k, Nat.digitChar k ≠ 's'
  | 0 | 1 | 2 | 3 | 4 | 5 | 6 | 7 | 8 | 9 | 10 | 11 | 12 | 13 | 14 | 15 => by decide
  | k + 16 => by simp [Nat.digitChar]

/-- The phrase does not start inside an escape. -/
lemma not_mem_escapeDebug {unprintable : Char → Bool} {c : Char}
    (h : escapeDebug unprintable c ≠ [c]) : 's' ∉ escapeDebug unprintable c := by
  unfold escapeDebug at h ⊢
  split_ifs at h ⊢ with hquote hzero htab hcr hlf hplain
  · rcases hquote with rfl | rfl <;> decide
  · decide
  · decide
  · decide
  · decide
  · exact absurd rfl h
  · intro hmem
    simp only [List.mem_cons, List.mem_append, List.not_mem_nil, or_false] at hmem
    rcases hmem with h | h | h | h | h
    · cases h
    · cases h
    · cases h
    · obtain ⟨k, hk⟩ := exists_digitChar_of_mem h
      exact digitChar_ne_s k hk.symm
    · cases h

/-- **A slug in its `Debug` form** has the phrase if the slug has it. -/
lemma rejection_infix_debugStr (unprintable : Char → Bool) (slug : String) {after : List Char}
    (h : ¬ rejection <:+: after) :
    rejection <:+: (debugStr unprintable slug).toList ++ after ↔ rejection <:+: slug.toList := by
  have hquote : '"' ∉ rejection := by decide
  have hslug : rejection <:+: slug.toList.flatMap (escapeDebug unprintable) ↔
      rejection <:+: slug.toList :=
    infix_flatMap_iff (escapes_escapeDebug unprintable) fun c => not_mem_escapeDebug
  have htext : (debugStr unprintable slug).toList ++ after =
      '"' :: (slug.toList.flatMap (escapeDebug unprintable) ++ '"' :: after) := by
    simp [debugStr]
  rw [htext, ← hslug, infix_cons_iff_of_not_mem hquote, infix_append_cons_iff hquote]
  exact or_iff_left h

/-! ### The text of a failure -/

section Failure

/-- A text after a colon has the phrase if what is behind the colon has it. -/
lemma rejection_infix_colon {before after : List Char} (h : ¬ rejection <:+: before) :
    rejection <:+: before ++ ':' :: ' ' :: after ↔ rejection <:+: after := by
  have hblank : 's' ∉ [' '] := by decide
  rw [infix_append_cons_iff (by decide), or_iff_right h, rejection_eq]
  exact infix_append_iff_of_head (b := after) hblank

lemma j_not_mem_toDigits (n : ℕ) : 'j' ∉ Nat.toDigits 10 n := fun h =>
  absurd (Nat.isDigit_of_mem_toDigits (by decide) (by decide) h) (by decide)

lemma rejection_infix_display (t : ErrorTexts) (e : Error) :
    rejection <:+: (e.display t).toList ↔ rejection <:+: (outside t e).toList := by
  cases e with
  | io kind =>
    have htext : ((Error.io kind).display t).toList =
        "io error".toList ++ ':' :: ' ' :: (t.io kind).toList := by
      simp
    rw [htext, outside, rejection_infix_colon (by decide)]
  | postcard e =>
    have htext : ((Error.postcard e).display t).toList =
        "postcard error".toList ++ ':' :: ' ' :: (t.postcard e).toList := by
      simp
    rw [htext, outside, rejection_infix_colon (by decide)]
  | frameTooLarge size max =>
    -- the phrase has a letter that this text has not
    have hj : 'j' ∉ ((Error.frameTooLarge size max).display t).toList := by
      simp [j_not_mem_toDigits]
    have hnot : ¬ rejection <:+: ((Error.frameTooLarge size max).display t).toList :=
      fun h => hj (h.subset (by decide))
    have hnone : ¬ rejection <:+: [] := by decide
    exact iff_of_false hnot hnone

lemma rejection_infix_connecting (socketPath e : String) :
    rejection <:+: ("connecting to supervisor at " ++ socketPath ++ ": " ++ e).toList ↔
      rejection <:+: socketPath.toList ∨ rejection <:+: e.toList := by
  have htext : ("connecting to supervisor at " ++ socketPath ++ ": " ++ e).toList =
      ("connecting to supervisor at ".toList ++ socketPath.toList) ++ ':' :: ' ' :: e.toList := by
    simp
  have hpath : rejection <:+: "connecting to supervisor at ".toList ++ socketPath.toList ↔
      rejection <:+: socketPath.toList :=
    infix_append_iff_of_tails (by decide) (by decide)
  have hblank : 's' ∉ [' '] := by decide
  have he : rejection <:+: [' '] ++ e.toList ↔ rejection <:+: e.toList := by
    rw [rejection_eq]
    exact infix_append_iff_of_head hblank
  rw [htext, infix_append_cons_iff (by decide), hpath, ← he]
  rfl

/-- A notification in its `Debug` form has the phrase if its slug has it. -/
lemma rejection_infix_debugNotification (unprintable : Char → Bool) (socketPath : String)
    (n : Notification) : rejection <:+: (debugNotification unprintable n).toList ↔
      Misleading socketPath (.answered (.notification n)) := by
  cases n with
  | peerJoined slug =>
    have htext : (debugNotification unprintable (.peerJoined slug)).toList =
        "PeerJoined \x7b slug".toList ++ ':' :: ' ' ::
          ((debugStr unprintable slug).toList ++ [' ', '\x7d']) := by
      rw [debugNotification_peerJoined]
      simp
    rw [htext, rejection_infix_colon (by decide), rejection_infix_debugStr unprintable slug (by decide)]
    rfl
  | peerLeft slug =>
    have htext : (debugNotification unprintable (.peerLeft slug)).toList =
        "PeerLeft \x7b slug".toList ++ ':' :: ' ' ::
          ((debugStr unprintable slug).toList ++ [' ', '\x7d']) := by
      rw [debugNotification_peerLeft]
      simp
    rw [htext, rejection_infix_colon (by decide), rejection_infix_debugStr unprintable slug (by decide)]
    rfl

/-- A failure has the phrase if a text from outside has it. -/
theorem rejection_infix_failure (unprintable : Char → Bool) (socketPath : String) {a : Attempt}
    (h : a.failed = true) :
    ∃ msg, connectAndRegister unprintable socketPath a = .error msg ∧
      (rejection <:+: msg.toList ↔ Misleading socketPath a) := by
  cases a with
  | connectFails e => exact ⟨_, rfl, rejection_infix_connecting socketPath e⟩
  | writeFails t e =>
    refine ⟨_, rfl, ?_⟩
    have htext : ("sending Register frame: " ++ e.display t).toList =
        "sending Register frame".toList ++ ':' :: ' ' :: (e.display t).toList := by
      simp
    rw [htext, rejection_infix_colon (by decide), rejection_infix_display, Misleading]
  | readFails t e =>
    refine ⟨_, rfl, ?_⟩
    have htext : ("reading RegisterResponse frame: " ++ e.display t).toList =
        "reading RegisterResponse frame".toList ++ ':' :: ' ' :: (e.display t).toList := by
      simp
    rw [htext, rejection_infix_colon (by decide), rejection_infix_display, Misleading]
  | answered m =>
    cases m with
    | registerResponse r => cases h
    | notification n =>
      refine ⟨_, rfl, ?_⟩
      have htext : ("expected RegisterResponse from supervisor, got " ++ "Notification: " ++
          debugNotification unprintable n).toList =
          "expected RegisterResponse from supervisor, got Notification".toList ++ ':' :: ' ' ::
            (debugNotification unprintable n).toList := by
        simp
      rw [htext, rejection_infix_colon (by decide), rejection_infix_debugNotification]

end Failure

/-! ### The loop over the attempts -/

section Loop

variable {unprintable : Char → Bool} {socketPath : String}

/-- An attempt that did not fail is the last one. -/
lemma loop_of_not_failed {a : Attempt} (h : a.failed = false) (backoff : ℕ) (as : List Attempt) :
    connectAndRegisterWithBackoff unprintable socketPath backoff (a :: as) =
      ([], some (connectAndRegister unprintable socketPath a)) := by
  cases a with
  | connectFails | writeFails | readFails => cases h
  | answered m =>
    cases m with
    | notification n => cases h
    | registerResponse r =>
      cases r with
      | ack peers => rfl
      | nack reason =>
        have hphrase : rejection <:+: ("supervisor rejected registration: " ++ reason).toList := by
          rw [String.toList_append]
          exact List.infix_append_of_infix_left (by decide)
        rw [connectAndRegisterWithBackoff, connectAndRegister]
        exact if_pos hphrase

/-- An attempt that did not fail and is no success. -/
lemma exists_nack_of_not_failed {a : Attempt} {e : String} (h : a.failed = false)
    (he : connectAndRegister unprintable socketPath a = .error e) :
    ∃ reason, a = .answered (.registerResponse (.nack reason)) := by
  cases a with
  | connectFails | writeFails | readFails => cases h
  | answered m =>
    cases m with
    | notification n => cases h
    | registerResponse r =>
      cases r with
      | ack peers => cases he
      | nack reason => exact ⟨reason, rfl⟩

lemma min_backoff (j : ℕ) : min (min (2 ^ j) maxBackoff * 2) maxBackoff = min (2 ^ (j + 1)) maxBackoff := by
  rw [pow_succ]
  unfold maxBackoff
  omega

/-- The loop, when it comes to the attempts `as` after `j` failures. -/
lemma loop_eq_iff (unprintable : Char → Bool) (socketPath : String) (j : ℕ) (as : List Attempt) :
    connectAndRegisterWithBackoff unprintable socketPath (min (2 ^ j) maxBackoff) as =
      ((List.range (as.takeWhile Attempt.failed).length).map fun i => min (2 ^ (j + i)) maxBackoff,
        as[(as.takeWhile Attempt.failed).length]?.map (connectAndRegister unprintable socketPath)) ↔
    ∀ a ∈ as.takeWhile Attempt.failed, ¬ Misleading socketPath a := by
  induction as generalizing j with
  | nil => simp [connectAndRegisterWithBackoff]
  | cons a as ih =>
    cases hfailed : a.failed with
    | false =>
      rw [loop_of_not_failed hfailed, List.takeWhile_cons_of_neg (by simp [hfailed])]
      simp
    | true =>
      obtain ⟨msg, hmsg, hphrase⟩ := rejection_infix_failure unprintable socketPath hfailed
      rw [List.takeWhile_cons_of_pos hfailed, List.forall_mem_cons, ← hphrase, ← ih (j + 1),
        connectAndRegisterWithBackoff, hmsg]
      by_cases hstop : rejection <:+: msg.toList
      · -- the loop stops, but a failure is to be slept upon
        simp [hstop, List.range_succ_eq_map]
      · simp only [hstop, if_false, not_false_eq_true, true_and, min_backoff, List.length_cons,
          List.getElem?_cons_succ, List.range_succ_eq_map, List.map_cons, List.map_map]
        rw [Prod.ext_iff, Prod.ext_iff, List.cons.injEq]
        simp only [add_zero, true_and]
        have hshift : (fun i => min (2 ^ (j + i)) maxBackoff) ∘ Nat.succ =
            fun i => min (2 ^ (j + 1 + i)) maxBackoff := by
          funext i
          rw [Function.comp_apply, Nat.add_right_comm]
          rfl
        rw [hshift]

/-- **When only a `Nack` stops the loop.** For every socket path and every sequence of attempts: the
loop does what it is meant to do exactly if no text from outside, in an attempt that it should have
slept upon, has the phrase. -/
theorem onlyNackStops_iff (unprintable : Char → Bool) (socketPath : String) (as : List Attempt) :
    OnlyNackStops unprintable socketPath as ↔
      ∀ a ∈ as.takeWhile Attempt.failed, ¬ Misleading socketPath a := by
  rw [← loop_eq_iff unprintable socketPath 0 as, OnlyNackStops]
  simp only [zero_add, pow_zero]
  rfl

/-- **A socket path with the phrase**: the loop gives up when the supervisor is not there yet. -/
theorem not_onlyNackStops_path : ∃ path e, path = "/tmp/supervisor rejected registration/register.socket" ∧
    e = "No such file or directory (os error 2)" ∧
    connectAndRegisterWithBackoff (fun _ => false) path initialBackoff
        [.connectFails e, .answered (.registerResponse (.ack []))] =
      ([], some (.error ("connecting to supervisor at " ++ path ++ ": " ++ e))) ∧
    ¬ OnlyNackStops (fun _ => false) path [.connectFails e, .answered (.registerResponse (.ack []))] := by
  refine ⟨_, _, rfl, rfl, ?_⟩
  have hrun : ∀ as, connectAndRegisterWithBackoff (fun _ => false)
      "/tmp/supervisor rejected registration/register.socket" initialBackoff
        (.connectFails "No such file or directory (os error 2)" :: as) =
      ([], some (.error ("connecting to supervisor at " ++
        "/tmp/supervisor rejected registration/register.socket" ++ ": " ++
        "No such file or directory (os error 2)"))) := by
    intro as
    have hphrase : rejection <:+: "/tmp/supervisor rejected registration/register.socket".toList := by
      decide
    rw [connectAndRegisterWithBackoff, connectAndRegister]
    refine if_pos ?_
    simp only [String.toList_append]
    exact List.infix_append_of_infix_left (List.infix_append_of_infix_left
      (List.infix_append_of_infix_right hphrase))
  refine ⟨hrun _, fun h => ?_⟩
  rw [OnlyNackStops, hrun] at h
  -- the loop should have slept once
  cases (Prod.ext_iff.mp h).1

end Loop

end Crossbridge.Server
