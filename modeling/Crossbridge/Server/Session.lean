import Crossbridge.Lib.Runs
import Crossbridge.Protocol.Framing

/-!
One supervisor session of a repo server: the loop of `serve_one_session`.

Every turn of the loop races three futures, in order: the shutdown, the read of the next
notification, and the next client connection. The read future is made anew on every turn. A turn in
which nothing is ready leaves it where it is; a turn that a client wins drops it, and with it the
bytes its `read_exact` has already taken off the stream.

`complete` is what the session should have acted on, given how many bytes have arrived: the
notifications whose frames are among them. `Faithful` says that it has, and `faithful_of_run` that
this is so as long as no client is served while a frame has arrived in part.
-/

namespace Crossbridge.Server

open Crossbridge.Varint Crossbridge.Protocol Crossbridge.Runs

/-! ### Reading a notification -/

/-- The errors of `read_notification`. -/
inductive NotificationError where
  | unexpectedRegisterResponse (r : RegisterResponse)
  | reading (e : Error)
  deriving DecidableEq, Repr

/-- Their texts; `debug` is the `Debug` form of a response. -/
def NotificationError.display (t : ErrorTexts) (debug : RegisterResponse → String) :
    NotificationError → String
  | .unexpectedRegisterResponse r =>
    "supervisor sent unexpected RegisterResponse mid-stream: " ++ debug r
  | .reading e => "reading notification: " ++ e.display t

/-- What `read_notification` makes of the outcome of `read_message`: `none` is the end of the
stream. -/
def readNotification :
    Except Error SupervisorMessage → Except NotificationError (Option Notification)
  | .ok (.notification n) => .ok (some n)
  | .ok (.registerResponse r) => .error (.unexpectedRegisterResponse r)
  | .error (.io .unexpectedEof) => .ok none
  | .error e => .error (.reading e)

/-! ### The loop -/

/-- A call of the session on its listener set. -/
inductive ListenerCall where
  | add (peer : String)
  | remove (peer : String)
  | clear
  deriving DecidableEq, Repr

/-- The call a notification asks for. -/
def call : Notification → ListenerCall
  | .peerJoined slug => .add slug
  | .peerLeft slug => .remove slug

/-- How a session ends. -/
inductive Ending where
  | shutdown
  | eof
  | failed (e : NotificationError)
  deriving DecidableEq, Repr

/-- The state of a session: the stream from the supervisor, the read in progress, the peers whose
clients wait in `accepted_rx`, the shutdown token, and what the session has done. -/
structure Session where
  stream : Source
  fut : ReadMessage
  accepted : List String
  shutdown : Bool
  calls : List ListenerCall
  served : List String
  ended : Option Ending
  deriving DecidableEq, Repr

namespace Session

/-- A session at its beginning, with the peers of the `RegisterAck`. -/
def start (peers : List String) : Session :=
  ⟨⟨[], none⟩, .start, [], false, peers.map .add, [], none⟩

/-- The branch of the loop for what `read_notification` returned. -/
def notified (s : Session) : Except NotificationError (Option Notification) → Session
  | .ok (some n) => { s with calls := s.calls ++ [call n] }
  | .ok none => { s with ended := some .eof }
  | .error e => { s with ended := some (.failed e) }

/-- One poll of the `select!` of the loop, its branches in order. -/
def turn (s : Session) : Session :=
  if s.shutdown then { s with calls := s.calls ++ [.clear], ended := some .shutdown }
  else
    match poll Postcard.supervisorMessage s.fut s.stream with
    | .ready r src => notified { s with stream := src, fut := .start } (readNotification r)
    | .pending fut src =>
      match s.accepted with
      | [] => { s with stream := src, fut := fut }
      | peer :: accepted =>
        -- `fut` is dropped, with what it has consumed
        { s with stream := src, fut := .start, accepted := accepted, served := s.served ++ [peer] }

/-- What happens to a session: bytes arrive, the stream ends, a client connects, the shutdown token
is cancelled, the task is polled. -/
inductive Event where
  | arrive (bs : Bytes)
  | close (kind : IoErrorKind)
  | accept (peer : String)
  | cancel
  | wake
  deriving DecidableEq, Repr

def step (s : Session) : Event → Option Session
  | .arrive bs =>
    if s.stream.ending = none then
      some { s with stream := ⟨s.stream.buf ++ bs, none⟩ } else none
  | .close kind =>
    if s.stream.ending = none then some { s with stream := ⟨s.stream.buf, some kind⟩ } else none
  | .accept peer => some { s with accepted := s.accepted ++ [peer] }
  | .cancel => some { s with shutdown := true }
  | .wake => if s.ended = none then some (turn s) else none

/-! ### What the supervisor writes -/

/-- The codec of what travels on the stream. -/
abbrev wireCodec : Postcard.Codec SupervisorMessage := Postcard.supervisorMessage

/-- The notifications that are written: `write_message` refuses a payload that is too large. -/
def written (ns : List Notification) : List Notification :=
  ns.filter fun n => Fits wireCodec (.notification n)

/-- The bytes of a list of notifications on the stream. -/
def wire (ns : List Notification) : Bytes := ns.flatMap fun n => frame wireCodec (.notification n)

/-- The bytes that have arrived. -/
def arrived (es : List Event) : Bytes :=
  es.flatMap fun | .arrive bs => bs | _ => []

/-- The notifications whose frames are among the first `k` bytes of the stream. -/
def complete : List Notification → ℕ → List Notification
  | [], _ => []
  | n :: ns, k =>
    if (frame wireCodec (.notification n)).length ≤ k then
      n :: complete ns (k - (frame wireCodec (.notification n)).length) else []

/-- The bytes that the session has received and not yet acted on. -/
def unread (s : Session) : Bytes := s.fut.bytes ++ s.stream.buf

/-- A client is not served while a frame has arrived in part. -/
def Whole (s : Session) (e : Event) : Prop :=
  e = .wake → s.shutdown = false → s.stream.ending = none → s.accepted ≠ [] → ¬ MidFrame s.unread

instance (s : Session) (e : Event) : Decidable (Whole s e) := by unfold Whole; infer_instance

/-- The session `s` has acted on `acted`, and rightly so when `ns` is what the supervisor wrote and
`k` bytes of it have arrived. -/
structure Faithful (peers : List String) (ns : List Notification) (k : ℕ) (s : Session)
    (acted : List Notification) : Prop where
  /-- The calls on the listener set are those of the peers of the ack, then of `acted`. -/
  calls : s.calls = peers.map .add ++ acted.map call ++
    if s.ended = some .shutdown then [.clear] else []
  /-- Nothing is invented, garbled or out of order. -/
  acts : acted <+: complete ns k
  /-- Nothing is lost: the next poll acts on the next notification that is there. -/
  next : s.ended = none → s.shutdown = false → ∀ n, acted ++ [n] <+: complete ns k →
    ∃ s', step s .wake = some s' ∧ s'.calls = s.calls ++ [call n] ∧ s'.ended = none
  /-- Only the shutdown and the end of the stream end the session, and the latter only after
  everything that had arrived was acted on. -/
  ends : ∀ e, s.ended = some e → (e = .shutdown ∧ s.shutdown = true) ∨
    ((∃ kind, s.stream.ending = some kind) ∧ acted = complete ns k)

/-! ### The stream of frames -/

lemma wire_cons (n : Notification) (ns : List Notification) :
    wire (n :: ns) = frame wireCodec (.notification n) ++ wire ns := rfl

lemma wire_append (ns ms : List Notification) : wire (ns ++ ms) = wire ns ++ wire ms :=
  List.flatMap_append

lemma fits_of_mem_written {ns : List Notification} {n : Notification} (h : n ∈ written ns) :
    Fits wireCodec (.notification n) := by
  simpa using (List.mem_filter.mp h).2

lemma complete_isPrefix : ∀ (ns : List Notification) (k : ℕ), complete ns k <+: ns
  | [], _ => List.prefix_refl _
  | n :: ns, k => by
    rw [complete]
    split
    · rw [List.cons_prefix_cons]
      exact ⟨rfl, complete_isPrefix ns _⟩
    · exact List.nil_prefix

lemma complete_append (ns ms : List Notification) (j : ℕ) :
    complete (ns ++ ms) ((wire ns).length + j) = ns ++ complete ms j := by
  induction ns with
  | nil => simp [wire]
  | cons n ns ih =>
    rw [List.cons_append, complete, wire_cons, List.length_append, if_pos (by omega), Nat.add_assoc,
      Nat.add_sub_cancel_left, ih, List.cons_append]

/-- The beginning of a stream of frames is a whole frame and more, or no frame at all. -/
lemma prefix_wire_cases {ns : List Notification} (hfit : ∀ n ∈ ns, Fits wireCodec (.notification n))
    {bs : Bytes} (h : bs <+: wire ns) :
    (∃ n rest u, ns = n :: rest ∧ bs = frame wireCodec (.notification n) ++ u) ∨
      (Short wireCodec bs ∧ complete ns bs.length = []) := by
  cases ns with
  | nil => exact Or.inr ⟨Or.inl (List.prefix_nil.mp h), rfl⟩
  | cons n rest =>
    rw [wire_cons] at h
    by_cases hle : (frame wireCodec (.notification n)).length ≤ bs.length
    · obtain ⟨u, hu⟩ := List.prefix_of_prefix_length_le (List.prefix_append _ _) h hle
      exact Or.inl ⟨n, rest, u, rfl, hu.symm⟩
    · have hlt := Nat.lt_of_not_le hle
      have hp := List.prefix_of_prefix_length_le h (List.prefix_append _ _) hlt.le
      refine Or.inr ⟨Or.inr ⟨_, hfit n List.mem_cons_self, hp, hlt⟩, ?_⟩
      rw [complete, if_neg hle]

/-! ### What a turn does -/

/-- The session has acted on `acted`, and holds the rest of what has arrived. -/
structure Holds (peers : List String) (ns : List Notification) (bs : Bytes) (s : Session)
    (acted : List Notification) : Prop where
  calls : s.calls = peers.map .add ++ acted.map call ++
    if s.ended = some .shutdown then [.clear] else []
  waiting : s.fut.Waiting
  acts : acted <+: complete ns bs.length
  bytes : s.ended = none → bs = wire acted ++ s.unread
  ends : ∀ e, s.ended = some e → (e = .shutdown ∧ s.shutdown = true) ∨
    ((∃ kind, s.stream.ending = some kind) ∧ acted = complete ns bs.length)

section Turn

variable {peers : List String} {ns acted : List Notification} {bs : Bytes} {s : Session}

/-- **A turn on a whole frame** acts on its notification. -/
theorem turn_frame (hs : s.shutdown = false) (hw : s.fut.Waiting) {n : Notification}
    (hfit : Fits wireCodec (.notification n)) {u : Bytes}
    (hu : s.unread = frame wireCodec (.notification n) ++ u) :
    turn s = { s with
      stream := ⟨u, s.stream.ending⟩, fut := .start, calls := s.calls ++ [call n] } := by
  have hpoll : poll wireCodec s.fut s.stream = .ready (.ok (.notification n)) ⟨u, s.stream.ending⟩ := by
    rw [poll_eq_start hw, ← unread, hu]
    exact poll_frame hfit u s.stream.ending
  unfold turn
  rw [if_neg (by simp [hs]), hpoll]
  rfl

/-- **A turn on part of a frame**, the stream open: a client that waits wins it. -/
theorem turn_short (hs : s.shutdown = false) (hw : s.fut.Waiting) (ho : s.stream.ending = none)
    (hu : Short wireCodec s.unread) : ∃ fut, fut.bytes = s.unread ∧ fut.Waiting ∧
      turn s = match s.accepted with
        | [] => { s with stream := ⟨[], none⟩, fut := fut }
        | peer :: accepted =>
          { s with
            stream := ⟨[], none⟩, fut := .start, accepted := accepted,
            served := s.served ++ [peer] } := by
  obtain ⟨fut, hpoll, hb, hwf⟩ := poll_short hu
  have hpoll' : poll wireCodec s.fut s.stream = .pending fut ⟨[], none⟩ := by
    rw [poll_eq_start hw, ho]
    exact hpoll
  refine ⟨fut, hb, hwf, ?_⟩
  unfold turn
  rw [if_neg (by simp [hs]), hpoll']

/-- **A turn on part of a frame**, the stream at its end: the session ends. -/
theorem turn_short_ended (hs : s.shutdown = false) (hw : s.fut.Waiting) {kind : IoErrorKind}
    (ho : s.stream.ending = some kind) (hu : Short wireCodec s.unread) :
    ∃ e, e ≠ .shutdown ∧
      turn s = { s with stream := ⟨[], some kind⟩, fut := .start, ended := some e } := by
  have hpoll : poll wireCodec s.fut s.stream = .ready (.error (.io kind)) ⟨[], some kind⟩ := by
    rw [poll_eq_start hw, ho]
    exact poll_short_ended hu kind
  have hturn : turn s = notified { s with stream := ⟨[], some kind⟩, fut := .start }
      (readNotification (.error (.io kind))) := by
    unfold turn
    rw [if_neg (by simp [hs]), hpoll]
  cases kind with
  | unexpectedEof => exact ⟨.eof, by simp, hturn⟩
  | connectionReset => exact ⟨.failed (.reading (.io .connectionReset)), by simp, hturn⟩
  | other => exact ⟨.failed (.reading (.io .other)), by simp, hturn⟩

/-! ### What a session keeps -/

lemma complete_mono : ∀ (ns : List Notification) {j k : ℕ}, j ≤ k → complete ns j <+: complete ns k
  | [], _, _, _ => List.prefix_refl _
  | n :: ns, j, k, h => by
    rw [complete, complete]
    by_cases hj : (frame wireCodec (.notification n)).length ≤ j
    · rw [if_pos hj, if_pos (hj.trans h), List.cons_prefix_cons]
      exact ⟨rfl, complete_mono ns (Nat.sub_le_sub_right h _)⟩
    · rw [if_neg hj]
      exact List.nil_prefix

/-- What is left of the stream, and of what has arrived. -/
lemma Holds.rest (h : Holds peers ns bs s acted) (he : s.ended = none) (hbs : bs <+: wire ns) :
    ∃ rest, ns = acted ++ rest ∧ s.unread <+: wire rest ∧
      complete ns bs.length = acted ++ complete rest s.unread.length := by
  obtain ⟨rest, rfl⟩ := h.acts.trans (complete_isPrefix ns _)
  have hb := h.bytes he
  refine ⟨rest, rfl, ?_, ?_⟩
  · rwa [hb, wire_append, List.prefix_append_right_inj] at hbs
  · rw [hb, List.length_append, complete_append]

lemma holds_start (peers : List String) (ns : List Notification) :
    Holds peers ns [] (start peers) [] where
  calls := by simp [start]
  waiting := ReadMessage.waiting_start
  acts := List.nil_prefix
  bytes _ := rfl
  ends e h := nomatch h

/-- **One turn** of a session that has acted rightly. -/
theorem holds_turn (hfit : ∀ n ∈ ns, Fits wireCodec (.notification n)) (hbs : bs <+: wire ns)
    (h : Holds peers ns bs s acted) (he : s.ended = none) (hw : Whole s .wake) :
    ∃ acted', Holds peers ns bs (turn s) acted' := by
  obtain ⟨rest, hrest, hpre, hcomplete⟩ := h.rest he hbs
  have hcalls := h.calls
  rw [he, if_neg (by simp), List.append_nil] at hcalls
  cases hs : s.shutdown with
  | true =>
    have hturn : turn s = { s with calls := s.calls ++ [.clear], ended := some .shutdown } := by
      unfold turn; rw [if_pos hs]
    rw [hturn]
    refine ⟨acted, ?_, h.waiting, h.acts, fun h' => ?_, fun e h' => ?_⟩
    · simp [hcalls]
    · cases h'
    · exact Or.inl ⟨(Option.some.inj h').symm, hs⟩
  | false =>
    have hfit' : ∀ n ∈ rest, Fits wireCodec (.notification n) := fun n hn =>
      hfit n (hrest ▸ List.mem_append_right _ hn)
    rcases prefix_wire_cases hfit' hpre with ⟨n, rest', u, rfl, hu⟩ | ⟨hshort, hnone⟩
    · -- the next frame is there: it is acted on
      have hn := hfit' n List.mem_cons_self
      rw [turn_frame hs h.waiting hn hu]
      refine ⟨acted ++ [n], ?_, ReadMessage.waiting_start, ?_, fun _ => ?_, fun e h' => ?_⟩
      · simp [he, hcalls]
      · rw [hcomplete, hu, List.prefix_append_right_inj, complete, if_pos (by simp),
          List.cons_prefix_cons]
        exact ⟨rfl, List.nil_prefix⟩
      · rw [h.bytes he, hu, wire_append]
        simp [wire, unread, ReadMessage.start, ReadMessage.bytes]
      · exact absurd (he.symm.trans h') (by simp)
    · have hall : acted = complete ns bs.length := by rw [hcomplete, hnone, List.append_nil]
      cases ho : s.stream.ending with
      | none =>
        obtain ⟨fut, hb, hwf, hturn⟩ := turn_short hs h.waiting ho hshort
        rw [hturn]
        cases ha : s.accepted with
        | nil =>
          refine ⟨acted, h.calls, hwf, h.acts, fun _ => ?_, fun e h' => ?_⟩
          · rw [h.bytes he]
            simp [unread, hb]
          · exact absurd (he.symm.trans h') (by simp)
        | cons peer accepted =>
          -- a client wins: nothing of a frame may have been consumed
          have hnil : s.unread = [] := by
            by_contra hne
            exact hw rfl hs ho (by simp [ha]) (hshort.midFrame hne)
          refine ⟨acted, h.calls, ReadMessage.waiting_start, h.acts, fun _ => ?_, fun e h' => ?_⟩
          · rw [h.bytes he, hnil]
            rfl
          · exact absurd (he.symm.trans h') (by simp)
      | some kind =>
        obtain ⟨e, hne, hturn⟩ := turn_short_ended hs h.waiting ho hshort
        rw [hturn]
        refine ⟨acted, ?_, ReadMessage.waiting_start, h.acts, fun h' => ?_, fun e h' => ?_⟩
        · simp [hcalls, hne]
        · cases h'
        · exact Or.inr ⟨⟨kind, rfl⟩, hall⟩

/-- **One event** of a session that has acted rightly. -/
theorem holds_step (hfit : ∀ n ∈ ns, Fits wireCodec (.notification n)) {es : List Event} {e : Event}
    (hbs : arrived (es ++ [e]) <+: wire ns) (h : Holds peers ns (arrived es) s acted)
    (hw : Whole s e) {s' : Session} (hstep : step s e = some s') :
    ∃ acted', Holds peers ns (arrived (es ++ [e])) s' acted' := by
  have hsame : arrived (es ++ [e]) = arrived es ++ arrived [e] := by
    unfold arrived; rw [List.flatMap_append]
  cases e with
  | arrive b =>
    have hadd : arrived (es ++ [.arrive b]) = arrived es ++ b := by rw [hsame]; simp [arrived]
    by_cases ho : s.stream.ending = none
    · simp only [step, if_pos ho, Option.some.injEq] at hstep
      subst hstep
      rw [hadd]
      have hmono : complete ns (arrived es).length <+: complete ns (arrived es ++ b).length :=
        complete_mono ns (by simp)
      refine ⟨acted, h.calls, h.waiting, h.acts.trans hmono, fun he => ?_, fun e he => ?_⟩
      · rw [h.bytes he]
        simp [unread]
      · rcases h.ends e he with hsh | ⟨⟨kind, hk⟩, -⟩
        · exact Or.inl hsh
        · rw [ho] at hk
          cases hk
    · simp only [step, if_neg ho] at hstep
      cases hstep
  | close kind =>
    by_cases ho : s.stream.ending = none
    · simp only [step, if_pos ho, Option.some.injEq] at hstep
      subst hstep
      have hadd : arrived (es ++ [.close kind]) = arrived es := by rw [hsame]; simp [arrived]
      rw [hadd]
      refine ⟨acted, h.calls, h.waiting, h.acts, h.bytes, fun e he => ?_⟩
      exact (h.ends e he).imp_right fun hk => ⟨⟨kind, rfl⟩, hk.2⟩
    · simp only [step, if_neg ho] at hstep
      cases hstep
  | accept peer =>
    obtain rfl := Option.some.inj hstep
    have hadd : arrived (es ++ [.accept peer]) = arrived es := by rw [hsame]; simp [arrived]
    rw [hadd]
    exact ⟨acted, h.calls, h.waiting, h.acts, h.bytes, h.ends⟩
  | cancel =>
    obtain rfl := Option.some.inj hstep
    have hadd : arrived (es ++ [.cancel]) = arrived es := by rw [hsame]; simp [arrived]
    rw [hadd]
    refine ⟨acted, h.calls, h.waiting, h.acts, h.bytes, fun e he => ?_⟩
    exact (h.ends e he).imp_left fun hs => ⟨hs.1, rfl⟩
  | wake =>
    have hadd : arrived (es ++ [.wake]) = arrived es := by rw [hsame]; simp [arrived]
    rw [hadd] at hbs ⊢
    by_cases he : s.ended = none
    · simp only [step, if_pos he, Option.some.injEq] at hstep
      subst hstep
      exact holds_turn hfit hbs h he hw
    · simp only [step, if_neg he] at hstep
      cases hstep

/-- What has arrived and was not acted on is acted on next. -/
lemma Holds.faithful (hfit : ∀ n ∈ ns, Fits wireCodec (.notification n)) (hbs : bs <+: wire ns)
    (h : Holds peers ns bs s acted) : Faithful peers ns bs.length s acted := by
  refine ⟨h.calls, h.acts, fun he hs n hn => ?_, h.ends⟩
  obtain ⟨rest, rfl, hpre, hcomplete⟩ := h.rest he hbs
  have hfit' : ∀ n ∈ rest, Fits wireCodec (.notification n) := fun n hn =>
    hfit n (List.mem_append_right _ hn)
  rw [hcomplete, List.prefix_append_right_inj] at hn
  rcases prefix_wire_cases hfit' hpre with ⟨n', rest', u, rfl, hu⟩ | ⟨-, hnone⟩
  · have hnn : n = n' := (List.cons_prefix_cons.mp (hn.trans (complete_isPrefix _ _))).1
    subst hnn
    have hturn := turn_frame hs h.waiting (hfit' n List.mem_cons_self) hu
    refine ⟨turn s, ?_, ?_, ?_⟩
    · simp only [step, if_pos he]
    · rw [hturn]
    · rw [hturn]
      exact he
  · rw [hnone] at hn
    exact absurd (List.prefix_nil.mp hn) (by simp)

end Turn

/-- **Every session is faithful** in which no client is served while a frame has arrived in part:
in every interleaving of arrivals, clients and polls it acts on the notifications that were written,
in order, until the stream ends. -/
theorem faithful_of_run {peers : List String} {ns : List Notification} {es : List Event} {s : Session}
    (harr : arrived es <+: wire (written ns)) (hrun : exec step (start peers) es = some s)
    (hwhole : Meets step Whole (start peers) es) :
    ∃ acted, Faithful peers (written ns) (arrived es).length s acted := by
  have hfit : ∀ n ∈ written ns, Fits wireCodec (.notification n) := fun n => fits_of_mem_written
  have hall := exec_hist_of_meets (C := Whole) (H := fun es s => arrived es <+: wire (written ns) →
      ∃ acted, Holds peers (written ns) (arrived es) s acted) ?_
    (fun _ => ⟨[], holds_start peers (written ns)⟩) hwhole hrun harr
  · obtain ⟨acted, h⟩ := hall
    exact ⟨acted, h.faithful hfit harr⟩
  · intro as s a s' hI hw hstep hpre
    have hpre' : arrived as <+: wire (written ns) := by
      refine List.IsPrefix.trans ?_ hpre
      unfold arrived
      rw [List.flatMap_append]
      exact List.prefix_append _ _
    obtain ⟨acted, h⟩ := hI hpre'
    exact holds_step hfit hpre h hw hstep

/-! ### A frame in two pieces -/

/-- The frame of `PeerJoined "b"` arrives as `write_message` sends it, the length and then the
payload. -/
def splitRun (between : List Event) : List Event :=
  [.arrive [0, 0, 0, 4]] ++ between ++ [.arrive [1, 0, 1, 98], .wake]

/-- A client that connects before the first byte, and a frame in two pieces with a poll between. -/
theorem faithful_of_run_split : ∃ s, exec step (start []) ([.accept "b", .wake] ++ splitRun [.wake]) =
    some s ∧ s.calls = [.add "b"] ∧ ∃ acted, Faithful [] (written [.peerJoined "b"])
      (arrived ([.accept "b", .wake] ++ splitRun [.wake])).length s acted := by
  refine ⟨⟨⟨[], none⟩, .start, [], false, [.add "b"], ["b"], none⟩, by decide, rfl, ?_⟩
  exact faithful_of_run (by decide) (by decide) (by decide)

/-- **A client between the two pieces** of a frame: the length is lost with the read that had
consumed it, the payload is taken for a length, and the session ends. -/
theorem frame_lost_between : arrived (splitRun [.accept "b", .wake]) = wire (written [.peerJoined "b"]) ∧
    ∃ s, exec step (start []) (splitRun [.accept "b", .wake]) = some s ∧ s.calls = [] ∧
      s.shutdown = false ∧ s.stream.ending = none ∧
      s.ended = some (.failed (.reading (.frameTooLarge 16777570 maxFrameSize))) ∧
      ¬ ∃ acted, Faithful [] (written [.peerJoined "b"])
        (arrived (splitRun [.accept "b", .wake])).length s acted := by
  refine ⟨by decide, ⟨⟨[], none⟩, .start, [], false, [], ["b"],
    some (.failed (.reading (.frameTooLarge 16777570 maxFrameSize)))⟩, by decide, rfl, rfl, rfl, rfl, ?_⟩
  rintro ⟨acted, h⟩
  rcases h.ends _ rfl with ⟨hsh, -⟩ | ⟨⟨kind, hk⟩, -⟩
  · cases hsh
  · cases hk

end Session

end Crossbridge.Server
