import Crossbridge.Lib.Runs
import Crossbridge.Protocol.Frames
import Crossbridge.Server.Handler

/-!
A request and its response over a socket: `round_trip` of the client and `handle_connection` of the
server.

Both sides are the machines of the framing: what they write goes down the socket in parts, arrives in
others, and each side waits, reads on, fails or is killed at any point. Before a request is handled, and
after it, other processes change the repo of the server. While it is handled none does, nor is the
server killed: to handle a request is one step here, as it is not in the server, which opens the database
and writes to it several times (`Bridge.Local.step` has its writes one by one). A side sees the end of a
stream only after the other side has closed it.

The invariant (`Linked`) follows the bytes of the request and of the response. However the steps fall,
the server handles the request of the client at most once, when all bytes of it were written, as one
step among the changes of the repo, and nothing but it; and a response that the client returns is that
of this one step (`atMostOnce`).
-/

namespace Crossbridge.Bridge

open Crossbridge.Varint Crossbridge.Protocol Crossbridge.Protocol.Streams Crossbridge.Crosslink
  Crossbridge.Server Crossbridge.Runs

/-- How `round_trip` fails. -/
inductive RoundTripError where
  | connect (e : String)
  | send (e : Error)
  | receive (e : Error)
  deriving DecidableEq

/-- The text that the client prints. -/
def RoundTripError.display (t : ErrorTexts) (peerLabel : String) : RoundTripError → String
  | .connect e => "cannot reach peer '" ++ peerLabel ++ "': " ++ e
  | .send e => "failed to send request to peer '" ++ peerLabel ++ "': " ++ e.display t
  | .receive e => "failed to read response from peer '" ++ peerLabel ++ "': " ++ e.display t

/-- Where `round_trip` is. -/
inductive Caller where
  | connecting
  | writing (fut : WriteMessage)
  | reading (fut : ReadMessage)
  | returned (r : Except RoundTripError ServerResponse)
  | killed

/-- Where `handle_connection` is; the response to a malformed request is written as well. -/
inductive Callee where
  | reading (fut : ReadMessage)
  | writing (fut : WriteMessage) (malformed : Bool)
  | returned (r : Except String Unit)
  | killed

/-- The socket is closed on this side. -/
def Caller.Done : Caller → Prop
  | .returned _ | .killed => True
  | .connecting | .writing _ | .reading _ => False

def Callee.Done : Callee → Prop
  | .returned _ | .killed => True
  | .reading _ | .writing _ _ => False

/-- The bytes that the client has taken off the socket and waits with. -/
def Caller.got : Caller → Bytes
  | .reading fut => fut.bytes
  | .connecting | .writing _ | .returned _ | .killed => []

instance : DecidablePred Caller.Done := fun c => by cases c <;> unfold Caller.Done <;> infer_instance

instance : DecidablePred Callee.Done := fun c => by cases c <;> unfold Callee.Done <;> infer_instance

/-- A request under way: the two sides, for each direction the bytes that are written and have not
arrived and those that have, and the repo of the server with what has become of it. -/
structure Rpc where
  caller : Caller
  callee : Callee
  up : Bytes
  upSrc : Source
  down : Bytes
  downSrc : Source
  repo : Repo
  /-- The requests that were handled, each with the repo it found. -/
  handled : List (ClientRequest × Repo)
  /-- The changes that others made. -/
  others : List (Repo → Repo)
  /-- All that the client has written. -/
  wrote : Bytes

namespace Rpc

def init (repo : Repo) : Rpc :=
  ⟨.connecting, .reading .start, [], ⟨[], none⟩, [], ⟨[], none⟩, repo, [], [], []⟩

inductive Action where
  | connect (r : Except String Unit)
  | callerWrite (calls : List WriteCall)
  | callerRead
  | calleeRead
  | calleeWrite (calls : List WriteCall)
  /-- The next bytes arrive, at the server and at the client. -/
  | upArrive (n : ℕ)
  | downArrive (n : ℕ)
  /-- The other side has closed the socket; what has not arrived is lost. -/
  | upEnd (kind : IoErrorKind)
  | downEnd (kind : IoErrorKind)
  | killCaller
  | killCallee
  /-- Another process changes the repo. -/
  | other (g : Repo → Repo)

variable (t : ErrorTexts) (cl : Choices) (faults : Faults) (mat : Materialize) (peer : String)
  (request : ClientRequest)

/-- The response to `request` of a server that finds `repo`. -/
def response (repo : Repo) : ServerResponse := (dispatch cl faults mat peer repo request).1

/-- The repo it leaves. -/
def result (repo : Repo) : Repo := (dispatch cl faults mat peer repo request).2

/-- The server begins to write a response. -/
def respondWith (malformed : Bool) (r : ServerResponse) : Callee :=
  match encode Postcard.serverResponse r with
  | .error e =>
    .returned (if malformed then .ok () else .error ("writing response frame: " ++ e.display t))
  | .ok payload => .writing (.header (toBeBytes payload.length) payload) malformed

/-- The server after a poll of its read. -/
def readRequest (s : Rpc) (fut : ReadMessage) : Rpc :=
  match poll Postcard.clientRequest fut s.upSrc with
  | .pending fut src => { s with callee := .reading fut, upSrc := src }
  | .ready (.error e) src =>
    { s with
      callee := respondWith t true (.error ("malformed request: " ++ e.display t))
      upSrc := src }
  | .ready (.ok req) src =>
    { s with
      callee := respondWith t false (response cl faults mat peer req s.repo)
      upSrc := src
      repo := result cl faults mat peer req s.repo
      handled := s.handled ++ [(req, s.repo)] }

def step (s : Rpc) : Action → Option Rpc
  | .connect r =>
    match s.caller, r with
    | .connecting, .error e => some { s with caller := .returned (.error (.connect e)) }
    | .connecting, .ok () =>
      match encode Postcard.clientRequest request with
      | .error e => some { s with caller := .returned (.error (.send e)) }
      | .ok payload =>
        some { s with caller := .writing (.header (toBeBytes payload.length) payload) }
    | _, _ => none
  | .callerWrite calls =>
    match s.caller with
    | .writing fut =>
      match pollWrite [] calls fut with
      | .pending fut out =>
        some { s with caller := .writing fut, up := s.up ++ out, wrote := s.wrote ++ out }
      | .ready (.error e) out =>
        some { s with
          caller := .returned (.error (.send e))
          up := s.up ++ out
          wrote := s.wrote ++ out }
      | .ready (.ok ()) out =>
        some { s with caller := .reading .start, up := s.up ++ out, wrote := s.wrote ++ out }
    | _ => none
  | .callerRead =>
    match s.caller with
    | .reading fut =>
      match poll Postcard.serverResponse fut s.downSrc with
      | .pending fut src => some { s with caller := .reading fut, downSrc := src }
      | .ready (.error e) src =>
        some { s with caller := .returned (.error (.receive e)), downSrc := src }
      | .ready (.ok r) src => some { s with caller := .returned (.ok r), downSrc := src }
    | _ => none
  | .calleeRead =>
    match s.callee with
    | .reading fut => some (readRequest t cl faults mat peer s fut)
    | _ => none
  | .calleeWrite calls =>
    match s.callee with
    | .writing fut malformed =>
      match pollWrite [] calls fut with
      | .pending fut out => some { s with callee := .writing fut malformed, down := s.down ++ out }
      | .ready (.error e) out =>
        some { s with
          callee := .returned
            (if malformed then .ok () else .error ("writing response frame: " ++ e.display t))
          down := s.down ++ out }
      | .ready (.ok ()) out => some { s with callee := .returned (.ok ()), down := s.down ++ out }
    | _ => none
  | .upArrive n =>
    if s.upSrc.ending = none then
      some { s with up := s.up.drop n, upSrc := ⟨s.upSrc.buf ++ s.up.take n, none⟩ } else none
  | .downArrive n =>
    if s.downSrc.ending = none then
      some { s with down := s.down.drop n, downSrc := ⟨s.downSrc.buf ++ s.down.take n, none⟩ } else none
  | .upEnd kind =>
    if s.upSrc.ending = none ∧ s.caller.Done then
      some { s with upSrc := ⟨s.upSrc.buf, some kind⟩ } else none
  | .downEnd kind =>
    if s.downSrc.ending = none ∧ s.callee.Done then
      some { s with downSrc := ⟨s.downSrc.buf, some kind⟩ } else none
  | .killCaller => if s.caller.Done then none else some { s with caller := .killed }
  | .killCallee => if s.callee.Done then none else some { s with callee := .killed }
  | .other g => some { s with repo := g s.repo, others := s.others ++ [g] }

/-! ### The invariant -/

/-- The bytes of the request: a request that is too large is not sent. -/
def requestBytes : Bytes :=
  if Fits Postcard.clientRequest request then frame Postcard.clientRequest request else []

/-- Changes made one after the other. -/
def apply (gs : List (Repo → Repo)) (repo : Repo) : Repo := gs.foldl (fun r g => g r) repo

/-- What the client has written so far, and what it has still to write. -/
def Sent (bs : Bytes) : Caller → Prop
  | .connecting => bs = []
  | .writing fut => bs ++ fut.rest = requestBytes request
  | .reading _ | .returned _ | .killed => bs <+: requestBytes request

/-- The request was handled as one step among the changes of the repo, or not at all. -/
def Handled (repo₀ : Repo) (s : Rpc) : Prop :=
  (s.handled = [] ∧ s.repo = apply s.others repo₀) ∨
  ∃ earlier later, s.others = earlier ++ later ∧ s.handled = [(request, apply earlier repo₀)] ∧
    s.repo = apply later (result cl faults mat peer request (apply earlier repo₀)) ∧
    Fits Postcard.clientRequest request

/-- What the server has written so far, and what it has still to write. -/
def Answered (s : Rpc) (bs : Bytes) : Callee → Prop
  | .reading _ => bs = []
  | .writing fut _ => ∃ repo, s.handled = [(request, repo)] ∧
      Fits Postcard.serverResponse (response cl faults mat peer request repo) ∧
      bs ++ fut.rest = frame Postcard.serverResponse (response cl faults mat peer request repo)
  | .returned _ | .killed => bs = [] ∨ ∃ repo, s.handled = [(request, repo)] ∧
      Fits Postcard.serverResponse (response cl faults mat peer request repo) ∧
      bs <+: frame Postcard.serverResponse (response cl faults mat peer request repo)

/-- The bytes of the request and of the response are where they belong. -/
structure Linked (repo₀ : Repo) (s : Rpc) : Prop where
  up : ∀ fut, s.callee = .reading fut →
    fut.Waiting ∧ s.handled = [] ∧ fut.bytes ++ s.upSrc.buf ++ s.up = s.wrote
  sent : Sent request s.wrote s.caller
  whole : s.handled ≠ [] → s.wrote = requestBytes request
  upEnd : s.upSrc.ending ≠ none → s.caller.Done
  handled : Handled cl faults mat peer request repo₀ s
  waiting : ∀ fut, s.caller = .reading fut → fut.Waiting
  down : ¬ s.caller.Done →
    Answered cl faults mat peer request s (s.caller.got ++ s.downSrc.buf ++ s.down) s.callee
  returned : ∀ r, s.caller = .returned (.ok r) →
    ∃ repo, s.handled = [(request, repo)] ∧ r = response cl faults mat peer request repo

section Bytes

variable {request} {bs more : Bytes}

lemma requestBytes_of_fits (h : Fits Postcard.clientRequest request) :
    requestBytes request = frame Postcard.clientRequest request := if_pos h

lemma Sent.isPrefix {c : Caller} (h : Sent request bs c) : bs <+: requestBytes request := by
  cases c with
  | connecting =>
    obtain rfl : bs = [] := h
    exact List.nil_prefix
  | writing fut => exact ⟨fut.rest, h⟩
  | reading fut | returned r | killed => exact h

/-- What is read from the bytes of a request is this request, from all of them. -/
lemma eq_of_first_request (hp : bs <+: requestBytes request) {req : ClientRequest}
    (h : first Postcard.clientRequest bs = some req) :
    req = request ∧ Fits Postcard.clientRequest request ∧ bs = requestBytes request := by
  unfold requestBytes at hp ⊢
  split at hp
  · rename_i hfit
    refine ⟨eq_of_first hfit hp h, hfit, ?_⟩
    rw [if_pos hfit]
    by_contra hne
    have hlt : bs.length < (frame Postcard.clientRequest request).length :=
      lt_of_le_of_ne hp.length_le fun hlen => hne (hp.eq_of_length hlen)
    rw [first_short (Or.inr ⟨request, hfit, hp, hlt⟩)] at h
    cases h
  · obtain rfl := List.prefix_nil.mp hp
    cases h

/-- When all is written, no more is. -/
lemma eq_of_whole (h : bs = requestBytes request) (hp : bs ++ more <+: requestBytes request) :
    bs ++ more = requestBytes request := by
  refine hp.eq_of_length_le ?_
  rw [← h, List.length_append]
  exact Nat.le_add_right _ _

/-- A read of the request fails only at the end of the stream. -/
lemma ended_of_malformed {fut : ReadMessage} (hw : fut.Waiting) {src src' : Source} {e : Error}
    (hp : fut.bytes ++ src.buf <+: requestBytes request)
    (hpoll : poll Postcard.clientRequest fut src = .ready (.error e) src') : src.ending ≠ none := by
  intro hopen
  unfold requestBytes at hp
  split at hp
  · rename_i hfit
    exact poll_ne_error_of_prefix hfit hw hopen hp e hpoll
  · have hshort : Short Postcard.clientRequest [] := Or.inl rfl
    obtain ⟨fut', hpending, -⟩ := poll_short hshort
    rw [poll_eq_start hw, hopen, List.prefix_nil.mp hp, hpending] at hpoll
    cases hpoll

end Bytes

section Steps

variable {t cl faults mat peer request} {repo₀ : Repo} {s s' : Rpc}

lemma linked_init : Linked cl faults mat peer request repo₀ (init repo₀) where
  up fut h := by
    obtain rfl : ReadMessage.start = fut := Callee.reading.inj h
    exact ⟨ReadMessage.waiting_start, rfl, rfl⟩
  sent := rfl
  whole h := absurd rfl h
  upEnd h := absurd rfl h
  handled := Or.inl ⟨rfl, rfl⟩
  waiting fut h := by cases h
  down _ := rfl
  returned r h := by cases h

/-- What the server has of the request, and what is on the way to it. -/
lemma Linked.sentUp (h : Linked cl faults mat peer request repo₀ s) {fut : ReadMessage}
    (hfut : s.callee = .reading fut) :
    Sent request (fut.bytes ++ s.upSrc.buf ++ s.up) s.caller := by
  rw [(h.up fut hfut).2.2]
  exact h.sent

/-- What the client writes is on the way to the server. -/
lemma Linked.upWrite (h : Linked cl faults mat peer request repo₀ s) (out : Bytes) {fut : ReadMessage}
    (hfut : s.callee = .reading fut) : fut.Waiting ∧ s.handled = [] ∧
      fut.bytes ++ s.upSrc.buf ++ (s.up ++ out) = s.wrote ++ out := by
  obtain ⟨hw, hnone, hbytes⟩ := h.up fut hfut
  exact ⟨hw, hnone, by rw [← hbytes, List.append_assoc _ s.up]⟩

/-- A client that stops without a response, having written on or not. -/
lemma Linked.stop (h : Linked cl faults mat peer request repo₀ s) {c : Caller} {out : Bytes} {d : Source}
    (hdone : c.Done) (hret : ∀ r, c ≠ .returned (.ok r))
    (hp : s.wrote ++ out <+: requestBytes request) : Linked cl faults mat peer request repo₀
      { s with caller := c, up := s.up ++ out, wrote := s.wrote ++ out, downSrc := d } where
  up _ hfut := h.upWrite out hfut
  sent := by
    cases c with
    | connecting | writing | reading => exact absurd hdone id
    | returned | killed => exact hp
  whole hne := eq_of_whole (h.whole hne) hp
  upEnd _ := hdone
  handled := h.handled
  waiting fut heq := by
    rw [show c = .reading fut from heq] at hdone
    exact absurd hdone id
  down hnot := absurd hdone hnot
  returned r heq := absurd heq (hret r)

/-- A client that stops without a word. -/
lemma Linked.quit (h : Linked cl faults mat peer request repo₀ s) {c : Caller} {d : Source}
    (hdone : c.Done) (hret : ∀ r, c ≠ .returned (.ok r)) :
    Linked cl faults mat peer request repo₀ { s with caller := c, downSrc := d } := by
  have hp : s.wrote ++ [] <+: requestBytes request := by
    rw [List.append_nil]
    exact h.sent.isPrefix
  have hstop := h.stop (d := d) hdone hret hp
  rwa [List.append_nil, List.append_nil] at hstop

lemma linked_connect {r : Except String Unit} (h : Linked cl faults mat peer request repo₀ s)
    (hstep : step t cl faults mat peer request s (.connect r) = some s') :
    Linked cl faults mat peer request repo₀ s' := by
  unfold step at hstep
  simp only at hstep
  split at hstep
  · obtain rfl := Option.some.inj hstep
    exact h.quit (c := .returned _) trivial (fun r heq => by cases heq)
  · rename_i hcaller
    by_cases hfit : Fits Postcard.clientRequest request
    · rw [encode_of_fits hfit] at hstep
      obtain rfl := Option.some.inj hstep
      refine ⟨h.up, ?_, h.whole, fun hend => ?_, h.handled, fun fut heq => ?_, fun _ => ?_,
        fun r heq => ?_⟩
      · have hsent := h.sent
        rw [hcaller] at hsent
        show s.wrote ++ _ = requestBytes request
        rw [show s.wrote = [] from hsent, requestBytes_of_fits hfit]
        rfl
      · have hdone := h.upEnd hend
        rw [hcaller] at hdone
        exact absurd hdone id
      · cases heq
      · have hdown := h.down (by rw [hcaller]; exact id)
        rw [hcaller] at hdown
        exact hdown
      · cases heq
    · rw [encode_of_not_fits hfit] at hstep
      obtain rfl := Option.some.inj hstep
      exact h.quit (c := .returned _) trivial (fun r heq => by cases heq)
  · cases hstep

lemma linked_callerWrite {calls : List WriteCall} (h : Linked cl faults mat peer request repo₀ s)
    (hstep : step t cl faults mat peer request s (.callerWrite calls) = some s') :
    Linked cl faults mat peer request repo₀ s' := by
  rw [step] at hstep
  split at hstep
  · rename_i w hcaller
    -- what there is to write continues what was written
    have hsent : s.wrote ++ w.rest = requestBytes request := by
      have hsent := h.sent
      rwa [hcaller] at hsent
    have hopen : s.upSrc.ending = none := by
      by_contra hend
      have hdone := h.upEnd hend
      rw [hcaller] at hdone
      exact hdone
    have hdown := h.down (by rw [hcaller]; exact id)
    rw [hcaller] at hdown
    rcases pollWrite_cases calls [] w with ⟨r, out, heq, hwritten⟩ | ⟨w', p, hp, heq⟩
    · rcases hwritten with hr | ⟨-, kind, p, hp, hr⟩
      · obtain ⟨rfl, rfl⟩ := Prod.ext_iff.mp hr
        rw [heq] at hstep
        obtain rfl := Option.some.inj hstep
        have hall : s.wrote ++ ([] ++ w.rest) <+: requestBytes request := by
          rw [List.nil_append, hsent]
        refine ⟨fun _ hfut => h.upWrite _ hfut, hall, fun hne => eq_of_whole (h.whole hne) hall,
          fun hend => absurd hopen hend, h.handled, fun fut heq => ?_, fun _ => hdown, fun r heq => ?_⟩
        · obtain rfl : ReadMessage.start = fut := Caller.reading.inj heq
          exact ReadMessage.waiting_start
        · cases heq
      · obtain ⟨rfl, hout⟩ : r = .error (.io kind) ∧ out = p := Prod.ext_iff.mp hr
        rw [heq] at hstep
        obtain rfl := Option.some.inj hstep
        refine h.stop (c := .returned _) trivial (fun r heq => by cases heq) ?_
        rw [hout, ← hsent]
        exact (List.prefix_append_right_inj _).mpr hp
    · rw [heq] at hstep
      obtain rfl := Option.some.inj hstep
      have hrest : s.wrote ++ ([] ++ p) ++ w'.rest = requestBytes request := by
        rw [List.nil_append, ← hsent, hp, List.append_assoc]
      refine ⟨fun _ hfut => h.upWrite _ hfut, hrest,
        fun hne => eq_of_whole (h.whole hne) ⟨w'.rest, hrest⟩, fun hend => absurd hopen hend, h.handled,
        fun fut heq => ?_, fun _ => hdown, fun r heq => ?_⟩
      · cases heq
      · cases heq
  · cases hstep

/-- The response that the client reads is that of the one step. -/
lemma linked_callerRead (h : Linked cl faults mat peer request repo₀ s)
    (hstep : step t cl faults mat peer request s .callerRead = some s') :
    Linked cl faults mat peer request repo₀ s' := by
  rw [step] at hstep
  split at hstep
  · rename_i fut hcaller
    have hnot : ¬ s.caller.Done := by
      rw [hcaller]
      exact id
    have hdown := h.down hnot
    rw [hcaller] at hdown
    have hw := h.waiting fut hcaller
    have hopen : s.upSrc.ending = none := by
      by_contra hend
      exact hnot (h.upEnd hend)
    split at hstep
    · rename_i fut' src hpoll
      obtain rfl := Option.some.inj hstep
      obtain ⟨rfl, hw', hbytes⟩ := poll_pending_bytes hw hpoll
      have hsent := h.sent
      rw [hcaller] at hsent
      refine ⟨h.up, hsent, h.whole, fun hend => absurd hopen hend, h.handled, fun fut₁ heq => ?_,
        fun _ => ?_, fun r heq => ?_⟩
      · obtain rfl : fut' = fut₁ := Caller.reading.inj heq
        exact hw'
      · show Answered _ _ _ _ _ _ (fut'.bytes ++ [] ++ s.down) _
        rw [hbytes, List.append_nil]
        exact hdown
      · cases heq
    · obtain rfl := Option.some.inj hstep
      exact h.quit (c := .returned _) trivial (fun r heq => by cases heq)
    · rename_i r src hpoll
      obtain rfl := Option.some.inj hstep
      obtain ⟨-, ending, hr, -⟩ := poll_ready_outcome hw hpoll
      have hfirst := outcome_eq_ok.mp hr.symm
      have hread : ∃ repo, s.handled = [(request, repo)] ∧
          r = response cl faults mat peer request repo := by
        have hprefix : ∀ {resp : ServerResponse}, Fits Postcard.serverResponse resp →
            fut.bytes ++ s.downSrc.buf ++ s.down <+: frame Postcard.serverResponse resp → r = resp :=
          fun hfit hp => eq_of_first hfit ((List.prefix_append _ _).trans hp) hfirst
        have hne : fut.bytes ++ s.downSrc.buf ++ s.down ≠ [] := by
          intro hnil
          rw [(List.append_eq_nil_iff.mp hnil).1] at hfirst
          cases hfirst
        cases hcallee : s.callee with
        | reading fut₁ =>
          rw [hcallee] at hdown
          exact absurd hdown hne
        | writing w malformed =>
          rw [hcallee] at hdown
          obtain ⟨repo, hhandled, hfit, hbytes⟩ := hdown
          exact ⟨repo, hhandled, hprefix hfit ⟨w.rest, hbytes⟩⟩
        | returned res =>
          rw [hcallee] at hdown
          obtain ⟨repo, hhandled, hfit, hp⟩ := hdown.resolve_left hne
          exact ⟨repo, hhandled, hprefix hfit hp⟩
        | killed =>
          rw [hcallee] at hdown
          obtain ⟨repo, hhandled, hfit, hp⟩ := hdown.resolve_left hne
          exact ⟨repo, hhandled, hprefix hfit hp⟩
      refine ⟨h.up, h.sent.isPrefix, h.whole, fun _ => trivial, h.handled, fun fut₁ heq => (by cases heq),
        fun hnot' => absurd trivial hnot', fun r' heq => ?_⟩
      obtain rfl : r = r' := Except.ok.inj (Caller.returned.inj heq)
      exact hread
  · cases hstep

lemma respondWith_cases (malformed : Bool) (r : ServerResponse) :
    (Fits Postcard.serverResponse r ∧ ∃ fut, respondWith t malformed r = .writing fut malformed ∧
      fut.rest = frame Postcard.serverResponse r) ∨
    (¬ Fits Postcard.serverResponse r ∧ ∃ res, respondWith t malformed r = .returned res) := by
  unfold respondWith
  by_cases hfit : Fits Postcard.serverResponse r
  · rw [encode_of_fits hfit]
    exact Or.inl ⟨hfit, _, rfl, rfl⟩
  · rw [encode_of_not_fits hfit]
    exact Or.inr ⟨hfit, _, rfl⟩

lemma respondWith_ne_reading (malformed : Bool) (r : ServerResponse) (fut : ReadMessage) :
    respondWith t malformed r ≠ .reading fut := by
  intro heq
  rcases respondWith_cases (t := t) malformed r with ⟨-, w, hw, -⟩ | ⟨-, res, hw⟩
  · rw [hw] at heq
    cases heq
  · rw [hw] at heq
    cases heq

lemma apply_append (gs hs : List (Repo → Repo)) (repo : Repo) :
    apply (gs ++ hs) repo = apply hs (apply gs repo) := List.foldl_append ..

/-- **The server reads the request of the client**, or nothing it could act on. -/
lemma linked_calleeRead (h : Linked cl faults mat peer request repo₀ s)
    (hstep : step t cl faults mat peer request s .calleeRead = some s') :
    Linked cl faults mat peer request repo₀ s' := by
  rw [step] at hstep
  split at hstep
  · rename_i fut hcallee
    obtain rfl := Option.some.inj hstep
    obtain ⟨hw, hnone, hbytes⟩ := h.up fut hcallee
    have hwrote : fut.bytes ++ s.upSrc.buf <+: s.wrote := ⟨s.up, hbytes⟩
    have hp : fut.bytes ++ s.upSrc.buf <+: requestBytes request := hwrote.trans h.sent.isPrefix
    have hrepo : s.repo = apply s.others repo₀ := by
      rcases h.handled with ⟨-, hrepo⟩ | ⟨earlier, later, -, hsome, -⟩
      · exact hrepo
      · rw [hnone] at hsome
        cases hsome
    have hreturned : ∀ r, s.caller ≠ .returned (.ok r) := by
      intro r heq
      obtain ⟨repo, hsome, -⟩ := h.returned r heq
      rw [hnone] at hsome
      cases hsome
    have hdown : ¬ s.caller.Done → s.caller.got ++ s.downSrc.buf ++ s.down = [] := by
      intro hnot
      have hdown := h.down hnot
      rwa [hcallee] at hdown
    unfold readRequest
    split
    · rename_i fut' src hpoll
      obtain ⟨rfl, hw', hbytes'⟩ := poll_pending_bytes hw hpoll
      refine ⟨fun fut₁ hfut₁ => ?_, h.sent, h.whole, fun hend => ?_, h.handled, h.waiting, hdown,
        h.returned⟩
      · obtain rfl : fut' = fut₁ := Callee.reading.inj hfut₁
        refine ⟨hw', hnone, ?_⟩
        rw [List.append_nil, hbytes', hbytes]
      · exact absurd rfl hend
    · rename_i e src hpoll
      have hended := ended_of_malformed hw hp hpoll
      have hdone := h.upEnd hended
      exact ⟨fun fut₁ hfut₁ => absurd hfut₁ (respondWith_ne_reading true _ fut₁), h.sent, h.whole,
        fun _ => hdone, h.handled, h.waiting, fun hnot => absurd hdone hnot, h.returned⟩
    · rename_i req src hpoll
      obtain ⟨hend, ending, hr, -⟩ := poll_ready_outcome hw hpoll
      obtain ⟨rfl, hfit, hall⟩ := eq_of_first_request hp (outcome_eq_ok.mp hr.symm)
      refine ⟨fun fut₁ hfut₁ => absurd hfut₁ (respondWith_ne_reading false _ fut₁), h.sent, fun _ => ?_,
        fun hne => h.upEnd (by rwa [hend] at hne),
        Or.inr ⟨s.others, [], (List.append_nil _).symm, ?_, ?_, hfit⟩, h.waiting, fun hnot => ?_,
        fun r heq => absurd heq (hreturned r)⟩
      · -- what was read is the whole, so all of it was written
        obtain ⟨more, hmore⟩ := hwrote
        have hp' := h.sent.isPrefix
        rw [← hmore] at hp' ⊢
        exact eq_of_whole hall hp'
      · show s.handled ++ _ = _
        rw [hnone, ← hrepo]
        rfl
      · rw [← hrepo]
        rfl
      · have hone : s.handled ++ [(req, s.repo)] = [(req, s.repo)] := by rw [hnone, List.nil_append]
        show Answered _ _ _ _ _ _ (s.caller.got ++ s.downSrc.buf ++ s.down) (respondWith _ _ _)
        rw [hdown hnot]
        rcases respondWith_cases (t := t) false (response cl faults mat peer req s.repo) with
          ⟨hfit', w, heq, hrest⟩ | ⟨-, res, heq⟩
        · rw [heq]
          exact ⟨s.repo, hone, hfit', hrest⟩
        · rw [heq]
          exact Or.inl rfl
  · cases hstep

lemma linked_calleeWrite {calls : List WriteCall} (h : Linked cl faults mat peer request repo₀ s)
    (hstep : step t cl faults mat peer request s (.calleeWrite calls) = some s') :
    Linked cl faults mat peer request repo₀ s' := by
  rw [step] at hstep
  split at hstep
  · rename_i w malformed hcallee
    have hwriting : ¬ s.caller.Done → ∃ repo, s.handled = [(request, repo)] ∧
        Fits Postcard.serverResponse (response cl faults mat peer request repo) ∧
        s.caller.got ++ s.downSrc.buf ++ s.down ++ w.rest =
          frame Postcard.serverResponse (response cl faults mat peer request repo) := by
      intro hnot
      have hdown := h.down hnot
      rwa [hcallee] at hdown
    rcases pollWrite_cases calls [] w with ⟨r, out, heq, hwritten⟩ | ⟨w', p, hp, heq⟩
    · -- it is done, with all of the response or with a part of it
      obtain ⟨p, hout, hp⟩ : ∃ p, out = p ∧ p <+: w.rest := by
        rcases hwritten with hr | ⟨-, kind, p, hp, hr⟩
        · exact ⟨w.rest, congrArg Prod.snd hr, List.prefix_rfl⟩
        · exact ⟨p, congrArg Prod.snd hr, hp⟩
      have hlinked : ∀ res, Linked cl faults mat peer request repo₀
          { s with callee := .returned res, down := s.down ++ out } := by
        intro res
        refine ⟨fun fut hfut => (by cases hfut), h.sent, h.whole, h.upEnd, h.handled, h.waiting,
          fun hnot => ?_, h.returned⟩
        obtain ⟨repo, hhandled, hfit, hbytes⟩ := hwriting hnot
        refine Or.inr ⟨repo, hhandled, hfit, ?_⟩
        rw [hout, ← List.append_assoc, ← hbytes]
        exact (List.prefix_append_right_inj _).mpr hp
      rw [heq] at hstep
      cases r with
      | error e =>
        obtain rfl := Option.some.inj hstep
        exact hlinked _
      | ok u =>
        obtain rfl := Option.some.inj hstep
        exact hlinked _
    · rw [heq] at hstep
      obtain rfl := Option.some.inj hstep
      refine ⟨fun fut hfut => (by cases hfut), h.sent, h.whole, h.upEnd, h.handled, h.waiting,
        fun hnot => ?_, h.returned⟩
      obtain ⟨repo, hhandled, hfit, hbytes⟩ := hwriting hnot
      refine ⟨repo, hhandled, hfit, ?_⟩
      rw [← hbytes, hp]
      simp only [List.nil_append, List.append_assoc]
  · cases hstep

/-- Bytes that arrive are the next ones of those on the way. -/
lemma linked_arrive {up down : Bytes} {upSrc downSrc : Source}
    (h : Linked cl faults mat peer request repo₀ s)
    (hup : upSrc.buf ++ up = s.upSrc.buf ++ s.up) (hdown : downSrc.buf ++ down = s.downSrc.buf ++ s.down)
    (hend : upSrc.ending ≠ none → s.caller.Done) : Linked cl faults mat peer request repo₀
      { s with up := up, upSrc := upSrc, down := down, downSrc := downSrc } where
  up fut hfut := by
    obtain ⟨hw, hnone, hbytes⟩ := h.up fut hfut
    refine ⟨hw, hnone, ?_⟩
    rw [List.append_assoc, hup, ← List.append_assoc]
    exact hbytes
  sent := h.sent
  whole := h.whole
  upEnd := hend
  handled := h.handled
  waiting := h.waiting
  down hnot := by
    have := h.down hnot
    rw [List.append_assoc] at this ⊢
    rw [hdown]
    exact this
  returned := h.returned

/-- A server that is killed has written a part of its response, or nothing. -/
lemma linked_killCallee (h : Linked cl faults mat peer request repo₀ s) :
    Linked cl faults mat peer request repo₀ { s with callee := .killed } := by
  refine ⟨fun fut hfut => (by cases hfut), h.sent, h.whole, h.upEnd, h.handled, h.waiting,
    fun hnot => ?_, h.returned⟩
  have hdown := h.down hnot
  cases hcallee : s.callee with
  | reading fut =>
    rw [hcallee] at hdown
    exact Or.inl hdown
  | writing w malformed =>
    rw [hcallee] at hdown
    obtain ⟨repo, hhandled, hfit, hbytes⟩ := hdown
    exact Or.inr ⟨repo, hhandled, hfit, w.rest, hbytes⟩
  | returned res =>
    rw [hcallee] at hdown
    exact hdown
  | killed =>
    rw [hcallee] at hdown
    exact hdown

/-- What another process changes comes before the request, or after it. -/
lemma linked_other (h : Linked cl faults mat peer request repo₀ s) (g : Repo → Repo) :
    Linked cl faults mat peer request repo₀ { s with repo := g s.repo, others := s.others ++ [g] } := by
  refine ⟨h.up, h.sent, h.whole, h.upEnd, ?_, h.waiting, h.down, h.returned⟩
  rcases h.handled with ⟨hnone, hrepo⟩ | ⟨earlier, later, hothers, hone, hrepo, hfit⟩
  · refine Or.inl ⟨hnone, ?_⟩
    show g s.repo = apply (s.others ++ [g]) repo₀
    rw [apply_append, ← hrepo]
    rfl
  · refine Or.inr ⟨earlier, later ++ [g], ?_, hone, ?_, hfit⟩
    · rw [← List.append_assoc, ← hothers]
    · show g s.repo = _
      rw [apply_append, ← hrepo]
      rfl

/-- **One step** keeps the bytes where they belong. -/
theorem linked_step {x : Action} (h : Linked cl faults mat peer request repo₀ s)
    (hstep : step t cl faults mat peer request s x = some s') :
    Linked cl faults mat peer request repo₀ s' := by
  cases x with
  | connect r => exact linked_connect h hstep
  | callerWrite calls => exact linked_callerWrite h hstep
  | callerRead => exact linked_callerRead h hstep
  | calleeRead => exact linked_calleeRead h hstep
  | calleeWrite calls => exact linked_calleeWrite h hstep
  | upArrive n =>
    rw [step] at hstep
    split at hstep
    · obtain rfl := Option.some.inj hstep
      refine linked_arrive h ?_ rfl fun hend => absurd rfl hend
      rw [List.append_assoc, List.take_append_drop]
    · cases hstep
  | downArrive n =>
    rw [step] at hstep
    split at hstep
    · obtain rfl := Option.some.inj hstep
      refine linked_arrive h rfl ?_ h.upEnd
      rw [List.append_assoc, List.take_append_drop]
    · cases hstep
  | upEnd kind =>
    rw [step] at hstep
    split at hstep
    · rename_i hdone
      obtain rfl := Option.some.inj hstep
      exact linked_arrive h rfl rfl fun _ => hdone.2
    · cases hstep
  | downEnd kind =>
    rw [step] at hstep
    split at hstep
    · obtain rfl := Option.some.inj hstep
      exact linked_arrive h rfl rfl h.upEnd
    · cases hstep
  | killCaller =>
    rw [step] at hstep
    split at hstep
    · cases hstep
    · obtain rfl := Option.some.inj hstep
      exact h.quit (c := .killed) trivial (fun r heq => by cases heq)
  | killCallee =>
    rw [step] at hstep
    split at hstep
    · cases hstep
    · obtain rfl := Option.some.inj hstep
      exact linked_killCallee h
  | other g =>
    obtain rfl := Option.some.inj hstep
    exact linked_other h g

end Steps

/-! ### The exchange -/

section Exchange

variable {t cl faults mat peer request} {repo₀ : Repo} {s : Rpc}

/-- What may have become of a request. -/
structure AtMostOnce (cl : Choices) (faults : Faults) (mat : Materialize) (peer : String)
    (request : ClientRequest) (repo₀ : Repo) (s : Rpc) : Prop where
  /-- It was handled as one step among the changes that others made, or not at all. -/
  once : Handled cl faults mat peer request repo₀ s
  /-- Only after all its bytes were written. -/
  whole : s.handled ≠ [] → s.wrote = frame Postcard.clientRequest request
  /-- A response that the client returns is that of this step. -/
  answered : ∀ r, s.caller = .returned (.ok r) → ∃ repo, s.handled = [(request, repo)] ∧
    r = response cl faults mat peer request repo
  /-- A request that is too large is never handled, and its client returns no response. -/
  tooLarge : ¬ Fits Postcard.clientRequest request → s.handled = [] ∧
    ∀ r, s.caller ≠ .returned (.ok r)

/-- **A request is handled at most once, and its response is its own**, however the two sides, the
socket and the other processes take their steps. -/
theorem atMostOnce {as : List Action}
    (hrun : exec (step t cl faults mat peer request) (init repo₀) as = some s) :
    AtMostOnce cl faults mat peer request repo₀ s := by
  have h : Linked cl faults mat peer request repo₀ s :=
    exec_inv (fun _ _ _ h hstep => linked_step h hstep) linked_init hrun
  have hlarge : ¬ Fits Postcard.clientRequest request → s.handled = [] := by
    intro hfit
    rcases h.handled with ⟨hnone, -⟩ | ⟨-, -, -, -, -, hfit'⟩
    · exact hnone
    · exact absurd hfit' hfit
  have hwhole : s.handled ≠ [] → s.wrote = frame Postcard.clientRequest request := by
    intro hne
    have hfit : Fits Postcard.clientRequest request := by
      by_contra hfit
      exact hne (hlarge hfit)
    rw [h.whole hne, requestBytes_of_fits hfit]
  refine ⟨h.handled, hwhole, h.returned, fun hfit => ⟨hlarge hfit, fun r heq => ?_⟩⟩
  obtain ⟨repo, hone, -⟩ := h.returned r heq
  rw [hlarge hfit] at hone
  cases hone

/-- A submission that is sent in parts; another process changes the repo before it is handled. -/
def inParts : List Action :=
  [.connect (.ok ()), .callerWrite [.takes 2], .upArrive 2, .calleeRead, .callerWrite [.takes 0, .takes 99],
    .other (fun repo => ⟨repo.db.closeIssue 7, repo.materialized⟩), .upArrive 99, .calleeRead,
    .calleeWrite [.takes 99, .takes 99], .downArrive 99, .callerRead]

theorem atMostOnce_inParts : ∃ s,
    exec (step ⟨fun _ => "", fun _ => ""⟩ (sorted fun _ => "uuid-2") noFaults (fun _ => .error "") "repo-a"
      (.submit ⟨"Q", "B", [], "repo-a", "uuid-1", []⟩)) (init ⟨Db.empty, []⟩) inParts = some s ∧
    s.caller = .returned (.ok (.ok 1)) ∧
    AtMostOnce (sorted fun _ => "uuid-2") noFaults (fun _ => .error "") "repo-a"
      (.submit ⟨"Q", "B", [], "repo-a", "uuid-1", []⟩) ⟨Db.empty, []⟩ s := by
  have hrun : exec (step ⟨fun _ => "", fun _ => ""⟩ (sorted fun _ => "uuid-2") noFaults
      (fun _ => .error "") "repo-a" (.submit ⟨"Q", "B", [], "repo-a", "uuid-1", []⟩))
      (init ⟨Db.empty, []⟩) inParts = some _ := rfl
  exact ⟨_, hrun, rfl, atMostOnce hrun⟩

end Exchange

end Rpc

end Crossbridge.Bridge
