import Crossbridge.Bridge.Rpc

/-!
An exchange that nothing disturbs comes to its end.

Nothing disturbs it (`Faultless`) as long as the connection is made, the sockets take what is written and
lose nothing, and neither side is killed; how the bytes are split, when each side is polled and what other
processes do to the repo is open as before.

Each side may wait for the other, but they never do so together: a state in which none of their steps
changes anything is one in which both have returned, and then the request was handled once and the client
has the response (`Completed`). Every such step moves bytes on or ends a phase, so that an exchange
gets there (`completes_of_run`).
-/

namespace Crossbridge.Bridge

open Crossbridge.Varint Crossbridge.Protocol Crossbridge.Protocol.Streams Crossbridge.Crosslink
  Crossbridge.Server Crossbridge.Runs

/-- What the server has still to write. -/
def Callee.rest : Callee → Bytes
  | .writing fut _ => fut.rest
  | .reading _ | .returned _ | .killed => []

lemma Callee.rest_of_done {c : Callee} (h : c.Done) : c.rest = [] := by
  cases c with
  | reading fut | writing w malformed => exact absurd h id
  | returned res | killed => rfl

namespace Rpc

/-! ### Nothing disturbs the exchange -/

/-- The connection is made, the sockets take what is written and lose nothing, and nobody is killed. -/
def Faultless (s : Rpc) : Action → Prop
  | .connect r => r = .ok ()
  | .callerWrite calls | .calleeWrite calls => Steady calls
  | .upEnd kind => kind = .unexpectedEof ∧ s.up = []
  | .downEnd kind => kind = .unexpectedEof ∧ s.down = []
  | .killCaller | .killCallee => False
  | .callerRead | .calleeRead | .upArrive _ | .downArrive _ | .other _ => True

/-- A step of the exchange itself. -/
def Own (s : Rpc) (x : Action) : Prop :=
  match x with
  | .other _ => False
  | x => Faultless s x

/-- The exchange is over, and has had its effect once. -/
structure Completed (cl : Choices) (faults : Faults) (mat : Materialize) (peer : String)
    (request : ClientRequest) (s : Rpc) : Prop where
  caller : s.caller.Done
  callee : s.callee.Done
  /-- The request was handled once, and the client has the response, unless this is too large. -/
  once : Fits Postcard.clientRequest request → ∃ repo, s.handled = [(request, repo)] ∧
    s.caller = .returned
      (if Fits Postcard.serverResponse (response cl faults mat peer request repo) then
        .ok (response cl faults mat peer request repo)
      else .error (.receive (.io .unexpectedEof)))
  /-- A request that is too large is not handled, and the client says so. -/
  tooLarge : ¬ Fits Postcard.clientRequest request → s.handled = [] ∧
    s.caller = .returned (.error (.send
      (.frameTooLarge (Postcard.clientRequest.enc request).length maxFrameSize)))

/-! ### A request that is not too large -/

/-- The bytes of the response: one that is too large is not sent. -/
def responseBytes (r : ServerResponse) : Bytes :=
  if Fits Postcard.serverResponse r then frame Postcard.serverResponse r else []

/-- What the client makes of the response. -/
def outcome (r : ServerResponse) : Except RoundTripError ServerResponse :=
  if Fits Postcard.serverResponse r then .ok r else .error (.receive (.io .unexpectedEof))

section Flow

variable {t : ErrorTexts} {cl : Choices} {faults : Faults} {mat : Materialize} {peer : String}
  {request : ClientRequest} {repo₀ : Repo} {s s' : Rpc}

/-- No byte of the request or of the response is lost. -/
structure Flow (cl : Choices) (faults : Faults) (mat : Materialize) (peer : String)
    (request : ClientRequest) (s : Rpc) : Prop where
  upEnd : s.upSrc.ending ≠ none → s.up = []
  downEnd : ∀ kind, s.downSrc.ending = some kind →
    kind = .unexpectedEof ∧ s.down = [] ∧ s.callee.Done
  sent : ∀ fut fut', s.caller = .reading fut → s.callee = .reading fut' →
    fut'.bytes ++ s.upSrc.buf ++ s.up = frame Postcard.clientRequest request
  stopped : s.caller.Done → ∃ repo, s.handled = [(request, repo)] ∧
    s.caller = .returned (outcome (response cl faults mat peer request repo))
  answered : (∀ fut, s.callee ≠ .reading fut) → ∃ repo, s.handled = [(request, repo)] ∧
    (¬ s.caller.Done → s.caller.got ++ s.downSrc.buf ++ s.down ++ s.callee.rest =
      responseBytes (response cl faults mat peer request repo))

lemma flow_init : Flow cl faults mat peer request (init repo₀) where
  upEnd h := absurd rfl h
  downEnd kind h := by cases h
  sent fut fut' h := by cases h
  stopped h := absurd h id
  answered h := absurd rfl (h .start)

/-- The client is at work while the server reads. -/
lemma Flow.not_done (h : Flow cl faults mat peer request s)
    (hlink : Linked cl faults mat peer request repo₀ s) {fut : ReadMessage}
    (hcallee : s.callee = .reading fut) : ¬ s.caller.Done := by
  intro hdone
  obtain ⟨repo, hhandled, -⟩ := h.stopped hdone
  rw [(hlink.up fut hcallee).2.1] at hhandled
  cases hhandled

lemma flow_connect {r : Except String Unit} (hr : r = .ok ())
    (hfit : Fits Postcard.clientRequest request) (h : Flow cl faults mat peer request s)
    (hstep : step t cl faults mat peer request s (.connect r) = some s') :
    Flow cl faults mat peer request s' := by
  subst hr
  unfold step at hstep
  simp only at hstep
  split at hstep
  · rename_i heq
    cases heq
  · rename_i hcaller _
    rw [encode_of_fits hfit] at hstep
    obtain rfl := Option.some.inj hstep
    refine ⟨h.upEnd, h.downEnd, fun fut fut' heq => (by cases heq), fun hdone => absurd hdone id,
      fun hnot => ?_⟩
    obtain ⟨repo, hhandled, hbytes⟩ := h.answered hnot
    refine ⟨repo, hhandled, fun _ => ?_⟩
    have hall := hbytes (by rw [hcaller]; exact id)
    rw [hcaller] at hall
    exact hall
  · cases hstep

lemma flow_callerWrite {calls : List WriteCall} (hsteady : Steady calls)
    (hfit : Fits Postcard.clientRequest request) (hlink : Linked cl faults mat peer request repo₀ s)
    (h : Flow cl faults mat peer request s)
    (hstep : step t cl faults mat peer request s (.callerWrite calls) = some s') :
    Flow cl faults mat peer request s' := by
  rw [step] at hstep
  split at hstep
  · rename_i w hcaller
    have hnot : ¬ s.caller.Done := by rw [hcaller]; exact id
    have hanswered : ∀ {c : Caller}, c.got = [] → (∀ fut, s.callee ≠ .reading fut) →
        ∃ repo, s.handled = [(request, repo)] ∧ (¬ c.Done → c.got ++ s.downSrc.buf ++ s.down ++
          s.callee.rest = responseBytes (response cl faults mat peer request repo)) := by
      intro c hgot hreads
      obtain ⟨repo, hhandled, hbytes⟩ := h.answered hreads
      have hall := hbytes hnot
      rw [hcaller] at hall
      exact ⟨repo, hhandled, fun _ => by rw [hgot]; exact hall⟩
    have hend : s.upSrc.ending ≠ none → False := fun hne => hnot (hlink.upEnd hne)
    rcases pollWrite_cases calls [] w with ⟨r, out, heq, hwritten⟩ | ⟨w', p, hp, heq⟩
    · rcases hwritten with hr | ⟨hns, -⟩
      · obtain ⟨rfl, rfl⟩ := Prod.mk.inj hr
        rw [heq] at hstep
        obtain rfl := Option.some.inj hstep
        refine ⟨fun hne => (hend hne).elim, h.downEnd, fun fut fut' _ hcallee => ?_,
          fun hdone => absurd hdone id, hanswered rfl⟩
        have hsent := hlink.sentUp hcallee
        rw [hcaller] at hsent
        rw [← requestBytes_of_fits hfit, ← hsent]
        simp
      · exact absurd hsteady hns
    · rw [heq] at hstep
      obtain rfl := Option.some.inj hstep
      exact ⟨fun hne => (hend hne).elim, h.downEnd, fun fut fut' hc => (by cases hc),
        fun hdone => absurd hdone id, hanswered rfl⟩
  · cases hstep

/-- **A read of the response** gives the client its outcome, when none of its bytes is lost. -/
lemma poll_response {r : ServerResponse} {fut : ReadMessage} {src src' : Source} {rest : Bytes}
    {res : Except Error ServerResponse} (hw : fut.Waiting)
    (hbytes : fut.bytes ++ src.buf ++ rest = responseBytes r)
    (hend : ∀ kind, src.ending = some kind → kind = .unexpectedEof ∧ rest = [])
    (hpoll : poll Postcard.serverResponse fut src = .ready res src') :
    res.mapError .receive = outcome r := by
  rw [poll_eq_start hw] at hpoll
  unfold responseBytes at hbytes
  unfold outcome
  by_cases hfit : Fits Postcard.serverResponse r
  · rw [if_pos hfit] at hbytes ⊢
    by_cases hall : rest = []
    · rw [hall, List.append_nil] at hbytes
      have hframe := poll_frame hfit [] src.ending
      rw [List.append_nil, ← hbytes, hpoll] at hframe
      cases hframe
      rfl
    · -- part of the frame, and the stream still open: the read waits
      have hopen : src.ending = none := by
        cases hsrc : src.ending with
        | none => rfl
        | some kind => exact absurd (hend kind hsrc).2 hall
      have hlt : (fut.bytes ++ src.buf).length < (frame Postcard.serverResponse r).length := by
        have hlen := congrArg List.length hbytes
        rw [List.length_append] at hlen
        have hpos := List.length_pos_iff.mpr hall
        omega
      obtain ⟨fut', hpending, -⟩ := poll_partial hfit ⟨rest, hbytes⟩ hlt
      rw [hopen, hpending] at hpoll
      cases hpoll
  · rw [if_neg hfit] at hbytes ⊢
    rw [(List.append_eq_nil_iff.mp hbytes).1] at hpoll
    cases hsrc : src.ending with
    | none =>
      rw [hsrc, poll_nil ReadMessage.waiting_start] at hpoll
      cases hpoll
    | some kind =>
      rw [hsrc, poll_short_ended (Or.inl rfl), (hend kind hsrc).1] at hpoll
      cases hpoll
      rfl

lemma flow_callerRead (hlink : Linked cl faults mat peer request repo₀ s)
    (h : Flow cl faults mat peer request s)
    (hstep : step t cl faults mat peer request s .callerRead = some s') :
    Flow cl faults mat peer request s' := by
  rw [step] at hstep
  split at hstep
  · rename_i fut hcaller
    have hnot : ¬ s.caller.Done := by rw [hcaller]; exact id
    have hw := hlink.waiting fut hcaller
    have hready : ∀ res src, poll Postcard.serverResponse fut s.downSrc = .ready res src →
        Flow cl faults mat peer request
          { s with caller := .returned (res.mapError .receive), downSrc := src } := by
      intro res src hpoll
      have hsrc := ending_of_poll_ready hpoll
      have hreads : ∀ fut', s.callee ≠ .reading fut' := by
        -- the server has written nothing, and the client would wait
        intro fut' hcallee
        have hdown := hlink.down hnot
        rw [hcaller, hcallee] at hdown
        obtain ⟨hnil, -⟩ :=
          List.append_eq_nil_iff.mp (show fut.bytes ++ s.downSrc.buf ++ s.down = [] from hdown)
        have hopen : s.downSrc.ending = none := by
          cases hend : s.downSrc.ending with
          | none => rfl
          | some kind =>
            have hdone := (h.downEnd kind hend).2.2
            rw [hcallee] at hdone
            exact absurd hdone id
        rw [poll_eq_start hw, hnil, hopen, poll_nil ReadMessage.waiting_start] at hpoll
        cases hpoll
      obtain ⟨repo, hhandled, hbytes⟩ := h.answered hreads
      have hall := hbytes hnot
      rw [hcaller, List.append_assoc] at hall
      have houtcome : res.mapError .receive = outcome (response cl faults mat peer request repo) := by
        refine poll_response hw hall (fun kind hkind => ?_) hpoll
        obtain ⟨heof, hdown, hdone⟩ := h.downEnd kind hkind
        exact ⟨heof, by rw [hdown, Callee.rest_of_done hdone, List.nil_append]⟩
      exact ⟨h.upEnd, fun kind hkind => h.downEnd kind (hsrc ▸ hkind), fun fut₁ fut₂ hc => (by cases hc),
        fun _ => ⟨repo, hhandled, congrArg _ houtcome⟩,
        fun _ => ⟨repo, hhandled, fun hnot' => absurd trivial hnot'⟩⟩
    split at hstep
    · rename_i fut' src hpoll
      obtain rfl := Option.some.inj hstep
      obtain ⟨rfl, -, hbytes⟩ := poll_pending_bytes hw hpoll
      refine ⟨h.upEnd, fun kind hkind => (by cases hkind), fun _ fut₂ _ hcallee =>
        h.sent fut fut₂ hcaller hcallee, fun hdone => absurd hdone id, fun hreads => ?_⟩
      obtain ⟨repo, hhandled, hall⟩ := h.answered hreads
      refine ⟨repo, hhandled, fun _ => ?_⟩
      rw [← hall hnot, hcaller]
      show fut'.bytes ++ [] ++ s.down ++ s.callee.rest = fut.bytes ++ s.downSrc.buf ++ s.down ++ s.callee.rest
      rw [hbytes, List.append_nil]
    · rename_i e src hpoll
      obtain rfl := Option.some.inj hstep
      exact hready _ _ hpoll
    · rename_i r src hpoll
      obtain rfl := Option.some.inj hstep
      exact hready _ _ hpoll
  · cases hstep

lemma respondWith_rest (r : ServerResponse) : (respondWith t false r).rest = responseBytes r ∧
    ∀ fut, respondWith t false r ≠ .reading fut := by
  unfold respondWith responseBytes
  by_cases hfit : Fits Postcard.serverResponse r
  · rw [encode_of_fits hfit, if_pos hfit]
    exact ⟨rfl, fun fut heq => by cases heq⟩
  · rw [encode_of_not_fits hfit, if_neg hfit]
    exact ⟨rfl, fun fut heq => by cases heq⟩

lemma flow_calleeRead (hlink : Linked cl faults mat peer request repo₀ s)
    (h : Flow cl faults mat peer request s)
    (hstep : step t cl faults mat peer request s .calleeRead = some s') :
    Flow cl faults mat peer request s' := by
  rw [step] at hstep
  split at hstep
  · rename_i fut hcallee
    obtain rfl := Option.some.inj hstep
    have hnot := h.not_done hlink hcallee
    obtain ⟨hw, hnone, -⟩ := hlink.up fut hcallee
    have hp : fut.bytes ++ s.upSrc.buf <+: requestBytes request :=
      (List.prefix_append _ _).trans (hlink.sentUp hcallee).isPrefix
    have hdownEnd : ∀ kind, s.downSrc.ending ≠ some kind := by
      intro kind hkind
      have hdone := (h.downEnd kind hkind).2.2
      rw [hcallee] at hdone
      exact absurd hdone id
    unfold readRequest
    split
    · rename_i fut' src hpoll
      obtain ⟨rfl, -, hbytes⟩ := poll_pending_bytes hw hpoll
      refine ⟨fun hne => absurd rfl hne, fun kind hkind => absurd hkind (hdownEnd kind),
        fun fut₁ fut₂ hcaller hc => ?_, h.stopped, fun hreads => absurd rfl (hreads fut')⟩
      obtain rfl := Callee.reading.inj hc
      rw [← h.sent fut₁ fut hcaller hcallee, hbytes]
      simp
    · rename_i e src hpoll
      exact absurd (hlink.upEnd (ended_of_malformed hw hp hpoll)) hnot
    · rename_i req src hpoll
      obtain ⟨hsrc, ending, hr, -⟩ := poll_ready_outcome hw hpoll
      obtain ⟨rfl, -⟩ := eq_of_first_request hp (outcome_eq_ok.mp hr.symm)
      obtain ⟨hrest, hreads⟩ := respondWith_rest (t := t) (response cl faults mat peer req s.repo)
      refine ⟨fun hne => h.upEnd (by rwa [hsrc] at hne), fun kind hkind => absurd hkind (hdownEnd kind),
        fun fut₁ fut₂ _ hc => absurd hc (hreads fut₂), fun hdone => absurd hdone hnot,
        fun _ => ⟨s.repo, ?_, fun _ => ?_⟩⟩
      · show s.handled ++ _ = _
        rw [hnone]
        rfl
      · have hdown := hlink.down hnot
        rw [hcallee] at hdown
        show s.caller.got ++ s.downSrc.buf ++ s.down ++ (respondWith t false _).rest = _
        rw [show s.caller.got ++ s.downSrc.buf ++ s.down = [] from hdown, hrest, List.nil_append]
  · cases hstep

lemma flow_calleeWrite {calls : List WriteCall} (hsteady : Steady calls)
    (h : Flow cl faults mat peer request s)
    (hstep : step t cl faults mat peer request s (.calleeWrite calls) = some s') :
    Flow cl faults mat peer request s' := by
  rw [step] at hstep
  split at hstep
  · rename_i w malformed hcallee
    have hdownEnd : ∀ kind, s.downSrc.ending ≠ some kind := by
      intro kind hkind
      have hdone := (h.downEnd kind hkind).2.2
      rw [hcallee] at hdone
      exact absurd hdone id
    -- what is written is no longer to be written
    have hflow : ∀ (c : Callee) (out : Bytes), (∀ fut, c ≠ .reading fut) → w.rest = out ++ c.rest →
        Flow cl faults mat peer request { s with callee := c, down := s.down ++ out } := by
      intro c out hreads hrest
      refine ⟨h.upEnd, fun kind hkind => absurd hkind (hdownEnd kind),
        fun fut fut' _ hc => absurd hc (hreads fut'), h.stopped, fun _ => ?_⟩
      obtain ⟨repo, hhandled, hall⟩ := h.answered (by rw [hcallee]; exact fun fut heq => by cases heq)
      refine ⟨repo, hhandled, fun hnot => ?_⟩
      rw [← hall hnot, hcallee]
      show s.caller.got ++ s.downSrc.buf ++ (s.down ++ out) ++ c.rest =
        s.caller.got ++ s.downSrc.buf ++ s.down ++ w.rest
      rw [hrest]
      simp only [List.append_assoc]
    rcases pollWrite_cases calls [] w with ⟨r, out, heq, hwritten⟩ | ⟨w', p, hp, heq⟩
    · rcases hwritten with hr | ⟨hns, -⟩
      · obtain ⟨rfl, rfl⟩ := Prod.mk.inj hr
        rw [heq] at hstep
        obtain rfl := Option.some.inj hstep
        exact hflow _ _ (fun fut hc => by cases hc) (List.append_nil _).symm
      · exact absurd hsteady hns
    · rw [heq] at hstep
      obtain rfl := Option.some.inj hstep
      exact hflow _ _ (fun fut hc => by cases hc) hp
  · cases hstep

/-- Bytes that arrive, or the end of a stream all of which has arrived. -/
lemma flow_arrive {up down : Bytes} {upSrc downSrc : Source} (h : Flow cl faults mat peer request s)
    (hup : upSrc.buf ++ up = s.upSrc.buf ++ s.up) (hdown : downSrc.buf ++ down = s.downSrc.buf ++ s.down)
    (hupEnd : upSrc.ending ≠ none → up = [])
    (hdownEnd : ∀ kind, downSrc.ending = some kind → kind = .unexpectedEof ∧ down = [] ∧ s.callee.Done) :
    Flow cl faults mat peer request
      { s with up := up, upSrc := upSrc, down := down, downSrc := downSrc } where
  upEnd := hupEnd
  downEnd := hdownEnd
  sent fut fut' hcaller hcallee := by
    rw [← h.sent fut fut' hcaller hcallee, List.append_assoc, hup, List.append_assoc]
  stopped := h.stopped
  answered hreads := by
    obtain ⟨repo, hhandled, hall⟩ := h.answered hreads
    refine ⟨repo, hhandled, fun hnot => ?_⟩
    rw [← hall hnot]
    show s.caller.got ++ downSrc.buf ++ down ++ s.callee.rest = _
    rw [List.append_assoc s.caller.got, hdown, ← List.append_assoc s.caller.got]

/-- **One step** that nothing disturbs loses nothing. -/
theorem flow_step {x : Action} (hfit : Fits Postcard.clientRequest request) (hx : Faultless s x)
    (hlink : Linked cl faults mat peer request repo₀ s) (h : Flow cl faults mat peer request s)
    (hstep : step t cl faults mat peer request s x = some s') : Flow cl faults mat peer request s' := by
  cases x with
  | connect r => exact flow_connect hx hfit h hstep
  | callerWrite calls => exact flow_callerWrite hx hfit hlink h hstep
  | callerRead => exact flow_callerRead hlink h hstep
  | calleeRead => exact flow_calleeRead hlink h hstep
  | calleeWrite calls => exact flow_calleeWrite hx h hstep
  | upArrive n =>
    rw [step] at hstep
    split at hstep
    · obtain rfl := Option.some.inj hstep
      refine flow_arrive h ?_ rfl (fun hne => absurd rfl hne) h.downEnd
      rw [List.append_assoc, List.take_append_drop]
    · cases hstep
  | downArrive n =>
    rw [step] at hstep
    split at hstep
    · obtain rfl := Option.some.inj hstep
      refine flow_arrive h rfl ?_ h.upEnd fun kind hkind => by cases hkind
      rw [List.append_assoc, List.take_append_drop]
    · cases hstep
  | upEnd kind =>
    rw [step] at hstep
    split at hstep
    · obtain rfl := Option.some.inj hstep
      exact flow_arrive h rfl rfl (fun _ => hx.2) h.downEnd
    · cases hstep
  | downEnd kind =>
    rw [step] at hstep
    split at hstep
    · rename_i hdone
      obtain rfl := Option.some.inj hstep
      refine flow_arrive h rfl rfl h.upEnd fun kind' hkind => ?_
      obtain rfl := Option.some.inj hkind
      exact ⟨hx.1, hx.2, hdone.2⟩
    · cases hstep
  | killCaller => exact hx.elim
  | killCallee => exact hx.elim
  | other g =>
    obtain rfl := Option.some.inj hstep
    exact ⟨h.upEnd, h.downEnd, h.sent, h.stopped, h.answered⟩

/-! ### Any request -/

/-- A request that is too large is not sent. -/
def Refused (request : ClientRequest) (s : Rpc) : Prop :=
  s.caller = .connecting ∨ s.caller = .returned (.error (.send
    (.frameTooLarge (Postcard.clientRequest.enc request).length maxFrameSize)))

lemma refused_step {x : Action} (hfit : ¬ Fits Postcard.clientRequest request) (hx : Faultless s x)
    (h : Refused request s) (hstep : step t cl faults mat peer request s x = some s') :
    Refused request s' := by
  have hsame : s'.caller = s.caller → Refused request s' := fun heq => by
    unfold Refused
    rw [heq]
    exact h
  cases x with
  | connect r =>
    obtain rfl : r = .ok () := hx
    unfold step at hstep
    simp only at hstep
    split at hstep
    · rename_i heq
      cases heq
    · rw [encode_of_not_fits hfit] at hstep
      obtain rfl := Option.some.inj hstep
      exact Or.inr rfl
    · cases hstep
  | callerWrite calls =>
    rw [step] at hstep
    split at hstep
    · rename_i w hcaller
      rcases h with hc | hc <;> rw [hcaller] at hc <;> cases hc
    · cases hstep
  | callerRead =>
    rw [step] at hstep
    split at hstep
    · rename_i fut hcaller
      rcases h with hc | hc <;> rw [hcaller] at hc <;> cases hc
    · cases hstep
  | calleeRead =>
    rw [step] at hstep
    split at hstep
    · obtain rfl := Option.some.inj hstep
      refine hsame ?_
      unfold readRequest
      split <;> rfl
    · cases hstep
  | calleeWrite calls =>
    rw [step] at hstep
    split at hstep
    · split at hstep <;> (obtain rfl := Option.some.inj hstep; exact hsame rfl)
    · cases hstep
  | upArrive n | downArrive n | upEnd kind | downEnd kind =>
    rw [step] at hstep
    split at hstep
    · obtain rfl := Option.some.inj hstep
      exact hsame rfl
    · cases hstep
  | killCaller => exact hx.elim
  | killCallee => exact hx.elim
  | other g =>
    obtain rfl := Option.some.inj hstep
    exact hsame rfl

structure Inv (cl : Choices) (faults : Faults) (mat : Materialize) (peer : String)
    (request : ClientRequest) (repo₀ : Repo) (s : Rpc) : Prop where
  linked : Linked cl faults mat peer request repo₀ s
  flow : Fits Postcard.clientRequest request → Flow cl faults mat peer request s
  refused : ¬ Fits Postcard.clientRequest request → Refused request s

lemma inv_init : Inv cl faults mat peer request repo₀ (init repo₀) :=
  ⟨linked_init, fun _ => flow_init, fun _ => Or.inl rfl⟩

lemma inv_step {x : Action} (h : Inv cl faults mat peer request repo₀ s) (hx : Faultless s x)
    (hstep : step t cl faults mat peer request s x = some s') :
    Inv cl faults mat peer request repo₀ s' where
  linked := linked_step h.linked hstep
  flow hfit := flow_step hfit hx h.linked (h.flow hfit) hstep
  refused hfit := refused_step hfit hx (h.refused hfit) hstep

lemma Own.faultless {x : Action} (h : Own s x) : Faultless s x := by
  cases x with
  | other g => exact h.elim
  | _ => exact h

end Flow

/-! ### A state in which nothing moves -/

section Quiet

variable {t : ErrorTexts} {cl : Choices} {faults : Faults} {mat : Materialize} {peer : String}
  {request : ClientRequest} {repo₀ : Repo} {s s' : Rpc}

/-- Who waits in a quiet state, and for what. -/
structure Still (s : Rpc) : Prop where
  caller : s.caller.Done ∨ ∃ fut, s.caller = .reading fut
  callee : s.callee.Done ∨ ∃ fut, s.callee = .reading fut
  up : s.upSrc.ending = none → s.up = [] ∧ ¬ s.caller.Done
  down : s.downSrc.ending = none → s.down = [] ∧ ¬ s.callee.Done
  callerRead : ∀ fut, s.caller = .reading fut →
    ∃ fut' src, poll Postcard.serverResponse fut s.downSrc = .pending fut' src
  calleeRead : ∀ fut, s.callee = .reading fut →
    ∃ fut' src, poll Postcard.clientRequest fut s.upSrc = .pending fut' src

lemma eq_of_quiet (hq : Quiet (step t cl faults mat peer request) Own s) {x : Action}
    (hstep : step t cl faults mat peer request s x = some s') (hx : Own s x) : s' = s :=
  hq x s' hx hstep

lemma caller_still (hq : Quiet (step t cl faults mat peer request) Own s) :
    s.caller.Done ∨ ∃ fut, s.caller = .reading fut := by
  cases hcaller : s.caller with
  | connecting =>
    have hstep : ∃ c, c ≠ .connecting ∧
        step t cl faults mat peer request s (.connect (.ok ())) = some { s with caller := c } := by
      unfold step
      simp only [hcaller]
      cases encode Postcard.clientRequest request with
      | error e => exact ⟨_, by simp, rfl⟩
      | ok payload => exact ⟨_, by simp, rfl⟩
    obtain ⟨c, hne, hstep⟩ := hstep
    exact absurd (congrArg Rpc.caller (eq_of_quiet hq hstep rfl)) (by rw [hcaller]; exact hne)
  | writing fut =>
    obtain ⟨calls, hsteady, hpoll⟩ := exists_pollWrite_ok [] fut
    have hstep : step t cl faults mat peer request s (.callerWrite calls) =
        some { s with
          caller := .reading .start
          up := s.up ++ ([] ++ fut.rest)
          wrote := s.wrote ++ ([] ++ fut.rest) } := by
      rw [step, hcaller]
      simp only [hpoll]
    have heq := congrArg Rpc.caller (eq_of_quiet hq hstep hsteady)
    rw [hcaller] at heq
    cases heq
  | reading fut => exact Or.inr ⟨fut, rfl⟩
  | returned r => exact Or.inl trivial
  | killed => exact Or.inl trivial

lemma callee_still (hq : Quiet (step t cl faults mat peer request) Own s) :
    s.callee.Done ∨ ∃ fut, s.callee = .reading fut := by
  cases hcallee : s.callee with
  | reading fut => exact Or.inr ⟨fut, rfl⟩
  | writing fut malformed =>
    obtain ⟨calls, hsteady, hpoll⟩ := exists_pollWrite_ok [] fut
    have hstep : step t cl faults mat peer request s (.calleeWrite calls) =
        some { s with callee := .returned (.ok ()), down := s.down ++ ([] ++ fut.rest) } := by
      rw [step, hcallee]
      simp only [hpoll]
    have heq := congrArg Rpc.callee (eq_of_quiet hq hstep hsteady)
    rw [hcallee] at heq
    cases heq
  | returned r => exact Or.inl trivial
  | killed => exact Or.inl trivial

lemma still_of_quiet (hq : Quiet (step t cl faults mat peer request) Own s) : Still s where
  caller := caller_still hq
  callee := callee_still hq
  up hopen := by
    have harrived : s.up = [] := by
      have hstep : step t cl faults mat peer request s (.upArrive s.up.length) = some _ := if_pos hopen
      have heq := congrArg Rpc.up (eq_of_quiet hq hstep trivial)
      rw [← heq]
      exact List.drop_length
    refine ⟨harrived, fun hdone => ?_⟩
    have hstep : step t cl faults mat peer request s (.upEnd .unexpectedEof) = some _ :=
      if_pos ⟨hopen, hdone⟩
    have heq := congrArg (fun s => s.upSrc.ending) (eq_of_quiet hq hstep ⟨rfl, harrived⟩)
    exact absurd (heq.trans hopen) (by simp)
  down hopen := by
    have harrived : s.down = [] := by
      have hstep : step t cl faults mat peer request s (.downArrive s.down.length) = some _ :=
        if_pos hopen
      have heq := congrArg Rpc.down (eq_of_quiet hq hstep trivial)
      rw [← heq]
      exact List.drop_length
    refine ⟨harrived, fun hdone => ?_⟩
    have hstep : step t cl faults mat peer request s (.downEnd .unexpectedEof) = some _ :=
      if_pos ⟨hopen, hdone⟩
    have heq := congrArg (fun s => s.downSrc.ending) (eq_of_quiet hq hstep ⟨rfl, harrived⟩)
    exact absurd (heq.trans hopen) (by simp)
  callerRead fut hcaller := by
    cases hpoll : poll Postcard.serverResponse fut s.downSrc with
    | pending fut' src => exact ⟨fut', src, rfl⟩
    | ready r src =>
      have hstep : ∃ res, step t cl faults mat peer request s .callerRead =
          some { s with caller := .returned res, downSrc := src } := by
        rw [step, hcaller]
        dsimp only
        rw [hpoll]
        cases r with
        | error e => exact ⟨_, rfl⟩
        | ok r => exact ⟨_, rfl⟩
      obtain ⟨res, hstep⟩ := hstep
      have heq := congrArg Rpc.caller (eq_of_quiet hq hstep trivial)
      rw [hcaller] at heq
      cases heq
  calleeRead fut hcallee := by
    cases hpoll : poll Postcard.clientRequest fut s.upSrc with
    | pending fut' src => exact ⟨fut', src, rfl⟩
    | ready r src =>
      have hstep : step t cl faults mat peer request s .calleeRead =
          some (readRequest t cl faults mat peer s fut) := by
        rw [step, hcallee]
      have heq := congrArg Rpc.callee (eq_of_quiet hq hstep trivial)
      rw [hcallee, readRequest, hpoll] at heq
      cases r with
      | error e => exact absurd heq (respondWith_ne_reading true _ fut)
      | ok req => exact absurd heq (respondWith_ne_reading false _ fut)

/-- **Nothing moves only when the exchange is over.** -/
theorem completed_of_quiet (h : Inv cl faults mat peer request repo₀ s)
    (hq : Quiet (step t cl faults mat peer request) Own s) :
    Completed cl faults mat peer request s := by
  have hstill := still_of_quiet hq
  have hcallee : s.callee.Done := by
    rcases hstill.callee with hdone | ⟨fut, hcallee⟩
    · exact hdone
    · -- the server waits for the request; the client has sent all of it
      exfalso
      obtain ⟨fut', src, hpoll⟩ := hstill.calleeRead fut hcallee
      have hopen := ending_of_poll_pending hpoll
      obtain ⟨hup, hnot⟩ := hstill.up hopen
      obtain ⟨fut₁, hcaller⟩ := hstill.caller.resolve_left hnot
      by_cases hfit : Fits Postcard.clientRequest request
      · have hsent := (h.flow hfit).sent fut₁ fut hcaller hcallee
        have hframe := poll_frame hfit [] s.upSrc.ending
        rw [hup, List.append_nil] at hsent
        rw [List.append_nil, ← hsent, ← poll_eq_start (h.linked.up fut hcallee).1, hpoll] at hframe
        cases hframe
      · rcases h.refused hfit with hc | hc <;> rw [hcaller] at hc <;> cases hc
  have hcaller : s.caller.Done := by
    rcases hstill.caller with hdone | ⟨fut, hcaller⟩
    · exact hdone
    · -- the client waits for the response; the server has gone
      exfalso
      obtain ⟨fut', src, hpoll⟩ := hstill.callerRead fut hcaller
      exact (hstill.down (ending_of_poll_pending hpoll)).2 hcallee
  refine ⟨hcaller, hcallee, fun hfit => (h.flow hfit).stopped hcaller, fun hfit => ⟨?_, ?_⟩⟩
  · rcases h.linked.handled with ⟨hnone, -⟩ | ⟨-, -, -, -, -, hfit'⟩
    · exact hnone
    · exact absurd hfit' hfit
  · rcases h.refused hfit with hc | hc
    · rw [hc] at hcaller
      exact absurd hcaller id
    · exact hc

end Quiet

/-! ### What is left to do -/

/-- The phases that are to come, of the client and of the server. -/
def phases (s : Rpc) : ℕ :=
  (match s.caller with
    | .connecting => 3
    | .writing _ => 2
    | .reading _ => 1
    | .returned _ | .killed => 0) +
  match s.callee with
    | .reading _ => 2
    | .writing _ _ => 1
    | .returned _ | .killed => 0

/-- A byte counts for less the nearer it is to its reader. -/
def left (out : ℕ) (way : Bytes) (src : Source) : ℕ :=
  4 * out + 3 * way.length + 2 * src.buf.length + if src.ending = none then 1 else 0

/-- The bytes that are still to be moved, in both directions. -/
def bytesLeft (s : Rpc) : ℕ :=
  left (match s.caller with | .writing fut => fut.size | _ => 0) s.up s.upSrc +
    left (match s.callee with | .writing fut _ => fut.size | _ => 0) s.down s.downSrc

/-- A phase is over, or bytes have moved on in the same phases. -/
def Down : ℕ × ℕ → ℕ × ℕ → Prop := Prod.Lex (· < ·) (· < ·)

section Measure

variable {t : ErrorTexts} {cl : Choices} {faults : Faults} {mat : Materialize} {peer : String}
  {request : ClientRequest} {repo₀ : Repo} {s s' : Rpc}

lemma wellFounded_down : WellFounded Down := WellFounded.prod_lex Nat.lt_wfRel.wf Nat.lt_wfRel.wf

lemma down_of_phases (h : phases s' < phases s) : Down (phases s', bytesLeft s') (phases s, bytesLeft s) :=
  Prod.Lex.left _ _ h

lemma down_of_bytes (h : phases s' = phases s) (hlt : bytesLeft s' < bytesLeft s) :
    Down (phases s', bytesLeft s') (phases s, bytesLeft s) := by
  rw [h]
  exact Prod.Lex.right _ hlt

lemma left_write {calls : List WriteCall} {fut fut' : WriteMessage} {out : Bytes}
    (h : pollWrite [] calls fut = .pending fut' out) (way : Bytes) (src : Source) :
    (fut' = fut ∧ out = []) ∨ left fut'.size (way ++ out) src < left fut.size way src := by
  obtain ⟨p, hout, hle, hnil⟩ := pollWrite_pending h
  obtain rfl : out = p := hout
  unfold left
  rw [List.length_append]
  by_cases hp : out = []
  · rcases hnil hp with heq | hlt
    · exact Or.inl ⟨heq, hp⟩
    · subst hp
      right
      simp only [List.length_nil]
      omega
  · have hpos := List.length_pos_iff.mpr hp
    right
    omega

lemma left_arrive (out n : ℕ) (way : Bytes) {src : Source} (hopen : src.ending = none) :
    (way.drop n = way ∧ (⟨src.buf ++ way.take n, none⟩ : Source) = src) ∨
      left out (way.drop n) ⟨src.buf ++ way.take n, none⟩ < left out way src := by
  obtain ⟨buf, ending⟩ := src
  obtain rfl : ending = none := hopen
  by_cases hn : way.take n = []
  · have hdrop := List.take_append_drop n way
    rw [hn, List.nil_append] at hdrop
    exact Or.inl ⟨hdrop, by rw [hn, List.append_nil]⟩
  · have hpos := List.length_pos_iff.mpr hn
    rw [List.length_take] at hpos
    right
    simp only [left, List.length_append, List.length_take, List.length_drop]
    omega

lemma left_read {α : Type} {c : Postcard.Codec α} {fut fut' : ReadMessage} {src src' : Source}
    (out : ℕ) (way : Bytes) (hw : fut.Waiting) (h : poll c fut src = .pending fut' src') :
    (fut' = fut ∧ src' = src) ∨ left out way src' < left out way src := by
  have hopen := ending_of_poll_pending h
  obtain ⟨rfl, -, -⟩ := poll_pending_bytes hw h
  obtain ⟨buf, ending⟩ := src
  obtain rfl : ending = none := hopen
  by_cases hbuf : buf = []
  · subst hbuf
    rw [poll_nil hw] at h
    cases h
    exact Or.inl ⟨rfl, rfl⟩
  · have hpos := List.length_pos_iff.mpr hbuf
    right
    simp only [left, List.length_nil]
    omega

lemma left_end {out : ℕ} {way : Bytes} {src : Source} (hopen : src.ending = none) (kind : IoErrorKind) :
    left out way ⟨src.buf, some kind⟩ < left out way src := by
  simp [left, hopen]

lemma down_connect {r : Except String Unit}
    (hstep : step t cl faults mat peer request s (.connect r) = some s') :
    Down (phases s', bytesLeft s') (phases s, bytesLeft s) := by
  unfold step at hstep
  simp only at hstep
  split at hstep
  · rename_i hcaller
    obtain rfl := Option.some.inj hstep
    exact down_of_phases (by simp [phases, hcaller])
  · rename_i hcaller
    split at hstep
    all_goals
      obtain rfl := Option.some.inj hstep
      exact down_of_phases (by simp [phases, hcaller])
  · cases hstep

lemma down_callerWrite {calls : List WriteCall}
    (hstep : step t cl faults mat peer request s (.callerWrite calls) = some s') (hne : s' ≠ s) :
    Down (phases s', bytesLeft s') (phases s, bytesLeft s) := by
  rw [step] at hstep
  split at hstep
  · rename_i fut hcaller
    split at hstep
    · rename_i fut' out hpoll
      obtain rfl := Option.some.inj hstep
      rcases left_write hpoll s.up s.upSrc with ⟨rfl, rfl⟩ | hlt
      · exact absurd (by rw [← hcaller, List.append_nil, List.append_nil]) hne
      · refine down_of_bytes (by simp [phases, hcaller]) ?_
        simpa [bytesLeft, hcaller] using hlt
    all_goals
      obtain rfl := Option.some.inj hstep
      exact down_of_phases (by simp [phases, hcaller])
  · cases hstep

lemma down_callerRead (h : Linked cl faults mat peer request repo₀ s)
    (hstep : step t cl faults mat peer request s .callerRead = some s') (hne : s' ≠ s) :
    Down (phases s', bytesLeft s') (phases s, bytesLeft s) := by
  rw [step] at hstep
  split at hstep
  · rename_i fut hcaller
    split at hstep
    · rename_i fut' src hpoll
      obtain rfl := Option.some.inj hstep
      rcases left_read (match s.callee with | .writing fut _ => fut.size | _ => 0) s.down
        (h.waiting fut hcaller) hpoll with ⟨rfl, rfl⟩ | hlt
      · exact absurd (by rw [← hcaller]) hne
      · refine down_of_bytes (by simp [phases, hcaller]) ?_
        simpa [bytesLeft, hcaller] using hlt
    all_goals
      obtain rfl := Option.some.inj hstep
      exact down_of_phases (by simp [phases, hcaller])
  · cases hstep

/-- A server that responds has read. -/
lemma phases_lt_of_responds {fut : ReadMessage} (hcallee : s.callee = .reading fut) {malformed : Bool}
    {resp : ServerResponse} (hcaller' : s'.caller = s.caller)
    (hcallee' : s'.callee = respondWith t malformed resp) : phases s' < phases s := by
  unfold phases
  rw [hcaller', hcallee', hcallee]
  rcases respondWith_cases (t := t) malformed resp with ⟨-, w, hw, -⟩ | ⟨-, res, hw⟩ <;>
    (rw [hw]; simp)

lemma down_calleeRead (h : Linked cl faults mat peer request repo₀ s)
    (hstep : step t cl faults mat peer request s .calleeRead = some s') (hne : s' ≠ s) :
    Down (phases s', bytesLeft s') (phases s, bytesLeft s) := by
  rw [step] at hstep
  split at hstep
  · rename_i fut hcallee
    obtain rfl := Option.some.inj hstep
    unfold readRequest at hne ⊢
    cases hpoll : poll Postcard.clientRequest fut s.upSrc with
    | pending fut' src =>
      simp only [hpoll] at hne ⊢
      rcases left_read (match s.caller with | .writing fut => fut.size | _ => 0) s.up
        (h.up fut hcallee).1 hpoll with ⟨rfl, rfl⟩ | hlt
      · exact absurd (by rw [← hcallee]) hne
      · refine down_of_bytes (by simp [phases, hcallee]) ?_
        simpa [bytesLeft, hcallee] using hlt
    | ready r src =>
      cases r with
      | error e => exact down_of_phases (phases_lt_of_responds hcallee rfl rfl)
      | ok req => exact down_of_phases (phases_lt_of_responds hcallee rfl rfl)
  · cases hstep

lemma down_calleeWrite {calls : List WriteCall}
    (hstep : step t cl faults mat peer request s (.calleeWrite calls) = some s') (hne : s' ≠ s) :
    Down (phases s', bytesLeft s') (phases s, bytesLeft s) := by
  rw [step] at hstep
  split at hstep
  · rename_i fut malformed hcallee
    split at hstep
    · rename_i fut' out hpoll
      obtain rfl := Option.some.inj hstep
      rcases left_write hpoll s.down s.downSrc with ⟨rfl, rfl⟩ | hlt
      · exact absurd (by rw [← hcallee, List.append_nil]) hne
      · refine down_of_bytes (by simp [phases, hcallee]) ?_
        simpa [bytesLeft, hcallee] using hlt
    all_goals
      obtain rfl := Option.some.inj hstep
      exact down_of_phases (by simp [phases, hcallee])
  · cases hstep

lemma down_upArrive {n : ℕ} (hstep : step t cl faults mat peer request s (.upArrive n) = some s')
    (hne : s' ≠ s) : Down (phases s', bytesLeft s') (phases s, bytesLeft s) := by
  rw [step] at hstep
  split at hstep
  · rename_i hopen
    obtain rfl := Option.some.inj hstep
    rcases left_arrive (match s.caller with | .writing fut => fut.size | _ => 0) n s.up hopen with
      ⟨hway, hsrc⟩ | hlt
    · exact absurd (by rw [hway, hsrc]) hne
    · refine down_of_bytes rfl ?_
      simpa [bytesLeft] using hlt
  · cases hstep

lemma down_downArrive {n : ℕ} (hstep : step t cl faults mat peer request s (.downArrive n) = some s')
    (hne : s' ≠ s) : Down (phases s', bytesLeft s') (phases s, bytesLeft s) := by
  rw [step] at hstep
  split at hstep
  · rename_i hopen
    obtain rfl := Option.some.inj hstep
    rcases left_arrive (match s.callee with | .writing fut _ => fut.size | _ => 0) n s.down hopen with
      ⟨hway, hsrc⟩ | hlt
    · exact absurd (by rw [hway, hsrc]) hne
    · refine down_of_bytes rfl ?_
      simpa [bytesLeft] using hlt
  · cases hstep

/-- **Every step that changes something** ends a phase, or moves bytes on. -/
theorem down_step {x : Action} (h : Linked cl faults mat peer request repo₀ s) (hx : Own s x)
    (hstep : step t cl faults mat peer request s x = some s') (hne : s' ≠ s) :
    Down (phases s', bytesLeft s') (phases s, bytesLeft s) := by
  cases x with
  | connect r => exact down_connect hstep
  | callerWrite calls => exact down_callerWrite hstep hne
  | callerRead => exact down_callerRead h hstep hne
  | calleeRead => exact down_calleeRead h hstep hne
  | calleeWrite calls => exact down_calleeWrite hstep hne
  | upArrive n => exact down_upArrive hstep hne
  | downArrive n => exact down_downArrive hstep hne
  | upEnd kind =>
    rw [step] at hstep
    split at hstep
    · rename_i hopen
      obtain rfl := Option.some.inj hstep
      refine down_of_bytes rfl ?_
      simpa [bytesLeft] using left_end hopen.1 kind
    · cases hstep
  | downEnd kind =>
    rw [step] at hstep
    split at hstep
    · rename_i hopen
      obtain rfl := Option.some.inj hstep
      refine down_of_bytes rfl ?_
      simpa [bytesLeft] using left_end hopen.1 kind
    · cases hstep
  | killCaller => exact hx.elim
  | killCallee => exact hx.elim
  | other g => exact hx.elim

end Measure

/-! ### The end of an exchange -/

section Completes

variable {t : ErrorTexts} {cl : Choices} {faults : Faults} {mat : Materialize} {peer : String}
  {request : ClientRequest} {repo₀ : Repo} {s : Rpc}

/-- The exchange comes to its end from the state `s`. -/
structure Completes (t : ErrorTexts) (cl : Choices) (faults : Faults) (mat : Materialize) (peer : String)
    (request : ClientRequest) (s : Rpc) : Prop where
  /-- It is not stuck before. -/
  quiet : Quiet (step t cl faults mat peer request) Own s → Completed cl faults mat peer request s
  /-- Its own steps lead there, -/
  reaches : ∃ bs s', Meets (step t cl faults mat peer request) Own s bs ∧
    exec (step t cl faults mat peer request) s bs = some s' ∧
      Quiet (step t cl faults mat peer request) Own s' ∧ Completed cl faults mat peer request s'
  /-- in whatever order they are taken. -/
  ends : ∀ f : ℕ → Rpc, f 0 = s → ¬ Endless (step t cl faults mat peer request) Own f

/-- **An exchange that nothing disturbs comes to its end**, the request handled once and the response
received, however the bytes are split and the steps of the two sides and of others interleave. -/
theorem completes_of_run {as : List Action}
    (hm : Meets (step t cl faults mat peer request) Faultless (init repo₀) as)
    (hrun : exec (step t cl faults mat peer request) (init repo₀) as = some s) :
    Completes t cl faults mat peer request s := by
  have hinv : Inv cl faults mat peer request repo₀ s :=
    exec_inv_of_meets (fun _ _ _ h hx hstep => inv_step h hx hstep) inv_init hm hrun
  have hstep : ∀ s x s', Inv cl faults mat peer request repo₀ s → Own s x →
      step t cl faults mat peer request s x = some s' → Inv cl faults mat peer request repo₀ s' :=
    fun s x s' h hx hstep => inv_step h hx.faultless hstep
  have hdown : ∀ s x s', Inv cl faults mat peer request repo₀ s → Own s x →
      step t cl faults mat peer request s x = some s' → s' ≠ s →
        Down (phases s', bytesLeft s') (phases s, bytesLeft s) :=
    fun s x s' h hx hstep hne => down_step h.linked hx hstep hne
  refine ⟨completed_of_quiet hinv, ?_, ?_⟩
  · obtain ⟨bs, s', hown, hexec, hquiet⟩ :=
      exists_quiet wellFounded_down (fun s => (phases s, bytesLeft s)) hstep hdown s hinv
    exact ⟨bs, s', hown, hexec, hquiet, completed_of_quiet (exec_inv_of_meets hstep hinv hown hexec) hquiet⟩
  · rintro f rfl
    exact not_endless wellFounded_down (fun s => (phases s, bytesLeft s)) hstep hdown hinv

instance (calls : List WriteCall) : Decidable (Steady calls) :=
  decidable_of_iff (∀ call ∈ calls, (match call with | .takes _ => true | .fails _ => false) = true) <|
    forall₂_congr fun call _ => by cases call <;> simp

instance (s : Rpc) (x : Action) : Decidable (Faultless s x) := by
  unfold Faultless; split <;> infer_instance

/-- The submission that is sent in parts is one of these. -/
theorem completes_of_run_inParts : ∃ s,
    exec (step ⟨fun _ => "", fun _ => ""⟩ (sorted fun _ => "uuid-2") noFaults (fun _ => .error "") "repo-a"
      (.submit ⟨"Q", "B", [], "repo-a", "uuid-1", []⟩)) (init ⟨Db.empty, []⟩) inParts = some s ∧
    Completes ⟨fun _ => "", fun _ => ""⟩ (sorted fun _ => "uuid-2") noFaults (fun _ => .error "") "repo-a"
      (.submit ⟨"Q", "B", [], "repo-a", "uuid-1", []⟩) s := by
  have hrun : exec (step ⟨fun _ => "", fun _ => ""⟩ (sorted fun _ => "uuid-2") noFaults
      (fun _ => .error "") "repo-a" (.submit ⟨"Q", "B", [], "repo-a", "uuid-1", []⟩))
      (init ⟨Db.empty, []⟩) inParts = some _ := rfl
  have hm : Meets (step ⟨fun _ => "", fun _ => ""⟩ (sorted fun _ => "uuid-2") noFaults
      (fun _ => .error "") "repo-a" (.submit ⟨"Q", "B", [], "repo-a", "uuid-1", []⟩)) Faultless
      (init ⟨Db.empty, []⟩) inParts := by decide
  exact ⟨_, hrun, completes_of_run hm hrun⟩

end Completes

end Rpc

end Crossbridge.Bridge
