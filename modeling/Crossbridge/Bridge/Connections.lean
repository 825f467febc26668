import Crossbridge.Bridge.Rpc
import Crossbridge.Lib.Lists
import Crossbridge.Server.Session

/-!
The connections of a session.

`serve_one_session` awaits `handle_connection` in its loop: while a client is served, nothing else is
done, however long the client takes. Here the loop is polled through that call, and meanwhile bytes
arrive from the supervisor and from the clients, connections come in, and other processes change the
repo. They do so between the polls: to handle a request (`dispatch`) is one step here, as it is not in
the server, which writes to the database several times (`Bridge.Local.step` has its writes one by one)
and runs `jj` in between. For the session this is as if a client were served at once (`exec_matched`,
`simulates`).

What comes of it (`serial_of_run`): the requests are handled one by one, in the order in which the
connections came in and each on the repo that the one before has left, and a client is written the
response to what it has sent. The other side (`waits_of_run`): while the request of a client is
incomplete, the server waits for it, whatever happens meanwhile; then the response is written, if it fits
a frame, and the server waits until the client has taken it.
-/

namespace Crossbridge.Bridge.Connections

open Crossbridge.Varint Crossbridge.Protocol Crossbridge.Protocol.Streams Crossbridge.Crosslink
  Crossbridge.Server Crossbridge.Runs Crossbridge.Lists

/-! ### The source -/

/-- A connection: the peer at whose socket it came in, all that the client has sent and what of it was
not read, and what was written. -/
structure Conn where
  peer : String
  got : Bytes
  src : Source
  out : Bytes
  deriving DecidableEq

def Conn.new (peer : String) : Conn := ⟨peer, [], ⟨[], none⟩, []⟩

/-- What a poll meets: the database, `jj`, and the socket that is written to. -/
structure Env where
  cl : Choices
  faults : Faults
  mat : Materialize
  calls : List WriteCall

/-- A request that was handled: of which connection, and the repo that it found; no other process changes
the repo until the request has been handled. -/
structure Handled where
  conn : ℕ
  peer : String
  request : ClientRequest
  env : Env
  found : Repo

namespace Handled

variable (h : Handled)

def response : ServerResponse := (dispatch h.env.cl h.env.faults h.env.mat h.peer h.found h.request).1

/-- The repo that it leaves. -/
def left : Repo := (dispatch h.env.cl h.env.faults h.env.mat h.peer h.found h.request).2

end Handled

/-- What changes the repo. -/
inductive Change where
  | handled (h : Handled)
  /-- Another process. -/
  | other (g : Repo → Repo)

/-- A session, its connections in the order in which they came in, the one that is being handled, and
what has become of the repo. -/
structure State where
  session : Session
  conns : List Conn
  busy : Option (ℕ × Callee)
  repo : Repo
  changes : List Change

def start (peers : List String) (repo : Repo) : State := ⟨Session.start peers, [], none, repo, []⟩

inductive Action where
  /-- Bytes of the supervisor arrive, and their end. -/
  | arrive (bs : Bytes)
  | close (kind : IoErrorKind)
  | cancel
  | connect (peer : String)
  /-- Bytes of a client arrive, and their end. -/
  | send (k : ℕ) (bs : Bytes)
  | hangUp (k : ℕ) (kind : IoErrorKind)
  | other (g : Repo → Repo)
  /-- The server is polled. -/
  | wake (env : Env)

variable (t : ErrorTexts)

/-- `handle_connection` goes on, or returns. -/
def settled (k : ℕ) (c : Callee) : Option (ℕ × Callee) := if c.Done then none else some (k, c)

/-- One poll of `handle_connection`. -/
def pollConn (env : Env) (s : State) (k : ℕ) (c : Conn) : Callee → State
  | .reading fut =>
    match poll Postcard.clientRequest fut c.src with
    | .pending fut src =>
      { s with conns := s.conns.set k { c with src := src }, busy := some (k, .reading fut) }
    | .ready (.error e) src =>
      { s with
        conns := s.conns.set k { c with src := src }
        busy := settled k (Rpc.respondWith t true (.error ("malformed request: " ++ e.display t))) }
    | .ready (.ok request) src =>
      let h : Handled := ⟨k, c.peer, request, env, s.repo⟩
      { s with
        conns := s.conns.set k { c with src := src }
        busy := settled k (Rpc.respondWith t false h.response)
        repo := h.left
        changes := s.changes ++ [.handled h] }
  | .writing fut malformed =>
    match pollWrite [] env.calls fut with
    | .pending fut out =>
      { s with
        conns := s.conns.set k { c with out := c.out ++ out }
        busy := some (k, .writing fut malformed) }
    | .ready _ out => { s with conns := s.conns.set k { c with out := c.out ++ out }, busy := none }
  | .returned _ | .killed => { s with busy := none }

/-- The loop is polled: through `handle_connection`, or its `select!`. -/
def wake (env : Env) (s : State) : Option State :=
  match s.busy with
  | some (k, callee) => (s.conns[k]?).map fun c => pollConn t env s k c callee
  | none =>
    if s.session.ended = none then
      let next := s.session.turn
      some { s with
        session := next
        busy :=
          if s.session.served.length < next.served.length then
            some (s.session.served.length, .reading .start)
          else none }
    else none

/-- More of a client. -/
def State.fromClient (s : State) (k : ℕ) (g : Conn → Conn) : Option State :=
  match s.conns[k]? with
  | some c => if c.src.ending = none then some { s with conns := s.conns.set k (g c) } else none
  | none => none

def step (s : State) : Action → Option State
  | .arrive bs => (s.session.step (.arrive bs)).map fun next => { s with session := next }
  | .close kind => (s.session.step (.close kind)).map fun next => { s with session := next }
  | .cancel => (s.session.step .cancel).map fun next => { s with session := next }
  | .connect peer =>
    (s.session.step (.accept peer)).map fun next =>
      { s with session := next, conns := s.conns ++ [.new peer] }
  | .send k bs =>
    s.fromClient k fun c => { c with got := c.got ++ bs, src := ⟨c.src.buf ++ bs, none⟩ }
  | .hangUp k kind => s.fromClient k fun c => { c with src := ⟨c.src.buf, some kind⟩ }
  | .other g => some { s with repo := g s.repo, changes := s.changes ++ [.other g] }
  | .wake env => wake t env s

/-! ### The session alone -/

/-- What the session alone sees of an action. -/
def seen (s : State) : Action → Option Session.Event
  | .arrive bs => some (.arrive bs)
  | .close kind => some (.close kind)
  | .cancel => some .cancel
  | .connect peer => some (.accept peer)
  | .wake _ => if s.busy = none then some .wake else none
  | .send _ _ | .hangUp _ _ | .other _ => none

/-- The bytes of the supervisor. -/
def arrived (as : List Action) : Bytes :=
  as.flatMap fun
    | .arrive bs => bs
    | _ => []

section Session

variable {t : ErrorTexts} {s s' : State} {env : Env} {k : ℕ}

@[simp] lemma session_pollConn (c : Conn) (callee : Callee) :
    (pollConn t env s k c callee).session = s.session := by
  unfold pollConn
  repeat' split
  all_goals rfl

lemma session_fromClient {g : Conn → Conn} (h : s.fromClient k g = some s') : s'.session = s.session := by
  unfold State.fromClient at h
  split at h
  · split_ifs at h
    obtain rfl := Option.some.inj h
    rfl
  · cases h

/-- **The session alone** serves a client at once. -/
theorem simulates (t : ErrorTexts) : Simulates (step t) Session.step State.session seen := by
  intro s a s' h
  have hsession : ∀ {e : Session.Event} {g : Session → State}, (∀ next, (g next).session = next) →
      (s.session.step e).map g = some s' → s.session.step e = some s'.session := by
    intro e g hg h
    obtain ⟨next, hnext, rfl⟩ := Option.map_eq_some_iff.mp h
    rw [hg, hnext]
  cases a with
  | arrive bs | close kind | cancel | connect peer =>
    rw [step] at h
    exact hsession (fun _ => rfl) h
  | send k bs => exact session_fromClient h
  | hangUp k kind => exact session_fromClient h
  | other g =>
    obtain rfl := Option.some.inj h
    rfl
  | wake env =>
    rw [step, wake] at h
    cases hbusy : s.busy with
    | some b =>
      rw [hbusy] at h
      obtain ⟨c, -, rfl⟩ := Option.map_eq_some_iff.mp h
      simp [seen, hbusy]
    | none =>
      rw [hbusy] at h
      by_cases hended : s.session.ended = none
      · simp only [if_pos hended] at h
        obtain rfl := Option.some.inj h
        simp [seen, hbusy, Session.step, hended]
      · simp only [if_neg hended] at h
        cases h

lemma arrived_matched {as : List Action} (h : exec (step t) s as = some s') :
    Session.arrived (matched (step t) seen s as) = arrived as := by
  induction as generalizing s with
  | nil => rfl
  | cons a as ih =>
    obtain ⟨s₁, hs, hrest⟩ := exec_cons_eq_some.mp h
    have hone : Session.arrived (seen s a).toList = arrived [a] := by
      cases a with
      | wake env =>
        unfold seen
        split_ifs <;> rfl
      | _ => simp [seen, Session.arrived, arrived]
    have hall : arrived (a :: as) = arrived [a] ++ arrived as := by simp [arrived]
    rw [matched_cons hs, hall, ← hone, ← ih hrest]
    exact List.flatMap_append

end Session

/-! ### One by one -/

/-- The requests that were handled. -/
def handledOf (cs : List Change) : List Handled :=
  cs.filterMap fun
    | .handled h => some h
    | .other _ => none

/-- The changes lead from one repo to another, each request being handled on the repo that it finds. -/
def Follows : Repo → List Change → Repo → Prop
  | repo, [], repo' => repo' = repo
  | repo, .other g :: cs, repo' => Follows (g repo) cs repo'
  | repo, .handled h :: cs, repo' => h.found = repo ∧ Follows h.left cs repo'

/-- The client may send more, and what it has sent stops short of a frame. -/
def Conn.Incomplete (c : Conn) : Prop := c.src.ending = none ∧ Stops c.got

instance (c : Conn) : Decidable c.Incomplete := by unfold Conn.Incomplete; infer_instance

/-- The response to a client: to its request, or to something else that it has sent. -/
def Reply (t : ErrorTexts) (s : State) (k : ℕ) (c : Conn) (r : ServerResponse) : Prop :=
  (∃ h ∈ handledOf s.changes, h.conn = k ∧ r = h.response) ∨
  ((∀ h ∈ handledOf s.changes, h.conn ≠ k) ∧ ¬ c.Incomplete ∧ first Postcard.clientRequest c.got = none ∧
    ∃ e : Error, r = .error ("malformed request: " ++ e.display t))

/-- The bytes of a response; one that is too large is not written. -/
def replyBytes (r : ServerResponse) : Bytes :=
  if Fits Postcard.serverResponse r then frame Postcard.serverResponse r else []

/-- A connection, by what the server is doing. -/
structure ConnOk (t : ErrorTexts) (s : State) (k : ℕ) (c : Conn) : Prop where
  waiting : s.session.served.length ≤ k → c.src.buf = c.got ∧ c.out = []
  reading : ∀ fut, s.busy = some (k, .reading fut) → fut.Waiting ∧ fut.bytes ++ c.src.buf = c.got ∧
    c.out = [] ∧ ∀ h ∈ handledOf s.changes, h.conn ≠ k
  writing : ∀ fut malformed, s.busy = some (k, .writing fut malformed) →
    ∃ r, Reply t s k c r ∧ Fits Postcard.serverResponse r ∧
      c.out ++ fut.rest = frame Postcard.serverResponse r
  served : k < s.session.served.length → (∀ callee, s.busy ≠ some (k, callee)) →
    ∃ r, Reply t s k c r ∧ c.out <+: replyBytes r

/-- **One by one.** -/
structure Serial (t : ErrorTexts) (repo₀ : Repo) (s : State) : Prop where
  /-- Connections are received in the order in which they came in, -/
  received : s.conns.map Conn.peer = s.session.served ++ s.session.accepted
  /-- and only the last one that was received is being handled. -/
  busy : ∀ k callee, s.busy = some (k, callee) →
    k + 1 = s.session.served.length ∧ s.session.ended = none ∧ ¬ callee.Done
  /-- Each has at most one request handled, in this order, -/
  order : (handledOf s.changes).Pairwise fun h h' => h.conn < h'.conn
  /-- the one that its client has sent, as a request of its peer, -/
  requests : ∀ h ∈ handledOf s.changes, ∃ c, s.conns[h.conn]? = some c ∧
    h.conn < s.session.served.length ∧ h.peer = c.peer ∧
      first Postcard.clientRequest c.got = some h.request
  /-- on the repo that is left by what came before. -/
  repo : Follows repo₀ s.changes s.repo
  conns : ∀ k c, s.conns[k]? = some c → ConnOk t s k c

section Changes

variable {repo repo' repo'' : Repo} {cs ds : List Change}

lemma handledOf_append : handledOf (cs ++ ds) = handledOf cs ++ handledOf ds := List.filterMap_append

lemma Follows.append (h : Follows repo cs repo') (h' : Follows repo' ds repo'') :
    Follows repo (cs ++ ds) repo'' := by
  induction cs generalizing repo with
  | nil =>
    obtain rfl : repo' = repo := h
    exact h'
  | cons x cs ih =>
    cases x with
    | other g => exact ih h
    | handled hd => exact ⟨h.1, ih h.2⟩

end Changes

section Steps

variable {t : ErrorTexts} {repo₀ : Repo} {s s' : State} {env : Env} {k : ℕ} {c c' : Conn}
  {r : ServerResponse}

lemma serial_start (t : ErrorTexts) (peers : List String) (repo₀ : Repo) :
    Serial t repo₀ (start peers repo₀) where
  received := rfl
  busy k callee h := by cases h
  order := List.Pairwise.nil
  requests h hh := by cases hh
  repo := rfl
  conns k c h := by cases h

/-- A connection is judged by what was received, what is being handled and what was. -/
lemma ConnOk.congr (h : ConnOk t s k c) (hserved : s'.session.served = s.session.served)
    (hbusy : s'.busy = s.busy) (hhandled : handledOf s'.changes = handledOf s.changes) :
    ConnOk t s' k c := by
  obtain ⟨hwaiting, hreading, hwriting, hserv⟩ := h
  constructor
  · rwa [hserved]
  · rwa [hbusy, hhandled]
  · unfold Reply at hwriting ⊢
    rwa [hbusy, hhandled]
  · unfold Reply at hserv ⊢
    rwa [hserved, hbusy, hhandled]

/-- The connections are left alone. -/
lemma Serial.frame (h : Serial t repo₀ s) (hconns : s'.conns = s.conns)
    (hserved : s'.session.served = s.session.served)
    (haccepted : s'.session.accepted = s.session.accepted) (hbusy : s'.busy = s.busy)
    (hended : s.busy ≠ none → s'.session.ended = s.session.ended)
    (hhandled : handledOf s'.changes = handledOf s.changes) (hrepo : Follows repo₀ s'.changes s'.repo) :
    Serial t repo₀ s' where
  received := by rw [hconns, hserved, haccepted, h.received]
  busy k callee hb := by
    rw [hbusy] at hb
    rw [hserved, hended (by rw [hb]; exact Option.some_ne_none _)]
    exact h.busy k callee hb
  order := hhandled ▸ h.order
  requests hd hhd := by
    rw [hconns, hserved]
    exact h.requests hd (hhandled ▸ hhd)
  repo := hrepo
  conns k c hk := (h.conns k c (hconns ▸ hk)).congr hserved hbusy hhandled

/-- What was received came in. -/
lemma Serial.served_le (h : Serial t repo₀ s) : s.session.served.length ≤ s.conns.length := by
  have hlen := congrArg List.length h.received
  rw [List.length_map, List.length_append] at hlen
  omega

/-- A connection comes in. -/
lemma Serial.connect (h : Serial t repo₀ s) (peer : String) : Serial t repo₀ { s with
    session := { s.session with accepted := s.session.accepted ++ [peer] }
    conns := s.conns ++ [.new peer] } where
  received := by
    show (s.conns ++ [Conn.new peer]).map Conn.peer = s.session.served ++ (s.session.accepted ++ [peer])
    rw [List.map_append, h.received, List.append_assoc]
    rfl
  busy := h.busy
  order := h.order
  requests hd hhd := by
    obtain ⟨c, hc, hrest⟩ := h.requests hd hhd
    exact ⟨c, (List.getElem?_append_left (List.getElem?_eq_some_iff.mp hc).1).trans hc, hrest⟩
  repo := h.repo
  conns k c hk := by
    have hle := h.served_le
    rcases Nat.lt_or_ge k s.conns.length with hlt | hge
    · have hold : s.conns[k]? = some c := (List.getElem?_append_left hlt).symm.trans hk
      exact (h.conns k c hold).congr rfl rfl rfl
    · -- the new one was not received
      have hnew : [Conn.new peer][k - s.conns.length]? = some c :=
        (List.getElem?_append_right hge).symm.trans hk
      obtain rfl : c = .new peer :=
        List.mem_singleton.mp (List.mem_of_getElem? hnew)
      have hnot : ∀ callee, s.busy ≠ some (k, callee) := by
        intro callee hb
        have := (h.busy k callee hb).1
        omega
      refine ⟨fun _ => ⟨rfl, rfl⟩, fun fut hb => absurd hb (hnot _), fun fut m hb => absurd hb (hnot _),
        fun hlt => ?_⟩
      have hlt' : k < s.session.served.length := hlt
      omega

/-- What a client has sent stays readable, or unreadable. -/
lemma Reply.client {more : Bytes} (h : Reply t s k c r) (hopen : c.src.ending = none)
    (hgot : c'.got = c.got ++ more) : Reply t s k c' r := by
  refine h.imp_right fun ⟨hnot, hdone, hnone, he⟩ => ⟨hnot, ?_, ?_, he⟩
  · rintro ⟨-, hstops⟩
    rw [hgot] at hstops
    exact hdone ⟨hopen, stops_of_append hstops⟩
  · rw [hgot, first_append_of_not_stops fun hstops => hdone ⟨hopen, hstops⟩]
    exact hnone

/-- A client goes on. -/
lemma ConnOk.client {more : Bytes} (h : ConnOk t s k c) (hopen : c.src.ending = none)
    (hgot : c'.got = c.got ++ more) (hbuf : c'.src.buf = c.src.buf ++ more) (hout : c'.out = c.out) :
    ConnOk t s k c' where
  waiting hlt := by
    obtain ⟨hall, hempty⟩ := h.waiting hlt
    rw [hbuf, hgot, hout, hall]
    exact ⟨rfl, hempty⟩
  reading fut hb := by
    obtain ⟨hw, hall, hempty, hnot⟩ := h.reading fut hb
    rw [hbuf, hgot, hout, ← hall, List.append_assoc]
    exact ⟨hw, rfl, hempty, hnot⟩
  writing fut m hb := by
    obtain ⟨r, hr, hrest⟩ := h.writing fut m hb
    rw [hout]
    exact ⟨r, hr.client hopen hgot, hrest⟩
  served hlt hb := by
    obtain ⟨r, hr, hrest⟩ := h.served hlt hb
    rw [hout]
    exact ⟨r, hr.client hopen hgot, hrest⟩

lemma Serial.client {more : Bytes} (h : Serial t repo₀ s) (hk : s.conns[k]? = some c)
    (hopen : c.src.ending = none) (hpeer : c'.peer = c.peer) (hgot : c'.got = c.got ++ more)
    (hbuf : c'.src.buf = c.src.buf ++ more) (hout : c'.out = c.out) :
    Serial t repo₀ { s with conns := s.conns.set k c' } where
  received := (map_set_of_eq hk hpeer).trans h.received
  busy := h.busy
  order := h.order
  requests hd hhd := by
    obtain ⟨d, hd', hlt, hp, hfirst⟩ := h.requests hd hhd
    by_cases hj : hd.conn = k
    · rw [hj, hk] at hd'
      obtain rfl := Option.some.inj hd'
      refine ⟨c', ?_, hlt, hp.trans hpeer.symm, ?_⟩
      · rw [hj]
        exact getElem?_set_of_some hk
      · rw [hgot]
        exact first_append hfirst more
    · exact ⟨d, (List.getElem?_set_ne (Ne.symm hj)).trans hd', hlt, hp, hfirst⟩
  repo := h.repo
  conns j d hj := by
    rcases getElem?_set_cases hj with ⟨rfl, rfl⟩ | ⟨-, hd⟩
    · exact ((h.conns j c hk).client hopen hgot hbuf hout).congr rfl rfl rfl
    · exact (h.conns j d hd).congr rfl rfl rfl

/-- One more of a client. -/
lemma serial_fromClient {g : Conn → Conn} (h : Serial t repo₀ s) (hstep : s.fromClient k g = some s')
    (hg : ∀ c, (g c).peer = c.peer ∧ (g c).out = c.out ∧
      ∃ more, (g c).got = c.got ++ more ∧ (g c).src.buf = c.src.buf ++ more) : Serial t repo₀ s' := by
  unfold State.fromClient at hstep
  split at hstep
  · rename_i c hk
    split_ifs at hstep with hopen
    obtain rfl := Option.some.inj hstep
    obtain ⟨hpeer, hout, more, hgot, hbuf⟩ := hg c
    exact h.client hk hopen hpeer hgot hbuf hout
  · cases hstep

variable {callee : Callee} {malformed : Bool}

/-- The other connections, when one is polled. -/
lemma ConnOk.other {j : ℕ} {d : Conn} {new : Option Handled} (h : ConnOk t s j d) (hj : j ≠ k)
    (hb : s.busy = some (k, callee))
    (hserved : s'.session.served = s.session.served)
    (hnext : ∀ i callee', s'.busy = some (i, callee') → i = k ∧ ¬ callee'.Done)
    (hnew : handledOf s'.changes = handledOf s.changes ++ new.toList)
    (hone : ∀ hd, new = some hd → hd.conn = k) : ConnOk t s' j d where
  waiting := by
    rw [hserved]
    exact h.waiting
  reading fut hb' := absurd (hnext j _ hb').1 hj
  writing fut m hb' := absurd (hnext j _ hb').1 hj
  served hlt _ := by
    rw [hserved] at hlt
    have hnot : ∀ callee', s.busy ≠ some (j, callee') := by
      intro callee' hb'
      rw [hb] at hb'
      exact hj (Prod.ext_iff.mp (Option.some.inj hb')).1.symm
    obtain ⟨r, hr, hrest⟩ := h.served hlt hnot
    refine ⟨r, ?_, hrest⟩
    rcases hr with ⟨hd, hmem, hconn, hresp⟩ | ⟨hnone, hrest⟩
    · exact Or.inl ⟨hd, hnew ▸ List.mem_append_left _ hmem, hconn, hresp⟩
    · refine Or.inr ⟨fun hd hmem => ?_, hrest⟩
      rw [hnew, List.mem_append, Option.mem_toList] at hmem
      rcases hmem with hmem | hmem
      · exact hnone hd hmem
      · rw [hone hd hmem]
        exact Ne.symm hj

/-- **The connection that is handled** is polled. -/
lemma Serial.poll (h : Serial t repo₀ s) (new : Option Handled) (hb : s.busy = some (k, callee))
    (hk : s.conns[k]? = some c) (hsession : s'.session = s.session)
    (hconns : s'.conns = s.conns.set k c') (hpeer : c'.peer = c.peer) (hgot : c'.got = c.got)
    (hnext : ∀ i callee', s'.busy = some (i, callee') → i = k ∧ ¬ callee'.Done)
    (hnew : handledOf s'.changes = handledOf s.changes ++ new.toList)
    (hone : ∀ hd, new = some hd → hd.conn = k ∧ hd.peer = c.peer ∧
      first Postcard.clientRequest c.got = some hd.request ∧ ∀ hd' ∈ handledOf s.changes, hd'.conn ≠ k)
    (hrepo : Follows repo₀ s'.changes s'.repo) (hok : ConnOk t s' k c') : Serial t repo₀ s' := by
  obtain ⟨hlast, hended, -⟩ := h.busy k callee hb
  constructor
  · rw [hconns, hsession, map_set_of_eq hk hpeer, h.received]
  · intro i callee' hb'
    obtain ⟨rfl, hnot⟩ := hnext i callee' hb'
    rw [hsession]
    exact ⟨hlast, hended, hnot⟩
  · rw [hnew, List.pairwise_append]
    refine ⟨h.order, ?_, fun hd hmem hd' hmem' => ?_⟩
    · cases new with
      | none => exact List.Pairwise.nil
      | some hd => exact List.pairwise_singleton _ _
    · -- what was handled is of connections that were received before
      obtain ⟨hconn, -, -, hnot⟩ := hone hd' (Option.mem_toList.mp hmem')
      obtain ⟨-, -, hlt, -⟩ := h.requests hd hmem
      have hne := hnot hd hmem
      omega
  · intro hd hmem
    rw [hconns, hsession]
    have hself : ∀ hd : Handled, hd.conn = k → hd.peer = c.peer →
        first Postcard.clientRequest c.got = some hd.request →
        ∃ d, (s.conns.set k c')[hd.conn]? = some d ∧ hd.conn < s.session.served.length ∧
          hd.peer = d.peer ∧ first Postcard.clientRequest d.got = some hd.request := by
      intro hd hconn hp hfirst
      refine ⟨c', ?_, by omega, hp.trans hpeer.symm, hgot ▸ hfirst⟩
      rw [hconn]
      exact getElem?_set_of_some hk
    rw [hnew, List.mem_append, Option.mem_toList] at hmem
    rcases hmem with hmem | hmem
    · obtain ⟨d, hd', hlt, hp, hfirst⟩ := h.requests hd hmem
      by_cases hj : hd.conn = k
      · rw [hj, hk] at hd'
        obtain rfl := Option.some.inj hd'
        exact hself hd hj hp hfirst
      · exact ⟨d, (List.getElem?_set_ne (Ne.symm hj)).trans hd', hlt, hp, hfirst⟩
    · obtain ⟨hconn, hp, hfirst, -⟩ := hone hd hmem
      exact hself hd hconn hp hfirst
  · exact hrepo
  · intro j d hj
    rw [hconns] at hj
    rcases getElem?_set_cases hj with ⟨rfl, rfl⟩ | ⟨hne, hd⟩
    · exact hok
    · exact (h.conns j d hd).other hne hb (congrArg _ hsession) hnext hnew
        fun hd hsome => (hone hd hsome).1

lemma settled_eq_some {i : ℕ} {callee' : Callee} (h : settled k callee = some (i, callee')) :
    i = k ∧ ¬ callee'.Done := by
  unfold settled at h
  split_ifs at h with hdone
  obtain ⟨rfl, rfl⟩ := Prod.ext_iff.mp (Option.some.inj h)
  exact ⟨rfl, hdone⟩

/-- The response is about to be written, if it can be. -/
lemma connOk_settled (hb : s.busy = settled k (Rpc.respondWith t malformed r)) (hr : Reply t s k c r)
    (hout : c.out = []) (hlt : k < s.session.served.length) : ConnOk t s k c := by
  rcases Rpc.respondWith_cases (t := t) malformed r with ⟨hfit, w, hw, hrest⟩ | ⟨-, res, hres⟩
  · have hb' : s.busy = some (k, .writing w malformed) := by
      rw [hb, hw]
      exact if_neg id
    refine ⟨fun hle => absurd hlt (Nat.not_lt.mpr hle), fun fut hread => ?_, fun fut m hwrite => ?_,
      fun _ hnot => absurd hb' (hnot _)⟩
    · rw [hb'] at hread
      cases hread
    · rw [hb'] at hwrite
      cases hwrite
      exact ⟨r, hr, hfit, by rw [hout, List.nil_append, hrest]⟩
  · have hb' : s.busy = none := by
      rw [hb, hres]
      exact if_pos trivial
    refine ⟨fun hle => absurd hlt (Nat.not_lt.mpr hle), fun fut hread => ?_, fun fut m hwrite => ?_,
      fun _ _ => ⟨r, hr, by rw [hout]; exact List.nil_prefix⟩⟩
    · rw [hb'] at hread
      cases hread
    · rw [hb'] at hwrite
      cases hwrite

/-- What the client has sent is a request, or will not be one. -/
lemma exists_reply (env : Env) {fut : ReadMessage} {res : Except Error ClientRequest} {src : Source}
    (hw : fut.Waiting) (hall : fut.bytes ++ c.src.buf = c.got)
    (hnone : ∀ h ∈ handledOf s.changes, h.conn ≠ k)
    (hpoll : poll Postcard.clientRequest fut c.src = .ready res src) :
    ∃ malformed r,
      (pollConn t env s k c (.reading fut)).busy = settled k (Rpc.respondWith t malformed r) ∧
      (pollConn t env s k c (.reading fut)).conns = s.conns.set k { c with src := src } ∧
      Reply t (pollConn t env s k c (.reading fut)) k { c with src := src } r := by
  obtain ⟨-, ending, hres, -⟩ := poll_ready_outcome hw hpoll
  rw [hall] at hres
  cases res with
  | error e =>
    have hcomplete : ¬ Conn.Incomplete { c with src := src } := by
      rintro ⟨hopen, hstops⟩
      have hopen' := (ending_of_poll_ready hpoll).symm.trans hopen
      obtain ⟨fut', src', hpending⟩ := (exists_pending_iff hw).mpr ⟨hopen', hall.symm ▸ hstops⟩
      rw [hpoll] at hpending
      cases hpending
    have hfirst : first Postcard.clientRequest c.got = none := by
      cases hsome : first Postcard.clientRequest c.got with
      | none => rfl
      | some m =>
        rw [outcome_eq_ok.mpr hsome] at hres
        cases hres
    have hnext : pollConn t env s k c (.reading fut) = { s with
        conns := s.conns.set k { c with src := src }
        busy := settled k (Rpc.respondWith t true (.error ("malformed request: " ++ e.display t))) } := by
      simp only [pollConn, hpoll]
    rw [hnext]
    exact ⟨true, _, rfl, rfl, Or.inr ⟨hnone, hcomplete, hfirst, e, rfl⟩⟩
  | ok request =>
    have hnext : pollConn t env s k c (.reading fut) = { s with
        conns := s.conns.set k { c with src := src }
        busy := settled k (Rpc.respondWith t false (Handled.response ⟨k, c.peer, request, env, s.repo⟩))
        repo := Handled.left ⟨k, c.peer, request, env, s.repo⟩
        changes := s.changes ++ [.handled ⟨k, c.peer, request, env, s.repo⟩] } := by
      simp only [pollConn, hpoll]
    rw [hnext]
    refine ⟨false, _, rfl, rfl, Or.inl ⟨⟨k, c.peer, request, env, s.repo⟩, ?_, rfl, rfl⟩⟩
    rw [handledOf_append]
    exact List.mem_append_right _ (List.mem_singleton_self _)

/-- **One poll** of `handle_connection`. -/
theorem serial_pollConn (h : Serial t repo₀ s) (hb : s.busy = some (k, callee))
    (hk : s.conns[k]? = some c) : Serial t repo₀ (pollConn t env s k c callee) := by
  obtain ⟨hlast, -, hbusy⟩ := h.busy k callee hb
  have hlt : k < s.session.served.length := by omega
  have hok := h.conns k c hk
  have hsame : handledOf s.changes = handledOf s.changes ++ (none : Option Handled).toList :=
    (List.append_nil _).symm
  have hno : ∀ hd, (none : Option Handled) = some hd → hd.conn = k ∧ hd.peer = c.peer ∧
      first Postcard.clientRequest c.got = some hd.request ∧
      ∀ hd' ∈ handledOf s.changes, hd'.conn ≠ k := by
    intro hd hsome
    cases hsome
  cases callee with
  | reading fut =>
    obtain ⟨hw, hall, hempty, hnone⟩ := hok.reading fut hb
    unfold pollConn
    cases hpoll : poll Postcard.clientRequest fut c.src with
    | pending fut' src =>
      obtain ⟨rfl, hw', hbytes⟩ := poll_pending_bytes hw hpoll
      simp only [hpoll]
      refine h.poll none hb hk rfl rfl rfl rfl ?_ hsame hno h.repo ?_
      · rintro i callee' hb'
        obtain ⟨rfl, rfl⟩ := Prod.ext_iff.mp (Option.some.inj hb')
        exact ⟨rfl, id⟩
      · refine ⟨fun hle => absurd hlt (Nat.not_lt.mpr hle), fun fut₁ hb' => ?_, fun fut₁ m hb' => ?_,
          fun _ hnot => absurd rfl (hnot _)⟩
        · cases hb'
          refine ⟨hw', ?_, hempty, hnone⟩
          rw [hbytes, hall]
          exact List.append_nil _
        · cases hb'
    | ready res src =>
      obtain ⟨-, ending, hres, -⟩ := poll_ready_outcome hw hpoll
      obtain ⟨m, r, hnext, -, hr⟩ := exists_reply (t := t) env hw hall hnone hpoll
      have hok' := connOk_settled hnext hr hempty (by rwa [session_pollConn])
      simp only [pollConn, hpoll] at hok' ⊢
      cases res with
      | error e =>
        exact h.poll none hb hk rfl rfl rfl rfl (fun i callee' => settled_eq_some) hsame hno h.repo hok'
      | ok request =>
        refine h.poll (some ⟨k, c.peer, request, env, s.repo⟩) hb hk rfl rfl rfl rfl
          (fun i callee' => settled_eq_some) handledOf_append ?_ (h.repo.append ⟨rfl, rfl⟩) hok'
        intro hd hsome
        obtain rfl := Option.some.inj hsome
        rw [hall] at hres
        exact ⟨rfl, rfl, outcome_eq_ok.mp hres.symm, hnone⟩
  | writing fut m =>
    obtain ⟨r, hr, hfit, hbytes⟩ := hok.writing fut m hb
    unfold pollConn
    rcases pollWrite_cases env.calls [] fut with ⟨res, out, heq, hwritten⟩ | ⟨fut', p, hp, heq⟩
    · -- all of the response is written, or a part of it
      have hout : out <+: fut.rest := by
        rcases hwritten with hr | ⟨-, kind, p, hp, hr⟩
        · rw [show out = [] ++ fut.rest from congrArg Prod.snd hr, List.nil_append]
        · rwa [show out = [] ++ p from congrArg Prod.snd hr, List.nil_append]
      simp only [heq]
      refine h.poll none hb hk rfl rfl rfl rfl (fun i callee' hb' => by cases hb') hsame hno h.repo ?_
      refine ⟨fun hle => absurd hlt (Nat.not_lt.mpr hle), fun fut₁ hb' => (by cases hb'),
        fun fut₁ m hb' => (by cases hb'), fun _ _ => ⟨r, hr, ?_⟩⟩
      rw [replyBytes, if_pos hfit, ← hbytes]
      exact (List.prefix_append_right_inj _).mpr hout
    · simp only [heq]
      refine h.poll none hb hk rfl rfl rfl rfl ?_ hsame hno h.repo ?_
      · rintro i callee' hb'
        obtain ⟨rfl, rfl⟩ := Prod.ext_iff.mp (Option.some.inj hb')
        exact ⟨rfl, id⟩
      · refine ⟨fun hle => absurd hlt (Nat.not_lt.mpr hle), fun fut₁ hb' => (by cases hb'),
          fun fut₁ m' hb' => ?_, fun _ hnot => absurd rfl (hnot _)⟩
        cases hb'
        refine ⟨r, hr, hfit, ?_⟩
        rw [← hbytes, hp, List.nil_append, List.append_assoc]
  | returned res => exact absurd trivial hbusy
  | killed => exact absurd trivial hbusy

/-- A turn of the loop receives the client that has waited longest, or none. -/
lemma turn_cases (s : Session) :
    (∃ p, s.accepted = p :: s.turn.accepted ∧ s.turn.served = s.served ++ [p] ∧
      s.turn.ended = s.ended) ∨
    (s.turn.served = s.served ∧ s.turn.accepted = s.accepted) := by
  unfold Session.turn
  split_ifs
  · exact Or.inr ⟨rfl, rfl⟩
  · split
    · rename_i r src _
      refine Or.inr ?_
      rcases readNotification r with e | _ | n
      · exact ⟨rfl, rfl⟩
      · exact ⟨rfl, rfl⟩
      · exact ⟨rfl, rfl⟩
    · split
      · rename_i haccepted
        exact Or.inr ⟨rfl, rfl⟩
      · rename_i p rest haccepted
        exact Or.inl ⟨p, haccepted, rfl, rfl⟩

/-- **A turn of the loop**, no client being served. -/
theorem serial_turn (h : Serial t repo₀ s) (hb : s.busy = none) (hended : s.session.ended = none) :
    Serial t repo₀ { s with
      session := s.session.turn
      busy :=
        if s.session.served.length < s.session.turn.served.length then
          some (s.session.served.length, .reading .start)
        else none } := by
  rcases turn_cases s.session with ⟨p, haccepted, hserved, hstill⟩ | ⟨hserved, haccepted⟩
  · -- the connection was not read from, and nothing was written to it
    have hlen : s.session.turn.served.length = s.session.served.length + 1 := by
      rw [hserved, List.length_append, List.length_singleton]
    have hlt : s.session.served.length < s.session.turn.served.length := by omega
    rw [if_pos hlt]
    constructor
    · rw [hserved, List.append_assoc, List.singleton_append, ← haccepted]
      exact h.received
    · intro k callee hb'
      obtain ⟨rfl, rfl⟩ := Prod.ext_iff.mp (Option.some.inj hb')
      exact ⟨hlen.symm, hstill.trans hended, id⟩
    · exact h.order
    · intro hd hmem
      obtain ⟨c, hc, hlt, hrest⟩ := h.requests hd hmem
      exact ⟨c, hc, show hd.conn < s.session.turn.served.length by omega, hrest⟩
    · exact h.repo
    · intro k c hk
      have hok := h.conns k c hk
      refine ⟨fun hle => hok.waiting ?_, fun fut hb' => ?_, fun fut m hb' => (by cases hb'),
        fun hlt hnot => ?_⟩
      · have hle' : s.session.turn.served.length ≤ k := hle
        omega
      · obtain ⟨rfl, hfut⟩ := Prod.ext_iff.mp (Option.some.inj hb')
        obtain rfl := Callee.reading.inj hfut
        obtain ⟨hall, hempty⟩ := hok.waiting le_rfl
        refine ⟨ReadMessage.waiting_start, hall, hempty, fun hd hmem hconn => ?_⟩
        obtain ⟨-, -, hlt, -⟩ := h.requests hd hmem
        omega
      · have hlt' : k < s.session.turn.served.length := hlt
        have hne : k ≠ s.session.served.length := by
          rintro rfl
          exact hnot _ rfl
        exact hok.served (by omega) fun callee hb' => by rw [hb] at hb'; cases hb'
  · have hlen : ¬ s.session.served.length < s.session.turn.served.length := by
      rw [hserved]
      exact lt_irrefl _
    rw [if_neg hlen, ← hb]
    exact h.frame rfl hserved haccepted rfl (fun hne => absurd hb hne) rfl h.repo

/-- **One action.** -/
theorem serial_step {x : Action} (h : Serial t repo₀ s) (hstep : step t s x = some s') :
    Serial t repo₀ s' := by
  cases x with
  | arrive bs | close kind =>
    rw [step] at hstep
    obtain ⟨next, hnext, rfl⟩ := Option.map_eq_some_iff.mp hstep
    rw [Session.step] at hnext
    split_ifs at hnext
    obtain rfl := Option.some.inj hnext
    exact h.frame rfl rfl rfl rfl (fun _ => rfl) rfl h.repo
  | cancel =>
    obtain rfl := Option.some.inj hstep
    exact h.frame rfl rfl rfl rfl (fun _ => rfl) rfl h.repo
  | connect peer =>
    obtain rfl := Option.some.inj hstep
    exact h.connect peer
  | send k bs =>
    exact serial_fromClient h hstep fun c => ⟨rfl, rfl, bs, rfl, rfl⟩
  | hangUp k kind =>
    exact serial_fromClient h hstep fun c =>
      ⟨rfl, rfl, [], (List.append_nil _).symm, (List.append_nil _).symm⟩
  | other g =>
    obtain rfl := Option.some.inj hstep
    refine h.frame rfl rfl rfl rfl (fun _ => rfl) ?_ (h.repo.append rfl)
    rw [handledOf_append]
    exact List.append_nil _
  | wake env =>
    rw [step, wake] at hstep
    cases hb : s.busy with
    | some b =>
      rw [hb] at hstep
      obtain ⟨c, hk, rfl⟩ := Option.map_eq_some_iff.mp hstep
      exact serial_pollConn h hb hk
    | none =>
      rw [hb] at hstep
      by_cases hended : s.session.ended = none
      · simp only [if_pos hended] at hstep
        obtain rfl := Option.some.inj hstep
        exact serial_turn h hb hended
      · simp only [if_neg hended] at hstep
        cases hstep

end Steps

/-- **One client after the other**, in every run; and what the session does with its supervisor is what
it would do if clients were served at once. -/
theorem serial_of_run {t : ErrorTexts} {peers : List String} {repo₀ : Repo} {s : State}
    {as : List Action} (hrun : exec (step t) (start peers repo₀) as = some s) :
    Serial t repo₀ s ∧ ∃ es, exec Session.step (Session.start peers) es = some s.session ∧
      Session.arrived es = arrived as :=
  ⟨exec_inv (fun _ _ _ h hstep => serial_step h hstep) (serial_start t peers repo₀) hrun,
    _, exec_matched (simulates t) hrun, arrived_matched hrun⟩

/-- A socket and a database that do not fail. -/
def working : Env := ⟨sorted fun _ => "uuid", noFaults, fun _ => .error "", [.takes 99, .takes 99]⟩

def requestOf (title : String) : Bytes :=
  frame Postcard.clientRequest (.submit ⟨title, "", [], "repo", title, []⟩)

/-- The first of two clients has sent a part of its request, the second one all of it. -/
def twoClients : List Action :=
  [.connect "repo-a", .connect "repo-b", .send 1 (requestOf "B"), .wake working,
    .send 0 ((requestOf "A").take 5), .wake working]

/-- A peer joins; the first client goes on, and both are served. -/
theorem serial_of_run_twoClients : ∃ s,
    exec (step ⟨fun _ => "", fun _ => ""⟩) (start [] ⟨Db.empty, []⟩) (twoClients ++
      [.arrive (Session.wire [.peerJoined "repo-c"]), .wake working, .send 0 ((requestOf "A").drop 5),
        .wake working, .wake working, .wake working, .wake working, .wake working,
        .wake working]) = some s ∧
    (Serial ⟨fun _ => "", fun _ => ""⟩ ⟨Db.empty, []⟩ s ∧
      ∃ es, exec Session.step (Session.start []) es = some s.session ∧
        Session.arrived es = Session.wire [.peerJoined "repo-c"]) ∧
    s.busy = none ∧ s.session.calls = [.add "repo-c"] ∧
    (handledOf s.changes).map (fun h => (h.peer, h.response)) =
      [("repo-a", .ok 1), ("repo-b", .ok 2)] := by
  have hrun : exec (step ⟨fun _ => "", fun _ => ""⟩) (start [] ⟨Db.empty, []⟩) (twoClients ++
      [.arrive (Session.wire [.peerJoined "repo-c"]), .wake working, .send 0 ((requestOf "A").drop 5),
        .wake working, .wake working, .wake working, .wake working, .wake working,
        .wake working]) = some _ := rfl
  exact ⟨_, hrun, serial_of_run hrun, rfl, rfl, rfl⟩

/-! ### Who waits for whom -/

/-- The client that an action is about. -/
def Action.client : Action → Option ℕ
  | .send k _ | .hangUp k _ => some k
  | .arrive _ | .close _ | .cancel | .connect _ | .other _ | .wake _ => none

/-- Since `s`, the server has only waited for the request on connection `k`. -/
structure Stuck (k : ℕ) (s s' : State) : Prop where
  busy : ∃ fut, s'.busy = some (k, .reading fut)
  incomplete : ∃ c, s'.conns[k]? = some c ∧ c.Incomplete
  /-- No other client is received, and no request handled, -/
  served : s'.session.served = s.session.served
  handled : handledOf s'.changes = handledOf s.changes
  /-- the supervisor is not heard, -/
  calls : s'.session.calls = s.session.calls
  /-- and a shutdown that was requested does not come. -/
  ended : s'.session.ended = s.session.ended

/-- The response on connection `k` is there, and nothing else was done: it is about to be written, or
does not fit a frame, so that nothing is. -/
structure Decided (t : ErrorTexts) (k : ℕ) (s s' : State) : Prop where
  session : s'.session = s.session
  response : ∃ c r, s'.conns[k]? = some c ∧ Reply t s' k c r ∧ c.out = [] ∧
    ((Fits Postcard.serverResponse r ∧ ∃ fut malformed, s'.busy = some (k, .writing fut malformed) ∧
        fut.rest = frame Postcard.serverResponse r) ∨
      (¬ Fits Postcard.serverResponse r ∧ s'.busy = none))

/-- The request on connection `k` was answered, and nothing else was done. -/
structure GoneOn (t : ErrorTexts) (k : ℕ) (s s' : State) : Prop where
  free : s'.busy = none
  session : s'.session = s.session
  /-- The client has all of a response that fits a frame, and nothing of another. -/
  answered : ∃ c r, s'.conns[k]? = some c ∧ Reply t s' k c r ∧
    (Fits Postcard.serverResponse r → c.out = frame Postcard.serverResponse r) ∧
    (¬ Fits Postcard.serverResponse r → c.out = [])

/-- What the server waits for when it reads on connection `k`. -/
structure Waits (t : ErrorTexts) (s : State) (k : ℕ) (c : Conn) : Prop where
  /-- It waits until this client goes on or hangs up, whatever else happens, -/
  stuck : c.Incomplete → ∀ as s', (∀ x ∈ as, x.client ≠ some k) → exec (step t) s as = some s' →
    Stuck k s s'
  /-- and no longer: the next poll has the response. -/
  decides : ¬ c.Incomplete → ∀ env s', step t s (.wake env) = some s' → Decided t k s s'
  /-- Polls in which the client takes what is written lead on, and need nothing else. -/
  goesOn : ¬ c.Incomplete → ∀ env : Env, ∃ (polls : List (List WriteCall)) (s' : State),
    (∀ calls ∈ polls, Steady calls) ∧
    exec (step t) s (polls.map fun calls => .wake { env with calls := calls }) = some s' ∧ GoneOn t k s s'

section Waiting

variable {t : ErrorTexts} {repo₀ : Repo} {s s₁ s₂ : State} {k : ℕ} {c : Conn}

lemma stuck_fromClient {j : ℕ} {g : Conn → Conn} (h : Stuck k s s₁) (hj : j ≠ k)
    (hstep : s₁.fromClient j g = some s₂) : Stuck k s s₂ := by
  obtain ⟨c, hc, hinc⟩ := h.incomplete
  unfold State.fromClient at hstep
  split at hstep
  · split_ifs at hstep
    obtain rfl := Option.some.inj hstep
    exact ⟨h.busy, ⟨c, (List.getElem?_set_ne hj).trans hc, hinc⟩, h.served, h.handled, h.calls, h.ended⟩
  · cases hstep

/-- A poll of a read that waits. -/
lemma stuck_wake (hI : Serial t repo₀ s₁) (h : Stuck k s s₁) {env : Env}
    (hstep : wake t env s₁ = some s₂) : Stuck k s s₂ := by
  obtain ⟨fut, hb⟩ := h.busy
  obtain ⟨c, hk, hopen, hstops⟩ := h.incomplete
  obtain ⟨hw, hall, -, -⟩ := (hI.conns k c hk).reading fut hb
  obtain ⟨fut', src, hpoll⟩ :=
    (exists_pending_iff (c := Postcard.clientRequest) hw).mpr ⟨hopen, hall.symm ▸ hstops⟩
  obtain ⟨rfl, -, -⟩ := poll_pending_bytes hw hpoll
  simp only [wake, hb, hk, Option.map_some, pollConn, hpoll, Option.some.injEq] at hstep
  subst hstep
  exact ⟨⟨fut', rfl⟩, ⟨_, getElem?_set_of_some hk, rfl, hstops⟩, h.served, h.handled, h.calls, h.ended⟩

/-- **One action** of others. -/
lemma stuck_step {x : Action} (hI : Serial t repo₀ s₁) (h : Stuck k s s₁) (hx : x.client ≠ some k)
    (hstep : step t s₁ x = some s₂) : Stuck k s s₂ := by
  have hk := h.incomplete
  cases x with
  | arrive bs | close kind =>
    rw [step] at hstep
    obtain ⟨next, hnext, rfl⟩ := Option.map_eq_some_iff.mp hstep
    rw [Session.step] at hnext
    split_ifs at hnext
    obtain rfl := Option.some.inj hnext
    exact ⟨h.busy, hk, h.served, h.handled, h.calls, h.ended⟩
  | cancel =>
    obtain rfl := Option.some.inj hstep
    exact ⟨h.busy, hk, h.served, h.handled, h.calls, h.ended⟩
  | connect peer =>
    obtain rfl := Option.some.inj hstep
    obtain ⟨c, hc, hinc⟩ := hk
    have hc' : (s₁.conns ++ [.new peer])[k]? = some c :=
      (List.getElem?_append_left (List.getElem?_eq_some_iff.mp hc).1).trans hc
    exact ⟨h.busy, ⟨c, hc', hinc⟩, h.served, h.handled, h.calls, h.ended⟩
  | send j bs | hangUp j kind =>
    exact stuck_fromClient h (fun hj => hx (congrArg some hj)) hstep
  | other g =>
    obtain rfl := Option.some.inj hstep
    refine ⟨h.busy, hk, h.served, ?_, h.calls, h.ended⟩
    rw [handledOf_append, ← h.handled]
    exact List.append_nil _
  | wake env => exact stuck_wake hI h hstep

/-- **The server waits** for an incomplete request. -/
theorem stuck_of_run {fut : ReadMessage} (hI : Serial t repo₀ s) (hb : s.busy = some (k, .reading fut))
    (hk : s.conns[k]? = some c) (hinc : c.Incomplete) {as : List Action}
    (has : ∀ x ∈ as, x.client ≠ some k) (hrun : exec (step t) s as = some s₂) : Stuck k s s₂ := by
  have hstart : Serial t repo₀ s ∧ Stuck k s s := ⟨hI, ⟨fut, hb⟩, ⟨c, hk, hinc⟩, rfl, rfl, rfl, rfl⟩
  refine (exec_inv_of_meets (I := fun s₁ => Serial t repo₀ s₁ ∧ Stuck k s s₁)
    (C := fun _ (x : Action) => x.client ≠ some k) ?_ hstart (meets_of_forall has) hrun).2
  intro s₁ x s₂ h hx hstep
  exact ⟨serial_step h.1 hstep, stuck_step h.1 h.2 hx hstep⟩

/-- **The response is there** at the next poll of a request that is complete, or will not be. -/
theorem decided_of_complete {fut : ReadMessage} (hI : Serial t repo₀ s)
    (hb : s.busy = some (k, .reading fut)) (hk : s.conns[k]? = some c) (hdone : ¬ c.Incomplete)
    {env : Env} {s' : State} (hstep : step t s (.wake env) = some s') : Decided t k s s' := by
  obtain ⟨hw, hall, hempty, hnone⟩ := (hI.conns k c hk).reading fut hb
  rw [step, wake, hb] at hstep
  simp only [hk, Option.map_some, Option.some.injEq] at hstep
  subst hstep
  refine ⟨session_pollConn c (.reading fut), ?_⟩
  cases hpoll : poll Postcard.clientRequest fut c.src with
  | pending fut' src =>
    have hpending := (exists_pending_iff hw).mp ⟨fut', src, hpoll⟩
    rw [hall] at hpending
    exact absurd hpending hdone
  | ready res src =>
    obtain ⟨m, r, hnext, hconns, hr⟩ := exists_reply (t := t) env hw hall hnone hpoll
    refine ⟨_, r, hconns ▸ getElem?_set_of_some hk, hr, hempty, ?_⟩
    rw [hnext]
    rcases Rpc.respondWith_cases (t := t) m r with ⟨hfit, w, hwriting, hrest⟩ | ⟨hfit, res', hreturned⟩
    · rw [hwriting]
      exact Or.inl ⟨hfit, w, m, if_neg id, hrest⟩
    · rw [hreturned]
      exact Or.inr ⟨hfit, if_pos trivial⟩

/-- **A response is written** to a client that takes it. -/
lemma exists_goneOn {fut : WriteMessage} {malformed : Bool} (hI : Serial t repo₀ s)
    (hb : s.busy = some (k, .writing fut malformed)) (hk : s.conns[k]? = some c) (env : Env) :
    ∃ calls s', Steady calls ∧ step t s (.wake { env with calls := calls }) = some s' ∧
      GoneOn t k s s' := by
  obtain ⟨r, hr, hfit, hbytes⟩ := (hI.conns k c hk).writing fut malformed hb
  obtain ⟨calls, hsteady, hpoll⟩ := exists_pollWrite_ok [] fut
  refine ⟨calls, { s with conns := s.conns.set k { c with out := c.out ++ fut.rest }, busy := none },
    hsteady, ?_, rfl, rfl, _, r, getElem?_set_of_some hk, hr, fun _ => hbytes, fun hno => absurd hfit hno⟩
  simp only [step, wake, hb, hk, Option.map_some, pollConn, hpoll, List.nil_append]

/-- **The server goes on** with a request that is complete, or will not be one. -/
theorem exists_goneOn_of_complete {fut : ReadMessage} (hI : Serial t repo₀ s)
    (hb : s.busy = some (k, .reading fut)) (hk : s.conns[k]? = some c) (hdone : ¬ c.Incomplete)
    (env : Env) : ∃ (polls : List (List WriteCall)) (s' : State), (∀ calls ∈ polls, Steady calls) ∧
      exec (step t) s (polls.map fun calls => .wake { env with calls := calls }) = some s' ∧
      GoneOn t k s s' := by
  have hnil : Steady [] := fun _ hcall => absurd hcall List.not_mem_nil
  obtain ⟨s₁, hstep⟩ : ∃ s₁, step t s (.wake { env with calls := [] }) = some s₁ := by
    refine ⟨pollConn t { env with calls := [] } s k c (.reading fut), ?_⟩
    simp only [step, wake, hb, hk, Option.map_some]
  obtain ⟨hsession, c₁, r, hk₁, hr, hout, ⟨hfit, w, m, hb₁, -⟩ | ⟨hfit, hb₁⟩⟩ :=
    decided_of_complete hI hb hk hdone hstep
  · obtain ⟨calls, s', hsteady, hstep', hgone⟩ := exists_goneOn (serial_step hI hstep) hb₁ hk₁ env
    have hexec := exec_cons_eq_some.mpr ⟨s₁, hstep, exec_one hstep'⟩
    have hall : ∀ calls' ∈ [[], calls], Steady calls' :=
      List.forall_mem_cons.mpr ⟨hnil, List.forall_mem_singleton.mpr hsteady⟩
    exact ⟨[[], calls], s', hall, hexec, hgone.free, hgone.session.trans hsession, hgone.answered⟩
  · exact ⟨[[]], s₁, List.forall_mem_singleton.mpr hnil, exec_one hstep, hb₁, hsession, c₁, r, hk₁, hr,
      fun h => absurd h hfit, fun _ => hout⟩

end Waiting

/-- **Head of line.** While it reads a request, the server waits for this one client and for nothing
else; it has the response once the request is complete, or cannot be, and goes on if the client takes
it. -/
theorem waits_of_run {t : ErrorTexts} {peers : List String} {repo₀ : Repo} {s : State}
    {as : List Action} {k : ℕ} {c : Conn} {fut : ReadMessage}
    (hrun : exec (step t) (start peers repo₀) as = some s) (hb : s.busy = some (k, .reading fut))
    (hk : s.conns[k]? = some c) : Waits t s k c := by
  obtain ⟨hI, -⟩ := serial_of_run hrun
  exact ⟨fun hinc _ _ has => stuck_of_run hI hb hk hinc has,
    fun hdone _ _ => decided_of_complete hI hb hk hdone, exists_goneOn_of_complete hI hb hk⟩

/-- The second client has sent its request, and waits for the first. -/
theorem waits_of_run_twoClients : ∃ s c fut,
    exec (step ⟨fun _ => "", fun _ => ""⟩) (start [] ⟨Db.empty, []⟩) twoClients = some s ∧
    s.busy = some (0, .reading fut) ∧ s.conns[0]? = some c ∧ c.Incomplete ∧
    Waits ⟨fun _ => "", fun _ => ""⟩ s 0 c := by
  have hrun : exec (step ⟨fun _ => "", fun _ => ""⟩) (start [] ⟨Db.empty, []⟩) twoClients = some _ := rfl
  exact ⟨_, _, _, hrun, rfl, rfl, by decide, waits_of_run hrun rfl rfl⟩

end Crossbridge.Bridge.Connections
