import Crossbridge.Lib.Codec

/-!
The messages of the wire protocol, and their postcard encoding.

Postcard writes the fields of a struct one after the other, an enum as the number of the variant (a
varint of 32 bits) followed by its fields, lists, strings and byte vectors behind their length (a
varint of 64 bits), and an `i64` as the varint of its zigzag image. Reading takes one value off the
front and says nothing of the bytes after it.
-/

namespace Crossbridge.Protocol

open Crossbridge.Varint

/-! ### The messages -/

/-- An id of a row of the crosslink DB: an `i64`. -/
abbrev IssueId := Int64

/-- Repo server to supervisor, once, on the persistent stream. -/
structure Register where
  slug : String
  group : String
  deriving DecidableEq, Repr

/-- Supervisor to repo server, in answer to `Register`. -/
inductive RegisterResponse where
  | ack (peers : List String)
  | nack (reason : String)
  deriving DecidableEq, Repr

/-- Supervisor to repo server: a change of the peer group. -/
inductive Notification where
  | peerJoined (slug : String)
  | peerLeft (slug : String)
  deriving DecidableEq, Repr

/-- The envelope of everything that travels from the supervisor to a repo server. -/
inductive SupervisorMessage where
  | registerResponse (r : RegisterResponse)
  | notification (n : Notification)
  deriving DecidableEq, Repr

structure Attachment where
  filename : String
  data : Bytes
  deriving DecidableEq, Repr

structure AnswerComment where
  content : String
  kind : String
  deriving DecidableEq, Repr

structure SubmitIssue where
  title : String
  body : String
  labels : List String
  sourceSlug : String
  sourceUuid : String
  attachments : List Attachment
  deriving DecidableEq, Repr

structure SubmitAnswer where
  sourceUuid : String
  comments : List AnswerComment
  attachments : List Attachment
  deriving DecidableEq, Repr

/-- Client to repo server, one per connection. -/
inductive ClientRequest where
  | submit (s : SubmitIssue)
  | answer (a : SubmitAnswer)
  deriving DecidableEq, Repr

/-- Repo server to client, one per connection. -/
inductive ServerResponse where
  | ok (issueId : IssueId)
  | error (message : String)
  deriving DecidableEq, Repr

/-! ### Postcard -/

/-- The errors of `postcard::from_bytes` on these types. -/
inductive PostcardError where
  | deserializeUnexpectedEnd
  | deserializeBadVarint
  | deserializeBadUtf8
  /-- An enum variant the type does not have. -/
  | serdeDeCustom
  deriving DecidableEq, Repr

/-- The error of a varint, as postcard's. -/
def PostcardError.ofVarint : Bad → PostcardError
  | .unexpectedEnd => .deserializeUnexpectedEnd
  | .badVarint => .deserializeBadVarint

namespace Postcard

/-- Encodings of `2 ^ 64` bytes and more do not exist: lengths are 64-bit numbers. -/
abbrev lim : ℕ := 2 ^ 64

/-- Values in postcard. -/
abbrev Codec (α : Type) := Crossbridge.Codec lim PostcardError α

/-- A varint of at most `k + 1` bytes whose last byte may hold `last`. -/
def varint (k last lim : ℕ) (hlast : last < 128) (h : lim = 128 ^ k * (last + 1)) :
    NumCodec lim PostcardError where
  enc := varintEnc k
  dec bs :=
    match varintDec last k bs with
    | .ok r => .ok r
    | .error e => .error (.ofVarint e)
  enc_pos := varintEnc_length_pos k
  dec_enc n rest hn := by rw [varintDec_varintEnc hlast rest (h ▸ hn)]

/-- A length: ten bytes hold 64 bits. -/
def usize : NumCodec lim PostcardError := varint 9 1 lim (by decide) (by norm_num)

/-- The number of a variant: five bytes hold 32 bits. -/
def u32 : NumCodec (2 ^ 32) PostcardError := varint 4 15 (2 ^ 32) (by decide) (by norm_num)

/-- An enum of two variants. -/
def enum {α β : Type} (ca : Codec α) (cb : Codec β) : Codec (α ⊕ β) :=
  Codec.alt u32 (by norm_num) .serdeDeCustom ca cb

/-- A list behind its length. -/
def seq {α : Type} (c : Codec α) : Codec (List α) := Codec.list usize c

/-- The UTF-8 bytes of a string. -/
def utf8 (s : String) : Bytes := s.toByteArray.data.toList

/-- `core::str::from_utf8`. -/
def fromUtf8 (bs : Bytes) : Except PostcardError String :=
  match String.fromUTF8? ⟨⟨bs⟩⟩ with
  | some s => .ok s
  | none => .error .deserializeBadUtf8

lemma fromUtf8_utf8 (s : String) : fromUtf8 (utf8 s) = .ok s := by
  have h : String.fromUTF8? s.toByteArray = some s := by
    unfold String.fromUTF8?
    rw [dif_pos s.isValidUTF8]
    rfl
  unfold fromUtf8 utf8
  simp only [Array.toArray_toList, h]

def string : Codec String :=
  Codec.bytes usize .deserializeUnexpectedEnd utf8 fromUtf8 fromUtf8_utf8

/-- `Vec<u8>`: a byte of the vector is a byte of the encoding. -/
def byteVec : Codec Bytes :=
  Codec.bytes usize .deserializeUnexpectedEnd id .ok fun _ => rfl

/-- The zigzag image of an `i64`: `0, -1, 1, -2, …` as `0, 1, 2, 3, …`. -/
def zigzag (i : Int64) : ℕ :=
  if 0 ≤ i.toInt then 2 * i.toInt.toNat else 2 * (-i.toInt).toNat - 1

/-- The `i64` of a zigzag image. -/
def unzigzag (n : ℕ) : Int64 :=
  if n % 2 = 0 then Int64.ofInt (n / 2 : ℕ) else Int64.ofInt (-((n / 2 : ℕ) : ℤ) - 1)

lemma zigzag_lt (i : Int64) : zigzag i < lim := by
  have h1 := i.toInt_lt
  have h2 := i.le_toInt
  unfold zigzag lim
  split <;> omega

lemma unzigzag_zigzag (i : Int64) : unzigzag (zigzag i) = i := by
  unfold unzigzag zigzag
  by_cases h : 0 ≤ i.toInt
  · rw [if_pos h, if_pos (by omega)]
    have : ((2 * i.toInt.toNat / 2 : ℕ) : ℤ) = i.toInt := by omega
    rw [this, Int64.ofInt_toInt]
  · rw [if_neg h, if_neg (by omega)]
    have : -(((2 * (-i.toInt).toNat - 1) / 2 : ℕ) : ℤ) - 1 = i.toInt := by omega
    rw [this, Int64.ofInt_toInt]

def i64 : Codec Int64 where
  enc i := usize.enc (zigzag i)
  dec bs :=
    match usize.dec bs with
    | .error e => .error e
    | .ok (n, bs) => .ok (unzigzag n, bs)
  enc_pos i := usize.enc_pos (zigzag i)
  dec_enc i rest _ := by
    simp only [usize.dec_enc _ rest (zigzag_lt i), unzigzag_zigzag]

/-! ### The codecs of the messages -/

def register : Codec Register :=
  (string.pair string).map (fun p => ⟨p.1, p.2⟩) (fun r => (r.slug, r.group)) fun _ => rfl

def registerResponse : Codec RegisterResponse :=
  (enum (seq string) string).map
    (fun | .inl peers => .ack peers | .inr reason => .nack reason)
    (fun | .ack peers => .inl peers | .nack reason => .inr reason)
    (by rintro (_ | _) <;> rfl)

def notification : Codec Notification :=
  (enum string string).map
    (fun | .inl slug => .peerJoined slug | .inr slug => .peerLeft slug)
    (fun | .peerJoined slug => .inl slug | .peerLeft slug => .inr slug)
    (by rintro (_ | _) <;> rfl)

def supervisorMessage : Codec SupervisorMessage :=
  (enum registerResponse notification).map
    (fun | .inl r => .registerResponse r | .inr n => .notification n)
    (fun | .registerResponse r => .inl r | .notification n => .inr n)
    (by rintro (_ | _) <;> rfl)

def attachment : Codec Attachment :=
  (string.pair byteVec).map (fun p => ⟨p.1, p.2⟩) (fun a => (a.filename, a.data)) fun _ => rfl

def answerComment : Codec AnswerComment :=
  (string.pair string).map (fun p => ⟨p.1, p.2⟩) (fun c => (c.content, c.kind)) fun _ => rfl

def submitIssue : Codec SubmitIssue :=
  (string.pair (string.pair ((seq string).pair (string.pair
      (string.pair (seq attachment)))))).map
    (fun p => ⟨p.1, p.2.1, p.2.2.1, p.2.2.2.1, p.2.2.2.2.1, p.2.2.2.2.2⟩)
    (fun s => (s.title, s.body, s.labels, s.sourceSlug, s.sourceUuid, s.attachments)) fun _ => rfl

def submitAnswer : Codec SubmitAnswer :=
  (string.pair ((seq answerComment).pair (seq attachment))).map
    (fun p => ⟨p.1, p.2.1, p.2.2⟩) (fun a => (a.sourceUuid, a.comments, a.attachments))
    fun _ => rfl

def clientRequest : Codec ClientRequest :=
  (enum submitIssue submitAnswer).map
    (fun | .inl s => .submit s | .inr a => .answer a)
    (fun | .submit s => .inl s | .answer a => .inr a)
    (by rintro (_ | _) <;> rfl)

def serverResponse : Codec ServerResponse :=
  (enum i64 string).map
    (fun | .inl id => .ok id | .inr message => .error message)
    (fun | .ok id => .inl id | .error message => .inr message)
    (by rintro (_ | _) <;> rfl)

end Postcard

end Crossbridge.Protocol
