import Crossbridge.Lib.Links
import Crossbridge.Lib.Text
import Crossbridge.Server.Handler

/-!
The attachments of an issue: `materialize`.

A workspace is requested of `jj`, the attachments are written into it one after the other, `jj`
describes and names the commit, and the workspace is given up again. What `jj` and the file system
answer is given (`Surroundings`), and a run is what the function returns together with the calls it has
made and the files as `jj describe` finds them (`Run`).

`writeAttachments_spec` says what the loop leaves, by induction on the attachments: where a name
leads does not change under way (`follow_store`).
-/

namespace Crossbridge.Server

open Crossbridge.Protocol Crossbridge.Varint Crossbridge.Text Crossbridge.FileTree

/-- Files with bytes, links and directories. -/
abbrev Files := FileTree (Entry Bytes)

/-- A path as it is displayed. -/
def displayPath (p : Path) : String := "/" ++ "/".intercalate p

/-- A file name joined to a path, as it is displayed: `.` and `..` are not resolved. -/
def displayJoin (p : Path) (name : String) : String := displayPath p ++ "/" ++ name

/-- What the function asks of the system. -/
inductive Call where
  | createDirAll (p : Path)
  | removeDirAll (p : Path)
  /-- A file is opened for writing, wherever it was found. -/
  | write (p : Path)
  | jj (cwd : Path) (args : List String)
  deriving DecidableEq, Repr

/-- What becomes of a write. -/
inductive WriteOutcome where
  | done
  /-- The file cannot be opened. -/
  | refused (e : String)
  /-- The file is opened, and some of the bytes are written. -/
  | cut (n : ℕ) (e : String)
  deriving DecidableEq, Repr

/-- What the `jj` commands answer; that of `jj workspace forget` is ignored. -/
structure Jj where
  add : Option String
  describe : Option String
  log : Except String String

/-- What the system answers otherwise. -/
structure Surroundings where
  /-- `.jj` is a directory. -/
  jjDir : Bool
  /-- `.git` is there. -/
  git : Bool
  createRoot : Option String
  /-- There is something at the path of the workspace, and whether it can be removed. -/
  stale : Bool
  clear : Option String
  /-- The files when the workspace was added. -/
  files : Files
  creatable : Path → Bool
  /-- The error for a path that leads nowhere. -/
  openError : String
  write : ℕ → WriteOutcome

/-- What a call of `materialize` comes to. -/
structure Run where
  result : Except String MaterializedAttachment
  calls : List Call
  /-- The files when `jj describe` is run. -/
  described : Option Files

/-- How many links the system follows. -/
def maxLinks : ℕ := 40

/-! ### The loop -/

/-- Names that are turned down before anything is written. -/
def checkFilename (a : Attachment) : Option String :=
  if a.filename = "" then some "attachment with empty filename"
  else if '/' ∈ a.filename.toList ∨ '\\' ∈ a.filename.toList then
    some ("attachment filename `" ++ a.filename ++ "` must not contain path separators")
  else none

/-- Where the file of a name is, in a workspace; the directories `.` and `..` cannot be written. -/
def openPath (follow : Path → Option Path) (ws : Path) (name : String) : Option Path :=
  if name = "." ∨ name = ".." then none else follow (Path.join ws name)

/-- What the loop over the attachments comes to. -/
structure Writing where
  filenames : Except String (List String)
  files : Files
  calls : List Call

/-- An attachment that was written, and what the rest of the loop comes to. -/
def Writing.cons (name : String) (p : Path) (w : Writing) : Writing :=
  ⟨w.filenames.map fun names => name :: names, w.files, .write p :: w.calls⟩

/-- The loop over the attachments; `k` counts the writes. -/
def writeAttachments (o : Surroundings) (ws : Path) : ℕ → List Attachment → Files → Writing
  | _, [], t => ⟨.ok [], t, []⟩
  | k, a :: as, t =>
    match checkFilename a with
    | some e => ⟨.error e, t, []⟩
    | none =>
      let context e := "writing attachment " ++ displayJoin ws a.filename ++ ": " ++ e
      match openPath (follow o.creatable t maxLinks) ws a.filename with
      | none => ⟨.error (context o.openError), t, []⟩
      | some p =>
        match o.write k with
        | .refused e => ⟨.error (context e), t, []⟩
        | .cut n e => ⟨.error (context e), store t p (a.data.take n), [.write p]⟩
        | .done => (writeAttachments o ws (k + 1) as (store t p a.data)).cons a.filename p

/-! ### The function -/

/-- `unique_name`. -/
def uniqueName (pid nanos : ℕ) : String := "xb-attach-" ++ toString pid ++ "-" ++ toString nanos

def tmpRoot (repo : Path) : Path := Path.join repo ".crossbridge-tmp"

/-- What is done in the workspace, once it was requested. -/
def materializeIn (o : Surroundings) (jj : Jj) (repo ws : Path) (unique : String)
    (attachments : List Attachment) : Run :=
  let add : Call := .jj repo ["workspace", "add", "--name", unique, displayPath ws]
  match jj.add with
  | some e => ⟨.error ("jj workspace add: " ++ e), [add], none⟩
  | none =>
    let w := writeAttachments o ws 0 attachments o.files
    match w.filenames with
    | .error e => ⟨.error e, add :: w.calls, none⟩
    | .ok filenames =>
      let msg := "crossbridge attachment: " ++ ", ".intercalate filenames
      let describe : Call := .jj ws ["describe", "-m", msg]
      match jj.describe with
      | some e => ⟨.error ("jj describe: " ++ e), add :: w.calls ++ [describe], some w.files⟩
      | none =>
        let log : Call := .jj ws ["log", "-r", "@", "--no-graph", "-T", "commit_id"]
        ⟨match jj.log with
          | .error e => .error ("jj log -r @: " ++ e)
          | .ok stdout =>
            if trim stdout.toList = [] then .error "jj log returned empty commit_id"
            else .ok ⟨String.ofList (trim stdout.toList), filenames⟩,
          add :: w.calls ++ [describe, log], some w.files⟩

/-- `materialize`, with the name it has made up. -/
def materialize (o : Surroundings) (jj : Jj) (repo : Path) (unique : String)
    (attachments : List Attachment) : Run :=
  if attachments = [] then ⟨.error "no attachments to materialize", [], none⟩
  else if o.jjDir = false ∧ o.git = false then
    ⟨.error (displayPath repo ++ " is neither a jj nor a git repo"), [], none⟩
  else
    let ws := Path.join (tmpRoot repo) unique
    let create : Call := .createDirAll (tmpRoot repo)
    match o.createRoot with
    | some e => ⟨.error ("creating " ++ displayPath (tmpRoot repo) ++ ": " ++ e), [create], none⟩
    | none =>
      let clear : List Call := if o.stale then [.removeDirAll ws] else []
      match o.stale, o.clear with
      | true, some e => ⟨.error e, create :: clear, none⟩
      | _, _ =>
        let r := materializeIn o jj repo ws unique attachments
        -- the two steps of the cleanup, whatever their outcome
        ⟨r.result, create :: clear ++ r.calls ++
          [.jj repo ["workspace", "forget", unique], .removeDirAll ws], r.described⟩

/-! ### Where the attachments are written -/

section Landings

variable (o : Surroundings) (go : Path → Option Path) (ws : Path)

/-- Where an attachment is written, if its file is opened: `go` leads from the name to the file. -/
def opened (k : ℕ) (a : Attachment) : Option Path :=
  match checkFilename a, o.write k with
  | none, .done | none, .cut _ _ => openPath go ws a.filename
  | _, _ => none

/-- Where the attachments are written, up to the first that is not written as a whole. -/
def landings : ℕ → List Attachment → List Path
  | _, [] => []
  | k, a :: as =>
    match opened o go ws k a with
    | none => []
    | some p => if o.write k = .done then p :: landings (k + 1) as else [p]

/-- Every attachment is written as a whole. -/
def AllWritten : ℕ → List Attachment → Prop
  | _, [] => True
  | k, a :: as => (opened o go ws k a).isSome = true ∧ o.write k = .done ∧ AllWritten (k + 1) as

variable {o go ws} {k : ℕ} {a : Attachment} {as : List Attachment} {p : Path}

lemma checkFilename_eq_none (h : checkFilename a = none) :
    a.filename ≠ "" ∧ '/' ∉ a.filename.toList := by
  unfold checkFilename at h
  split_ifs at h with hempty hsep
  exact ⟨hempty, fun hslash => hsep (Or.inl hslash)⟩

/-- What is opened has a plain name, and is found from there. -/
lemma opened_some (h : opened o go ws k a = some p) : go (ws ++ [a.filename]) = some p := by
  have hcheck : checkFilename a = none ∧ openPath go ws a.filename = some p := by
    unfold opened at h
    split at h
    · rename_i hc _
      exact ⟨hc, h⟩
    · rename_i hc _
      exact ⟨hc, h⟩
    · cases h
  obtain ⟨hc, hopen⟩ := hcheck
  obtain ⟨hempty, hslash⟩ := checkFilename_eq_none hc
  unfold openPath at hopen
  split_ifs at hopen with hdots
  rw [not_or] at hdots
  rwa [Path.join_of_isName ⟨hempty, hdots.1, hdots.2, hslash⟩] at hopen

lemma mem_landings (h : p ∈ landings o go ws k as) :
    ∃ a ∈ as, go (ws ++ [a.filename]) = some p := by
  induction as generalizing k with
  | nil => cases h
  | cons a as ih =>
    rw [landings] at h
    split at h
    · cases h
    · rename_i q hq
      have hgo := opened_some hq
      split_ifs at h with hdone
      · rcases List.mem_cons.mp h with rfl | h
        · exact ⟨a, List.mem_cons_self, hgo⟩
        · obtain ⟨b, hb, hgo⟩ := ih h
          exact ⟨b, List.mem_cons_of_mem _ hb, hgo⟩
      · obtain rfl := List.mem_singleton.mp h
        exact ⟨a, List.mem_cons_self, hgo⟩

end Landings

/-! ### What the loop leaves -/

section Loop

variable {o : Surroundings} {ws : Path} {k : ℕ} {a : Attachment} {as : List Attachment} {t : Files}
  {p : Path}

/-- The first attachment is not opened, written as a whole, or cut. -/
lemma writeAttachments_cons (o : Surroundings) (ws : Path) (k : ℕ) (a : Attachment) (as : List Attachment)
    (t : Files) :
    (opened o (follow o.creatable t maxLinks) ws k a = none ∧
      ∃ e, writeAttachments o ws k (a :: as) t = ⟨.error e, t, []⟩) ∨
    ∃ p, opened o (follow o.creatable t maxLinks) ws k a = some p ∧
      ((o.write k = .done ∧ writeAttachments o ws k (a :: as) t =
        (writeAttachments o ws (k + 1) as (store t p a.data)).cons a.filename p) ∨
      (o.write k ≠ .done ∧ ∃ e d, writeAttachments o ws k (a :: as) t =
        ⟨.error e, store t p d, [.write p]⟩)) := by
  rw [writeAttachments, opened]
  cases checkFilename a with
  | some e => exact Or.inl ⟨by cases o.write k <;> rfl, e, rfl⟩
  | none =>
    cases hopen : openPath (follow o.creatable t maxLinks) ws a.filename with
    | none => exact Or.inl ⟨by cases o.write k <;> rfl, _, rfl⟩
    | some p =>
      cases o.write k with
      | refused e => exact Or.inl ⟨rfl, _, rfl⟩
      | cut n e => exact Or.inr ⟨p, rfl, Or.inr ⟨by simp, _, _, rfl⟩⟩
      | done => exact Or.inr ⟨p, rfl, Or.inl ⟨rfl, rfl⟩⟩

/-- What the loop over `as` leaves of the files `t`, when `go` says where names lead. -/
structure Wrote (o : Surroundings) (go : Path → Option Path) (ws : Path) (k : ℕ) (as : List Attachment)
    (t : Files) (w : Writing) : Prop where
  calls : w.calls = (landings o go ws k as).map .write
  ok : AllWritten o go ws k as → w.filenames = .ok (as.map Attachment.filename)
  error : ¬ AllWritten o go ws k as → ∃ e, w.filenames = .error e
  links : ∀ p target, w.files.lookup p = some (.file (.link target)) ↔
    t.lookup p = some (.file (.link target))
  elsewhere : ∀ p ∉ landings o go ws k as, w.files.lookup p = t.lookup p

/-- **The loop.** Where names lead stays the same from one attachment to the next. -/
theorem writeAttachments_spec (o : Surroundings) (ws : Path) :
    ∀ (k : ℕ) (as : List Attachment) (t : Files),
    Wrote o (follow o.creatable t maxLinks) ws k as t (writeAttachments o ws k as t)
  | _, [], _ => ⟨rfl, fun _ => rfl, fun h => absurd trivial h, fun _ _ => Iff.rfl, fun _ _ => rfl⟩
  | k, a :: as, t => by
    rcases writeAttachments_cons o ws k a as t with ⟨hopen, e, heq⟩ | ⟨p, hopen, ⟨hdone, heq⟩ | ⟨hcut, e, d, heq⟩⟩
    · have hland : landings o (follow o.creatable t maxLinks) ws k (a :: as) = [] := by
        simp only [landings, hopen]
      have hall : ¬ AllWritten o (follow o.creatable t maxLinks) ws k (a :: as) := by
        rintro ⟨hsome, -⟩
        rw [hopen] at hsome
        cases hsome
      rw [heq]
      exact ⟨by rw [hland]; rfl, fun h => absurd h hall, fun _ => ⟨e, rfl⟩, fun _ _ => Iff.rfl,
        fun _ _ => rfl⟩
    · have hp := opens_of_follow (opened_some hopen)
      have ih := writeAttachments_spec o ws (k + 1) as (store t p a.data)
      rw [follow_store hp] at ih
      have hland : landings o (follow o.creatable t maxLinks) ws k (a :: as) =
          p :: landings o (follow o.creatable t maxLinks) ws (k + 1) as := by
        simp only [landings, hopen, if_pos hdone]
      have hall : AllWritten o (follow o.creatable t maxLinks) ws k (a :: as) ↔
          AllWritten o (follow o.creatable t maxLinks) ws (k + 1) as := by
        rw [AllWritten, hopen]
        simp [hdone]
      rw [heq]
      refine ⟨?_, fun h => ?_, fun h => ?_, fun q target => ?_, fun q hq => ?_⟩
      · rw [hland, List.map_cons, ← ih.calls]
        rfl
      · rw [Writing.cons, ih.ok (hall.mp h)]
        rfl
      · obtain ⟨e, he⟩ := ih.error fun h' => h (hall.mpr h')
        exact ⟨e, by rw [Writing.cons, he]; rfl⟩
      · exact (ih.links q target).trans (lookup_store_link hp)
      · rw [hland, List.mem_cons, not_or] at hq
        exact (ih.elsewhere q hq.2).trans (lookup_store_ne hq.1)
    · have hp := opens_of_follow (opened_some hopen)
      have hland : landings o (follow o.creatable t maxLinks) ws k (a :: as) = [p] := by
        simp only [landings, hopen, if_neg hcut]
      have hall : ¬ AllWritten o (follow o.creatable t maxLinks) ws k (a :: as) := fun h => hcut h.2.1
      rw [heq]
      refine ⟨by rw [hland]; rfl, fun h => absurd h hall, fun _ => ⟨e, rfl⟩,
        fun q target => lookup_store_link hp, fun q hq => lookup_store_ne ?_⟩
      rw [hland, List.mem_singleton] at hq
      exact hq

/-- No name is that of a link. -/
def Unlinked (t : Files) (ws : Path) (as : List Attachment) : Prop :=
  ∀ a ∈ as, ∀ target, t.lookup (ws ++ [a.filename]) ≠ some (.file (.link target))

/-- What is no link is written where its name says. -/
lemma eq_of_follow {n : ℕ} {q : Path} (hq : ∀ target, t.lookup q ≠ some (.file (.link target)))
    (h : follow o.creatable t n q = some p) : p = q := by
  rw [follow_of_ne_link hq] at h
  split_ifs at h
  exact (Option.some.inj h).symm

/-- **Names apart.** All of them written, every name has its data. -/
theorem lookup_writeAttachments (o : Surroundings) (ws : Path) :
    ∀ (k : ℕ) (as : List Attachment) (t : Files), AllWritten o (follow o.creatable t maxLinks) ws k as →
      (as.map Attachment.filename).Nodup → Unlinked t ws as → ∀ a ∈ as,
      (writeAttachments o ws k as t).files.lookup (ws ++ [a.filename]) = some (.file (.data a.data))
  | _, [], _, _, _, _ => fun _ ha => by cases ha
  | k, a :: as, t, hall, hnodup, hlinks => by
    obtain ⟨hsome, hdone, hrest⟩ := hall
    obtain ⟨hnew, hnodup'⟩ := List.nodup_cons.mp hnodup
    obtain ⟨hlink, hlinks'⟩ := List.forall_mem_cons.mp hlinks
    rcases writeAttachments_cons o ws k a as t with ⟨hopen, -⟩ | ⟨p, hopen, ⟨-, heq⟩ | ⟨hcut, -⟩⟩
    · rw [hopen] at hsome
      cases hsome
    · have hp := opens_of_follow (opened_some hopen)
      obtain rfl := eq_of_follow hlink (opened_some hopen)
      have hgo := follow_store (d := a.data) hp maxLinks
      rw [heq]
      intro b hb
      rcases List.mem_cons.mp hb with rfl | hb
      · -- the others are written elsewhere
        have hspec := writeAttachments_spec o ws (k + 1) as (store t (ws ++ [b.filename]) b.data)
        refine (hspec.elsewhere _ fun hmem => ?_).trans lookup_store_self
        obtain ⟨c, hc, hland⟩ := mem_landings hmem
        rw [hgo] at hland
        have hsame := eq_of_follow (hlinks' c hc) hland
        have hname : c.filename = b.filename := by simpa using hsame.symm
        exact hnew (hname ▸ List.mem_map_of_mem hc)
      · refine lookup_writeAttachments o ws (k + 1) as _ ?_ hnodup' (fun c hc target h => ?_) b hb
        · rwa [hgo]
        · exact hlinks' c hc target ((lookup_store_link hp).mp h)
    · exact absurd hdone hcut

end Loop

/-! ### What the function leaves -/

/-- A run on these attachments, in the workspace `ws` of this name: it writes children of the workspace
only, when it succeeds every attachment is in a file of its own as `jj describe` is run, and once the
workspace was requested it ends with both steps of the cleanup. -/
structure Kept (repo ws : Path) (unique : String) (attachments : List Attachment) (run : Run) : Prop where
  child : ∀ p, .write p ∈ run.calls → ∃ name, p = ws ++ [name]
  held : ∀ rec, run.result = .ok rec → rec.filenames = attachments.map Attachment.filename ∧
    rec.filenames.Nodup ∧ ∃ t, run.described = some t ∧
      ∀ a ∈ attachments, t.lookup (ws ++ [a.filename]) = some (.file (.data a.data))
  cleaned : .jj repo ["workspace", "add", "--name", unique, displayPath ws] ∈ run.calls →
    ∃ before, run.calls =
      before ++ [.jj repo ["workspace", "forget", unique], .removeDirAll ws]

/-- The workspace is requested. -/
def Requested (o : Surroundings) : Prop :=
  (o.jjDir = true ∨ o.git = true) ∧ o.createRoot = none ∧ (o.stale = true → o.clear = none)

/-- What is written goes to children of the workspace, and if everything is written, no two names are
the same and none is that of a link. -/
def Apart (o : Surroundings) (ws : Path) (attachments : List Attachment) : Prop :=
  (∀ p ∈ landings o (follow o.creatable o.files maxLinks) ws 0 attachments, ∃ name, p = ws ++ [name]) ∧
  (AllWritten o (follow o.creatable o.files maxLinks) ws 0 attachments →
    (attachments.map Attachment.filename).Nodup ∧ Unlinked o.files ws attachments)

section Materialize

variable {o : Surroundings} {jj : Jj} {repo ws : Path} {unique : String} {attachments : List Attachment}

variable (jj repo unique) in
/-- What is not requested is given up before anything is written. -/
lemma materialize_early (h : attachments = [] ∨ ¬ Requested o) :
    (∃ e, (materialize o jj repo unique attachments).result = .error e) ∧
      ∀ c ∈ (materialize o jj repo unique attachments).calls,
        c = .createDirAll (tmpRoot repo) ∨ c = .removeDirAll (Path.join (tmpRoot repo) unique) := by
  unfold materialize
  by_cases hnil : attachments = []
  · rw [if_pos hnil]
    exact ⟨⟨_, rfl⟩, fun c hc => by cases hc⟩
  have hnot := h.resolve_left hnil
  unfold Requested at hnot
  rw [if_neg hnil]
  by_cases hrepo : o.jjDir = false ∧ o.git = false
  · rw [if_pos hrepo]
    exact ⟨⟨_, rfl⟩, fun c hc => by cases hc⟩
  rw [if_neg hrepo]
  cases hroot : o.createRoot with
  | some e =>
    refine ⟨⟨_, rfl⟩, fun c hc => Or.inl ?_⟩
    exact List.mem_singleton.mp hc
  | none =>
    have hstale : o.stale = true ∧ ∃ e, o.clear = some e := by
      by_contra hclear
      refine hnot ⟨?_, hroot, fun hs => ?_⟩
      · by_contra hneither
        simp only [not_or, Bool.not_eq_true] at hneither
        exact hrepo hneither
      · cases hc : o.clear with
        | none => rfl
        | some e => exact absurd ⟨hs, e, hc⟩ hclear
    obtain ⟨hs, e, he⟩ := hstale
    simp only [hs, he, if_true]
    refine ⟨⟨_, rfl⟩, fun c hc => ?_⟩
    simpa using hc

variable (jj repo unique) in
/-- What is requested is done in the workspace, and cleaned up. -/
lemma materialize_requested (hne : attachments ≠ []) (h : Requested o) :
    ∃ before, (∀ c ∈ before, c = .createDirAll (tmpRoot repo) ∨
        c = .removeDirAll (Path.join (tmpRoot repo) unique)) ∧
      materialize o jj repo unique attachments =
        let r := materializeIn o jj repo (Path.join (tmpRoot repo) unique) unique attachments
        ⟨r.result, before ++ r.calls ++ [.jj repo ["workspace", "forget", unique],
          .removeDirAll (Path.join (tmpRoot repo) unique)], r.described⟩ := by
  obtain ⟨hrepo, hroot, hclear⟩ := h
  have hrepo' : ¬ (o.jjDir = false ∧ o.git = false) := by
    rintro ⟨hjj, hgit⟩
    rcases hrepo with h | h
    · rw [hjj] at h
      cases h
    · rw [hgit] at h
      cases h
  unfold materialize
  rw [if_neg hne, if_neg hrepo', hroot]
  cases hstale : o.stale with
  | false => exact ⟨[.createDirAll (tmpRoot repo)], by simp, rfl⟩
  | true =>
    refine ⟨[.createDirAll (tmpRoot repo), .removeDirAll (Path.join (tmpRoot repo) unique)], by simp, ?_⟩
    simp only [hclear hstale, if_true]

/-- In the workspace, files are written where the attachments are. -/
lemma write_mem_materializeIn {p : Path}
    (h : .write p ∈ (materializeIn o jj repo ws unique attachments).calls) :
    p ∈ landings o (follow o.creatable o.files maxLinks) ws 0 attachments := by
  have hcalls := (writeAttachments_spec o ws 0 attachments o.files).calls
  have hw : .write p ∈ (writeAttachments o ws 0 attachments o.files).calls := by
    unfold materializeIn at h
    cases hadd : jj.add with
    | some e => simp [hadd] at h
    | none =>
      cases hw : (writeAttachments o ws 0 attachments o.files).filenames with
      | error e => simpa [hadd, hw] using h
      | ok names =>
        cases hdescribe : jj.describe with
        | some e => simpa [hadd, hw, hdescribe] using h
        | none => simpa [hadd, hw, hdescribe] using h
  rw [hcalls, List.mem_map] at hw
  obtain ⟨q, hq, heq⟩ := hw
  cases heq
  exact hq

/-- A success: all was written. -/
lemma materializeIn_ok {rec : MaterializedAttachment}
    (h : (materializeIn o jj repo ws unique attachments).result = .ok rec) :
    AllWritten o (follow o.creatable o.files maxLinks) ws 0 attachments ∧
      rec.filenames = attachments.map Attachment.filename ∧
      (materializeIn o jj repo ws unique attachments).described =
        some (writeAttachments o ws 0 attachments o.files).files := by
  have hspec := writeAttachments_spec o ws 0 attachments o.files
  by_cases hall : AllWritten o (follow o.creatable o.files maxLinks) ws 0 attachments
  · refine ⟨hall, ?_⟩
    unfold materializeIn at h ⊢
    cases hadd : jj.add with
    | some e =>
      rw [hadd] at h
      cases h
    | none =>
      rw [hadd] at h
      simp only [hspec.ok hall] at h ⊢
      cases hdescribe : jj.describe with
      | some e =>
        rw [hdescribe] at h
        cases h
      | none =>
        rw [hdescribe] at h
        simp only at h ⊢
        refine ⟨?_, trivial⟩
        split at h
        · cases h
        · split_ifs at h
          obtain rfl := Except.ok.inj h
          rfl
  · obtain ⟨e, he⟩ := hspec.error hall
    unfold materializeIn at h
    cases hadd : jj.add with
    | some e =>
      rw [hadd] at h
      cases h
    | none =>
      rw [hadd] at h
      simp only [he] at h
      cases h

end Materialize

/-- Nothing `jj` is asked for fails. -/
def jjOk : Jj := ⟨none, none, .ok "0123abcd"⟩

section Apart

variable {o : Surroundings} {repo : Path} {unique : String} {attachments : List Attachment}

/-- A run that gives up early keeps everything. -/
lemma kept_early (h : attachments = [] ∨ ¬ Requested o) (jj : Jj) :
    Kept repo (Path.join (tmpRoot repo) unique) unique attachments
      (materialize o jj repo unique attachments) := by
  obtain ⟨⟨e, he⟩, hcalls⟩ := materialize_early jj repo unique h
  refine ⟨fun p hp => ?_, fun rec hrec => ?_, fun hadd => ?_⟩
  · rcases hcalls _ hp with hc | hc <;> cases hc
  · rw [he] at hrec
    cases hrec
  · rcases hcalls _ hadd with hc | hc <;> cases hc

/-- If the attachments are apart, every run keeps them. -/
lemma kept_of_apart (hne : attachments ≠ []) (hreq : Requested o)
    (h : Apart o (Path.join (tmpRoot repo) unique) attachments) (jj : Jj) :
    Kept repo (Path.join (tmpRoot repo) unique) unique attachments
      (materialize o jj repo unique attachments) := by
  obtain ⟨before, hbefore, heq⟩ :=
    materialize_requested jj repo unique hne hreq
  rw [heq]
  refine ⟨fun p hp => ?_, fun rec hrec => ?_, fun _ => ⟨_, rfl⟩⟩
  · simp only [List.mem_append, List.mem_cons, List.not_mem_nil, or_false, reduceCtorEq] at hp
    rcases hp with hp | hp
    · rcases hbefore _ hp with hc | hc <;> cases hc
    · exact h.1 p (write_mem_materializeIn hp)
  · obtain ⟨hall, hnames, hdescribed⟩ := materializeIn_ok hrec
    obtain ⟨hnodup, hlinks⟩ := h.2 hall
    refine ⟨hnames, hnames ▸ hnodup, _, hdescribed, ?_⟩
    exact lookup_writeAttachments o _ 0 attachments o.files hall hnodup hlinks

/-- If every run keeps them, they are apart: the run in which `jj` does all it is asked for tells. -/
lemma apart_of_kept (hne : attachments ≠ []) (hreq : Requested o)
    (h : Kept repo (Path.join (tmpRoot repo) unique) unique attachments
      (materialize o jjOk repo unique attachments)) :
    Apart o (Path.join (tmpRoot repo) unique) attachments := by
  obtain ⟨before, -, heq⟩ :=
    materialize_requested jjOk repo unique hne hreq
  have hspec := writeAttachments_spec o (Path.join (tmpRoot repo) unique) 0 attachments o.files
  rw [heq] at h
  refine ⟨fun p hp => h.child p ?_, fun hall => ?_⟩
  · have hw : .write p ∈ (writeAttachments o (Path.join (tmpRoot repo) unique) 0 attachments
        o.files).calls := by
      rw [hspec.calls]
      exact List.mem_map_of_mem hp
    have hin : .write p ∈ (materializeIn o jjOk repo (Path.join (tmpRoot repo) unique) unique
        attachments).calls := by
      unfold materializeIn
      simp only [jjOk]
      cases (writeAttachments o (Path.join (tmpRoot repo) unique) 0 attachments o.files).filenames with
      | error e => exact List.mem_cons_of_mem _ hw
      | ok names => exact List.mem_append_left _ (List.mem_cons_of_mem _ hw)
    exact List.mem_append_left _ (List.mem_append_right _ hin)
  · have hok : (materializeIn o jjOk repo (Path.join (tmpRoot repo) unique) unique attachments).result =
        .ok ⟨"0123abcd", attachments.map Attachment.filename⟩ := by
      unfold materializeIn
      simp only [jjOk, hspec.ok hall]
      rfl
    obtain ⟨-, -, hdescribed⟩ := materializeIn_ok hok
    obtain ⟨-, hnodup, t, ht, hdata⟩ := h.held _ hok
    refine ⟨hnodup, fun a ha target hlink => ?_⟩
    -- a link is still there at the end
    have hfiles : t = (writeAttachments o (Path.join (tmpRoot repo) unique) 0 attachments o.files).files :=
      Option.some.inj (ht.symm.trans hdescribed)
    have hend := (hspec.links _ target).mpr hlink
    rw [← hfiles, hdata a ha] at hend
    cases hend

end Apart

lemma apart_nil (o : Surroundings) (ws : Path) : Apart o ws [] :=
  ⟨fun _ hp => absurd hp List.not_mem_nil, fun _ => ⟨List.nodup_nil, fun _ ha => by cases ha⟩⟩

/-- **When attachments are kept**, whatever `jj` answers: exactly if the workspace is not requested, or
they are apart in it. -/
theorem materialize_kept_iff (o : Surroundings) (repo : Path) (pid nanos : ℕ)
    (attachments : List Attachment) :
    (∀ jj, Kept repo (Path.join (tmpRoot repo) (uniqueName pid nanos)) (uniqueName pid nanos) attachments
      (materialize o jj repo (uniqueName pid nanos) attachments)) ↔
      (Requested o → Apart o (Path.join (tmpRoot repo) (uniqueName pid nanos)) attachments) := by
  by_cases hreq : Requested o
  · by_cases hnil : attachments = []
    · subst hnil
      exact iff_of_true (fun jj => kept_early (Or.inl rfl) jj) fun _ => apart_nil o _
    constructor
    · intro h _
      exact apart_of_kept hnil hreq (h jjOk)
    · intro h jj
      exact kept_of_apart hnil hreq (h hreq) jj
  · exact iff_of_true (fun jj => kept_early (Or.inr hreq) jj) fun h => absurd h hreq

/-- A repo in which nothing fails, and an empty workspace. -/
def emptyWorkspace : Surroundings where
  jjDir := true
  git := false
  createRoot := none
  stale := false
  clear := none
  files := createDirAll ∅ ["repo", ".crossbridge-tmp", "xb-attach-7-42"]
  creatable _ := true
  openError := "Is a directory (os error 21)"
  write _ := .done

/-- **Two attachments of one name.** The second takes the place of the first, and both are reported. -/
theorem not_kept_same_name : ∃ t,
    (materialize emptyWorkspace jjOk ["repo"] (uniqueName 7 42) [⟨"a", [1]⟩, ⟨"a", [2]⟩]).result =
      .ok ⟨"0123abcd", ["a", "a"]⟩ ∧
    (materialize emptyWorkspace jjOk ["repo"] (uniqueName 7 42) [⟨"a", [1]⟩, ⟨"a", [2]⟩]).described =
      some t ∧
    t.lookup ["repo", ".crossbridge-tmp", "xb-attach-7-42", "a"] = some (.file (.data [2])) ∧
    ¬ Kept ["repo"] (Path.join (tmpRoot ["repo"]) (uniqueName 7 42)) (uniqueName 7 42)
      [⟨"a", [1]⟩, ⟨"a", [2]⟩]
      (materialize emptyWorkspace jjOk ["repo"] (uniqueName 7 42) [⟨"a", [1]⟩, ⟨"a", [2]⟩]) := by
  have hok : (materialize emptyWorkspace jjOk ["repo"] (uniqueName 7 42)
      [⟨"a", [1]⟩, ⟨"a", [2]⟩]).result = .ok ⟨"0123abcd", ["a", "a"]⟩ := by rfl
  refine ⟨_, hok, rfl, by rfl, fun h => ?_⟩
  obtain ⟨-, hnodup, -⟩ := h.held _ hok
  exact absurd hnodup (by decide)

/-- A link that was checked out into the workspace is followed out of it. -/
example : .write ["home", "notes"] ∈ (materialize { emptyWorkspace with
      files := (createDirAll emptyWorkspace.files ["home"]).insert
        ["repo", ".crossbridge-tmp", "xb-attach-7-42", "notes"] (.file (.link ["home", "notes"])) }
    jjOk ["repo"] (uniqueName 7 42) [⟨"notes", [1]⟩]).calls := by
  decide

end Crossbridge.Server
