import Crossbridge.Lib.Text

/-!
The URL of the `origin` remote, as the server and as the client find it.

Both ask `jj` when there is a `.jj` directory, and `git` otherwise. They read the lines that `jj`
prints in different ways: the server wants the name at the beginning of the line and takes the rest
for the URL, the client takes the first two words. And when `jj` does not help, only the client goes
on to ask `git`. `sameOrigin_iff` says when none of this matters.
-/

namespace Crossbridge

open Text

/-- What is left of a command that was run: whether its status is a success, and its standard output
as `String::from_utf8_lossy` reads it. -/
structure Output where
  success : Bool
  stdout : List Char
  deriving DecidableEq, Repr

/-- A repository as it looks to the two: its path as it is displayed, whether `.jj` is a directory,
and what the two commands do. A command that cannot be run has no output. -/
structure Checkout where
  path : String
  jjDir : Bool
  /-- `jj git remote list` -/
  jj : Option Output
  /-- `git remote get-url origin` -/
  git : Option Output
  deriving DecidableEq, Repr

/-! ### The server -/

namespace Server

def gitOriginUrl (c : Checkout) : Except String (Option String) :=
  match c.git with
  | none => .error ("running git in " ++ c.path)
  | some out =>
    if out.success = false then .ok none
    else
      let url := trim out.stdout
      if url = [] then .ok none else .ok (some (String.ofList url))

/-- The URL in a line of `jj git remote list`, if it is that of `origin`. -/
def originOfLine (line : List Char) : Option String :=
  let name := trim (beforeFirst isWhitespace line)
  let url := trim ((fromFirst isWhitespace line).drop 1)
  if name = "origin".toList ∧ url ≠ [] then some (String.ofList url) else none

def jjOriginUrl (c : Checkout) : Except String (Option String) :=
  match c.jj with
  | none => .error ("running jj in " ++ c.path)
  | some out =>
    if out.success = false then .ok none else .ok ((lines out.stdout).findSome? originOfLine)

/-- `origin_remote_url` -/
def originRemoteUrl (c : Checkout) : Except String (Option String) :=
  if c.jjDir then jjOriginUrl c else gitOriginUrl c

end Server

/-! ### The client -/

namespace Client

def noOrigin : String := "cannot determine repo slug from git remote"

def gitOriginUrl (c : Checkout) : Except String String :=
  match c.git with
  | none => .error noOrigin
  | some out =>
    if out.success = false then .error noOrigin
    else
      let s := trim out.stdout
      if s = [] then .error noOrigin else .ok (String.ofList s)

/-- The URL in a line of `jj git remote list`, if it is that of `origin`. -/
def originOfLine (line : List Char) : Option String :=
  let parts := splitWhitespace line
  let name := parts.head?.getD []
  let url := (parts.drop 1).head?.getD []
  if name = "origin".toList ∧ url ≠ [] then some (String.ofList url) else none

def jjOriginUrl (c : Checkout) : Option String :=
  match c.jj with
  | none => none
  | some out => if out.success = false then none else (lines out.stdout).findSome? originOfLine

/-- `read_origin_url` -/
def readOriginUrl (c : Checkout) : Except String String :=
  match if c.jjDir then jjOriginUrl c else none with
  | some url => .ok url
  | none => gitOriginUrl c

end Client

/-! ### One line -/

namespace Bridge.OriginUrls

/-- What is after the name in a line that starts with `origin`, if there is something. -/
def originRest (line : List Char) : Option (List Char) :=
  if beforeFirst isWhitespace line = "origin".toList ∧
      trim ((fromFirst isWhitespace line).drop 1) ≠ [] then
    some (trim ((fromFirst isWhitespace line).drop 1))
  else none

section Line

variable {line rest : List Char}

lemma server_originOfLine (line : List Char) :
    Server.originOfLine line = (originRest line).map String.ofList := by
  have hname : trim (beforeFirst isWhitespace line) = beforeFirst isWhitespace line :=
    trim_eq_self fun x hx => of_mem_beforeFirst hx
  unfold Server.originOfLine originRest
  simp only [hname]
  split <;> rfl

/-- A line that is indented does not start with `origin`. -/
lemma originRest_of_indented (h : line.head?.any isWhitespace = true) : originRest line = none := by
  cases line with
  | nil => cases h
  | cons x line =>
    have hx : isWhitespace x = true := by simpa using h
    have hname : beforeFirst isWhitespace (x :: line) = [] := by
      unfold beforeFirst
      exact List.takeWhile_cons_of_neg (by simp [hx])
    unfold originRest
    rw [hname]
    exact if_neg fun hboth => absurd hboth.1 (by decide)

/-- **The client's reading of a line** is the first word of what the server reads in the line without
its indentation. -/
theorem client_originOfLine (line : List Char) : Client.originOfLine line =
    (originRest (line.dropWhile isWhitespace)).map fun rest =>
      String.ofList (beforeFirst isWhitespace rest) := by
  obtain ⟨hname, hdrop⟩ := headD_splitWhitespace (head_dropWhile line)
  obtain ⟨hurl, -⟩ := headD_splitWhitespace (l := trim ((fromFirst isWhitespace
    (line.dropWhile isWhitespace)).drop 1)) (head_dropWhile _)
  rw [splitWhitespace_dropWhile] at hname hdrop
  rw [splitWhitespace_trim, ← hdrop] at hurl
  unfold Client.originOfLine originRest
  simp only [hname, hurl]
  have hne : beforeFirst isWhitespace (trim ((fromFirst isWhitespace
      (line.dropWhile isWhitespace)).drop 1)) = [] ↔
      trim ((fromFirst isWhitespace (line.dropWhile isWhitespace)).drop 1) = [] :=
    beforeFirst_eq_nil_iff (head_dropWhile _)
  simp only [Ne, hne]
  split <;> rfl

end Line

/-! ### All lines -/

/-- `git` has no URL. -/
def NoGitUrl (git : Output) : Prop := git.success = false ∨ trim git.stdout = []

/-- The lines of `jj`, as the two read them alike, with what `git` says if there is no `origin` among
them. The first line of an `origin` has nothing after the URL; or it is indented, and the first one
that is not has the same URL and nothing else. -/
def AlikeLines (git : Output) : List (List Char) → Prop
  | [] => NoGitUrl git
  | line :: later =>
    match originRest (line.dropWhile isWhitespace) with
    | none => AlikeLines git later
    | some rest =>
      if line.head?.any isWhitespace then
        later.findSome? originRest = some (beforeFirst isWhitespace rest)
      else rest.any isWhitespace = false

/-- What the two commands print is read alike. -/
def AlikeOrigin (jjDir : Bool) (jj git : Output) : Prop :=
  jjDir = true → if jj.success then AlikeLines git (lines jj.stdout) else NoGitUrl git

/-- The server finds the URL that the client finds, or both find none. -/
def SameOrigin (c : Checkout) : Prop :=
  Server.originRemoteUrl c = .ok (Client.readOriginUrl c).toOption

instance (git : Output) : Decidable (NoGitUrl git) := by unfold NoGitUrl; infer_instance

section Lines

variable {path : String} {jjDir : Bool} {jj git : Output}

lemma server_gitOriginUrl : Server.gitOriginUrl ⟨path, jjDir, some jj, some git⟩ =
    .ok (Client.gitOriginUrl ⟨path, jjDir, some jj, some git⟩).toOption := by
  unfold Server.gitOriginUrl Client.gitOriginUrl
  simp only
  split
  · rfl
  · split <;> rfl

lemma toOption_gitOriginUrl :
    (Client.gitOriginUrl ⟨path, jjDir, some jj, some git⟩).toOption = none ↔ NoGitUrl git := by
  unfold Client.gitOriginUrl NoGitUrl
  simp only
  split
  · rename_i hfail
    exact iff_of_true rfl (Or.inl hfail)
  · rename_i hok
    rw [or_iff_right hok]
    split
    · rename_i hnil
      exact iff_of_true rfl hnil
    · rename_i hne
      exact iff_of_false (Option.some_ne_none _) hne

/-- **All lines**, by the first one of an `origin`. -/
theorem alikeLines_iff {url : Option String} (hurl : url = none ↔ NoGitUrl git) (ls : List (List Char)) :
    ls.findSome? Server.originOfLine = (ls.findSome? Client.originOfLine).or url ↔
      AlikeLines git ls := by
  induction ls with
  | nil =>
    rw [AlikeLines, ← hurl]
    exact eq_comm
  | cons line later ih =>
    rw [List.findSome?_cons, List.findSome?_cons, client_originOfLine, server_originOfLine, AlikeLines]
    cases hindent : line.head?.any isWhitespace with
    | true =>
      rw [originRest_of_indented hindent]
      cases originRest (line.dropWhile isWhitespace) with
      | none => exact ih
      | some rest =>
        -- the server reads on, the client has its URL
        have hserver : later.findSome? Server.originOfLine =
            (later.findSome? originRest).map String.ofList := by
          rw [List.map_findSome?]
          exact congrArg (List.findSome? · later) (funext server_originOfLine)
        simp only [Option.map_none, Option.map_some, if_true, Option.some_or, hserver]
        constructor
        · intro h
          exact Option.map_injective (fun _ _ => String.ofList_injective) h
        · intro h
          rw [h]
          rfl
    | false =>
      rw [dropWhile_eq_self hindent]
      cases originRest line with
      | none => exact ih
      | some rest =>
        have hsame : beforeFirst isWhitespace rest = rest ↔ rest.any isWhitespace = false := by
          rw [beforeFirst, List.takeWhile_eq_self_iff, List.any_eq_false]
          simp
        simp only [Option.map_some, Option.some_or, Option.some.injEq, String.ofList_inj]
        rw [← hsame]
        exact eq_comm

end Lines

/-- **When the two find the same URL.** For every repository in which both commands can be run,
whatever they print. -/
theorem sameOrigin_iff (path : String) (jjDir : Bool) (jj git : Output) :
    SameOrigin ⟨path, jjDir, some jj, some git⟩ ↔ AlikeOrigin jjDir jj git := by
  unfold SameOrigin AlikeOrigin Server.originRemoteUrl
  cases jjDir with
  | false =>
    refine iff_of_true ?_ fun h => by cases h
    rw [if_neg Bool.false_ne_true, server_gitOriginUrl]
    rfl
  | true =>
    have hgit : (Client.gitOriginUrl ⟨path, true, some jj, some git⟩).toOption = none ↔ NoGitUrl git :=
      toOption_gitOriginUrl
    have hclient : (Client.readOriginUrl ⟨path, true, some jj, some git⟩).toOption =
        (Client.jjOriginUrl ⟨path, true, some jj, some git⟩).or
          (Client.gitOriginUrl ⟨path, true, some jj, some git⟩).toOption := by
      unfold Client.readOriginUrl
      rw [if_pos rfl]
      cases Client.jjOriginUrl ⟨path, true, some jj, some git⟩ with
      | none => rfl
      | some url => rfl
    rw [if_pos rfl, hclient]
    simp only [forall_true_left]
    unfold Server.jjOriginUrl Client.jjOriginUrl
    obtain ⟨success, stdout⟩ := jj
    cases success with
    | false =>
      simp only [if_true, Except.ok.injEq, Option.none_or, Bool.false_eq_true, if_false]
      rw [← hgit]
      exact eq_comm
    | true =>
      simp only [if_true, Except.ok.injEq, Bool.true_eq_false, if_false]
      exact alikeLines_iff hgit (lines stdout)

/-- **No `origin` in `jj`**: the client has the URL that `git` knows, the server has none. -/
theorem not_sameOrigin_fallback :
    Server.originRemoteUrl ⟨"/repo", true, some ⟨true, []⟩,
      some ⟨true, "git@github.com:org/firmware.git".toList⟩⟩ = .ok none ∧
    Client.readOriginUrl ⟨"/repo", true, some ⟨true, []⟩,
      some ⟨true, "git@github.com:org/firmware.git".toList⟩⟩ = .ok "git@github.com:org/firmware.git" ∧
    ¬ SameOrigin ⟨"/repo", true, some ⟨true, []⟩,
      some ⟨true, "git@github.com:org/firmware.git".toList⟩⟩ := by
  have hserver : Server.originRemoteUrl ⟨"/repo", true, some ⟨true, []⟩,
      some ⟨true, "git@github.com:org/firmware.git".toList⟩⟩ = .ok none := by decide
  have hclient : Client.readOriginUrl ⟨"/repo", true, some ⟨true, []⟩,
      some ⟨true, "git@github.com:org/firmware.git".toList⟩⟩ =
        .ok "git@github.com:org/firmware.git" := by decide
  refine ⟨hserver, hclient, fun h => ?_⟩
  rw [SameOrigin, hserver, hclient] at h
  cases h

end Bridge.OriginUrls

end Crossbridge
