import Crossbridge.Lib.Text

/-!
The slug of a repository, as the server reads it off the URL of the `origin` remote.

The path part of the URL is what comes after the host (`pathPart`). It is a rest of the URL, and a
separator is before it (`eq_or_append_of_pathPart`).
-/

namespace Crossbridge.Server

open Text

/-- Does a query or a fragment start here? -/
def isMark (c : Char) : Bool := c = '?' || c = '#'

/-- The path part: of `scheme://host/path` what is after the host, of `git@host:path` what is after
the colon, else all of it. -/
def pathPart (url : List Char) : Option (List Char) :=
  if "://".toList <:+: url then
    let afterScheme := ((url.dropInfix? "://".toList).map Prod.snd).getD url
    (afterScheme.dropInfix? ['/']).map Prod.snd
  else
    match url.dropInfix? [':'] with
    | some (_, rhs) => some rhs
    | none => some url

/-- The last segment of a path, without a query and a fragment, and without slashes after it. -/
def lastSegment (path : List Char) : List Char :=
  afterLast (· = '/') ((beforeFirst isMark path).rdropWhile (· = '/'))

/-- `parse_slug` -/
def parseSlug (url : String) : Option String :=
  let url := trim url.toList
  if url = [] then none
  else
    match pathPart url with
    | none => none
    | some path =>
      let slug := stripEnd (trim (lastSegment path)) ".git".toList
      if slug = [] then none else some (String.ofList slug)

/-- **Where the path part is**: at the end of the URL, with a separator before it if it is not all
of it. -/
theorem eq_or_append_of_pathPart {url path : List Char} (h : pathPart url = some path) :
    url = path ∨ ∃ a c, (c = '/' ∨ c = ':') ∧ url = a ++ c :: path := by
  unfold pathPart at h
  split at h
  · obtain ⟨⟨b, r⟩, hcut, rfl⟩ := Option.map_eq_some_iff.mp h
    obtain ⟨a, ha⟩ := suffix_getD_dropInfix url "://".toList
    refine Or.inr ⟨a ++ b, '/', Or.inl rfl, ?_⟩
    rw [← ha, eq_append_of_dropInfix hcut, List.append_assoc, List.append_assoc, List.singleton_append]
  · split at h
    · rename_i a r hcut
      obtain rfl := Option.some.inj h
      refine Or.inr ⟨a, ':', Or.inr rfl, ?_⟩
      rw [eq_append_of_dropInfix hcut, List.append_assoc, List.singleton_append]
    · exact Or.inl (Option.some.inj h)

end Crossbridge.Server
