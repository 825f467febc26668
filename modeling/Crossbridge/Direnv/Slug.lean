import Crossbridge.Server.Slug

/-!
The slug of a repository, as the shell function `_crossbridge_parse_slug` reads it off the URL of the
`origin` remote. Each step of the function is a parameter expansion, and an expansion whose pattern
does not match leaves the text as it is.
-/

namespace Crossbridge.Direnv

open Text Server

/-- The class `[[:space:]]` of a locale: some of the characters with the property `White_Space`. -/
structure Ctype where
  space : Char → Bool
  isWhitespace_of_space : ∀ c, space c = true → isWhitespace c = true

/-- The blanks of the POSIX locale. -/
def posix : Ctype where
  space c := (9 ≤ c.toNat && c.toNat ≤ 13) || c.toNat = 0x20
  isWhitespace_of_space c h := by
    simp only [Bool.or_eq_true, Bool.and_eq_true, decide_eq_true_eq] at h
    simp only [isWhitespace, Bool.or_eq_true, Bool.and_eq_true, decide_eq_true_eq]
    tauto

/-- `${l#*pat}` -/
def afterFirst (pat l : List Char) : List Char := ((l.dropInfix? pat).map Prod.snd).getD l

/-- The `case` of the function. -/
def pathPart (url : List Char) : List Char :=
  if "://".toList <:+: url then afterFirst ['/'] (afterFirst "://".toList url)
  else if [':'] <:+: url then afterFirst [':'] url
  else url

/-- `${path%%[#?]*}`, `${path%/}` and `${path##*/}` -/
def lastSegment (path : List Char) : List Char :=
  afterLast (· = '/') (stripEnd (beforeFirst isMark path) ['/'])

/-- `_crossbridge_parse_slug`: what it prints, if it succeeds. -/
def parseSlug (loc : Ctype) (url : String) : Option String :=
  let url := (url.toList.dropWhile loc.space).rdropWhile loc.space
  if url = [] then none
  else
    let last := stripEnd (lastSegment (pathPart url)) ".git".toList
    if last = [] then none else some (String.ofList last)

end Crossbridge.Direnv
