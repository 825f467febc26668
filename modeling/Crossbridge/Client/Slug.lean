import Crossbridge.Lib.Text

/-!
The slug of a repository, as the client reads it off the URL of the `origin` remote.
-/

namespace Crossbridge.Client

open Text

/-- What a slug comes after. -/
def isSeparator (c : Char) : Bool := c = '/' || c = ':'

/-- `parse_origin_url` -/
def parseOriginUrl (url : String) : Option String :=
  let trimmed := trim url.toList
  if trimmed = [] then none
  else
    let stripped := stripEnd (afterLast isSeparator trimmed) ".git".toList
    if stripped = [] then none else some (String.ofList stripped)

end Crossbridge.Client
