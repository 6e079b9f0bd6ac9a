import MatrixSession.Url.Parser

/-!
Appending path segments and query pairs to a URL. A segment may hold any characters; they are
encoded so that it stays one segment. Tabs and line breaks are dropped from it, and the segments
`.` and `..` are passed over. One at the top of a file path may name a drive. A query can be read back as the pairs that it lists.
-/
namespace MatrixSession.Url

/-- Leaves out an empty last segment, so that what is appended takes its place. -/
def withoutEmptyLast (segments : List String) : List String :=
  if 1 < segments.length ∧ segments.getLast? = some "" then segments.dropLast else segments

def pushSegment (scheme : String) (segments : List String) (segment : String) : List String :=
  let place := if segments = [""] then [] else segments
  let set := if isSpecial scheme then .specialSegment else .segment
  (Step.ofSegment set (scheme == "file" && place.isEmpty) segment.toList).finish place

def withSegments? (u : Url) (segments : List String) : Option Url :=
  match u.path with
  | .plain _ => none
  | .segments list =>
    let added := segments.filter fun s => s ≠ "." ∧ s ≠ ".."
    some { u with
      path := .segments (added.foldl (pushSegment u.scheme) (withoutEmptyLast list)) }

def queryPair (key value : String) : String :=
  String.ofList (Percent.encodeForm key.toList ++ '=' :: Percent.encodeForm value.toList)

def withQueryPair (u : Url) (key value : String) : Url :=
  let pair := queryPair key value
  { u with query := some (match u.query with
    | none => pair
    | some query => if query = "" then pair else query ++ "&" ++ pair) }

def readPair (part : List Char) : String × String :=
  match Text.splitFirst? '=' part with
  | some (key, value) => (Percent.decodeForm key, Percent.decodeForm value)
  | none => (Percent.decodeForm part, "")

def queryPairs (u : Url) : List (String × String) :=
  ((Text.splitAll (· == '&') (u.query.getD "").toList).filter fun part => !part.isEmpty).map
    readPair

end MatrixSession.Url
