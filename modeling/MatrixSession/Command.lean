import MatrixSession.Json.Value
import MatrixSession.Url.Extend

/-!
Commands: single protocol operations as values. Authorizing a command makes a copy, so the same
command can be sent again with another token.
-/
namespace MatrixSession

/-- A request to a homeserver. Header names are in lower case; the bearer token, if any, is a
    header like the others. -/
structure Command where
  method : String
  url : Url
  body : Option Json.Value
  headers : Dictionary String
  requiresAuth : Bool

namespace Command

def new (method : String) (base : Url) (segments : List String) : Except Url.Fault Command :=
  match base.withSegments? segments with
  | none => .error .cannotBeBase
  | some url => .ok ⟨method, url, none, .empty, true⟩

def withJson (c : Command) (body : Json.Value) : Command := { c with body := some body }

def withQuery (c : Command) (key value : String) : Command :=
  { c with url := c.url.withQueryPair key value }

def withHeader (c : Command) (name value : String) : Command :=
  { c with headers := c.headers.insert name.toLower value }

def asPublic (c : Command) : Command := { c with requiresAuth := false }

def withBearer (c : Command) (token : String) : Command :=
  c.withHeader "authorization" ("Bearer " ++ token)

def path (c : Command) : String := c.url.path.text

def bearerToken? (value : String) : Option String :=
  match value.toList with
  | 'B' :: 'e' :: 'a' :: 'r' :: 'e' :: 'r' :: ' ' :: token => some (String.ofList token)
  | _ => none

def bearer? (c : Command) : Option String :=
  (c.headers.find? "authorization").bind bearerToken?

theorem bearerToken?_eq_some_iff {value token : String} :
    bearerToken? value = some token ↔ value = "Bearer " ++ token := by
  have spelled : ("Bearer " ++ token).toList =
      'B' :: 'e' :: 'a' :: 'r' :: 'e' :: 'r' :: ' ' :: token.toList := by
    rw [String.toList_append]
    rfl
  rw [← String.toList_inj, spelled, bearerToken?]
  constructor
  · intro found
    split at found
    · rename_i behind start
      rw [start, ← Option.some.inj found, String.toList_ofList]
    · contradiction
  · intro start
    rw [start]
    exact congrArg some String.ofList_toList

theorem headers_with_bearer (command : Command) (token : String) :
    (command.withBearer token).headers =
      command.headers.insert "authorization" ("Bearer " ++ token) := by
  have name : "authorization".toLower = "authorization" := by decide +kernel
  rw [withBearer, withHeader, name]

theorem bearer_with_bearer (command : Command) (token : String) :
    (command.withBearer token).bearer? = some token := by
  rw [bearer?, headers_with_bearer, Dictionary.find?_insert, if_pos rfl, Option.bind_some]
  exact bearerToken?_eq_some_iff.mpr rfl

end Command

end MatrixSession
