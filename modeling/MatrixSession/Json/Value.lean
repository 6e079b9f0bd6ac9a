import MatrixSession.Dictionary
import MatrixSession.Json.Number

/-!
JSON values. The members of an object are listed in ascending key order; a repeated key keeps its
last value.
-/
namespace MatrixSession.Json

inductive Value where
  | null
  | bool (b : Bool)
  | number (n : Number)
  | string (text : String)
  | array (items : List Value)
  | object (members : List (String × Value))

namespace Value

instance : Inhabited Value := ⟨null⟩

def natural (n : Nat) : Value := number (.integer n)

/-- An object with the given members, the last one for a repeated key. -/
def ofMembers (members : List (String × Value)) : Value :=
  object (members.foldl (fun entries (key, value) => insertEntry key value entries) [])

def member? (key : String) : Value → Option Value
  | object members => findKey? key members
  | _ => none

def string? : Value → Option String
  | string text => some text
  | _ => none

def array? : Value → Option (List Value)
  | array items => some items
  | _ => none

def object? : Value → Option (List (String × Value))
  | object members => some members
  | _ => none

def withMember (v : Value) (key : String) (value : Value) : Value :=
  match v with
  | object members => object (insertEntry key value members)
  | other => other

end Value

end MatrixSession.Json
