import MatrixSession.Digest
import MatrixSession.Json.Printer
import MatrixSession.Json.Reader

/-!
What a server says about itself, and the cache of such answers.
-/
namespace MatrixSession

structure ServerSupports where
  versions : List String
  unstable : Dictionary Bool

namespace ServerSupports

inductive Field where
  | versions (list : List String)
  | unstable (members : List (String × Bool))
  | other

def Field.versions? : Field → Option (List String)
  | versions list => some list
  | _ => none

def Field.unstable? : Field → Option (List (String × Bool))
  | unstable members => some members
  | _ => none

def versionList : Json.Reader (List String) := Json.array Json.string

def unstableMembers : Json.Reader (List (String × Bool)) := Json.object fun _ => Json.bool

def field (key : String) : Json.Reader Field := fun bytes =>
  if key = "versions" then (versionList bytes).map fun (list, rest) => (.versions list, rest)
  else if key = "unstable_features" then
    (unstableMembers bytes).map fun (members, rest) => (.unstable members, rest)
  else (Json.skip bytes).map fun (_, rest) => (.other, rest)

/-- The value of an object's members: `versions` once, `unstable_features` at most once. -/
def ofFields? (fields : List Field) : Option ServerSupports :=
  match fields.filterMap Field.versions?, fields.filterMap Field.unstable? with
  | [versions], [] => some ⟨versions, .empty⟩
  | [versions], [unstable] => some ⟨versions, .ofList unstable⟩
  | _, _ => none

/-- The two fields in order, as the items of an array; the second may be missing. -/
def inOrder : Json.Reader ServerSupports := fun bytes => do
  let (versions, rest) ← versionList (Json.skipBlanks bytes)
  match Json.skipBlanks rest with
  | 0x5D :: rest => some (⟨versions, .empty⟩, rest)
  | 0x2C :: rest =>
    let (unstable, rest) ← unstableMembers (Json.skipBlanks rest)
    match Json.skipBlanks rest with
    | 0x5D :: rest => some (⟨versions, .ofList unstable⟩, rest)
    | _ => none
  | _ => none

def reader : Json.Reader ServerSupports
  | 0x5B :: rest => inOrder rest
  | bytes => do
    let (members, rest) ← Json.object field bytes
    let supports ← ofFields? (members.map (·.2))
    some (supports, rest)

def ofBytes? (bytes : List UInt8) : Option ServerSupports := Json.whole? reader bytes

def fields (s : ServerSupports) : List (String × Json.Value) :=
  [("versions", .array (s.versions.map .string)),
    ("unstable_features", .object (s.unstable.entries.map fun (key, on) => (key, .bool on)))]

def serialized (s : ServerSupports) : String := (Json.Value.object s.fields).compact

def toJson (s : ServerSupports) : Json.Value := .ofMembers s.fields

end ServerSupports

def cacheKey (serverUrl : String) : String := Sha1.hexDigest serverUrl

structure VersionCache where
  entries : Dictionary (ServerSupports × Nat)

namespace VersionCache

def empty : VersionCache := ⟨.empty⟩

/-- The result under a key, if it is younger than `maxAge`; without a maximal age, of any age. -/
def lookup (cache : VersionCache) (now : Nat) (key : String) (maxAge : Option Nat) :
    Option ServerSupports :=
  ((cache.entries.find? key).filter fun (_, stored) => maxAge.all fun age => now - stored < age).map
    (·.1)

def store (cache : VersionCache) (now : Nat) (key : String) (supports : ServerSupports) :
    VersionCache :=
  ⟨cache.entries.insert key (supports, now)⟩

def invalidate (cache : VersionCache) (key : String) : VersionCache := ⟨cache.entries.erase key⟩

end VersionCache

end MatrixSession
