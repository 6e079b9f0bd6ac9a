import MatrixSession.Json.Reader

/-!
The two tokens of a session, and the response that replaces them.
-/
namespace MatrixSession

inductive TokenKind where
  | access
  | refresh
  deriving DecidableEq, Repr

structure TokenPair where
  access : Option String
  refresh : Option String
  deriving DecidableEq, Repr

namespace TokenPair

def empty : TokenPair := ⟨none, none⟩

def get (pair : TokenPair) : TokenKind → Option String
  | .access => pair.access
  | .refresh => pair.refresh

def put (pair : TokenPair) (kind : TokenKind) (token : Option String) : TokenPair :=
  match kind with
  | .access => { pair with access := token }
  | .refresh => { pair with refresh := token }

end TokenPair

/-- The tokens that a successful refresh brings. Without a new refresh token the old one stays
    valid. -/
structure RefreshedTokens where
  access : String
  refresh : Option String
  deriving DecidableEq, Repr

namespace RefreshedTokens

inductive Field where
  | access (token : String)
  | refresh (token : Option String)
  | other

def Field.access? : Field → Option String
  | access token => some token
  | _ => none

def Field.refresh? : Field → Option (Option String)
  | refresh token => some token
  | _ => none

def nullableString : Json.Reader (Option String)
  | 0x6E :: rest => (Json.null (0x6E :: rest)).map fun (_, rest) => (none, rest)
  | bytes => (Json.string bytes).map fun (text, rest) => (some text, rest)

def field (key : String) : Json.Reader Field := fun bytes =>
  if key = "access_token" then (Json.string bytes).map fun (token, rest) => (.access token, rest)
  else if key = "refresh_token" then
    (nullableString bytes).map fun (token, rest) => (.refresh token, rest)
  else (Json.skip bytes).map fun (_, rest) => (.other, rest)

/-- The value of an object's members: an access token once, a refresh token at most once. -/
def ofFields? (fields : List Field) : Option RefreshedTokens :=
  match fields.filterMap Field.access?, fields.filterMap Field.refresh? with
  | [access], [] => some ⟨access, none⟩
  | [access], [refresh] => some ⟨access, refresh⟩
  | _, _ => none

def inOrder : Json.Reader RefreshedTokens := fun bytes => do
  let (access, rest) ← Json.string (Json.skipBlanks bytes)
  match Json.skipBlanks rest with
  | 0x2C :: rest =>
    let (refresh, rest) ← nullableString (Json.skipBlanks rest)
    match Json.skipBlanks rest with
    | 0x5D :: rest => some (⟨access, refresh⟩, rest)
    | _ => none
  | _ => none

def reader : Json.Reader RefreshedTokens
  | 0x5B :: rest => inOrder rest
  | bytes => do
    let (members, rest) ← Json.object field bytes
    let tokens ← ofFields? (members.map (·.2))
    some (tokens, rest)

def ofBytes? (bytes : List UInt8) : Option RefreshedTokens := Json.whole? reader bytes

end RefreshedTokens

end MatrixSession
