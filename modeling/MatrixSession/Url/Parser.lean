import MatrixSession.Text.Blank
import MatrixSession.Url.Step

/-!
Reading absolute URLs. Blanks at the ends and tabs and line breaks anywhere are ignored, except
that a tab can set a drive apart; each part is brought into its encoded form.
-/
namespace MatrixSession.Url

def isSlash (special : Bool) (c : Char) : Bool := c == '/' || (special && c == '\\')

def isEnd (special : Bool) (c : Char) : Bool := isSlash special c || c == '?' || c == '#'

def isQueryOrFragment (c : Char) : Bool := c == '?' || c == '#'

def scheme? (text : List Char) : Option (String × List Char) := do
  let (scheme, rest) ← Text.splitFirst? ':' text
  let scheme := withoutBreaks scheme
  let first ← scheme.head?
  guard (first.isAlpha && scheme.all fun c => c.isAlphanum || c == '+' || c == '-' || c == '.')
  some (String.ofList (scheme.map Char.toLower), rest)

def queryAndFragment (special : Bool) (text : List Char) : Option String × Option String :=
  let fragment (text : List Char) := String.ofList (Percent.encode .fragment text)
  match text with
  | '#' :: rest => (none, some (fragment rest))
  | '?' :: rest =>
    let set := if special then .specialQuery else .query
    let query (text : List Char) := String.ofList (Percent.encode set text)
    match Text.splitFirst? '#' rest with
    | none => (some (query rest), none)
    | some (left, right) => (some (query left), some (fragment right))
  | _ => (none, none)

def cutBefore (stop : Char → Bool) (text : List Char) : List Char × List Char :=
  (text.takeWhile (!stop ·), text.dropWhile (!stop ·))

/-- The host ends at a colon outside of brackets, or where the authority ends. -/
def cutHost (special : Bool) (inside : Bool) : List Char → List Char × List Char
  | [] => ([], [])
  | c :: rest =>
    if isEnd special c || (c == ':' && !inside) then ([], c :: rest)
    else
      let inside := if c == '[' then true else if c == ']' then false else inside
      let (host, rest) := cutHost special inside rest
      (c :: host, rest)

def readPort (scheme : String) (text : List Char) : Except Fault (Option UInt16 × List Char) :=
  let (digits, rest) := cutBefore (fun c => !c.isDigit) text
  if rest.head?.any fun c => !isEnd true c then .error .invalidPort
  else if digits = [] then .ok (none, rest)
  else match Decimal.read? UInt16.size digits with
    | none => .error .invalidPort
    | some n =>
      let n := UInt16.ofNat n
      .ok (if defaultPort? scheme = some n then none else some n, rest)

def readUserInfo (special : Bool) (text : List Char) :
    Except Fault (String × String × List Char) :=
  let (authority, rest) := cutBefore (isEnd special) text
  match Text.splitLast? '@' authority with
  | none => .ok ("", "", text)
  | some ([], host) =>
    if host = [] ∧ rest ≠ [] then .error .emptyHost else .ok ("", "", host ++ rest)
  | some (info, host) =>
    let (username, password) := (Text.splitFirst? ':' info).getD (info, [])
    let encode (text : List Char) := String.ofList (Percent.encode .userInfo text)
    .ok (encode username, encode password, host ++ rest)

def readHost (special : Bool) (name : List Char) : Except Fault (Option Host) :=
  if special then
    if name = [] then .error .emptyHost else (Host.parse name).map some
  else Host.parsePlain name

def portBehind (scheme : String) (host : Option Host) :
    List Char → Except Fault (Option UInt16 × List Char)
  | ':' :: digits => if host.isNone then .error .emptyHost else readPort scheme digits
  | rest => .ok (none, rest)

def readAuthority (scheme : String) (text : List Char) : Except Fault (Authority × List Char) := do
  let special := isSpecial scheme
  let (username, password, text) ← readUserInfo special text
  let (name, rest) := cutHost special false text
  let host ← readHost special name
  let (port, rest) ← portBehind scheme host rest
  if host.isNone ∧ (username ≠ "" ∨ password ≠ "") then .error .emptyHost
  else .ok (⟨username, password, host, port⟩, rest)

def withPath (scheme : String) (authority : Option Authority) (text : List Char) : Url :=
  let special := isSpecial scheme
  let (path, rest) := cutBefore isQueryOrFragment text
  let (query, fragment) := queryAndFragment special rest
  let segments := match path with
    | [] => if special then [""] else []
    | c :: inner =>
      let inner := if isSlash special c then inner else path
      walk [] (stepsFrom false [] (Text.splitAll (isSlash special) inner))
  let marked := authority.isNone && segments.head? == some "" && 1 < segments.length
  ⟨scheme, authority, marked, .segments segments, query, fragment⟩

def afterSlash? (text : List Char) : Option (List Char) :=
  match text.dropWhile isTabOrBreak with
  | [] => none
  | c :: rest => if isSlash true c then some rest else none

/-- The host of a file URL behind its two slashes, and the text of its path. A drive in the place
    of the host belongs to the path. Where there is no host, or this machine's own name, the path
    keeps its slash and starts with an empty segment. -/
def fileHost (text : List Char) : Except Fault (Option Host × List Char) :=
  let (name, rest) := cutBefore (isEnd true) text
  let name := withoutBreaks name
  if isDrive name then .ok (none, text)
  else if name = [] then .ok (none, rest)
  else (Host.parse name).map fun host =>
    if host = .domain "localhost" then (none, rest)
    else (some host, (afterSlash? rest).getD rest)

/-- A file URL from the path on. The path has no empty segments in front, and one that starts with
    a drive leaves no host. -/
def withFilePath (host : Option Host) (text : List Char) : Url :=
  let (path, rest) := cutBefore isQueryOrFragment text
  let (query, fragment) := queryAndFragment true (withoutBreaks rest)
  let steps := stepsFrom true [] (Text.splitAll (isSlash true) path)
  let segments := (walk [] steps).dropWhile (· = "")
  let host := if steps.any Step.replacesHost then none else host
  ⟨"file", some ⟨"", "", host, none⟩, false,
    .segments (if segments = [] then [""] else segments), query, fragment⟩

/-- A file URL behind its colon. Its tabs and line breaks are still in place, since one of them can
    set a drive apart. -/
def fileUrl (text : List Char) : Except Fault Url :=
  match afterSlash? text with
  | none => .ok (withFilePath none text)
  | some inner => match afterSlash? inner with
    | none => .ok (withFilePath none inner)
    | some rest => (fileHost rest).map fun (host, path) => withFilePath host path

def plainUrl (scheme : String) (text : List Char) : Url :=
  let (path, rest) := cutBefore isQueryOrFragment text
  let (query, fragment) := queryAndFragment false rest
  ⟨scheme, none, false, .plain (String.ofList (Percent.encode .controls path)), query, fragment⟩

def parse (text : String) : Except Fault Url :=
  match scheme? (Text.trimmed (· ≤ ' ') text.toList) with
  | none => .error .relativeWithoutBase
  | some (scheme, text) =>
    let rest := withoutBreaks text
    if scheme = "file" then fileUrl text
    else if isSpecial scheme then do
      let (authority, rest) ← readAuthority scheme (rest.dropWhile (isSlash true))
      .ok (withPath scheme (some authority) rest)
    else match rest with
      | '/' :: '/' :: rest => do
        let (authority, rest) ← readAuthority scheme rest
        .ok (withPath scheme (some authority) rest)
      | '/' :: _ => .ok (withPath scheme none rest)
      | _ => .ok (plainUrl scheme rest)

end MatrixSession.Url
