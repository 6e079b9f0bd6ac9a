import MatrixSession.Url.Basic

/-!
The steps of a path. Each segment enters a name below the place where it stands, goes up, or stays;
at the top of a file path it may name a drive. The place is the list of the names entered so far.
-/
namespace MatrixSession.Url

def isTabOrBreak (c : Char) : Bool := c == '\t' || c == '\n' || c == '\r'

def withoutBreaks (text : List Char) : List Char := text.filter fun c => !isTabOrBreak c

def isDoubleDot (segment : List Char) : Bool :=
  ["..", "%2e%2e", ".%2e", "%2e."].contains (String.ofList (segment.map Char.toLower))

def isSingleDot (segment : List Char) : Bool :=
  [".", "%2e"].contains (String.ofList (segment.map Char.toLower))

def drive? : List Char → Option Char
  | [letter, mark] => if letter.isAlpha && (mark == ':' || mark == '|') then some letter else none
  | _ => none

def isDrive (name : List Char) : Bool := (drive? name).isSome

def isFixed (name : List Char) : Bool :=
  isDrive (name.take 2) && (name.drop 2).head?.all (· == '\\')

def parent (place : List String) : List String :=
  match place.getLast? with
  | none => []
  | some last => if isFixed last.toList then place else place.dropLast

/-- What a segment asks for. A drive is written with a colon; `inDrive` names a drive and what is
    entered below it. -/
inductive Step where
  | up
  | stay
  | enter (name : String)
  | drive (letter : Char)
  | inDrive (letter : Char) (name : String)
  deriving DecidableEq, Repr

namespace Step

/-- A drive with a colon, and the text that a tab or line break sets apart from it. -/
def cutDrive? (segment : List Char) : Option (Char × List Char) := do
  let letter :: rest := segment.dropWhile isTabOrBreak | none
  let ':' :: gap :: rest := rest.dropWhile isTabOrBreak | none
  let name := withoutBreaks rest
  guard (letter.isAlpha && isTabOrBreak gap && name ≠ [])
  some (letter, name)

def ofSegment (set : Percent.EncodeSet) (top : Bool) (segment : List Char) : Step :=
  let encode (text : List Char) := Percent.encode set text
  match if top then cutDrive? segment else none with
  | some (letter, name) => .inDrive letter (String.ofList (encode name))
  | none =>
    let name := encode (withoutBreaks segment)
    if isDoubleDot name then .up
    else if isSingleDot name then .stay
    else match if top then drive? name else none with
      | some letter => .drive letter
      | none => .enter (String.ofList name)

def driveName (letter : Char) : String := String.ofList [letter, ':']

def follow (place : List String) : Step → List String
  | up => parent place
  | stay => place
  | enter name => place ++ [name]
  | drive letter => place ++ [driveName letter]
  | inDrive letter name => place ++ [driveName letter, name]

/-- The place at the end of a path. The last segment has no slash behind it, so one that enters
    nothing leaves an empty name. -/
def finish (place : List String) : Step → List String
  | up => parent place ++ [""]
  | stay => place ++ [""]
  | step => step.follow place

def replacesHost : Step → Bool
  | drive _ => true
  | _ => false

end Step

def stepsFrom (file : Bool) (place : List String) : List (List Char) → List Step
  | [] => []
  | segment :: rest =>
    let step := Step.ofSegment .path (file && place.isEmpty) segment
    step :: stepsFrom file (step.follow place) rest

def walk (place : List String) : List Step → List String
  | [] => place
  | [step] => step.finish place
  | step :: rest => walk (step.follow place) rest

end MatrixSession.Url
