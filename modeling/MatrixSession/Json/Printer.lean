import MatrixSession.Json.Value
import MatrixSession.Text.Hex

/-!
Writing JSON: compact, and with an indent of two spaces to a level. Quotes, backslashes and
controls are escaped; all other characters stand as they are.
-/
namespace MatrixSession.Json

def escapedChar (c : Char) : List Char :=
  if c = '\x22' then ['\\', '\x22']
  else if c = '\\' then ['\\', '\\']
  else if c = '\x08' then ['\\', 'b']
  else if c = '\t' then ['\\', 't']
  else if c = '\n' then ['\\', 'n']
  else if c = '\x0c' then ['\\', 'f']
  else if c = '\r' then ['\\', 'r']
  else if c < ' ' then
    ['\\', 'u', '0', '0', Hex.lowerDigit (c.toNat / 16), Hex.lowerDigit (c.toNat % 16)]
  else [c]

def stringChars (text : String) : List Char :=
  '\x22' :: text.toList.flatMap escapedChar ++ ['\x22']

def separated : List (List Char) → List Char
  | [] => []
  | [one] => one
  | one :: rest => one ++ ',' :: separated rest

namespace Value

mutual

def compactChars : Value → List Char
  | null => ['n', 'u', 'l', 'l']
  | bool true => ['t', 'r', 'u', 'e']
  | bool false => ['f', 'a', 'l', 's', 'e']
  | number n => n.text
  | string text => stringChars text
  | array items => '[' :: separated (compactItems items) ++ [']']
  | object members => '\x7b' :: separated (compactMembers members) ++ ['\x7d']

def compactItems : List Value → List (List Char)
  | [] => []
  | item :: rest => item.compactChars :: compactItems rest

def compactMembers : List (String × Value) → List (List Char)
  | [] => []
  | (key, value) :: rest =>
    (stringChars key ++ ':' :: value.compactChars) :: compactMembers rest

end

def compact (v : Value) : String := String.ofList v.compactChars

def newLine (level : Nat) : List Char := '\n' :: List.replicate (2 * level) ' '

def block (level : Nat) (opening closing : Char) (lines : List (List Char)) : List Char :=
  if lines.isEmpty then [opening, closing]
  else opening :: separated (lines.map (newLine (level + 1) ++ ·)) ++ newLine level ++ [closing]

mutual

def prettyChars (level : Nat) : Value → List Char
  | array items => block level '[' ']' (prettyItems (level + 1) items)
  | object members => block level '\x7b' '\x7d' (prettyMembers (level + 1) members)
  | null => compactChars null
  | bool b => compactChars (bool b)
  | number n => compactChars (number n)
  | string text => compactChars (string text)

def prettyItems (level : Nat) : List Value → List (List Char)
  | [] => []
  | item :: rest => item.prettyChars level :: prettyItems level rest

def prettyMembers (level : Nat) : List (String × Value) → List (List Char)
  | [] => []
  | (key, value) :: rest =>
    (stringChars key ++ ':' :: ' ' :: value.prettyChars level) :: prettyMembers level rest

end

def pretty (v : Value) : String := String.ofList (v.prettyChars 0)

end Value

end MatrixSession.Json
