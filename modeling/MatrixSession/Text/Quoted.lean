import MatrixSession.Text.Hex
import MatrixSession.Text.Hidden

/-!
Texts in double quotes, as error messages show them. Quotes, backslashes and four controls have a
short escape; other controls and hidden characters are shown by number; all else stands as it is.
-/
namespace MatrixSession.Text

def byNumber (c : Char) : List Char := ("\\u\x7b" ++ Hex.ofNat c.toNat ++ "\x7d").toList

def quotedChar (c : Char) : List Char :=
  if c = '\x22' then ['\\', '\x22']
  else if c = '\\' then ['\\', '\\']
  else if c = '\t' then ['\\', 't']
  else if c = '\n' then ['\\', 'n']
  else if c = '\r' then ['\\', 'r']
  else if c = '\x00' then ['\\', '0']
  else if c < ' ' then byNumber c
  else if isHidden c then byNumber c
  else [c]

def quoted (text : String) : String :=
  String.ofList ('\x22' :: text.toList.flatMap quotedChar ++ ['\x22'])

def quotedList (texts : List String) : String :=
  "[" ++ ", ".intercalate (texts.map quoted) ++ "]"

end MatrixSession.Text
