import MatrixSession.Text.Decimal

/-!
The grammar of JSON texts, as relations between texts and what they stand for. A string is a list of
characters, with `none` for an escaped surrogate that has no partner. The members of an object
are kept as they are written, with repeated keys. Depth, numbers and sizes are not bounded.
-/
namespace MatrixSession.Json

abbrev Content := List (Option Char)

def Content.ofString (text : String) : Content := text.toList.map some

inductive Tree where
  | null
  | bool (b : Bool)
  | number (digits : List Char)
  | string (content : Content)
  | array (items : List Tree)
  | object (members : List (Content × Tree))

def Tree.text (text : String) : Tree := .string (.ofString text)

def Blank (text : List Char) : Prop := ∀ c ∈ text, c ∈ [' ', '\n', '\r', '\t']

section Strings

def shortEscapes : List (Char × Char) :=
  [('"', '"'), ('\\', '\\'), ('/', '/'), ('b', '\x08'), ('f', '\x0C'), ('n', '\n'), ('r', '\r'),
    ('t', '\t')]

def lowerDigits : List Char := "0123456789abcdef".toList

def upperDigits : List Char := "0123456789ABCDEF".toList

def IsHexDigit (c : Char) (n : Nat) : Prop := lowerDigits[n]? = some c ∨ upperDigits[n]? = some c

inductive EscapedUnit : List Char → Nat → Prop
  | digits {a b c d : Char} {i j k l n : Nat} (first : IsHexDigit a i) (second : IsHexDigit b j)
      (third : IsHexDigit c k) (fourth : IsHexDigit d l)
      (value : n = i * 0x1000 + j * 0x100 + k * 0x10 + l) : EscapedUnit ['\\', 'u', a, b, c, d] n

def Leading (unit : Nat) : Prop := 0xD800 ≤ unit ∧ unit ≤ 0xDBFF

def Trailing (unit : Nat) : Prop := 0xDC00 ≤ unit ∧ unit ≤ 0xDFFF

inductive Spells : List Char → Option Char → Prop
  | plain {c : Char} (visible : 0x20 ≤ c.toNat) (unquoted : c ≠ '"') (unescaped : c ≠ '\\') :
      Spells [c] (some c)
  | short {e c : Char} (listed : (e, c) ∈ shortEscapes) : Spells ['\\', e] (some c)
  | unit {text : List Char} {c : Char} (escaped : EscapedUnit text c.toNat) : Spells text (some c)
  | pair {high low : List Char} {h l : Nat} {c : Char} (first : EscapedUnit high h)
      (leading : Leading h) (second : EscapedUnit low l) (trailing : Trailing l)
      (joined : c.toNat = 0x10000 + (h - 0xD800) * 0x400 + (l - 0xDC00)) :
      Spells (high ++ low) (some c)
  | lone {text : List Char} {n : Nat} (escaped : EscapedUnit text n)
      (surrogate : Leading n ∨ Trailing n) : Spells text none

inductive Spelled : List Char → Content → Prop
  | nil : Spelled [] []
  | cons {text more : List Char} {c : Option Char} {content : Content} (first : Spells text c)
      (rest : Spelled more content) : Spelled (text ++ more) (c :: content)

inductive Quoted : List Char → Content → Prop
  | quotes {inner : List Char} {content : Content} (spelled : Spelled inner content) :
      Quoted ('"' :: inner ++ ['"']) content

end Strings

section Numbers

def IsWhole (text : List Char) : Prop :=
  Decimal.IsNumeral text ∧ (text.head? = some '0' → text = ['0'])

inductive IsFraction : List Char → Prop
  | none : IsFraction []
  | point {ds : List Char} (digits : Decimal.IsNumeral ds) : IsFraction ('.' :: ds)

inductive IsExponent : List Char → Prop
  | none : IsExponent []
  | some {e : Char} {sign ds : List Char} (letter : e ∈ ['e', 'E'])
      (signed : sign ∈ [[], ['+'], ['-']]) (digits : Decimal.IsNumeral ds) :
      IsExponent (e :: sign ++ ds)

inductive IsNumber : List Char → Prop
  | parts {sign whole fraction exponent : List Char} (signed : sign ∈ [[], ['-']])
      (before : IsWhole whole) (after : IsFraction fraction) (power : IsExponent exponent) :
      IsNumber (sign ++ whole ++ fraction ++ exponent)

end Numbers

/-- Texts in their order, with commas between them and blanks around each. -/
inductive Separated : List (List Char) → List Char → Prop
  | one {before text after : List Char} (blank : Blank before) (blank' : Blank after) :
      Separated [text] (before ++ text ++ after)
  | more {before text after rest : List Char} {texts : List (List Char)} (blank : Blank before)
      (blank' : Blank after) (separated : Separated texts rest) :
      Separated (text :: texts) (before ++ text ++ after ++ ',' :: rest)

/-- What stands between brackets: nothing but blanks, or separated texts. -/
inductive Listed : List (List Char) → List Char → Prop
  | none {text : List Char} (blank : Blank text) : Listed [] text
  | some {texts : List (List Char)} {text : List Char} (separated : Separated texts text) :
      Listed texts text

structure Member where
  key : Content
  keyText : List Char
  before : List Char
  after : List Char
  value : Tree
  valueText : List Char

def Member.text (m : Member) : List Char :=
  m.keyText ++ m.before ++ ':' :: m.after ++ m.valueText

/-- What a text without blanks around it stands for. -/
inductive Denotes : List Char → Tree → Prop
  | null : Denotes "null".toList .null
  | yes : Denotes "true".toList (.bool true)
  | no : Denotes "false".toList (.bool false)
  | number {text : List Char} (number : IsNumber text) : Denotes text (.number text)
  | string {text : List Char} {content : Content} (quoted : Quoted text content) :
      Denotes text (.string content)
  | array {items : List (List Char × Tree)} {inner : List Char}
      (each : ∀ item ∈ items, Denotes item.1 item.2) (listed : Listed (items.map (·.1)) inner) :
      Denotes ('[' :: inner ++ [']']) (.array (items.map (·.2)))
  | object {members : List Member} {inner : List Char}
      (keys : ∀ m ∈ members, Quoted m.keyText m.key ∧ Blank m.before ∧ Blank m.after)
      (values : ∀ m ∈ members, Denotes m.valueText m.value)
      (listed : Listed (members.map Member.text) inner) :
      Denotes ('{' :: inner ++ ['}']) (.object (members.map fun m => (m.key, m.value)))

inductive Document : List Char → Tree → Prop
  | around {before text after : List Char} {value : Tree} (blank : Blank before)
      (denotes : Denotes text value) (blank' : Blank after) :
      Document (before ++ text ++ after) value

end MatrixSession.Json
