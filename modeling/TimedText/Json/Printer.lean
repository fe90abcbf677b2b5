import TimedText.Json.Basic
import TimedText.Text.Quoted

/-!
# Writing JSON

One line, a blank after each comma and colon, every character above the controls as it is. Doubles
that are no numbers are written as the words `NaN` and `Infinity`.
-/

namespace TimedText

namespace Json

/-- A character between the quotes of a string. -/
def escapeChar (c : Char) : List Char :=
  if c = '"' then ['\\', '"']
  else if c = '\\' then ['\\', '\\']
  else if c = '\n' then ['\\', 'n']
  else if c = '\r' then ['\\', 'r']
  else if c = '\t' then ['\\', 't']
  else if c = '\x08' then ['\\', 'b']
  else if c = '\x0c' then ['\\', 'f']
  else if c.toNat < 0x20 then '\\' :: 'u' :: Text.hex 4 c.toNat
  else [c]

/-- A string in its quotes. -/
def stringChars (s : String) : List Char :=
  '"' :: (s.toList.flatMap escapeChar ++ ['"'])

/-- A double as it is written in a JSON text. -/
def floatChars : Double → List Char
  | .nan => "NaN".toList
  | .infinite false => "Infinity".toList
  | .infinite true => "-Infinity".toList
  | d => d.text.toList

mutual

/-- The characters of a value. -/
def chars : Json → List Char
  | .null => "null".toList
  | .bool true => "true".toList
  | .bool false => "false".toList
  | .int i => (toString i).toList
  | .float d => floatChars d
  | .str s => stringChars s
  | .list items => '[' :: (itemChars items ++ [']'])
  | .dict members => '\x7b' :: (memberChars members ++ ['\x7d'])

/-- The items of a list, commas between them. -/
def itemChars : List Json → List Char
  | [] => []
  | [j] => chars j
  | j :: rest => chars j ++ ',' :: ' ' :: itemChars rest

/-- The members of an object, commas between them. -/
def memberChars : List (String × Json) → List Char
  | [] => []
  | [(k, v)] => stringChars k ++ ':' :: ' ' :: chars v
  | (k, v) :: rest => stringChars k ++ ':' :: ' ' :: (chars v ++ ',' :: ' ' :: memberChars rest)

end

/-- The text of a value, on one line. -/
def print (j : Json) : String := String.ofList j.chars

end Json

end TimedText
