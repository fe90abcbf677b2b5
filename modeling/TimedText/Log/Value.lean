import TimedText.Json.Basic
import TimedText.Text.Quoted

/-!
# Values inside messages

How a value is spelled when it is put into a message: texts as they are on their own and quoted
inside a list or a table, truth values and nothing as words with a capital.
-/

namespace TimedText.Log

mutual

/-- The spelling of a value, with texts quoted. -/
def spelled : Json → String
  | .null => "None"
  | .bool true => "True"
  | .bool false => "False"
  | .int i => toString i
  | .float d => d.text
  | .str s => Text.quoted s
  | .list items => "[" ++ spelledItems items ++ "]"
  | .dict members => "\x7b" ++ spelledMembers members ++ "\x7d"

/-- The items of a list, commas between them. -/
def spelledItems : List Json → String
  | [] => ""
  | [j] => spelled j
  | j :: rest => spelled j ++ ", " ++ spelledItems rest

/-- The members of a table, commas between them. -/
def spelledMembers : List (String × Json) → String
  | [] => ""
  | [(k, v)] => Text.quoted k ++ ": " ++ spelled v
  | (k, v) :: rest => Text.quoted k ++ ": " ++ spelled v ++ ", " ++ spelledMembers rest

end

/-- The spelling of a value on its own: a text is not quoted. -/
def plain : Json → String
  | .str s => s
  | j => spelled j

/-- A quoted text in which characters outside ASCII are spelled by their code, too. -/
def asciiOnly (s : String) : String :=
  String.ofList (s.toList.flatMap fun c =>
    if c.toNat < 0x80 then [c]
    else if c.toNat < 0x100 then '\\' :: 'x' :: Text.hex 2 c.toNat
    else if c.toNat < 0x10000 then '\\' :: 'u' :: Text.hex 4 c.toNat
    else '\\' :: 'U' :: Text.hex 8 c.toNat)

end TimedText.Log
