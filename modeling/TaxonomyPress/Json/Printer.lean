import TaxonomyPress.Json

/-!
# JSON as text

* `Json.quote` : a string with its escapes;
* `Json.pretty` : two blanks for each level, one item or member a line;
* `Json.compressed` : no blanks at all.
-/

namespace TaxonomyPress

namespace Json

/-! ## Strings -/

/-- A control character without a short escape: `\u` and four hexadecimal digits. -/
def escapeControl (c : Char) : List Char :=
  ['\\', 'u', '0', '0', digitChar (c.toNat / 16), digitChar (c.toNat % 16)]

/-- A character inside a quoted string. Only what must be escaped is. -/
def escape (c : Char) : List Char :=
  if c = '"' then ['\\', '"']
  else if c = '\\' then ['\\', '\\']
  else if c = '\x08' then ['\\', 'b']
  else if c = '\x0c' then ['\\', 'f']
  else if c = '\n' then ['\\', 'n']
  else if c = '\r' then ['\\', 'r']
  else if c = '\t' then ['\\', 't']
  else if c.toNat < 32 then escapeControl c
  else [c]

/-- A string between quotation marks. -/
def quote (s : String) : String := "\"" ++ String.ofList (s.toList.flatMap escape) ++ "\""

/-! ## Values -/

/-- The break before an item at `depth`. -/
def lineBreak (depth : Nat) : String := String.ofList ('\n' :: List.replicate (2 * depth) ' ')

mutual

/-- The text of a value whose items stand one level below `depth`. -/
def prettyAt (depth : Nat) : Json → String
  | null => "null"
  | boolean true => "true"
  | boolean false => "false"
  | number text => text
  | string s => quote s
  | array [] => "[]"
  | array (item :: items) =>
    "[" ++ lineBreak (depth + 1) ++ prettyAt (depth + 1) item ++ prettyItems (depth + 1) items
      ++ lineBreak depth ++ "]"
  | object [] => "\x7b\x7d"
  | object ((key, value) :: members) =>
    "\x7b" ++ lineBreak (depth + 1) ++ quote key ++ ": " ++ prettyAt (depth + 1) value
      ++ prettyMembers (depth + 1) members ++ lineBreak depth ++ "\x7d"

/-- The items after the first one. -/
def prettyItems (depth : Nat) : List Json → String
  | [] => ""
  | item :: items => "," ++ lineBreak depth ++ prettyAt depth item ++ prettyItems depth items

/-- The members after the first one. -/
def prettyMembers (depth : Nat) : List (String × Json) → String
  | [] => ""
  | (key, value) :: members =>
    "," ++ lineBreak depth ++ quote key ++ ": " ++ prettyAt depth value
      ++ prettyMembers depth members

end

/-- A document: the value over several lines. -/
def pretty (value : Json) : String := prettyAt 0 value

mutual

/-- The value on one line. -/
def compressed : Json → String
  | null => "null"
  | boolean true => "true"
  | boolean false => "false"
  | number text => text
  | string s => quote s
  | array [] => "[]"
  | array (item :: items) => "[" ++ compressed item ++ compressedItems items ++ "]"
  | object [] => "\x7b\x7d"
  | object ((key, value) :: members) =>
    "\x7b" ++ quote key ++ ":" ++ compressed value ++ compressedMembers members ++ "\x7d"

/-- The items after the first one. -/
def compressedItems : List Json → String
  | [] => ""
  | item :: items => "," ++ compressed item ++ compressedItems items

/-- The members after the first one. -/
def compressedMembers : List (String × Json) → String
  | [] => ""
  | (key, value) :: members => "," ++ quote key ++ ":" ++ compressed value ++ compressedMembers members

end

end Json

end TaxonomyPress
