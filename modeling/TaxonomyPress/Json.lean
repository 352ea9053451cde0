import TaxonomyPress.Dictionary
import TaxonomyPress.Number.Decimal

/-!
# JSON values

* `Json` : a value; the members of an object keep their order, a number keeps its written form;
* `Json.ofDictionary` : an object with its members by key;
* `Json.doubleNotation`, `Json.double` : how a double is written;
* `Json.lastMember?` : the member of an object that counts where a key stands twice;
* `Json.normal` : members by key, the last one of each key, and numbers in their one form.
-/

namespace TaxonomyPress

inductive Json where
  | null
  | boolean (value : Bool)
  | number (text : String)
  | string (value : String)
  | array (items : List Json)
  | object (members : List (String × Json))

namespace Json

/-! ## Building -/

/-- The object of a dictionary. -/
def ofDictionary (d : Dictionary Json) : Json := .object d

/-- The object of `entries`; the last value of a key stays. -/
def ofEntries (entries : List (String × Json)) : Json := .object (Dictionary.ofList entries)

/-- An object of strings. -/
def ofTexts (d : Dictionary String) : Json := .object (d.mapValues .string)

/-- An array of strings. -/
def strings (items : List String) : Json := .array (items.map .string)

/-- A natural number. -/
def natural (n : Nat) : Json := .number (decimalText n)

/-- Doubles have a point. They are positional from `0.00001` up to below `1e16`, and have a signed
exponent elsewhere. -/
def doubleNotation : DecimalNotation :=
  { leastPoint := -4, greatestPoint := 16, mark := "e", plus := "+", pointBeforeMark := false }

/-- A double with the fewest digits that read back. -/
def double (x : Binary64) : Json := .number (doubleNotation.write x.shortest)

/-! ## Reading members -/

/-- The member of an object at `key`. -/
def get? (key : String) : Json → Option Json
  | object members => (members.find? (·.1 = key)).map (·.2)
  | _ => none

/-- The last member at `key`. -/
def lastMember? (key : String) (members : List (String × Json)) : Option Json :=
  (members.reverse.find? (·.1 = key)).map (·.2)

def asString? : Json → Option String
  | string s => some s
  | _ => none

def asArray? : Json → Option (List Json)
  | array items => some items
  | _ => none

def asObject? : Json → Option (List (String × Json))
  | object members => some members
  | _ => none

/-! ## Normal form -/

/-- The one form of a number: whole numbers of 64 bits keep their digits, all others are doubles. -/
def normalNumber (text : String) : String :=
  let digits := (Text.dropPrefix "-" text).getD text
  let negative := digits != text
  let n := ofDigits 10 digits.toList
  let whole := digits.toList.all isDecimalDigit
  if whole && (if negative then 0 < n && n ≤ Nat.pow 2 63 else n < Nat.pow 2 64) then text
  else
    match (Decimal.ofText? text).bind Decimal.nearest with
    | some x => doubleNotation.write x.shortest
    | none => text

mutual

/-- Members by key, the last one of each key, and numbers in their one form. -/
def normal : Json → Json
  | number text => number (normalNumber text)
  | array items => array (normalItems items)
  | object members => object (Dictionary.ofList (normalMembers members))
  | other => other

/-- `normal` on every item. -/
def normalItems : List Json → List Json
  | [] => []
  | item :: items => normal item :: normalItems items

/-- `normal` on every member. -/
def normalMembers : List (String × Json) → List (String × Json)
  | [] => []
  | (key, value) :: members => (key, normal value) :: normalMembers members

end

end Json

end TaxonomyPress
