import TaxonomyPress.Json

/-!
# The canonical form of JSON

* `Json.canonicalNumber` : a number as the nearest double, with the fewest digits; of its own digits
  only the first 19 count;
* `Json.compareKeys` : keys by UTF-16 unit;
* `Json.canonical` : members by key and numbers in their canonical form. Members of one key all stay.
-/

namespace TaxonomyPress

namespace Json

/-! ## Numbers -/

/-- Canonical numbers are positional from `0.000001` up to below `1e21`, and whole ones have no
point. -/
def canonicalNotation : DecimalNotation :=
  { leastPoint := -5, greatestPoint := 21, mark := "e", plus := "+", pointBeforeMark := false
    pointAfterWhole := false }

/-- The power of two behind the largest double, which stands for all numbers that are too large. -/
def beyondLargest (negative : Bool) : Binary64 := ⟨negative, Nat.pow 2 52, 972⟩

/-- The decimal that a number is rounded from: its first 19 digits. -/
def measured (text : String) : Option Decimal := (Decimal.ofText? text).map (Decimal.leading 19)

/-- A number as the nearest double, with the fewest digits. Zero has no sign. -/
def canonicalNumber (text : String) : String :=
  match measured text with
  | none => text
  | some decimal =>
    let shortest := (decimal.nearest.getD (beyondLargest decimal.negative)).shortest
    canonicalNotation.write
      (if shortest.coefficient = 0 then { shortest with negative := false } else shortest)

/-! ## Values -/

/-- The UTF-16 units of a string. -/
def units16 (s : String) : List Nat :=
  s.toList.flatMap fun c =>
    let n := c.toNat
    if n < 0x10000 then [n]
    else [0xD800 + (n - 0x10000) / 1024, 0xDC00 + (n - 0x10000) % 1024]

/-- Keys by UTF-16 unit. -/
def compareKeys (a b : String) : Ordering := lexicographic compareNat (units16 a) (units16 b)

mutual

/-- Members by key, those of one key in their order, and numbers in their one form. -/
def canonical : Json → Json
  | number text => number (canonicalNumber text)
  | array items => array (canonicalItems items)
  | object members => object (sortWith (fun a b => compareKeys a.1 b.1) (canonicalMembers members))
  | other => other

/-- `canonical` on every item. -/
def canonicalItems : List Json → List Json
  | [] => []
  | item :: items => canonical item :: canonicalItems items

/-- `canonical` on every member. -/
def canonicalMembers : List (String × Json) → List (String × Json)
  | [] => []
  | (key, value) :: members => (key, canonical value) :: canonicalMembers members

end

end Json

end TaxonomyPress
