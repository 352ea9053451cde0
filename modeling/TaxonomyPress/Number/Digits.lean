/-!
# Digits

* `digitValue` : the value of a digit in a base up to 16;
* `ofDigits` : the number that digits write;
* `decimalText` : a natural number in decimal digits; `paddedText` : with zeros in front.
-/

namespace TaxonomyPress

/-- The value of a hexadecimal digit. -/
def digitValue (c : Char) : Option Nat :=
  if '0' ≤ c ∧ c ≤ '9' then some (c.toNat - '0'.toNat)
  else if 'a' ≤ c ∧ c ≤ 'f' then some (c.toNat - 'a'.toNat + 10)
  else if 'A' ≤ c ∧ c ≤ 'F' then some (c.toNat - 'A'.toNat + 10)
  else none

/-- Whether `c` is a digit of the base `base`. -/
def isDigitOf (base : Nat) (c : Char) : Bool :=
  match digitValue c with
  | some value => value < base
  | none => false

/-- Whether `c` is a decimal digit. -/
def isDecimalDigit (c : Char) : Bool := isDigitOf 10 c

/-- Whether `c` is a hexadecimal digit. -/
def isHexDigit (c : Char) : Bool := isDigitOf 16 c

/-- The number that `cs` writes in the base `base`; what is no digit counts as zero. -/
def ofDigits (base : Nat) (cs : List Char) : Nat :=
  cs.foldl (fun n c => n * base + (digitValue c).getD 0) 0

/-- The digit of a value below 16, in lower case. -/
def digitChar (value : Nat) : Char :=
  if value < 10 then Char.ofNat ('0'.toNat + value) else Char.ofNat ('a'.toNat + (value - 10))

/-- The decimal digits of `n` in front of `after`. -/
def decimalDigits (n : Nat) (after : List Char) : List Char :=
  if _h : n < 10 then digitChar n :: after
  else decimalDigits (n / 10) (digitChar (n % 10) :: after)

/-- `n` in decimal digits. -/
def decimalText (n : Nat) : String := String.ofList (decimalDigits n [])

/-- `n` in decimal digits, at least `width` of them. -/
def paddedDigits (width n : Nat) : List Char :=
  let digits := decimalDigits n []
  List.replicate (width - digits.length) '0' ++ digits

/-- `n` in decimal digits, at least `width` of them. -/
def paddedText (width n : Nat) : String := String.ofList (paddedDigits width n)

/-- A whole number in decimal digits, with a sign if it is negative. -/
def signedText (n : Int) : String :=
  match n with
  | .ofNat k => decimalText k
  | .negSucc k => "-" ++ decimalText (k + 1)

/-- Whether `n` is a Unicode scalar value. -/
def isScalarValue (n : Nat) : Bool := n < 0xD800 || (0xE000 ≤ n && n < 0x110000)

/-- The character that hexadecimal digits name, if they name one. -/
def charOfHex (cs : List Char) : Option Char :=
  let n := ofDigits 16 cs
  if isScalarValue n then some (Char.ofNat n) else none

end TaxonomyPress
