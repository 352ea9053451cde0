import TaxonomyPress.Number.Digits
import TaxonomyPress.Text.Glyphs

/-!
# Quoted text for diagnostics

* `Text.quoted` : a text between quotation marks, with all characters written out that do not show on
  their own.
-/

namespace TaxonomyPress

/-- The hexadecimal digits of `n` in front of `after`. -/
def hexDigits (n : Nat) (after : List Char) : List Char :=
  if _h : n < 16 then digitChar n :: after
  else hexDigits (n / 16) (digitChar (n % 16) :: after)

namespace Text

/-- A character between quotation marks. -/
def escapeQuoted (c : Char) : List Char :=
  if c = '"' ∨ c = '\\' then ['\\', c]
  else if c = '\x00' then ['\\', '0']
  else if c = '\t' then ['\\', 't']
  else if c = '\n' then ['\\', 'n']
  else if c = '\r' then ['\\', 'r']
  else if showsAlone c then [c]
  else '\\' :: 'u' :: '{' :: hexDigits c.toNat ['}']

/-- The text between quotation marks. -/
def quoted (s : String) : String :=
  String.ofList ('"' :: s.toList.flatMap escapeQuoted ++ ['"'])

end Text

end TaxonomyPress
