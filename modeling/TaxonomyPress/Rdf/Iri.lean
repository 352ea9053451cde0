import TaxonomyPress.Number.Digits
import TaxonomyPress.Text

/-!
# IRI references

* `IriReference` : the five parts of a reference, `IriReference.ofChars` cuts one up and `toChars`
  puts it together;
* `IriReference.isValid` : whether each part holds only what it may;
* `IriReference.resolve` : a reference seen from a base; its `.` and `..` segments lead through the
  path of the base, which stays as it is written;
* `parseIri`, `resolveIri` : an IRI with a scheme, and a reference seen from a base IRI.
-/

namespace TaxonomyPress

/-! ## Characters -/

/-- Whether `c` lies in one of the ranges. -/
def inRanges (ranges : List (Nat × Nat)) (c : Char) : Bool :=
  ranges.any fun (low, high) => low ≤ c.toNat && c.toNat ≤ high

def isAsciiLetter (c : Char) : Bool := inRanges [(0x41, 0x5A), (0x61, 0x7A)] c

def isAsciiAlphanumeric (c : Char) : Bool := isAsciiLetter c || isDecimalDigit c

/-- Characters beyond ASCII that may stand in every part of an IRI. -/
def iriRanges : List (Nat × Nat) :=
  [(0xA0, 0xD7FF), (0xF900, 0xFDCF), (0xFDF0, 0xFFEF), (0x10000, 0x1FFFD), (0x20000, 0x2FFFD),
   (0x30000, 0x3FFFD), (0x40000, 0x4FFFD), (0x50000, 0x5FFFD), (0x60000, 0x6FFFD),
   (0x70000, 0x7FFFD), (0x80000, 0x8FFFD), (0x90000, 0x9FFFD), (0xA0000, 0xAFFFD),
   (0xB0000, 0xBFFFD), (0xC0000, 0xCFFFD), (0xD0000, 0xDFFFD), (0xE1000, 0xEFFFD)]

/-- Private characters, which may stand in a query only. -/
def privateRanges : List (Nat × Nat) :=
  [(0xE000, 0xF8FF), (0xF0000, 0xFFFFD), (0x100000, 0x10FFFD)]

/-- Characters that may stand in every part of an IRI as they are. -/
def isIriChar (c : Char) : Bool :=
  isAsciiAlphanumeric c || "!$&'()*+,-.;=_~".toList.contains c || inRanges iriRanges c

/-- Whether all characters satisfy `p` or belong to an escape of `%` and two digits. -/
def allPlainOrEscaped (p : Char → Bool) : List Char → Bool
  | [] => true
  | '%' :: a :: b :: cs => isHexDigit a && isHexDigit b && allPlainOrEscaped p cs
  | c :: cs => c != '%' && p c && allPlainOrEscaped p cs

/-! ## Parts -/

/-- A reference. An absent part differs from an empty one, except that there is always a path. -/
structure IriReference where
  scheme : Option (List Char)
  authority : Option (List Char)
  path : List Char
  query : Option (List Char)
  fragment : Option (List Char)

namespace IriReference

/-- Whether `cs` can be a scheme. -/
def isScheme : List Char → Bool
  | [] => false
  | c :: cs => isAsciiLetter c && cs.all fun d => isAsciiAlphanumeric d || "+-.".toList.contains d

/-- The text before the first `mark`, and the text behind it if there is one. -/
def splitOff (mark : Char) (cs : List Char) : List Char × Option (List Char) :=
  match cutAtFirst mark cs with
  | some (before, after) => (before, some after)
  | none => (cs, none)

/-- Cuts a reference into its parts. -/
def ofChars (cs : List Char) : IriReference :=
  let (cs, fragment) := splitOff '#' cs
  let (cs, query) := splitOff '?' cs
  let (scheme, cs) :=
    match cutAtFirst ':' cs with
    | some (before, after) => if isScheme before then (some before, after) else (none, cs)
    | none => (none, cs)
  match cs with
  | '/' :: '/' :: rest =>
    { scheme, authority := some (rest.takeWhile (· != '/')), path := rest.dropWhile (· != '/')
      query, fragment }
  | path => { scheme, authority := none, path, query, fragment }

/-- The part behind `mark`, if it is there. -/
def marked (mark : List Char) : Option (List Char) → List Char
  | some part => mark ++ part
  | none => []

/-- Puts the parts together. -/
def toChars (r : IriReference) : List Char :=
  (match r.scheme with
    | some scheme => scheme ++ [':']
    | none => [])
  ++ marked ['/', '/'] r.authority ++ r.path ++ marked ['?'] r.query ++ marked ['#'] r.fragment

/-! ## Validity -/

/-- Whether each group has one to four hexadecimal digits. -/
def isAddressGroups (groups : List (List Char)) : Bool :=
  groups.all fun g => 1 ≤ g.length && g.length ≤ 4 && g.all isHexDigit

/-- An address of version 4: four numbers below 256 without leading zeros. -/
def isAddress4 (cs : List Char) : Bool :=
  let parts := segments '.' cs
  parts.length = 4 && parts.all fun p =>
    1 ≤ p.length && p.length ≤ 3 && p.all isDecimalDigit && ofDigits 10 p < 256
      && (p.length = 1 || p.head? != some '0')

/-- The number of groups that a part of an address of version 6 stands for; the last one may be an
address of version 4, which counts twice. -/
def groupCount (cs : List Char) (isLast : Bool) : Option Nat :=
  if cs.isEmpty then some 0
  else
    let groups := segments ':' cs
    match groups.getLast? with
    | none => some 0
    | some back =>
      if isLast && isAddress4 back then
        if isAddressGroups groups.dropLast then some (groups.length + 1) else none
      else if isAddressGroups groups then some groups.length else none

/-- Cuts at the first two colons in a row. -/
def cutAtGap : List Char → Option (List Char × List Char)
  | [] => none
  | ':' :: ':' :: cs => some ([], cs)
  | c :: cs => (cutAtGap cs).map fun (before, after) => (c :: before, after)

/-- An address of version 6. -/
def isAddress6 (cs : List Char) : Bool :=
  match cutAtGap cs with
  | none => groupCount cs true == some 8
  | some (before, after) =>
    match groupCount before false, groupCount after true with
    | some m, some n => m + n ≤ 7
    | _, _ => false

/-- What may stand between brackets as a host: an address of version 6 or of a later one. -/
def isBracketed : List Char → Bool
  | v :: cs =>
    if v == 'v' || v == 'V' then
      match cutAtFirst '.' cs with
      | some (version, address) =>
        !version.isEmpty && version.all isHexDigit && !address.isEmpty
          && address.all fun c => (isIriChar c && c.toNat < 128) || c == ':'
      | none => false
    else isAddress6 (v :: cs)
  | [] => false

/-- A port: nothing, or a colon and digits. -/
def isPort : List Char → Bool
  | [] => true
  | ':' :: digits => digits.all isDecimalDigit
  | _ => false

def isHostAndPort : List Char → Bool
  | '[' :: cs =>
    match cutAtFirst ']' cs with
    | some (address, port) => isBracketed address && isPort port
    | none => false
  | cs =>
    allPlainOrEscaped isIriChar (cs.takeWhile (· != ':')) && isPort (cs.dropWhile (· != ':'))

def isAuthority (cs : List Char) : Bool :=
  match cutAtFirst '@' cs with
  | some (user, host) => allPlainOrEscaped (fun c => isIriChar c || c == ':') user && isHostAndPort host
  | none => isHostAndPort cs

def isPath : List Char → Bool :=
  allPlainOrEscaped fun c => isIriChar c || "/:@".toList.contains c

def isQuery : List Char → Bool :=
  allPlainOrEscaped fun c => isIriChar c || "/?:@".toList.contains c || inRanges privateRanges c

def isFragment : List Char → Bool :=
  allPlainOrEscaped fun c => isIriChar c || "/?:@".toList.contains c

/-- Whether each part holds only what it may. -/
def hasValidParts (r : IriReference) : Bool :=
  r.authority.all isAuthority && isPath r.path && r.query.all isQuery && r.fragment.all isFragment

/-- Whether a reference is valid. A first segment with a colon would be a scheme. -/
def isValid (r : IriReference) : Bool :=
  r.hasValidParts
    && (r.scheme.isSome || r.authority.isSome || !(r.path.takeWhile (· != '/')).contains ':')

/-! ## Resolution -/

/-- The directory above `directory`, both of which end in `/` unless they are empty. With `rooted`
the root has itself above it, else nothing. -/
def above (rooted : Bool) (directory : List Char) : List Char :=
  match splitAfterLast (· == '/') directory.dropLast with
  | some (before, _) => before
  | none => if rooted then ['/'] else []

/-- The path that the segments of a relative path lead to from `directory`. -/
def descend (rooted : Bool) (directory : List Char) : List (List Char) → List Char
  | [] => directory
  | ['.'] :: segs => descend rooted directory segs
  | ['.', '.'] :: segs => descend rooted (above rooted directory) segs
  | [seg] => directory ++ seg
  | seg :: segs => descend rooted (directory ++ seg ++ ['/']) segs

/-- The directory that a path with the last segment cut off names. -/
def directory (r : IriReference) : List Char :=
  match splitAfterLast (· == '/') r.path with
  | some (before, _) => before
  | none => if r.authority.isSome then ['/'] else []

/-- The path of a reference seen from its base. -/
def mergedPath (base r : IriReference) : List Char :=
  let rooted := base.authority.isSome
  match r.path with
  | '/' :: path => descend rooted ['/'] (segments '/' path)
  | path => descend rooted base.directory (segments '/' path)

/-- The reference `r` seen from `base`. -/
def resolve (base r : IriReference) : IriReference :=
  if r.scheme.isSome then r
  else if r.authority.isSome then { r with scheme := base.scheme }
  else if r.path.isEmpty then
    { base with query := r.query.or base.query, fragment := r.fragment }
  else
    { scheme := base.scheme, authority := base.authority, path := mergedPath base r
      query := r.query, fragment := r.fragment }

/-- Whether the path could be taken for an authority. -/
def isAmbiguous (r : IriReference) : Bool :=
  r.authority.isNone && (dropPrefix ['/', '/'] r.path).isSome

end IriReference

/-- Whether `cs` writes a valid IRI with a scheme. -/
def isAbsoluteIri (cs : List Char) : Bool :=
  let r := IriReference.ofChars cs
  r.scheme.isSome && r.isValid

/-- The IRI that `cs` writes, if it is valid and has a scheme. -/
def parseIri (cs : List Char) : Option String :=
  if isAbsoluteIri cs then some (String.ofList cs) else none

/-- The IRI of a valid reference seen from `base`, if there is a base; else it must have a scheme. -/
def resolveIri (base : Option String) (cs : List Char) : Option String :=
  match base with
  | none => parseIri cs
  | some b =>
    let r := IriReference.ofChars cs
    let resolved := (IriReference.ofChars b.toList).resolve r
    if r.isValid && !resolved.isAmbiguous then some (String.ofList resolved.toChars) else none

end TaxonomyPress
