import TaxonomyPress.Rdf.Iri

/-!
# Language tags

* `LanguageTag.isWellFormed` : whether the subtags of a tag stand in the order of the standard:
  language, extended languages, script, region, variants, extensions, private use.
-/

namespace TaxonomyPress

namespace LanguageTag

/-- How far a tag has been read. -/
inductive Stage where
  | start
  | language (extended : Nat)
  | longLanguage
  | script
  | region
  | extension (isOpen : Bool)
  | privateUse (isOpen : Bool)
deriving DecidableEq

namespace Stage

/-- Whether a script may follow. -/
def beforeScript : Stage → Bool
  | language _ => true
  | longLanguage => true
  | _ => false

/-- Whether a region may follow. -/
def beforeRegion (stage : Stage) : Bool := stage.beforeScript || stage = .script

/-- Whether a variant may follow. -/
def beforeVariant (stage : Stage) : Bool := stage.beforeRegion || stage = .region

end Stage

/-- Whether the subtag can be a variant. -/
def isVariant (subtag : List Char) : Bool :=
  match subtag.head? with
  | none => false
  | some c =>
    if isAsciiLetter c then 5 ≤ subtag.length else isDecimalDigit c && 4 ≤ subtag.length

/-- The stage after a subtag. -/
def next (stage : Stage) (subtag : List Char) : Option Stage :=
  let letters := subtag.all isAsciiLetter
  let n := subtag.length
  if n = 0 ∨ 8 < n ∨ ¬subtag.all isAsciiAlphanumeric then none
  else
    match stage with
    | .start =>
      if n < 2 ∨ ¬letters then none
      else if n < 4 then some (.language 0) else some .longLanguage
    | .privateUse _ => some (.privateUse false)
    | stage =>
      if n = 1 then
        if stage = .extension true then none
        else if subtag = ['x'] ∨ subtag = ['X'] then some (.privateUse true)
        else some (.extension true)
      else
        match stage with
        | .extension _ => some (.extension false)
        | .language extended =>
          if n = 3 ∧ letters then
            if extended < 3 then some (.language (extended + 1)) else none
          else afterLanguage stage letters n subtag
        | stage => afterLanguage stage letters n subtag
where
  /-- The stage after a script, a region or a variant. -/
  afterLanguage (stage : Stage) (letters : Bool) (n : Nat) (subtag : List Char) : Option Stage :=
    if n = 4 ∧ letters ∧ stage.beforeScript then some .script
    else if stage.beforeRegion ∧ ((n = 2 ∧ letters) ∨ (n = 3 ∧ subtag.all isDecimalDigit)) then
      some .region
    else if stage.beforeVariant ∧ isVariant subtag then some .region
    else none

/-- Tags that are older than the standard and stay valid. -/
def irregular : List String :=
  ["art-lojban", "cel-gaulish", "en-gb-oed", "i-ami", "i-bnn", "i-default", "i-enochian", "i-hak",
   "i-klingon", "i-lux", "i-mingo", "i-navajo", "i-pwn", "i-tao", "i-tay", "i-tsu", "no-bok",
   "no-nyn", "sgn-be-fr", "sgn-be-nl", "sgn-ch-de", "zh-guoyu", "zh-hakka", "zh-min", "zh-min-nan",
   "zh-xiang"]

/-- Whether `tag`, in lower case, is a well-formed language tag. -/
def isWellFormed (tag : List Char) : Bool :=
  irregular.contains (String.ofList tag) ||
    match tag with
    | 'x' :: '-' :: rest =>
      (segments '-' rest).all fun s => 1 ≤ s.length && s.length ≤ 8 && s.all isAsciiAlphanumeric
    | _ =>
      match (segments '-' tag).foldlM next .start with
      | none => false
      | some .start => false
      | some (.extension true) => false
      | some (.privateUse true) => false
      | some _ => true

end LanguageTag

end TaxonomyPress
