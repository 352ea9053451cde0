/-!
# Readers: functions from a text to a value and the rest of the text

* `Reader α` : reads a beginning of a list of characters, or fails; a failure keeps nothing, so an
  alternative starts again from the same text;
* `Reader.satisfying`, `char`, `token`, `takeWhile`, `peek` : single steps;
* `Reader.many`, `separated` : repetition, which ends where a step fails;
* `Reader.run` : the value of a text that is read to its end.
-/

namespace TaxonomyPress

/-- Reads a beginning of the text, or fails. -/
abbrev Reader (α : Type) := StateT (List Char) Option α

namespace Reader

variable {α β : Type}

/-- The value of a text, if the reader takes all of it. -/
def run (r : Reader α) (text : List Char) : Option α :=
  match StateT.run r text with
  | some (a, []) => some a
  | _ => none

/-- The rest of the text. -/
def rest : Reader (List Char) := get

/-- The next character, which stays in the text. -/
def peek : Reader (Option Char) := do return (← get).head?

/-- Fails unless `condition` holds. -/
def check (condition : Bool) : Reader Unit := if condition then pure () else failure

/-- The next character, if it satisfies `p`. -/
def satisfying (p : Char → Bool) : Reader Char := fun
  | [] => none
  | c :: cs => if p c then some (c, cs) else none

/-- Any character. -/
def any : Reader Char := satisfying fun _ => true

/-- The character `c`. -/
def char (c : Char) : Reader Unit := do
  let _ ← satisfying (· == c)

/-- The text that `cs` begins with when it begins with `front`. -/
def dropFront : List Char → List Char → Option (List Char)
  | [], cs => some cs
  | _ :: _, [] => none
  | p :: ps, c :: cs => if p == c then dropFront ps cs else none

/-- The characters of `s`. -/
def token (s : String) : Reader Unit := fun cs => (dropFront s.toList cs).map ((), ·)

/-- Whether the text goes on with `s`. -/
def isNext (s : String) : Reader Bool := do return (dropFront s.toList (← get)).isSome

/-- The longest beginning of characters that satisfy `p`. -/
def takeWhile (p : Char → Bool) : Reader (List Char) := fun cs =>
  some (cs.takeWhile p, cs.dropWhile p)

/-- The longest beginning of characters that satisfy `p`, which must not be empty. -/
def takeSome (p : Char → Bool) : Reader (List Char) := do
  let cs ← takeWhile p
  check !cs.isEmpty
  return cs

/-- Exactly `n` characters that satisfy `p`. -/
def exactly : Nat → (Char → Bool) → Reader (List Char)
  | 0, _ => pure []
  | n + 1, p => do
    let c ← satisfying p
    return c :: (← exactly n p)

/-- The values that `r` reads from `cs` one after the other, behind those of `before`, which is in
reverse. Each takes a character or more, so `budget`, which has a character for each of them, may be
the text itself. -/
def collect (r : Reader α) (before : List α) : List Char → List Char → List α × List Char
  | [], cs => (before.reverse, cs)
  | _ :: budget, cs =>
    match r cs with
    | none => (before.reverse, cs)
    | some (a, after) => collect r (a :: before) budget after

/-- As many values as the text has one after the other. Each must take a character or more. -/
def many (r : Reader α) : Reader (List α) := fun cs => some (collect r [] cs cs)

/-- One value or more, with `separator` between them. -/
def separated (separator : Reader β) (r : Reader α) : Reader (List α) := do
  let first ← r
  return first :: (← many (separator *> r))

end Reader

end TaxonomyPress
