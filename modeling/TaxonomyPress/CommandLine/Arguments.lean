import TaxonomyPress.Loading

/-!
# Arguments of a run

* `Arguments` : what a run is asked to do;
* `Request`, `Request.ofArguments` : a run, a call for help, or a fault. A flag is written out in
  full; its value follows it, or stands behind `=` in the same argument; each flag stands once;
  everything behind `--` is an input.
-/

namespace TaxonomyPress

structure Arguments where
  input : UnixPath
  format : Option Format
  out : UnixPath
  config : Option UnixPath
  redirects : Bool
deriving DecidableEq

inductive Request where
  | run (arguments : Arguments)
  | help
  | fault
deriving DecidableEq

/-- The arguments that have been read. -/
structure GivenArguments where
  input : Option String := none
  format : Option String := none
  out : Option String := none
  config : Option String := none
  redirects : Bool := false

namespace GivenArguments

/-- Another input; there is only one, and it is not empty. -/
def withInput (given : GivenArguments) (value : String) : Option GivenArguments :=
  if given.input.isSome ∨ value = "" then none else some { given with input := some value }

/-- The value of a flag that takes one. -/
def withFlag (given : GivenArguments) (flag value : String) : Option GivenArguments :=
  if value = "" then none
  else
    match flag with
    | "--format" =>
      if given.format.isSome ∨ (Format.ofName value).isNone then none
      else some { given with format := some value }
    | "--out" => if given.out.isSome then none else some { given with out := some value }
    | "--config" => if given.config.isSome then none else some { given with config := some value }
    | _ => none

/-- Whether an argument is a flag and no value; a lone `-` is a value. -/
def isFlag (argument : String) : Bool := Text.startsWith "-" argument && argument ≠ "-"

/-- Flags that take a value. -/
def valueFlags : List String := ["--format", "--out", "--config"]

/-- The request of the arguments that have been read. -/
def request (given : GivenArguments) : Request :=
  match given.input with
  | none => .fault
  | some input =>
    .run
      { input := ⟨input⟩
        format := given.format.bind Format.ofName
        out := ⟨given.out.getD "public"⟩
        config := given.config.map UnixPath.mk
        redirects := given.redirects }

/-- Reads inputs only. -/
def readInputs (given : GivenArguments) : List String → Request
  | [] => given.request
  | argument :: rest =>
    match given.withInput argument with
    | some given => readInputs given rest
    | none => .fault

/-- Reads arguments from left to right. -/
def read (given : GivenArguments) : List String → Request
  | [] => given.request
  | argument :: rest =>
    if argument = "--" then given.readInputs rest
    else if argument = "--help" ∨ Text.startsWith "-h" argument then .help
    else if argument = "--redirects" then
      if given.redirects then .fault else read { given with redirects := true } rest
    else if argument ∈ valueFlags then
      match rest with
      | value :: rest =>
        if isFlag value then .fault
        else
          match given.withFlag argument value with
          | some given => read given rest
          | none => .fault
      | [] => .fault
    else if isFlag argument then
      match Text.cutAtFirst '=' argument with
      | some (flag, value) =>
        match given.withFlag flag value with
        | some given => read given rest
        | none => .fault
      | none => .fault
    else
      match given.withInput argument with
      | some given => read given rest
      | none => .fault

end GivenArguments

/-- The request that the arguments of a call make. -/
def Request.ofArguments (arguments : List String) : Request := GivenArguments.read {} arguments

end TaxonomyPress
