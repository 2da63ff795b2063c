/-
The options of the command.

Options are read from left to right, and the first thing that ends the reading decides: a request for the version or
for help, or a usage error. A value may follow its option as the next argument, unless that looks like an option, or
be written onto it, with an equals sign after a long name and with or without one after a letter.
-/

namespace SharedBuffer.Command

/-- what the command was asked to do -/
structure Options where
  config : Option String := none
  plan : Option String := none
  logLevel : Option String := none
  json : Bool := false
deriving DecidableEq

/-- what the arguments come to -/
inductive Reading where
  | run (options : Options)
  | version
  | help
  | usageError
deriving DecidableEq

/-- an option that takes a value -/
inductive ValueOption where
  | config
  | plan
  | logLevel
deriving DecidableEq

namespace ValueOption

/-- the option with a long name -/
def ofName? (name : String) : Option ValueOption :=
  if name = "config" then some config
  else if name = "plan" then some plan
  else if name = "log-level" then some logLevel
  else none

/-- the option with a letter -/
def ofLetter? (c : Char) : Option ValueOption :=
  if c = 'c' then some config
  else if c = 'p' then some plan
  else if c = 'l' then some logLevel
  else none

end ValueOption

namespace Options

/-- gives an option its value: once only, and never an empty path -/
def put? (o : Options) (option : ValueOption) (value : String) : Option Options :=
  match option with
  | .config => if o.config.isSome || value.isEmpty then none else some { o with config := some value }
  | .plan => if o.plan.isSome || value.isEmpty then none else some { o with plan := some value }
  | .logLevel => if o.logLevel.isSome then none else some { o with logLevel := some value }

end Options

/-- whether an argument is an option rather than a value -/
def looksLikeOption (argument : String) : Bool := argument.startsWith "-" && argument ≠ "-"

/-- a long option: its name, and the value written onto it -/
def splitLong (body : List Char) : String × Option String :=
  let name := String.ofList (body.takeWhile (· ≠ '='))
  match body.dropWhile (· ≠ '=') with
  | _ :: value => (name, some (String.ofList value))
  | [] => (name, none)

/-- what one argument comes to -/
inductive Token where
  | version
  | help
  | json
  /-- an option with the value written onto it, if there is one -/
  | valued (option : ValueOption) (attached : Option String)
  /-- the mark behind which everything is a value -/
  | valuesOnly
  | unknown

/-- reads one argument -/
def Token.ofArgument (argument : String) : Token :=
  match argument.toList with
  | ['-', '-'] => .valuesOnly
  | '-' :: '-' :: body =>
    match splitLong body with
    | ("json", none) => .json
    | ("version", none) => .version
    | ("help", none) => .help
    | (name, attached) =>
      match ValueOption.ofName? name with
      | some option => .valued option attached
      | none => .unknown
  | '-' :: 'V' :: _ => .version
  | '-' :: 'h' :: _ => .help
  | '-' :: letter :: rest =>
    match ValueOption.ofLetter? letter, rest with
    | some option, [] => .valued option none
    | some option, '=' :: value => .valued option (some (String.ofList value))
    | some option, value => .valued option (some (String.ofList value))
    | none, _ => .unknown
  | _ => .unknown

/-- reads the arguments behind those that gave the options so far -/
def Options.readFrom (o : Options) : List String → Reading
  | [] => .run o
  | argument :: rest =>
    match Token.ofArgument argument with
    | .version => .version
    | .help => .help
    | .json => if o.json then .usageError else readFrom { o with json := true } rest
    | .valuesOnly => if rest.isEmpty then .run o else .usageError
    | .unknown => .usageError
    | .valued option (some value) =>
      match o.put? option value with
      | some o => readFrom o rest
      | none => .usageError
    | .valued option none =>
      match rest with
      | [] => .usageError
      | value :: rest =>
        if looksLikeOption value then .usageError
        else
          match o.put? option value with
          | some o => readFrom o rest
          | none => .usageError

/-- reads the arguments of the command -/
def Reading.ofArguments (arguments : List String) : Reading := Options.readFrom {} arguments

end SharedBuffer.Command
