import ElmSchema.Text.Quoted

/-!
# Arguments of the command

The command line is read in two steps. First the arguments are sorted into options, their
values and the rest; this fails at the first option that is unknown, lacks a value or has
one it cannot take. The values are looked at in a second step.
-/

namespace ElmSchema.Command

/-- The options of the command. -/
inductive Switch where
  | output
  | withUtils
  | withInputs
  | config
  | verbose
  | help
deriving DecidableEq, Repr

/-- Whether an option takes a value. -/
def Switch.takesValue : Switch → Bool
  | .output => true
  | .config => true
  | _ => false

/-- The option of a long name. -/
def Switch.ofLong? : String → Option Switch
  | "--output" => some .output
  | "--with-utils" => some .withUtils
  | "--with-inputs" => some .withInputs
  | "--config" => some .config
  | "--verbose" => some .verbose
  | "--help" => some .help
  | _ => none

/-- The option of a letter. -/
def Switch.ofShort? : Char → Option Switch
  | 'o' => some .output
  | 'c' => some .config
  | 'v' => some .verbose
  | _ => none

/-- A mistake in the use of the command. -/
inductive UsageError where
  | noSuchOption (name : String)
  | valueMissing (name : String)
  | valueUnwanted (name : String)
  | pathMissing
  | extraArguments (arguments : List String)
  | noSuchPath (parameter : String) (value : String)
deriving DecidableEq, Repr

/-- The wording of a mistake. -/
def UsageError.text : UsageError → String
  | .noSuchOption name => "No such option: " ++ name
  | .valueMissing name => "Option " ++ Text.quoted name ++ " requires an argument."
  | .valueUnwanted name => "Option " ++ Text.quoted name ++ " does not take a value."
  | .pathMissing => "Missing argument 'PATH'."
  | .extraArguments arguments =>
    (if arguments.length = 1 then "Got unexpected extra argument ("
      else "Got unexpected extra arguments (") ++ " ".intercalate arguments ++ ")"
  | .noSuchPath parameter value =>
    "Invalid value for " ++ parameter ++ ": Path " ++ Text.quoted value ++ " does not exist."

/-- Whether the usage of the command is shown with a mistake. -/
def UsageError.showsUsage : UsageError → Bool
  | .valueMissing _ => false
  | .valueUnwanted _ => false
  | _ => true

/-- The arguments of the command, sorted. -/
structure Arguments where
  /-- The options with a value, in the order in which they are first given. Of an option that
  is given more than once the last value counts. -/
  values : List (Switch × String) := []
  withUtils : Bool := false
  withInputs : Bool := false
  verbose : Bool := false
  help : Bool := false
  positional : List String := []
deriving DecidableEq, Repr

namespace Arguments

/-- Arguments with an option that takes no value. -/
def turnOn (a : Arguments) : Switch → Arguments
  | .withUtils => { a with withUtils := true }
  | .withInputs => { a with withInputs := true }
  | .verbose => { a with verbose := true }
  | .help => { a with help := true }
  | .output => a
  | .config => a

/-- Values of options with a further one, which replaces an earlier one in its place. -/
def setValue (s : Switch) (value : String) :
    List (Switch × String) → List (Switch × String)
  | [] => [(s, value)]
  | x :: rest => if x.1 = s then (s, value) :: rest else x :: setValue s value rest

/-- Arguments with the value of an option. -/
def assign (a : Arguments) (s : Switch) (value : String) : Arguments :=
  { a with values := setValue s value a.values }

/-- An option whose value is the next argument, with its spelling. -/
structure Pending where
  switch : Switch
  spelling : String

/-- Read a group of letters. An option with a value takes the rest of the group, or the next
argument if nothing is left. -/
def readLetters (a : Arguments) : List Char → Except UsageError (Arguments × Option Pending)
  | [] => .ok (a, none)
  | c :: rest =>
    let spelling := String.ofList ['-', c]
    match Switch.ofShort? c with
    | none => .error (.noSuchOption spelling)
    | some s =>
      if s.takesValue then
        if rest.isEmpty then .ok (a, some ⟨s, spelling⟩)
        else .ok (a.assign s (String.ofList rest), none)
      else readLetters (a.turnOn s) rest

/-- The part of an argument before its first equals sign, and the part after it. -/
def splitValue (arg : List Char) : List Char × Option (List Char) :=
  match arg.dropWhile fun c => c != '=' with
  | [] => (arg, none)
  | _ :: value => (arg.takeWhile fun c => c != '=', some value)

/-- Read an argument that starts with a dash: a long option, with or without a value, or a
group of letters. -/
def readOption (a : Arguments) (arg : List Char) :
    Except UsageError (Arguments × Option Pending) :=
  let (long, value) := splitValue arg
  let spelling := String.ofList long
  match Switch.ofLong? spelling, value with
  | some s, some v =>
    if s.takesValue then .ok (a.assign s (String.ofList v), none)
    else .error (.valueUnwanted spelling)
  | some s, none =>
    if s.takesValue then .ok (a, some ⟨s, spelling⟩) else .ok (a.turnOn s, none)
  | none, _ =>
    if arg.take 2 == ['-', '-'] then .error (.noSuchOption spelling)
    else readLetters a (arg.drop 1)

/-- Whether an argument is read as an option. A dash alone is not. -/
def isOption (arg : List Char) : Bool :=
  arg.head? == some '-' && 1 < arg.length

/-- Read arguments, one after the other. After two dashes there are no more options. -/
def readFrom (a : Arguments) : List String → Except UsageError Arguments
  | [] => .ok a
  | arg :: rest =>
    if arg == "--" then .ok { a with positional := a.positional ++ rest }
    else if isOption arg.toList then
      match readOption a arg.toList with
      | .error e => .error e
      | .ok (a, none) => readFrom a rest
      | .ok (a, some pending) =>
        match rest with
        | [] => .error (.valueMissing pending.spelling)
        | value :: rest => readFrom (a.assign pending.switch value) rest
    else readFrom { a with positional := a.positional ++ [arg] } rest

/-- Read the arguments of the command. -/
def read (args : List String) : Except UsageError Arguments :=
  readFrom {} args

end Arguments

end ElmSchema.Command
