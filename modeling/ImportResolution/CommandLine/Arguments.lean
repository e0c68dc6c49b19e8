import ImportResolution.Path.Basic

/-!
# Command line arguments

The arguments of the program: options for every command, then the name of a
command, then its own options and operands, with the options for every command
allowed there as well. An option appears at most once on either side of the
command, except for the one that counts.

Arguments are read from left to right, and the first that asks for help or the
version, or that cannot be used, decides.
-/

namespace ImportResolution

namespace CommandLine

/-- The options. -/
inductive Switch
  | verbose
  | json
  | cwd
  | file
  | config
  | production
  | version
  | help
  deriving DecidableEq, Repr

namespace Switch

/-- The name after two dashes. -/
def longName : Switch → Text
  | .verbose => "verbose".toList
  | .json => "json".toList
  | .cwd => "cwd".toList
  | .file => "file".toList
  | .config => "config".toList
  | .production => "production".toList
  | .version => "version".toList
  | .help => "help".toList

/-- The letter after one dash, if there is one. -/
def letter? : Switch → Option Char
  | .verbose => some 'v'
  | .config => some 'c'
  | .version => some 'V'
  | .help => some 'h'
  | _ => none

/-- Whether a value belongs to the option; all of them are paths, which are never empty. -/
def takesValue : Switch → Bool
  | .cwd | .file | .config => true
  | _ => false

end Switch

/-- Why the reading of arguments ends before a command is known. -/
inductive Stop
  | usage
  | version
  | help
  deriving DecidableEq, Repr

/-- What has been read on one side of the command. -/
structure Side where
  /-- The options given, with their values. -/
  given : List (Switch × Text) := []
  operands : List Text := []
  deriving DecidableEq, Repr

namespace Side

/-- Whether an option is given. -/
def has (side : Side) (switch : Switch) : Bool :=
  (side.given.lookup switch).isSome

/-- The value of an option. -/
def value? (side : Side) (switch : Switch) : Option Text :=
  side.given.lookup switch

/-- The side with one more option. -/
def give (side : Side) (switch : Switch) (value : Text) : Except Stop Side :=
  match switch with
  | .version => .error .version
  | .help => .error .help
  | .verbose => .ok { side with given := (switch, value) :: side.given }
  | switch =>
      if side.has switch || (switch.takesValue && value.isEmpty) then .error .usage
      else .ok { side with given := (switch, value) :: side.given }

end Side

/-- Whether an argument is an option, or the mark that ends the options. -/
def looksLikeOption : Text → Bool
  | '-' :: _ :: _ => true
  | _ => false

/-- The value of an option in the argument that follows it. -/
def separateValue : List Text → Except Stop (Text × List Text)
  | [] => .error .usage
  | value :: rest => if looksLikeOption value then .error .usage else .ok (value, rest)

/-- An option by its long name, with `=` before a value in the same argument. -/
def giveLong (accepted : List Switch) (side : Side) (text : Text) (rest : List Text) :
    Except Stop (Side × List Text) := do
  let (name, attached) := text.span (· != '=')
  match accepted.find? fun switch => switch.longName == name with
  | none => throw .usage
  | some switch =>
      if switch.takesValue then
        match attached with
        | _ :: value => pure (← side.give switch value, rest)
        | [] =>
            let (value, rest) ← separateValue rest
            pure (← side.give switch value, rest)
      else if attached.isEmpty then pure (← side.give switch [], rest)
      else throw .usage

/-- Options by their letters; the letter of one with a value ends the run. -/
def giveLetters (accepted : List Switch) :
    (letters : Text) → Side → (rest : List Text) → Except Stop (Side × List Text)
  | [], side, rest => .ok (side, rest)
  | letter :: letters, side, rest =>
      match accepted.find? fun switch => switch.letter? == some letter with
      | none => .error .usage
      | some switch =>
          if switch.takesValue then
            match letters with
            | [] => do
                let (value, rest) ← separateValue rest
                pure (← side.give switch value, rest)
            | '=' :: value => do pure (← side.give switch value, rest)
            | value => do pure (← side.give switch value, rest)
          else do giveLetters accepted letters (← side.give switch []) rest

/-- The name of a command. -/
inductive CommandName
  | version
  | resolve
  | help
  deriving DecidableEq, Repr

/-- The command with a name. -/
def CommandName.ofText? (text : Text) : Option CommandName :=
  if text = "version".toList then some .version
  else if text = "resolve".toList then some .resolve
  else if text = "help".toList then some .help
  else none

/-- The options for every command. -/
def everywhere : List Switch := [.verbose, .json, .cwd, .help]

/-- The options up to the name of the command. -/
def readGlobal : (fuel : Nat) → Side → List Text → Except Stop (Side × CommandName × List Text)
  | 0, _, _ => .error .usage
  | _ + 1, _, [] => .error .usage
  | fuel + 1, side, argument :: rest =>
      match CommandName.ofText? argument, argument with
      | some name, _ => .ok (side, name, rest)
      | none, '-' :: '-' :: text =>
          if text.isEmpty then .error .usage
          else do
            let (side, rest) ← giveLong (.version :: everywhere) side text rest
            readGlobal fuel side rest
      | none, '-' :: letter :: letters => do
          let (side, rest) ← giveLetters (.version :: everywhere) (letter :: letters) side rest
          readGlobal fuel side rest
      | none, _ => .error .usage

/-- The side with more operands, of which a command takes at most so many. -/
def takeOperands (most : Nat) (side : Side) (operands : List Text) : Except Stop Side :=
  if side.operands.length + operands.length > most then .error .usage
  else .ok { side with operands := side.operands ++ operands }

/-- The options and operands of a command; after `--` there are operands only. -/
def readLocal (accepted : List Switch) (most : Nat) :
    (fuel : Nat) → Side → List Text → Except Stop Side
  | 0, _, _ => .error .usage
  | _ + 1, side, [] => .ok side
  | fuel + 1, side, argument :: rest =>
      match argument with
      | '-' :: '-' :: text =>
          if text.isEmpty then takeOperands most side rest
          else do
            let (side, rest) ← giveLong accepted side text rest
            readLocal accepted most fuel side rest
      | '-' :: letter :: letters => do
          let (side, rest) ← giveLetters accepted (letter :: letters) side rest
          readLocal accepted most fuel side rest
      | operand => do readLocal accepted most fuel (← takeOperands most side [operand]) rest

/-- The arguments of a resolution. -/
structure ResolveArguments where
  specifier : Text
  /-- The importing file. -/
  file : Path
  /-- The file with the settings. -/
  config : Option Path
  production : Bool
  json : Bool
  /-- The working directory to be used in place of that of the host. -/
  cwd : Option Path
  deriving DecidableEq, Repr

/-- A command with its arguments. -/
inductive Command
  | version
  | resolve (arguments : ResolveArguments)
  deriving DecidableEq, Repr

/-- A switch that is not given may be set by the environment, which must say `true` or `false`. -/
def productionSwitch (given : Bool) (environment : Option Text) : Except Stop Bool :=
  if given then .ok true
  else
    match environment with
    | none => .ok false
    | some value =>
        if value = "true".toList then .ok true
        else if value = "false".toList then .ok false
        else .error .usage

/-- The command that arguments ask for; `environment` may say that the mode is production. -/
def parse (environment : Option Text) (arguments : List Text) : Except Stop Command := do
  let (outer, name, rest) ← readGlobal (arguments.length + 1) {} arguments
  match name with
  | .help => throw .help
  | .version =>
      let _ ← readLocal everywhere 0 (rest.length + 1) {} rest
      pure .version
  | .resolve =>
      let inner ←
        readLocal (.file :: .config :: .production :: everywhere) 1 (rest.length + 1) {} rest
      match inner.operands, inner.value? .file with
      | [specifier], some file =>
          pure (.resolve {
            specifier
            file
            config := inner.value? .config
            production := ← productionSwitch (inner.has .production) environment
            json := outer.has .json || inner.has .json
            cwd := (inner.value? .cwd).or (outer.value? .cwd) })
      | _, _ => throw .usage

end CommandLine

end ImportResolution
