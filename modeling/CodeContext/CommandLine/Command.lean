/-!
# Commands

What the arguments of the program ask for. A command is named after the options that hold for all
commands, and its own options follow it. An option that takes a value has it after an equals sign or as
the next argument, which then must not look like an option. Options are given at most once, except
for targets, and a path is never empty.
-/

namespace CodeContext

/-- How much is logged. -/
inductive LogLevel where
  | warn
  | info
  | debug
  | trace
  deriving DecidableEq

namespace LogLevel

def name : LogLevel → String
  | warn => "warn"
  | info => "info"
  | debug => "debug"
  | trace => "trace"

/-- The level for a count of requests to say more. -/
def ofVerbosity : Nat → LogLevel
  | 0 => warn
  | 1 => info
  | 2 => debug
  | _ => trace

end LogLevel

inductive Command where
  | serve
  | compile (path : String) (targets : List String) (json : Bool)
  | index (path : String)
  | request (method params : String) (paramsFile : Option String) (id : String)
  deriving DecidableEq

/-- A command, with the count of requests to log more. -/
structure Invocation where
  verbosity : Nat
  command : Command
  deriving DecidableEq

/-- Why arguments name no command to run. -/
inductive Stop where
  | help
  | version
  | misuse
  deriving DecidableEq

namespace Invocation

/-! ## Arguments -/

/-- What an argument looks like. -/
inductive Shape where
  /-- Two hyphens alone, after which there are no more options. -/
  | separator
  | long (name : String) (value : Option String)
  | short (letters : List Char)
  | plain
  deriving DecidableEq

/-- A long option without its hyphens: its name, and the value after an equals sign. -/
def splitValue (text : List Char) : Shape :=
  let name := String.ofList (text.takeWhile (· != '='))
  match text.dropWhile (· != '=') with
  | [] => .long name none
  | _ :: value => .long name (some (String.ofList value))

def Shape.ofArgument (arg : String) : Shape :=
  match arg.toList with
  | ['-', '-'] => .separator
  | '-' :: '-' :: text => splitValue text
  | ['-'] => .plain
  | '-' :: letters => .short letters
  | _ => .plain

/-- How often a group of letters asks to log more. The letters are looked at in turn. -/
def countLetters (hasVersion : Bool) : List Char → Except Stop Nat
  | [] => .ok 0
  | c :: rest =>
    if c = 'v' then (countLetters hasVersion rest).map (· + 1)
    else if c = 'h' then .error .help
    else if c = 'V' && hasVersion then .error .version
    else .error .misuse

/-! ## Options of a command -/

inductive OptionKind where
  | flag
  | text
  /-- A text that is not empty. -/
  | path
  /-- A text that can be given several times. -/
  | texts
  deriving DecidableEq

/-- The options of a command, by name. -/
abbrev Options := List (String × OptionKind)

/-- What was given for the options of a command, in order. -/
structure Given where
  verbosity : Nat
  values : List (String × String)

namespace Given

def values? (g : Given) (name : String) : List String :=
  (g.values.filter fun v => v.1 == name).map Prod.snd

def value? (g : Given) (name : String) : Option String :=
  g.values.lookup name

/-- Adds a value for an option. -/
def add (g : Given) (name : String) (kind : OptionKind) (value : String) : Except Stop Given :=
  if kind ≠ .texts && (g.value? name).isSome then .error .misuse
  else if kind = .path && value = "" then .error .misuse
  else .ok { g with values := g.values ++ [(name, value)] }

def more (g : Given) (count : Nat) : Given :=
  { g with verbosity := g.verbosity + count }

end Given

/-- Reads the arguments of a command. -/
def readOptions (options : Options) : Given → List String → Except Stop Given
  | g, [] => .ok g
  | g, arg :: rest =>
    match Shape.ofArgument arg with
    | .plain => .error .misuse
    | .separator => if rest.isEmpty then .ok g else .error .misuse
    | .short letters =>
      match countLetters false letters with
      | .error stop => .error stop
      | .ok n => readOptions options (g.more n) rest
    | .long name value =>
      match options.lookup name, value with
      | none, none =>
        if name = "verbose" then readOptions options (g.more 1) rest
        else if name = "help" then .error .help
        else .error .misuse
      | none, some _ => .error .misuse
      | some .flag, none =>
        match g.add name .flag "" with
        | .error stop => .error stop
        | .ok g => readOptions options g rest
      | some .flag, some _ => .error .misuse
      | some kind, some value =>
        match g.add name kind value with
        | .error stop => .error stop
        | .ok g => readOptions options g rest
      | some kind, none =>
        match rest with
        | [] => .error .misuse
        | value :: rest =>
          if Shape.ofArgument value ≠ .plain then .error .misuse
          else
            match g.add name kind value with
            | .error stop => .error stop
            | .ok g => readOptions options g rest

/-! ## Commands by name -/

/-- The names of commands, with their options. -/
def commands : List (String × Options) :=
  [("serve", []),
    ("compile", [("path", .path), ("target", .texts), ("json", .flag)]),
    ("index", [("path", .path)]),
    ("request", [("method", .text), ("params", .text), ("params-file", .path), ("id", .text)])]

/-- The command with a name and what was given for its options. -/
def commandOf (name : String) (g : Given) : Except Stop Command :=
  let path := (g.value? "path").getD "."
  match name with
  | "serve" => .ok .serve
  | "compile" => .ok (.compile path (g.values? "target") (g.value? "json").isSome)
  | "index" => .ok (.index path)
  | "request" =>
    match g.value? "method" with
    | none => .error .misuse
    | some method =>
      .ok (.request method ((g.value? "params").getD "\x7b\x7d") (g.value? "params-file")
        ((g.value? "id").getD "1"))
  | _ => .error .misuse

/-- Asking for help about the commands with the given names. -/
def helpAbout (names : List String) : Stop :=
  match names with
  | [] => .help
  | [name] => if name = "help" || (commands.lookup name).isSome then .help else .misuse
  | _ => .misuse

/-- Reads the arguments of the program. `verbosity` counts the requests to log more so far. -/
def readFrom (verbosity : Nat) : List String → Except Stop Invocation
  | [] => .error .misuse
  | arg :: rest =>
    match Shape.ofArgument arg with
    | .plain =>
      match commands.lookup arg with
      | some options => do
        let g ← readOptions options ⟨verbosity, []⟩ rest
        .ok ⟨g.verbosity, ← commandOf arg g⟩
      | none => if arg = "help" then .error (helpAbout rest) else .error .misuse
    | .separator => .error .misuse
    | .short letters =>
      match countLetters true letters with
      | .error stop => .error stop
      | .ok n => readFrom (verbosity + n) rest
    | .long name value =>
      if value.isSome then .error .misuse
      else if name = "verbose" then readFrom (verbosity + 1) rest
      else if name = "help" then .error .help
      else if name = "version" then .error .version
      else .error .misuse

def ofArguments (args : List String) : Except Stop Invocation :=
  readFrom 0 args

end Invocation

end CodeContext
