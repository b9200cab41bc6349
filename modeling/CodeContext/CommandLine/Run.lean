import CodeContext.CommandLine.Command
import CodeContext.Service.Schedule

/-!
# Running commands

What a run of the program writes, and the code it ends with: zero, one after an error, or two if its
arguments are no command.
-/

namespace CodeContext

open Json

/-- What a run leaves behind. -/
structure Outcome where
  code : Nat
  output : String
  errors : String
  deriving DecidableEq

namespace Outcome

def success (output : String) : Outcome :=
  ⟨0, output, ""⟩

/-- A run that ended with an error and, if it is known, its cause. -/
def failure (message : String) (cause : Option String) : Outcome :=
  let below := match cause with
    | none => ""
    | some cause => "\n\nCaused by:\n    " ++ cause
  ⟨1, "", "Error: " ++ message ++ below ++ "\n"⟩

end Outcome

namespace Command

def runServe (s : Service) (o : Occasion) (input : ByteArray) : Outcome :=
  .success (String.join ((s.serveWith o s.config.workers input).1.map (· ++ "\n")))

def runCompile (s : Service) (o : Occasion) (path : String) (targets : List String) (json : Bool) :
    Outcome :=
  let context := (s.compile o path targets).1
  if json then .success (context.toJson.pretty ++ "\n")
  else ⟨0, context.bytecode, context.summary ++ "\n"⟩

/-- What is said about files that could not be read. -/
def errorNote (found : Index) : String :=
  if found.errors = 0 then ""
  else "nexus: " ++ toString found.errors ++ " of " ++ toString found.scanned ++
    " files failed to index\n"

def runIndex (config : Config) (o : Occasion) (path : String) : Outcome :=
  let found := Index.ofPath o.files config.respectIgnore path
  ⟨0, (Value.array (found.nodes.map Node.toJson)).pretty ++ "\n", errorNote found⟩

/-- The text of the parameters of a request. A file for them outweighs what is given otherwise. -/
def paramsText (o : Occasion) (params : String) : Option String → Except FileError String
  | none => .ok params
  | some path => o.files.readText path

def runRequest (config : Config) (o : Occasion) (method params : String) (paramsFile : Option String)
    (id : String) : Outcome :=
  match paramsText o params paramsFile with
  | .error e => .failure e.message none
  | .ok params =>
    match Service.call config o method params id with
    | .error e => .failure "parse params JSON" (some e.message)
    | .ok line => .success (line ++ "\n")

/-- Runs a command. `input` is all that the standard input holds. -/
def run (config : Config) (o : Occasion) (input : ByteArray) : Command → Outcome
  | .serve => runServe (.start config) o input
  | .compile path targets json => runCompile (.start config) o path targets json
  | .index path => runIndex config o path
  | .request method params paramsFile id => runRequest config o method params paramsFile id

end Command

namespace Stop

def versionText : String :=
  "nexus 0.1.0\n"

def helpText : String :=
  "Compile C# code structure and architectural rules into LLM context\n\n" ++
  "Usage: nexus [OPTIONS] <COMMAND>\n\n" ++
  "Commands:\n" ++
  "  serve    Run JSONL RPC server over stdin/stdout\n" ++
  "  compile  Compile context for a path and print the DSL\n" ++
  "  index    Index a path and print the nodes as JSON\n" ++
  "  request  Run a single JSONL request and exit\n" ++
  "  help     Print this message or the help of the given subcommand(s)\n\n" ++
  "Options:\n" ++
  "  -v, --verbose...  Increase log verbosity (-v, -vv, -vvv)\n" ++
  "  -h, --help        Print help\n" ++
  "  -V, --version     Print version\n\n" ++
  "Examples:\n" ++
  "  nexus compile --path ./src --target OrderService --target FN:1234\n" ++
  "  nexus index --path ./src\n" ++
  "  nexus request --method compile_context --params '\x7b\"path\":\"./src\",\"targets\":[]\x7d'\n" ++
  "  nexus serve\n"

def misuseText : String :=
  "error: the arguments name no command\n\nUsage: nexus [OPTIONS] <COMMAND>\n\n" ++
  "For more information, try '--help'.\n"

/-- What is left behind when there is no command to run. -/
def outcome : Stop → Outcome
  | help => .success helpText
  | version => .success versionText
  | misuse => ⟨2, "", misuseText⟩

end Stop

/-- Runs the program with some arguments. -/
def Outcome.ofArguments (config : Config) (o : Occasion) (input : ByteArray) (args : List String) :
    Outcome :=
  match Invocation.ofArguments args with
  | .error stop => stop.outcome
  | .ok i => i.command.run config o input

end CodeContext
