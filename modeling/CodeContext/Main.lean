import CodeContext.CommandLine.Run
import CodeContext.Files.Edit

/-!
# The program

The program reads what a command needs of the files on disk into a file tree, runs the command on it,
and writes what the run leaves behind. Lines of the standard input are answered as they come.
-/

namespace CodeContext.Program

/-- The value of an action, or nothing if it fails. -/
def attempt {α : Type} (action : IO α) : IO (Option α) := do
  try
    return some (← action)
  catch _ =>
    return none

/-- Adds the content of a file, if it can be read. -/
def loadFile (t : FileTree) (path : String) : IO FileTree := do
  match ← attempt (IO.FS.readBinFile path) with
  | some content => return (t.writeFile path content).getD t
  | none => return t

/-- Adds the ignore files of a directory. -/
def loadRules (t : FileTree) (directory : String) : IO FileTree :=
  IgnoreLayer.fileNames.foldlM (fun t file => loadFile t (file.foldl Path.join directory)) t

/-- Adds the sources and ignore files below a directory. -/
partial def loadBelow (t : FileTree) (directory : String) : IO FileTree := do
  let mut t ← loadRules t directory
  match ← attempt do (← IO.FS.realPath directory).readDir with
  | none => return t
  | some entries =>
    for entry in entries do
      let path := Path.join directory entry.fileName
      match ← attempt entry.path.symlinkMetadata with
      | none => pure ()
      | some info =>
        match info.type with
        | .dir => if entry.fileName != ".git" then t ← loadBelow t path
        | .file => if Path.isSource entry.fileName then t ← loadFile t path
        | _ => pure ()
    return t

/-- Adds the ignore files of the directories above one. -/
partial def loadAbove (t : FileTree) (names : List String) : IO FileTree := do
  match names with
  | [] => return t
  | names => loadAbove (← loadRules t (FileTree.textOf names.dropLast)) names.dropLast

/-- Adds what a path leads through, and gives where it leads. -/
partial def follow (t : FileTree) (here : String) : List String → IO (FileTree × String)
  | [] => return (t, here)
  | piece :: rest => do
    if piece = "" || piece = "." then follow t here rest
    else if piece = ".." then follow t (FileTree.textOf (Path.names here).dropLast) rest
    else
      let path := Path.join here piece
      match ← attempt do ((← IO.FS.realPath here) / piece).symlinkMetadata with
      | none => return (t, path)
      | some info =>
        match info.type with
        | .symlink =>
          match ← attempt (IO.FS.realPath path) with
          | none => return (t, path)
          | some target =>
            let t := (t.makeLink path target.toString).getD t
            let (t, target) ← follow t "/" (Path.pieces target.toString)
            follow t target rest
        | .dir => follow ((t.makeDirectory path).getD t) path rest
        | _ => follow (← loadFile t path) path rest

/-- Adds the file that a path leads to. -/
def load (t : FileTree) (path : String) : IO (FileTree × String) :=
  follow t (if Path.isAbsolute path then "/" else t.workingPath) (Path.pieces path)

/-- Adds what is needed to index a path. -/
def loadTree (t : FileTree) (path : String) : IO FileTree := do
  let (t, target) ← load t path
  if t.isDirectory target then loadBelow (← loadAbove t (Path.names target)) target else return t

/-- Adds what is needed to answer a request. -/
def loadForRequest (config : Config) (t : FileTree) (method : String) (params : Json.Value) :
    IO FileTree := do
  match Method.ofName? method with
  | some .compileContext =>
    match (Service.paramsOf ContextParams.decoder params).toOption.bind (·.path) with
    | some path => loadTree t (Text.trim path)
    | none => return t
  | some .index =>
    match Service.paramsOf IndexParams.decoder params with
    | .ok p => loadTree t p.path
    | .error _ => return t
  | some .fetchCode =>
    match Service.paramsOf FetchParams.decoder params with
    | .ok p =>
      let root := config.fetchRoot t.workingPath
      let (t, _) ← load t root
      return (← load t (Path.join root p.path)).1
    | .error _ => return t
  | _ => return t

def loadForLine (config : Config) (t : FileTree) (line : String) : IO FileTree :=
  match Request.decoder.parse line with
  | .ok r => loadForRequest config t r.method r.params
  | .error _ => return t

/-- Adds what is needed to run a command. -/
def loadForCommand (config : Config) (t : FileTree) : Command → IO FileTree
  | .serve => return t
  | .compile path _ _ => loadTree t path
  | .index path => loadTree t path
  | .request method params file _ => do
    let t ← match file with
      | some path => Prod.fst <$> load t path
      | none => pure t
    match Command.paramsText ⟨t, 0, 0⟩ params file with
    | .ok text =>
      match Json.Value.parse text with
      | .ok v => loadForRequest config t method v
      | .error _ => return t
    | .error _ => return t

/-- The tree with nothing in it but the working directory. -/
def bareTree : IO FileTree := do
  let here := (← IO.currentDir).toString
  let t : FileTree := ⟨.directory [], []⟩
  return { (t.makeDirectory here).getD t with workingDirectory := Path.names here }

/-- Answers the lines of the standard input until it ends or is no text. -/
partial def serve (s : Service) (input output : IO.FS.Stream) : IO Unit := do
  match ← attempt input.getLine with
  | none => return
  | some line =>
    if line.isEmpty then return
    let asked ← IO.monoNanosNow
    let files ← loadForLine s.config (← bareTree) line
    let (answers, s) := s.serve ⟨files, asked, ← IO.monoNanosNow⟩ line.toUTF8
    for answer in answers do
      output.putStrLn answer
      output.flush
    serve s input output

/-- The configuration from the environment of the program. -/
def environment : IO Config := do
  let values ← Config.variableNames.mapM fun name => do return (name, ← IO.getEnv name)
  return Config.ofVariables fun name => (values.lookup name).join

def finish (left : Outcome) : IO UInt32 := do
  (← IO.getStdout).putStr left.output
  (← IO.getStderr).putStr left.errors
  return left.code.toUInt32

def run (args : List String) : IO UInt32 := do
  let config ← environment
  match Invocation.ofArguments args with
  | .error stop => finish stop.outcome
  | .ok ⟨_, .serve⟩ =>
    serve (.start config) (← IO.getStdin) (← IO.getStdout)
    return 0
  | .ok ⟨_, command⟩ =>
    let files ← loadForCommand config (← bareTree) command
    finish (command.run config ⟨files, 0, 0⟩ .empty)

end CodeContext.Program

def main (args : List String) : IO UInt32 :=
  CodeContext.Program.run args
