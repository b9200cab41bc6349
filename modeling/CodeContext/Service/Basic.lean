import CodeContext.Cache
import CodeContext.Config
import CodeContext.Context
import CodeContext.Fetch
import CodeContext.Index
import CodeContext.Service.Method
import CodeContext.Service.Request
import CodeContext.Service.Response

/-!
# The service

The service answers requests about the files there are, and remembers index results between them. Every
request gets a response: what cannot be done is answered with an error.
-/

namespace CodeContext

open Json

/-- What a request meets: the files, and the clock before and after the files are indexed. Times are in
nanoseconds. -/
structure Occasion where
  files : FileTree
  asked : Nat
  made : Nat

structure Service where
  config : Config
  /-- The nodes of the paths that were indexed. -/
  results : Cache (List Node)

/-- Why a method gives no result. -/
inductive ServiceError where
  | unknownMethod (name : String)
  | invalidParams (problem : Problem)
  | pathRequired
  | fetch (cause : FetchError)

def ServiceError.message : ServiceError → String
  | unknownMethod name => "unknown method: " ++ name
  | invalidParams _ => "invalid params"
  | pathRequired => "path is required"
  | fetch cause => cause.message

namespace Service

/-- The nanoseconds of some seconds. -/
def seconds (n : Nat) : Nat :=
  n * 1000000000

/-- The service that remembers nothing yet. -/
def start (config : Config) : Service :=
  ⟨config, .empty (seconds config.cacheLifetime)⟩

/-- The nodes at a path, remembered or newly found. -/
def index (s : Service) (o : Occasion) (path : String) : List Node × Service :=
  let find p := (Index.ofPath o.files s.config.respectIgnore p).nodes
  let (nodes, results) := s.results.index o.files o.asked o.made find path
  (nodes, { s with results })

/-- The context of a path for some targets. -/
def compile (s : Service) (o : Occasion) (path : String) (targets : List String) : Context × Service :=
  let (nodes, s) := s.index o path
  (Context.compile Rule.builtIn s.config.nodeCap nodes targets, s)

/-- Parameters of a method. None at all stand for an empty object. -/
def paramsOf {α : Type} (d : Decoder α) (params : Value) : Except ServiceError α :=
  let params := match params with
    | .null => .object []
    | v => v
  (d.ofValue params).mapError .invalidParams

/-- The path in parameters, trimmed, unless it is blank. -/
def requiredPath (path : Option String) : Except ServiceError String :=
  match path.map Text.trim with
  | none => .error .pathRequired
  | some path => if path = "" then .error .pathRequired else .ok path

def methodJson (m : Method) : Value :=
  .object [("name", .string m.name), ("description", .string m.description)]

def indexJson (nodes : List Node) : Value :=
  .object [("count", .ofInt nodes.length), ("nodes", .array (nodes.map Node.toJson))]

def fetchedJson (f : Fetched) : Value :=
  .object [("path", .string f.path), ("code", .string f.code)]

def compileContext (s : Service) (o : Occasion) (params : Value) : Except ServiceError Value × Service :=
  match paramsOf ContextParams.decoder params with
  | .error e => (.error e, s)
  | .ok p =>
    match requiredPath p.path with
    | .error e => (.error e, s)
    | .ok path =>
      let (context, s) := s.compile o path (p.targets.getD [])
      (.ok context.toJson, s)

def indexPath (s : Service) (o : Occasion) (params : Value) : Except ServiceError Value × Service :=
  match paramsOf IndexParams.decoder params with
  | .error e => (.error e, s)
  | .ok p =>
    let (nodes, s) := s.index o p.path
    (.ok (indexJson nodes), s)

def fetchCode (s : Service) (o : Occasion) (params : Value) : Except ServiceError Value := do
  let p ← paramsOf FetchParams.decoder params
  let root := s.config.fetchRoot o.files.workingPath
  let f ← (Fetched.ofFile o.files root p.path p.startLine p.endLine).mapError .fetch
  .ok (fetchedJson f)

def clearedJson (count : Nat) : Value :=
  .object [("cleared", .ofInt count)]

/-- The service that has forgotten its results, and how many there were. -/
def clearCache (s : Service) : Value × Service :=
  (clearedJson s.results.size, { s with results := s.results.clear })

/-- The result of a method. -/
def perform (s : Service) (o : Occasion) (method : Method) (params : Value) :
    Except ServiceError Value × Service :=
  match method with
  | .compileContext => s.compileContext o params
  | .index => s.indexPath o params
  | .listRules => (.ok (.array (Rule.builtIn.map Rule.toJson)), s)
  | .fetchCode => (s.fetchCode o params, s)
  | .clearCache =>
    let (cleared, s) := s.clearCache
    (.ok cleared, s)
  | .listMethods => (.ok (.array (Method.all.map methodJson)), s)

/-- The result of a method that is given by name. -/
def handle (s : Service) (o : Occasion) (method : String) (params : Value) :
    Except ServiceError Value × Service :=
  match Method.ofName? method with
  | none => (.error (.unknownMethod method), s)
  | some m => s.perform o m params

/-- The response to a request. -/
def respond (s : Service) (o : Occasion) (r : Request) : Response × Service :=
  let (result, s) := s.handle o r.method r.params
  (⟨r.id, result.mapError ServiceError.message⟩, s)

/-- The response to a line. One that is no request is answered with an error and no id. -/
def respondToLine (s : Service) (o : Occasion) (line : String) : Response × Service :=
  match Request.decoder.parse line with
  | .ok r => s.respond o r
  | .error e => (⟨.null, .error ("invalid request: " ++ e.message)⟩, s)

/-- The response to a single request that is given in texts, as a line. -/
def call (config : Config) (o : Occasion) (method params id : String) : Except Json.Error String :=
  (Request.ofTexts method params id).map fun r => ((start config).respond o r).1.line

end Service

end CodeContext
