import CodeContext.Cache.Overlap
import CodeContext.Service.Basic

/-!
# Answering in steps

The answer to a line is made in steps, each of which uses the service once at most. Steps for other lines
may come between any two of them.
-/

namespace CodeContext

open Json

namespace Service

/-- The path whose nodes a request needs, and the result that they give. -/
def needs? (config : Config) (r : Request) : Option (String × (List Node → Value)) :=
  match Method.ofName? r.method with
  | some .index =>
    match paramsOf IndexParams.decoder r.params with
    | .error _ => none
    | .ok p => some (p.path, indexJson)
  | some .compileContext =>
    match paramsOf ContextParams.decoder r.params with
    | .error _ => none
    | .ok p =>
      match requiredPath p.path with
      | .error _ => none
      | .ok path =>
        some (path, fun nodes =>
          (Context.compile Rule.builtIn config.nodeCap nodes (p.targets.getD [])).toJson)
  | _ => none

end Service

/-- An answer in the making, by what its next step is to do. -/
inductive Job where
  /-- To read the line. -/
  | reading (line : String)
  /-- To go on with a call to `index`, whose nodes give the result. -/
  | indexing (id : Value) (result : List Node → Value) (files : FileTree) (i : Indexing (List Node))
  /-- To count the results that the service remembers. -/
  | counting (id : Value)
  /-- To clear them. -/
  | clearing (id : Value) (count : Nat)
  | answered (r : Response)

namespace Job

/-- What comes after a line is read. A request that needs no call to `index`, and clears nothing, is
answered at once. -/
def ofLine (s : Service) (o : Occasion) (line : String) : Job :=
  match Request.decoder.parse line with
  | .error _ => answered (s.respondToLine o line).1
  | .ok r =>
    match Service.needs? s.config r with
    | some (path, result) => indexing r.id result o.files (.asking (o.files.absolute path))
    | none =>
      if r.method = Method.clearCache.name then counting r.id else answered (s.respondToLine o line).1

/-- What comes after a step of a call to `index`. -/
def ofIndexing (id : Value) (result : List Node → Value) (files : FileTree) : Indexing (List Node) → Job
  | .done _ nodes => answered ⟨id, .ok (result nodes)⟩
  | i => indexing id result files i

/-- The next step. `keys` are those that a purge comes by if it begins. -/
def step (s : Service) (files : FileTree) (now : Nat) (keys : List CacheKey) : Job → Job × Service
  | reading line => (ofLine s ⟨files, now, now⟩ line, s)
  | indexing id result files i =>
    let find p := (Index.ofPath files s.config.respectIgnore p).nodes
    let (i, results) := i.step ⟨now, find, keys⟩ s.results
    (ofIndexing id result files i, { s with results })
  | counting id => (clearing id s.results.size, s)
  | clearing id count => (answered ⟨id, .ok (Service.clearedJson count)⟩, { s with results := s.results.clear })
  | answered r => (answered r, s)

end Job

end CodeContext
