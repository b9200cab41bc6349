/-!
# Methods

What can be asked for by name.
-/

namespace CodeContext

inductive Method where
  | compileContext
  | index
  | listRules
  | fetchCode
  | clearCache
  | listMethods
  deriving DecidableEq

namespace Method

def all : List Method :=
  [compileContext, index, listRules, fetchCode, clearCache, listMethods]

def name : Method → String
  | compileContext => "compile_context"
  | index => "index"
  | listRules => "list_rules"
  | fetchCode => "fetch_code"
  | clearCache => "clear_cache"
  | listMethods => "list_methods"

def description : Method → String
  | compileContext => "Compile rules and selected nodes into the context DSL"
  | index => "List every node found under a path"
  | listRules => "List the architectural rules"
  | fetchCode => "Read a line range from a file under the authorized root"
  | clearCache => "Drop all cached index results"
  | listMethods => "List available methods"

/-- The method with a name. -/
def ofName? (name : String) : Option Method :=
  all.find? fun m => m.name == name

theorem ofName?_name (m : Method) : ofName? m.name = some m := by
  cases m <;> decide

end Method

end CodeContext
