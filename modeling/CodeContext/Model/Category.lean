/-!
# Categories of code

The role that a type plays, told by the end of its name. Some categories are only ever given by hand.
-/

namespace CodeContext

inductive Category where
  | service
  | repository
  | controller
  | externalApiClient
  | domainModel
  | test
  | backgroundJob
  | configuration
  | utility
  | unknown
  deriving DecidableEq

namespace Category

def all : List Category :=
  [service, repository, controller, externalApiClient, domainModel, test, backgroundJob, configuration,
    utility, unknown]

def name : Category → String
  | service => "Service"
  | repository => "Repository"
  | controller => "Controller"
  | externalApiClient => "ExternalApiClient"
  | domainModel => "DomainModel"
  | test => "Test"
  | backgroundJob => "BackgroundJob"
  | configuration => "Configuration"
  | utility => "Utility"
  | unknown => "Unknown"

/-- The category with a name. -/
def ofName? (name : String) : Option Category :=
  all.find? fun c => c.name == name

theorem ofName?_name (c : Category) : ofName? c.name = some c := by
  cases c <;> decide

/-- The endings of type names that tell a category, each tried in turn. -/
def endings : List (String × Category) :=
  [("Service", service), ("Repository", repository), ("Controller", controller), ("Tests", test),
    ("Model", domainModel), ("Dto", domainModel)]

/-- The category of a type, by the ending of its name. -/
def ofTypeName (typeName : String) : Category :=
  match endings.find? fun e => e.1.toList.isSuffixOf typeName.toList with
  | some e => e.2
  | none => unknown

end Category

end CodeContext
