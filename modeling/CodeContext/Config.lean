import CodeContext.Text.Blank
import CodeContext.Number.Literal

/-!
# Configuration

Settings come from environment variables. A value is trimmed; one that is not understood leaves the
setting as it is by default.
-/

namespace CodeContext

structure Config where
  /-- How many seconds an index result is kept. -/
  cacheLifetime : Nat
  /-- How many nodes answer a request without targets. -/
  nodeCap : Nat
  /-- The directory that fetched files must be under. -/
  authorizedRoot : Option String
  /-- Requests that take more milliseconds are logged. -/
  slowRequest : Nat
  /-- Whether ignore files are honoured. -/
  respectIgnore : Bool
  /-- How many requests are answered at a time. -/
  workers : Nat
  deriving DecidableEq

namespace Config

def standard : Config where
  cacheLifetime := 30
  nodeCap := 20
  authorizedRoot := none
  slowRequest := 1000
  respectIgnore := false
  workers := 4

/-- A natural number of at most sixty-four bits: digits, after an optional plus sign. -/
def word? (text : String) : Option Nat :=
  let cs := text.toList
  let ds := if cs.head? == some '+' then cs.drop 1 else cs
  if ds.isEmpty || !ds.all Char.isDigit then none
  else
    let n := digitsValue ds
    if n < Nat.pow 2 64 then some n else none

def bool? (text : String) : Option Bool :=
  if text = "true" then some true else if text = "false" then some false else none

/-- The setting that a variable holds, or the given one. -/
def setting {α : Type} (lookup : String → Option String) (read : String → Option α) (key : String)
    (standard : α) : α :=
  (((lookup key).map Text.trim).bind read).getD standard

/-- The names of the variables that settings come from. -/
def variableNames : List String :=
  ["NEXUS_CACHE_TTL_SECS", "NEXUS_DEFAULT_NODE_CAP", "NEXUS_AUTHORIZED_ROOT", "NEXUS_SLOW_REQUEST_MS",
    "NEXUS_RESPECT_IGNORE", "NEXUS_RPC_WORKERS"]

/-- The configuration from environment variables. -/
def ofVariables (lookup : String → Option String) : Config where
  cacheLifetime := setting lookup word? "NEXUS_CACHE_TTL_SECS" standard.cacheLifetime
  nodeCap := setting lookup word? "NEXUS_DEFAULT_NODE_CAP" standard.nodeCap
  authorizedRoot :=
    ((lookup "NEXUS_AUTHORIZED_ROOT").map Text.trim).bind fun s => if s = "" then none else some s
  slowRequest := setting lookup word? "NEXUS_SLOW_REQUEST_MS" standard.slowRequest
  respectIgnore := setting lookup bool? "NEXUS_RESPECT_IGNORE" standard.respectIgnore
  workers := max 1 (setting lookup word? "NEXUS_RPC_WORKERS" standard.workers)

/-- The directory that fetched files must be under: the authorized root, or the working directory. -/
def fetchRoot (c : Config) (workingDirectory : String) : String :=
  c.authorizedRoot.getD workingDirectory

end Config

end CodeContext
