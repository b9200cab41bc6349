import CodeContext.Model.Node
import CodeContext.Text.Blank
import CodeContext.Text.Lowercase

/-!
# Targets

A request names what it is about by targets. A target that starts like a node id, in any ASCII case,
stands for the nodes with that id, in any ASCII case; any other stands for the nodes whose path or
summary contains it, in any case. A blank target stands for nothing.
-/

namespace CodeContext

inductive Target where
  | id (text : String)
  | text (text : String)
  deriving DecidableEq

namespace Target

/-- The beginnings of node ids. -/
def idPrefixes : List String :=
  ["FN:", "TST:", "SRV:", "REPO:", "CTRL:", "API:", "DOM:", "JOB:", "CFG:", "UTIL:"]

/-- Whether a text starts like a node id. -/
def looksLikeId (s : String) : Bool :=
  idPrefixes.any fun p => Text.sameIgnoringCase (s.toList.take p.length) p.toList

/-- What a target stands for, nothing if it is blank. -/
def ofString? (s : String) : Option Target :=
  if Text.blank s then none
  else if looksLikeId s then some (.id s)
  else some (.text s)

/-- Whether a text contains another, in any case. -/
def mentions (needle text : String) : Bool :=
  Text.occursIn (Text.lowercase needle.toList) (Text.lowercase text.toList)

def selects (t : Target) (n : Node) : Bool :=
  match t with
  | .id s => Text.sameIgnoringCase n.id.toList s.toList
  | .text s => mentions s n.path || mentions s n.summary

end Target

namespace Node

/-- The nodes that some target selects, in their order. -/
def filter (nodes : List Node) (targets : List String) : List Node :=
  let wanted := targets.filterMap Target.ofString?
  if wanted.isEmpty then [] else nodes.filter fun n => wanted.any (·.selects n)

/-- No node is selected by none of the targets, so the case without targets is no exception. -/
theorem filter_eq (nodes : List Node) (targets : List String) :
    filter nodes targets = nodes.filter fun n => (targets.filterMap Target.ofString?).any (·.selects n) := by
  unfold filter
  cases targets.filterMap Target.ofString? with
  | nil => simp
  | cons t rest => rfl

end Node

end CodeContext
