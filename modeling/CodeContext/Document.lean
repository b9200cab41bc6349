import CodeContext.Model.Node
import CodeContext.Model.Rule
import CodeContext.Model.Decision
import CodeContext.Number.Tenths

/-!
# Context documents

A context document is a text of lines in three sections: the rules from the highest priority to the
lowest, the nodes, and the decisions. A section starts with its header line. Each part of a line after
its first word has a tag, and a line about something already named is indented.
-/

namespace CodeContext.Document

def rulesHeader : String := "=== RULES ==="

def nodesHeader : String := "=== NODES ==="

def decisionsHeader : String := "=== DECISIONS ==="

/-- An indented line. -/
def inner (text : String) : String :=
  "    " ++ text

def quote (text : String) : String :=
  "\"" ++ text ++ "\""

def listed (items : List String) : String :=
  String.intercalate ", " items

/-- The rules from the highest priority to the lowest, equal ones in their order. -/
def ordered (rules : List Rule) : List Rule :=
  rules.mergeSort fun a b => b.priority.sortKey.totalPlace ≤ a.priority.sortKey.totalPlace

def ruleLines (r : Rule) : List String :=
  ["@RULE " ++ r.id ++ " PRI:" ++ r.priority.tenthsText, inner (quote r.description)]

def rulesSection (rules : List Rule) : List String :=
  rulesHeader :: (ordered rules).flatMap ruleLines ++ [""]

/-- A line for a list that is left out when the list is empty. -/
def listLine (tag : String) (items : List String) : List String :=
  if items.isEmpty then [] else [inner (tag ++ ": " ++ listed items)]

def nodeLine (n : Node) : String :=
  "@NODE " ++ n.id ++ " T:" ++ n.category.name ++ " P:" ++ n.path ++ " L:" ++ toString n.lineStart ++
    "-" ++ toString n.lineEnd

/-- How strongly rules bear on a node: each rule's id with its amplitude. -/
def amplitudes (n : Node) : List String :=
  n.amplitudes.entries.map fun e => e.1 ++ "(" ++ e.2.tenthsText ++ ")"

def nodeLines (n : Node) : List String :=
  nodeLine n :: listLine "TAGS" n.tags.toList ++ listLine "DEP" n.deps.toList ++
    listLine "DEC" (amplitudes n) ++ [inner ("SUM: " ++ quote n.summary), ""]

def nodesSection (nodes : List Node) : List String :=
  nodesHeader :: nodes.flatMap nodeLines

def decisionLines (d : Decision) : List String :=
  ["@DECISION " ++ d.id, inner ("RULE: " ++ d.ruleId.getD "NONE"),
    inner ("CONTEXT: " ++ quote d.context)] ++ listLine "SCOPE" d.scope ++ [""]

def decisionsSection (decisions : List Decision) : List String :=
  decisionsHeader :: decisions.flatMap decisionLines

/-- The texts that are written one below the other. A text that holds a line feed takes several lines. -/
def parts (rules : List Rule) (nodes : List Node) (decisions : List Decision) : List String :=
  rulesSection rules ++ nodesSection nodes ++ decisionsSection decisions

/-- The document, each of its lines ended by a line feed. -/
def render (rules : List Rule) (nodes : List Node) (decisions : List Decision) : String :=
  String.join ((parts rules nodes decisions).map (· ++ "\n"))

end CodeContext.Document
