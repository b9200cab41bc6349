import CodeContext.Hash.Blake3
import CodeContext.Json.Decoder
import CodeContext.Json.Printer
import CodeContext.Model.Category

/-!
# Nodes

A node is one indexed unit of code: a method of a class, with the lines of its declaration and its
name as summary. Its id is drawn from a hash of the type's and the method's names.
-/

namespace CodeContext

structure Node where
  id : String
  category : Category
  path : String
  lineStart : Int
  lineEnd : Int
  tags : TextSet
  deps : TextSet
  /-- How strongly each rule bears on the node, by the rule's id. -/
  amplitudes : TextMap Binary64
  summary : String

namespace Node

/-- The id of a method: the hash of both names with a point between, in the last four digits. -/
def methodId (typeName member : String) : String :=
  "FN:" ++ toString (Blake3.leadingWord (typeName ++ "." ++ member).toUTF8.toList % 10000)

open Json

/-- The node as an object, its fields in their fixed order. Empty sets and maps are left out. -/
def toJson (n : Node) : Value :=
  .object <|
    [("node_id", .string n.id), ("category", .string n.category.name), ("path", .string n.path),
      ("line_start", .ofInt n.lineStart), ("line_end", .ofInt n.lineEnd)] ++
    (if n.tags.isEmpty then [] else [("tags", .strings n.tags.toList)]) ++
    (if n.deps.isEmpty then [] else [("deps", .strings n.deps.toList)]) ++
    (if n.amplitudes.isEmpty then []
      else [("rule_amplitudes", .object (n.amplitudes.entries.map fun e => (e.1, .ofReal e.2)))]) ++
    [("summary", .string n.summary)]

/-- A node whose fields are being read. -/
structure Draft where
  id : Option String
  category : Option Category
  path : Option String
  lineStart : Option Int
  lineEnd : Option Int
  tags : Option TextSet
  deps : Option TextSet
  amplitudes : Option (TextMap Binary64)
  summary : Option String

open Decoder in
def shape : Shape Draft Node where
  name := "Node"
  blank := ⟨none, none, none, none, none, none, none, none, none⟩
  fields :=
    [slot "node_id" string (·.id) fun x d => { d with id := some x },
      slot "category" (variant (Category.all.map Category.name) Category.ofName?) (·.category)
        fun x d => { d with category := some x },
      slot "path" string (·.path) fun x d => { d with path := some x },
      slot "line_start" int64 (·.lineStart) fun x d => { d with lineStart := some x },
      slot "line_end" int64 (·.lineEnd) fun x d => { d with lineEnd := some x },
      (slot "tags" set (·.tags) fun x d => { d with tags := some x }).orDefault,
      (slot "deps" set (·.deps) fun x d => { d with deps := some x }).orDefault,
      (slot "rule_amplitudes" (map real) (·.amplitudes)
        fun x d => { d with amplitudes := some x }).orDefault,
      slot "summary" string (·.summary) fun x d => { d with summary := some x }]
  finish d := do
    .ok {
      id := ← required "node_id" d.id
      category := ← required "category" d.category
      path := ← required "path" d.path
      lineStart := ← required "line_start" d.lineStart
      lineEnd := ← required "line_end" d.lineEnd
      tags := d.tags.getD .empty
      deps := d.deps.getD .empty
      amplitudes := d.amplitudes.getD .empty
      summary := ← required "summary" d.summary }

def decoder : Decoder Node :=
  shape.decoder

end Node

end CodeContext
