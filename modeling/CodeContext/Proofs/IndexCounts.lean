import CodeContext.Index
import Mathlib.Tactic.Lemma

/-!
# What an index counts

An index has the nodes of its files, one file after the other. Each file that can be read counts as indexed and
each other one as an error, so that the two numbers add up to that of the files.
-/

namespace CodeContext.Index

variable (parser : CSharp.Parser) (t : FileTree) (files : List SourceFile)

lemma foldl_add (index : Index) : files.foldl (fun index file => index.add (nodesOf? parser t file)) index =
    { index with
      nodes := index.nodes ++ files.flatMap fun f => (nodesOf? parser t f).getD []
      indexed := index.indexed + files.countP fun f => (t.readText f.path).isOk
      errors := index.errors + files.countP fun f => !(t.readText f.path).isOk } := by
  induction files generalizing index with
  | nil => simp
  | cons f files ih =>
    rw [List.foldl_cons, ih, List.flatMap_cons, List.countP_cons, List.countP_cons, nodesOf?]
    cases t.readText f.path with
    | error e => simp [add, Except.isOk, Except.toBool, Nat.add_assoc, Nat.add_comm 1]
    | ok text => simp [add, Except.isOk, Except.toBool, Nat.add_assoc, Nat.add_comm 1]

lemma ofFiles_eq : ofFiles parser t files =
    { nodes := files.flatMap fun f => (nodesOf? parser t f).getD []
      scanned := files.length
      indexed := files.countP fun f => (t.readText f.path).isOk
      errors := files.countP fun f => !(t.readText f.path).isOk
      count := (files.flatMap fun f => (nodesOf? parser t f).getD []).length } := by
  rw [ofFiles]
  simp only [foldl_add, List.nil_append, Nat.zero_add]

lemma indexed_add_errors : (ofFiles parser t files).indexed + (ofFiles parser t files).errors = files.length := by
  rw [ofFiles_eq]
  induction files with
  | nil => rfl
  | cons f files ih =>
    simp only [List.countP_cons, List.length_cons] at ih ⊢
    cases (t.readText f.path).isOk with
    | false =>
      simp only [Bool.not_false, if_true, Bool.false_eq_true, if_false]
      omega
    | true =>
      simp only [Bool.not_true, if_true, Bool.false_eq_true, if_false]
      omega

end CodeContext.Index
