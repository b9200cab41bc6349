import CodeContext.Context
import CodeContext.Proofs.SectionMarkers

/-!
# What a context says about its selection

A context tells its selection three times: in the node lines of its document, in its targets and in the
count of its summary. All three are of the same nodes in the same order, whatever the other fields hold:
no field without a line feed can look like a node line.
-/

namespace CodeContext

namespace Text

lemma isPrefix_dropReturn (line : List Char) : dropReturn line <+: line := by
  unfold dropReturn
  split
  · exact List.dropLast_prefix line
  · exact List.prefix_rfl

/-- What is left of a line without its carriage return still begins in the same way. -/
lemma prefix_dropReturn {start line : List Char} (h : start <+: line) (hne : start ≠ line) :
    start <+: dropReturn line := by
  unfold dropReturn
  split
  · obtain ⟨rest, rfl⟩ := h
    have hrest : rest ≠ [] := fun hnil => hne (by simp [hnil])
    rw [List.dropLast_append_of_ne_nil hrest]
    exact List.prefix_append _ _
  · exact h

end Text

namespace Document

open Text

/-- A line begins like the line of a node. -/
def isNodeLine (line : List Char) : Bool :=
  "@NODE ".toList.isPrefixOf line

/-- The lines of a text that begin like the line of a node. -/
def nodeLinesOf (text : String) : List (List Char) :=
  (lines text.toList).filter isNodeLine

lemma isNodeLine_eq_false {part : String} (h : ¬ "@NODE ".toList <+: part.toList) :
    isNodeLine (dropReturn part.toList) = false := by
  refine Bool.eq_false_iff.mpr fun hline => h ?_
  exact (List.isPrefixOf_iff_prefix.mp hline).trans (isPrefix_dropReturn _)

lemma filter_isNodeLine_eq_nil {parts : List String} (h : ∀ p ∈ parts, ¬ "@NODE ".toList <+: p.toList) :
    (parts.map fun p => dropReturn p.toList).filter isNodeLine = [] := by
  refine List.filter_eq_nil_iff.mpr fun line hline => ?_
  obtain ⟨p, hp, rfl⟩ := List.mem_map.mp hline
  rw [isNodeLine_eq_false (h p hp)]
  exact Bool.false_ne_true

lemma not_prefix_inner (text : String) : ¬ "@NODE ".toList <+: (inner text).toList := by
  simp [inner, String.toList_append]

lemma not_prefix_of_mem_ruleLines (r : Rule) : ∀ p ∈ ruleLines r, ¬ "@NODE ".toList <+: p.toList := by
  intro p hp
  rw [ruleLines, List.mem_cons, List.mem_singleton] at hp
  rcases hp with rfl | rfl
  · simp [String.toList_append]
  · exact not_prefix_inner _

lemma not_prefix_of_mem_listLine (tag : String) (items : List String) :
    ∀ p ∈ listLine tag items, ¬ "@NODE ".toList <+: p.toList := by
  intro p hp
  unfold listLine at hp
  split at hp
  · exact absurd hp List.not_mem_nil
  · rw [List.mem_singleton.mp hp]
    exact not_prefix_inner _

/-- What a node's line begins with. -/
def nodeTag (id : String) : List Char :=
  ("@NODE " ++ id ++ " T:").toList

lemma isPrefix_nodeTag (n : Node) : nodeTag n.id <+: dropReturn (nodeLine n).toList := by
  have hline : (nodeLine n).toList = nodeTag n.id ++ (n.category.name ++ " P:" ++ (n.path ++ " L:" ++
      (toString n.lineStart ++ "-" ++ toString n.lineEnd))).toList := by
    simp only [nodeLine_eq, nodeTag, ← String.toList_append, String.append_assoc]
  refine prefix_dropReturn (hline ▸ List.prefix_append _ _) fun heq => ?_
  have hlength := congrArg List.length (heq.trans hline)
  simp [String.toList_append] at hlength

lemma filter_nodeLines (n : Node) : ((nodeLines n).map fun p => dropReturn p.toList).filter isNodeLine =
    [dropReturn (nodeLine n).toList] := by
  have hhead : isNodeLine (dropReturn (nodeLine n).toList) = true := by
    have htag : "@NODE ".toList <+: nodeTag n.id := by simp [nodeTag, String.toList_append]
    exact List.isPrefixOf_iff_prefix.mpr (htag.trans (isPrefix_nodeTag n))
  have hrest : ∀ p ∈ (nodeLines n).tail, ¬ "@NODE ".toList <+: p.toList := by
    intro p hp
    simp only [nodeLines, List.cons_append, List.tail_cons, List.mem_append, List.mem_cons, List.not_mem_nil,
      or_false] at hp
    rcases hp with ((hp | hp) | hp) | rfl | rfl
    · exact not_prefix_of_mem_listLine _ _ p hp
    · exact not_prefix_of_mem_listLine _ _ p hp
    · exact not_prefix_of_mem_listLine _ _ p hp
    · exact not_prefix_inner _
    · decide
  have hcons : nodeLines n = nodeLine n :: (nodeLines n).tail := rfl
  rw [hcons, List.map_cons, List.filter_cons_of_pos hhead, filter_isNodeLine_eq_nil hrest]

/-- The node lines of a document without decisions are those of its nodes. -/
lemma nodeLinesOf_render {rules : List Rule} {nodes : List Node} (hrules : ∀ r ∈ rules, PlainRule r)
    (hnodes : ∀ n ∈ nodes, OneLineNode n) :
    nodeLinesOf (render rules nodes []) = nodes.map fun n => dropReturn (nodeLine n).toList := by
  have hrow (p : String) (hp : OneLine p) : (rows p).map dropReturn = [dropReturn p.toList] := by
    rw [rows_oneLine hp, List.map_singleton]
  have hinRules : (((ordered rules).flatMap ruleLines).flatMap fun p => (rows p).map dropReturn).filter
      isNodeLine = [] := by
    refine List.filter_eq_nil_iff.mpr fun line hline => ?_
    obtain ⟨p, hp, hline⟩ := List.mem_flatMap.mp hline
    obtain ⟨r, hr, hp⟩ := List.mem_flatMap.mp hp
    rw [hrow p (oneLine_of_mem_ruleLines (hrules r (mem_ordered.mp hr)) p hp), List.mem_singleton] at hline
    rw [hline, isNodeLine_eq_false (not_prefix_of_mem_ruleLines r p hp)]
    exact Bool.false_ne_true
  have hinNodes : ((nodes.flatMap nodeLines).flatMap fun p => (rows p).map dropReturn).filter isNodeLine =
      nodes.map fun n => dropReturn (nodeLine n).toList := by
    induction nodes with
    | nil => rfl
    | cons n nodes ih =>
      have hn : (nodeLines n).flatMap (fun p => (rows p).map dropReturn) =
          (nodeLines n).map fun p => dropReturn p.toList := by
        rw [← List.flatMap_pure_eq_map]
        exact List.flatMap_congr fun p hp =>
          hrow p (oneLine_of_mem_nodeLines (hnodes n List.mem_cons_self) p hp)
      rw [List.flatMap_cons, List.flatMap_append, List.filter_append, hn, filter_nodeLines,
        ih fun m hm => hnodes m (List.mem_cons_of_mem _ hm), List.singleton_append, List.map_cons]
  have hheader (p : String) (hp : p ∈ ["", rulesHeader, nodesHeader, decisionsHeader]) :
      ((rows p).map dropReturn).filter isNodeLine = [] := by
    revert p
    decide
  rw [nodeLinesOf, render, lines_join_eq_rows, parts_eq]
  simp only [List.flatMap_cons, List.flatMap_append, List.filter_append, hinRules, hinNodes, hheader,
    List.mem_cons, true_or, or_true, List.nil_append, List.flatMap_nil, List.append_nil]

lemma plainRule_of_mem_builtIn : ∀ r ∈ Rule.builtIn, PlainRule r := by
  have hfirst : PlainRule Rule.builtIn[0] := ⟨by decide, by decide⟩
  have hsecond : PlainRule Rule.builtIn[1] := ⟨by decide, by decide⟩
  exact List.forall_mem_cons.mpr ⟨hfirst, List.forall_mem_singleton.mpr hsecond⟩

end Document

lemma Node.filter_nil (nodes : List Node) : Node.filter nodes [] = [] := by
  simp [Node.filter_eq]

namespace Context

open Document

/-- No targets select nothing, so that the targets alone decide whether the first nodes are taken. -/
lemma select_eq (cap : Nat) (nodes : List Node) (targets : List String) :
    select cap nodes targets = if targets = [] then nodes.take cap else Node.filter nodes targets := by
  unfold select
  cases targets with
  | nil => simp [Node.filter_nil]
  | cons target rest => simp

lemma select_of_ne_nil {cap : Nat} {nodes : List Node} {targets : List String} (h : targets ≠ []) :
    select cap nodes targets = Node.filter nodes targets := by
  rw [select_eq, if_neg h]

lemma mem_of_mem_select {cap : Nat} {nodes : List Node} {targets : List String} {n : Node}
    (h : n ∈ select cap nodes targets) : n ∈ nodes := by
  rw [select_eq] at h
  split at h
  · exact List.mem_of_mem_take h
  · rw [Node.filter_eq] at h
    exact List.mem_of_mem_filter h

/-- The node lines, the targets and the count of a context are of the same nodes. Without a target they
are the first of the index up to the cap, and with any target those that the targets select. -/
theorem compile_tells_selection {rules : List Rule} {nodes : List Node} (cap : Nat) (targets : List String)
    (hrules : ∀ r ∈ rules, PlainRule r) (hnodes : ∀ n ∈ nodes, OneLineNode n) :
    let c := compile rules cap nodes targets
    ((nodeLinesOf c.bytecode).length = c.targets.length ∧
      ∀ (i : Nat) (id : String), c.targets[i]? = some id →
        ∃ line, (nodeLinesOf c.bytecode)[i]? = some line ∧ nodeTag id <+: line) ∧
    c.summary = "Compiled context for " ++ toString c.targets.length ++ " nodes." ∧
    ∃ chosen, c.targets = chosen.map Node.id ∧ c.bytecode = render rules chosen [] ∧
      (targets = [] → chosen = nodes.take (min cap nodes.length)) ∧
      (targets ≠ [] → chosen = Node.filter nodes targets) := by
  intro c
  have hchosen : ∀ n ∈ select cap nodes targets, OneLineNode n := fun n hn => hnodes n (mem_of_mem_select hn)
  have hlines : nodeLinesOf c.bytecode =
      (select cap nodes targets).map fun n => Text.dropReturn (nodeLine n).toList :=
    nodeLinesOf_render hrules hchosen
  have htargets : c.targets = (select cap nodes targets).map Node.id := rfl
  refine ⟨⟨?_, fun i id hid => ?_⟩, ?_, select cap nodes targets, htargets, rfl, ?_, ?_⟩
  · rw [hlines, htargets, List.length_map, List.length_map]
  · rw [htargets, List.getElem?_map, Option.map_eq_some_iff] at hid
    obtain ⟨n, hn, rfl⟩ := hid
    refine ⟨_, ?_, isPrefix_nodeTag n⟩
    rw [hlines, List.getElem?_map, hn, Option.map_some]
  · rw [htargets, List.length_map]
    rfl
  · rintro rfl
    rw [select_eq, if_pos rfl]
    exact List.take_eq_take_iff.mpr (by omega)
  · exact select_of_ne_nil

/-- A node whose summary looks like a node line. -/
def imitating : Node :=
  { twisted with id := "FN:2", summary := "@NODE FN:3 T:Test" }

/-- The node line in a summary is not told as a node, and the cap cuts off the second node. -/
theorem compile_imitating_tells_one :
    (∀ r ∈ Rule.builtIn, PlainRule r) ∧ (∀ n ∈ [imitating, twisted], OneLineNode n) ∧
      (compile Rule.builtIn 1 [imitating, twisted] []).targets = ["FN:2"] ∧
      (nodeLinesOf (compile Rule.builtIn 1 [imitating, twisted] []).bytecode).length = 1 := by
  have htwisted : OneLineNode twisted := plainNode_twisted.oneLine
  have himitating : OneLineNode imitating := { htwisted with id := by decide, summary := by decide }
  have hnodes : ∀ n ∈ [imitating, twisted], OneLineNode n :=
    List.forall_mem_cons.mpr ⟨himitating, List.forall_mem_singleton.mpr htwisted⟩
  obtain ⟨⟨hlength, -⟩, -, chosen, htargets, -, hfirst, -⟩ := compile_tells_selection 1 [] plainRule_of_mem_builtIn hnodes
  have hone : (compile Rule.builtIn 1 [imitating, twisted] []).targets = ["FN:2"] := by
    rw [htargets, hfirst rfl]
    rfl
  exact ⟨plainRule_of_mem_builtIn, hnodes, hone, by rw [hlength, hone]; rfl⟩

end Context

end CodeContext
