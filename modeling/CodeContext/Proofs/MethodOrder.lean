import CodeContext.Proofs.MethodLines
import CodeContext.Proofs.ParserFacts

/-!
# The order of the methods

The nodes of a source come in the order of its text. If the source has no errors and its trees fit the text, a
method ends before the next one begins, so that they have at most one line in common, and no node tells a line
that the source does not have.
-/

namespace CodeContext.CSharp

open Text

namespace Source

variable {s : Source} {text : List Char} {p q : List Nat} {children later : List Tree}

lemma ShowsMethod.not_prefix (hp : s.ShowsMethod p children) (hq : s.ShowsMethod q later)
    (hne : p ≠ q) : ¬ p <+: q := by
  intro hbelow
  obtain ⟨e, he, hmethod⟩ := Tree.exists_enclosing hp.at_eq hbelow hne
  exact hq.notInMethod e he hmethod

/-- If the trees of a source fit a text, no method ends after the line where a later one begins. -/
theorem ShowsMethod.lastLine_le_firstLine (hfits : s.FitsText text) (hp : s.ShowsMethod p children)
    (hq : s.ShowsMethod q later) (hlt : p < q) :
    (Tree.node .methodDeclaration children).lastLine s.tokens ≤
      (Tree.node .methodDeclaration later).firstLine s.tokens := by
  have hout := hp.not_prefix hq fun heq => List.lt_irrefl q (heq ▸ hlt)
  have hleaves := hfits.ordered.sublist (Tree.leaves_append_sublist hp.at_eq hq.at_eq hlt hout)
  obtain ⟨i, a, -, hfirst, ha, -⟩ := hfits.begins p children hp.at_eq
  obtain ⟨j, b, hlast, hb, -⟩ := hfits.closes p children hp.at_eq
  obtain ⟨k, c, -, hnext, hc, -⟩ := hfits.begins q later hq.at_eq
  have hwithin : i ≤ j := le_of_head? (hfits.ordered_leavesOf hp.at_eq) hfirst (List.mem_of_getLast? hlast)
  have hbefore : j < k :=
    (List.pairwise_append.mp hleaves).2.2 j (List.mem_of_getLast? hlast) k (List.mem_of_head? hnext)
  have hstart := hfits.lastLine_le_firstLine (Nat.lt_of_le_of_lt hwithin hbefore) ha hc
  have hstop := hfits.lastLine_le_firstLine hbefore hb hc
  have hshown := (hfits.standsIn ha).firstLine_le_lastLine
  simp only [Tree.firstLine, Tree.lastLine, Tree.leaves, hfirst, hlast, hnext, Option.bind_some, ha, hb, hc,
    Option.map_some, Option.getD_some]
  omega

end Source

/-- The lines of a node are lines of a text with as many lines as are given. -/
structure WithinLines (count : Nat) (n : Node) : Prop where
  one_le : 1 ≤ n.lineStart
  start_le_end : n.lineStart ≤ n.lineEnd
  end_le : n.lineEnd ≤ count

lemma Source.TellsMethod.withinLines {s : Source} {text : List Char} {n : Node} {p : List Nat}
    {children : List Tree} (hfits : s.FitsText text) (h : s.TellsMethod n p children) :
    WithinLines (lines text).length n := by
  obtain ⟨above, shown, below, hholds, hfirst, hlast⟩ := hfits.exists_holdMethod h.shows
  obtain ⟨l, hl, -⟩ := hholds.named
  have hshown : 0 < shown.length := List.length_pos_of_mem hl
  have hcount : (lines text).length = above.length + shown.length + below.length := by
    rw [hholds.layout.lines_eq, List.length_map, List.length_append, List.length_append]
  have hstart := h.lineStart
  have hend := h.lineEnd
  rw [hfirst] at hstart
  rw [hlast] at hend
  constructor <;> omega

/-- Whatever parser gives trees that fit, the nodes of a source without errors tell lines of the source, and no
node ends after the line where a later one begins. -/
theorem lines_of_extract_ordered {parser : Parser} (hparser : parser.FitsTexts) {text path : String}
    (hclean : (extractWith parser text path).hasErrors = false) :
    (∀ n ∈ (extractWith parser text path).nodes, WithinLines (lines text.toList).length n) ∧
      (extractWith parser text path).nodes.Pairwise fun a b => a.lineEnd ≤ b.lineStart := by
  rw [hasErrors_extractWith] at hclean
  have hfits := hparser text hclean
  obtain ⟨found, hordered, hmap, htells⟩ := (parser text).exists_positions path
  rw [nodes_extractWith, ← hmap, List.pairwise_map]
  constructor
  · intro n hn
    obtain ⟨⟨p, n⟩, hmem, rfl⟩ := List.mem_map.mp hn
    obtain ⟨-, children, htold⟩ := htells p n hmem
    exact htold.withinLines hfits
  · refine (List.pairwise_map.mp hordered).imp_of_mem fun {a b} ha hb hlt => ?_
    obtain ⟨-, children, hold⟩ := htells a.1 a.2 ha
    obtain ⟨-, later, hnew⟩ := htells b.1 b.2 hb
    rw [hold.lineEnd, hnew.lineStart]
    exact Int.ofNat_le.mpr (hold.shows.lastLine_le_firstLine hfits hnew.shows hlt)

/-- A class whose second method begins on the line where the first one ends. -/
def sharedLine : String :=
  "class A \x7b\r\n  void M() \x7b\r\n  \x7d void N() \x7b \x7d\r\n\x7d"

lemma sharedLine_hasErrors : (Source.parse sharedLine).hasErrors = false := by
  decide +kernel

lemma sharedLine_methods :
    Tree.methodsOf (Source.parse sharedLine).tokens none (Source.parse sharedLine).trees =
      [⟨"A", "M", 2, 3⟩, ⟨"A", "N", 3, 3⟩] := by
  decide +kernel

/-- Two methods may have a line in common. -/
theorem lines_of_sharedLine :
    (extract sharedLine "a.cs").hasErrors = false ∧
      (extract sharedLine "a.cs").nodes =
        [Method.toNode "a.cs" ⟨"A", "M", 2, 3⟩, Method.toNode "a.cs" ⟨"A", "N", 3, 3⟩] ∧
      (∀ n ∈ (extract sharedLine "a.cs").nodes, WithinLines 4 n) ∧
      (extract sharedLine "a.cs").nodes.Pairwise fun a b => a.lineEnd ≤ b.lineStart := by
  have hclean : (extract sharedLine "a.cs").hasErrors = false := by rw [hasErrors_extract, sharedLine_hasErrors]
  have hlines : (lines sharedLine.toList).length = 4 := by decide +kernel
  obtain ⟨hwithin, hordered⟩ := lines_of_extract_ordered Source.fitsTexts_parse hclean
  rw [hlines] at hwithin
  refine ⟨hclean, ?_, hwithin, hordered⟩
  rw [nodes_extract, Source.nodes, sharedLine_methods, List.map_cons, List.map_singleton]

end CodeContext.CSharp
