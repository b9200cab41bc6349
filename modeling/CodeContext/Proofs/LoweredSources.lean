import CodeContext.Proofs.MethodLines
import CodeContext.Proofs.ParserFacts

/-!
# Sources further down

A line feed before a source is passed over and moves the tokens one line down. The grammar sees no lines, so it
finds the same trees. The names of classes and methods are words of the tokens, so the methods are the same, on
lower lines.
-/

namespace CodeContext.CSharp

/-! ### Tokens -/

namespace Token

variable {t u : Token} {text : List Char}

lemma text_shift (k : Nat) (t : Token) : (t.shift k).text = t.text :=
  rfl

lemma shift_zero : shift 0 = id :=
  rfl

lemma shift_shift (k m : Nat) : shift m ∘ shift k = shift (k + m) := by
  funext t
  simp only [shift, Function.comp_apply, Nat.add_assoc]

/-- A token that looks the same one place further on below a line feed is on a lower line. -/
lemma eq_shift_of_lineFeed (ht : t.StandsIn text) (hu : u.StandsIn ('\n' :: text)) (hsight : u.sight = t.sight)
    (hplace : (u.start, u.stop) = (t.start + 1, t.stop + 1)) : u = t.shift 1 := by
  obtain ⟨hsymbol, hglued⟩ := Prod.mk.inj hsight
  obtain ⟨hstart, hstop⟩ := Prod.mk.inj hplace
  have hfirst : u.firstLine = t.firstLine + 1 := by
    rw [hu.firstLine_eq, ht.firstLine_eq, hstart, List.take_succ_cons, List.count_cons_self]
  have hlast : u.lastLine = t.lastLine + 1 := by
    rw [hu.lastLine_eq, ht.lastLine_eq, hstop, List.take_succ_cons, List.count_cons_self]
  cases u
  simp_all only [shift]

end Token

/-! ### Trees -/

namespace Parser

variable {parser : Parser} {text : String}

lemma BeginsPlainly.lineFeeds {text : List Char} (h : BeginsPlainly text) (k : Nat) :
    BeginsPlainly (List.replicate k '\n' ++ text) := by
  cases k with
  | zero => exact h
  | succ k => simp [BeginsPlainly, List.replicate_succ]

/-- Below a line feed a source without errors has the same trees, over tokens that are one line lower. -/
theorem parse_lineFeed (hfits : parser.FitsTexts) (hsees : parser.SeesTokens) (hskips : parser.SkipsLineFeeds)
    (hplain : BeginsPlainly text.toList) (hclean : (parser text).hasErrors = false) :
    parser ("\n" ++ text) = ⟨(parser text).tokens.map (Token.shift 1), (parser text).trees, false⟩ := by
  obtain ⟨hsight, hplace⟩ := hskips text hplain hclean
  obtain ⟨htrees, hmoved⟩ := hsees text ("\n" ++ text) hclean hsight
  have hchars : ("\n" ++ text).toList = '\n' :: text.toList := String.toList_append
  have htokens : (parser ("\n" ++ text)).tokens = (parser text).tokens.map (Token.shift 1) := by
    have hsize := congrArg Array.size hsight
    rw [Array.size_map, Array.size_map] at hsize
    apply Array.ext
    · rw [hsize, Array.size_map]
    · intro i hi hi'
      rw [Array.size_map] at hi'
      have hsame := congrArg (·[i]?) hsight
      have hfurther := congrArg (·[i]?) hplace
      simp only [Array.getElem?_map, Array.getElem?_eq_getElem hi, Array.getElem?_eq_getElem hi', Option.map_some,
        Option.some.injEq] at hsame hfurther
      rw [Array.getElem_map]
      refine Token.eq_shift_of_lineFeed ((hfits text hclean).stands _ (Array.getElem_mem hi')) ?_ hsame hfurther
      rw [← hchars]
      exact (hfits _ hmoved).stands _ (Array.getElem_mem hi)
  rw [← htokens, ← htrees, ← hmoved]

/-- Below some line feeds a source without errors has the same trees, over tokens that are as many lines lower. -/
theorem parse_lineFeeds (hfits : parser.FitsTexts) (hsees : parser.SeesTokens) (hskips : parser.SkipsLineFeeds)
    (hplain : BeginsPlainly text.toList) (hclean : (parser text).hasErrors = false) (k : Nat) :
    parser (String.ofList (List.replicate k '\n') ++ text) =
      ⟨(parser text).tokens.map (Token.shift k), (parser text).trees, false⟩ := by
  induction k with
  | zero =>
    rw [List.replicate_zero, String.ofList_nil, String.empty_append, Token.shift_zero, Array.map_id, ← hclean]
  | succ k ih =>
    have hfeed : String.ofList (List.replicate (k + 1) '\n') = "\n" ++ String.ofList (List.replicate k '\n') := by
      rw [List.replicate_succ, String.ofList_cons]
      rfl
    have hlower : BeginsPlainly (String.ofList (List.replicate k '\n') ++ text).toList := by
      rw [String.toList_append, String.toList_ofList]
      exact hplain.lineFeeds k
    rw [hfeed, String.append_assoc, parse_lineFeed hfits hsees hskips hlower (by rw [ih]), ih]
    simp only [Array.map_map, Token.shift_shift]

end Parser

/-! ### Methods -/

/-- The method some lines further down. -/
def Method.shift (k : Nat) (m : Method) : Method :=
  { m with firstLine := m.firstLine + k, lastLine := m.lastLine + k }

namespace Tree

variable (tokens : Array Token) (k : Nat)

lemma textOf_shift (ts : List Tree) : textOf (tokens.map (Token.shift k)) ts = textOf tokens ts := by
  simp only [textOf, Array.getElem?_map, Option.map_map, Function.comp_def, Token.text_shift]

lemma nameAmong_shift (children : List Tree) :
    nameAmong (tokens.map (Token.shift k)) children = nameAmong tokens children := by
  fun_induction nameAmong tokens children with
  | case1 => rfl
  | case2 named rest => exact textOf_shift tokens k named
  | case3 t rest hname ih =>
    rw [nameAmong, ih]
    exact hname

lemma leavesOf_ne_nil_of_nameAmong {children : List Tree} (h : nameAmong tokens children ≠ "") :
    leavesOf children ≠ [] := by
  obtain ⟨named, hmem, htext⟩ := exists_name_of_nameAmong_ne h
  intro hnil
  have hleaves : leavesOf named = [] := by
    have hinfix := leaves_isInfix_of_mem hmem
    rwa [hnil, List.infix_nil, leaves] at hinfix
  rw [htext, textOf, hleaves] at h
  exact h rfl

variable {tokens}

lemma line_shift {i? : Option Nat} {i : Nat} (hi? : i? = some i) (hi : i < tokens.size) {line : Token → Nat}
    (hline : ∀ t : Token, line (t.shift k) = line t + k) :
    ((i?.bind ((tokens.map (Token.shift k))[·]?)).map line).getD 0 =
      ((i?.bind (tokens[·]?)).map line).getD 0 + k := by
  subst hi?
  simp [hi, hline]

/-- A method with a name has a first and a last token, which move down with all the others. -/
lemma methodOf_shift (className : String) {children : List Tree} (h : ∀ i ∈ leavesOf children, i < tokens.size) :
    methodOf (tokens.map (Token.shift k)) className children =
      (methodOf tokens className children).map (Method.shift k) := by
  unfold methodOf
  dsimp only
  rw [nameAmong_shift]
  split
  · rfl
  · rename_i hname
    have hne := leavesOf_ne_nil_of_nameAmong tokens hname
    have hfirst := List.head?_eq_some_head hne
    have hlast := List.getLast?_eq_some_getLast hne
    rw [List.map_singleton, Method.shift, lastLine, lastLine, firstLine, firstLine, leaves,
      line_shift k hfirst (h _ (List.head_mem hne)) fun _ => rfl,
      line_shift k hlast (h _ (List.getLast_mem hne)) fun _ => rfl, Nat.add_max_add_right]

mutual

/-- The methods in a tree are the same further down: their names are words of the tokens, and only their lines come
from where the tokens stand. -/
theorem methods_shift (className : Option String) :
    ∀ t : Tree, (∀ i ∈ t.leaves, i < tokens.size) →
      t.methods (tokens.map (Token.shift k)) className = (t.methods tokens className).map (Method.shift k)
  | .leaf _, _ => by simp only [methods, List.map_nil]
  | .node .methodDeclaration children, h => by
    cases className with
    | none => simp only [methods, List.map_nil]
    | some c => simpa only [methods] using methodOf_shift k c h
  | .node .classDeclaration children, h => by
    simp only [methods, nameAmong_shift]
    split
    · rfl
    · exact methodsOfBody_shift _ children h
  | .node .name children, h | .node .body children, h | .node .other children, h | .node .error children, h => by
    simpa only [methods] using methodsOf_shift className children h

theorem methodsOf_shift (className : Option String) :
    ∀ ts : List Tree, (∀ i ∈ leavesOf ts, i < tokens.size) →
      methodsOf (tokens.map (Token.shift k)) className ts = (methodsOf tokens className ts).map (Method.shift k)
  | [], _ => by simp only [methodsOf, List.map_nil]
  | t :: rest, h => by
    obtain ⟨ht, hrest⟩ := List.forall_mem_append.mp h
    rw [methodsOf, methodsOf, List.map_append, methods_shift className t ht, methodsOf_shift className rest hrest]

theorem methodsOfBody_shift (className : String) :
    ∀ ts : List Tree, (∀ i ∈ leavesOf ts, i < tokens.size) →
      methodsOfBody (tokens.map (Token.shift k)) className ts =
        (methodsOfBody tokens className ts).map (Method.shift k)
  | [], _ => by simp only [methodsOfBody, List.map_nil]
  | t :: rest, h => by
    obtain ⟨ht, hrest⟩ := List.forall_mem_append.mp h
    cases hbody : isBody t with
    | true => rw [methodsOfBody_of_isBody hbody, methodsOfBody_of_isBody hbody, methods_shift _ t ht]
    | false =>
      rw [methodsOfBody_of_not_isBody hbody, methodsOfBody_of_not_isBody hbody,
        methodsOfBody_shift className rest hrest]

end

end Tree

/-! ### Nodes -/

lemma Method.toNode_shift (path : String) (k : Nat) (m : Method) :
    (m.shift k).toNode path =
      { m.toNode path with
        lineStart := (m.toNode path).lineStart + k, lineEnd := (m.toNode path).lineEnd + k } := by
  simp only [Method.toNode, Method.shift, Int.natCast_add]

/-- Whatever parser keeps to the facts, line feeds before a source without errors add to the lines of its nodes and
change nothing else: there are no errors then either, and the nodes come in the same order with the same ids,
categories, paths and summaries. -/
theorem extract_lineFeeds {parser : Parser} (hfits : parser.FitsTexts) (hsees : parser.SeesTokens)
    (hskips : parser.SkipsLineFeeds) {text path : String} (hclean : (extractWith parser text path).hasErrors = false)
    (hplain : Parser.BeginsPlainly text.toList) (k : Nat) :
    let moved := extractWith parser (String.ofList (List.replicate k '\n') ++ text) path
    moved.hasErrors = false ∧ moved.nodes = (extractWith parser text path).nodes.map fun n =>
      { n with lineStart := n.lineStart + k, lineEnd := n.lineEnd + k } := by
  intro moved
  have hparse := Parser.parse_lineFeeds hfits hsees hskips hplain hclean k
  have hleaves : ∀ i ∈ Tree.leavesOf (parser text).trees, i < (parser text).tokens.size := by
    have hwithin := (hfits text hclean).within
    rwa [Source.root, Tree.leaves] at hwithin
  constructor
  · rw [hasErrors_extractWith, hparse]
  · rw [nodes_extractWith, nodes_extractWith, hparse, Source.nodes, Source.nodes,
      Tree.methodsOf_shift k none _ hleaves, List.map_map, List.map_map]
    exact List.map_congr_left fun m _ => m.toNode_shift path k

/-- A class with a comment, a condition and a string over several lines above its method. -/
def spread : String :=
  "/* a\n*/ class A \x7b\n#if X\n  string S = @\"b\nc\";\n#endif\n  void M() \x7b\n  \x7d\n\x7d"

lemma spread_hasErrors : (Source.parse spread).hasErrors = false := by
  decide +kernel

lemma spread_methods :
    Tree.methodsOf (Source.parse spread).tokens none (Source.parse spread).trees = [⟨"A", "M", 7, 8⟩] := by
  decide +kernel

/-- Three line feeds move a method below a comment, a condition and a string three lines down. -/
theorem extract_three_lineFeeds :
    let moved := extract ("\n\n\n" ++ spread) "a.cs"
    (extract spread "a.cs").hasErrors = false ∧ Parser.BeginsPlainly spread.toList ∧
      (extract spread "a.cs").nodes = [Method.toNode "a.cs" ⟨"A", "M", 7, 8⟩] ∧
      moved.hasErrors = false ∧ moved.nodes = [Method.toNode "a.cs" ⟨"A", "M", 10, 11⟩] := by
  have hclean : (extract spread "a.cs").hasErrors = false := by rw [hasErrors_extract, spread_hasErrors]
  have hplain : Parser.BeginsPlainly spread.toList := by simp [Parser.BeginsPlainly, spread]
  have hnodes : (extract spread "a.cs").nodes = [Method.toNode "a.cs" ⟨"A", "M", 7, 8⟩] := by
    rw [nodes_extract, Source.nodes, spread_methods, List.map_singleton]
  have hlines : "\n\n\n" = String.ofList (List.replicate 3 '\n') := by decide
  obtain ⟨hmoved, hlower⟩ := extract_lineFeeds Source.fitsTexts_parse Source.seesTokens_parse
    Source.skipsLineFeeds_parse hclean hplain 3
  rw [← hlines] at hmoved hlower
  refine ⟨hclean, hplain, hnodes, hmoved, hlower.trans ?_⟩
  rw [← extract, hnodes, List.map_singleton]
  exact congrArg List.singleton (Method.toNode_shift "a.cs" 3 ⟨"A", "M", 7, 8⟩).symm

end CodeContext.CSharp
