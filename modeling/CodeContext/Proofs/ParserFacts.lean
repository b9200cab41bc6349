import CodeContext.Proofs.Derivations
import CodeContext.Proofs.MethodLines
import CodeContext.Proofs.TokenPlaces

/-!
# What holds of the parser

The parser of the program keeps to the facts that are relied on of any parser. Its tokens are those of the lexer,
so they stand in the text one after the other. The trees of a text without errors are derived from all of them,
so a name is one word and a method ends in a semicolon or a closing brace. The grammar sees the symbols of the
tokens and whether they are glued, and no places.
-/

namespace CodeContext.CSharp.Source

open Form Phrase CSharp.Tree

variable {text : String}

lemma tokens_parse (text : String) : (parse text).tokens = (CSharp.tokens text.toList).toArray :=
  tokens_ofTokens _

lemma isLexed_of_mem_tokens_parse : ∀ t ∈ (parse text).tokens, ∃ before taken after,
    t.IsLexed text.toList before taken after := by
  intro t ht
  rw [tokens_parse] at ht
  exact isLexed_of_mem_tokens t (List.mem_toArray.mp ht)

/-! ### Names and methods -/

lemma exists_leaf_of_name (hclean : (parse text).hasErrors = false) {p : List Nat} {children : List Tree}
    (hat : (parse text).root.at? p = some (.node .name children)) :
    ∃ i t w, children = [.leaf i] ∧ (parse text).tokens[i]? = some t ∧ t.symbol = .word w := by
  rw [tokens_parse]
  obtain ⟨a, i, j, hfits, -, htakes⟩ := takes_children hclean hat
  match a, hfits, htakes with
  | .terminal (.wordExcept reserved), _, @Takes.terminal _ _ _ _ _ t here accepted =>
    have hsymbol : ∃ w, t.symbol = .word w := by
      cases hs : t.symbol <;> simp [hs, Terminal.accepts] at accepted ⊢
    obtain ⟨w, hw⟩ := hsymbol
    exact ⟨i, t, w, rfl, here, hw⟩

/-- The tokens of a method are those from one place to another, the first of them is well formed, and the last
one closes the method. -/
lemma exists_ends_of_method (hclean : (parse text).hasErrors = false) {p : List Nat} {children : List Tree}
    (hat : (parse text).root.at? p = some (.node .methodDeclaration children)) :
    ∃ i j t u, (leavesOf children).head? = some i ∧ (leavesOf children).getLast? = some j ∧
      (parse text).tokens[i]? = some t ∧ t.symbol ≠ .invalid ∧ (parse text).tokens[j]? = some u ∧ u.Closes := by
  rw [tokens_parse]
  obtain ⟨a, i, j, hfits, hstrict, htakes⟩ := takes_children hclean hat
  obtain ⟨hlt, u, hu, hcloses⟩ := htakes.closes hfits
  have hleaves := htakes.leavesOf_eq
  obtain ⟨t, ht, hproper⟩ : ∃ t, (CSharp.tokens text.toList).toArray[i]? = some t ∧ t.symbol ≠ .invalid := by
    refine symbol_ne_of_takes htakes hstrict i ?_
    rw [hleaves, List.mem_range'_1]
    omega
  refine ⟨i, j - 1, t, u, ?_, ?_, ht, hproper, hu, hcloses⟩
  · rw [hleaves, List.head?_range', if_neg (by omega)]
  · rw [hleaves, List.getLast?_range', if_neg (by omega)]
    congr 1
    omega

/-- The trees of a text without errors fit it. -/
theorem fitsTexts_parse : Parser.FitsTexts parse := by
  intro text hclean
  have hleaves : (parse text).root.leaves = List.range (parse text).tokens.size := by
    rw [tokens_parse]
    exact leaves_root hclean
  constructor
  case stands =>
    intro t ht
    obtain ⟨before, taken, after, hlexed⟩ := isLexed_of_mem_tokens_parse t ht
    exact ⟨before, taken, after, hlexed.toIsCut⟩
  case apart =>
    rw [tokens_parse]
    exact pairwise_tokens text.toList
  case within =>
    intro i hi
    rwa [hleaves, List.mem_range] at hi
  case ordered =>
    rw [hleaves]
    exact List.pairwise_lt_range
  case named =>
    intro p children hat
    exact exists_leaf_of_name hclean hat
  case begins =>
    intro p children hat
    obtain ⟨i, -, t, -, hfirst, -, ht, hproper, -⟩ := exists_ends_of_method hclean hat
    obtain ⟨before, taken, after, hlexed⟩ := isLexed_of_mem_tokens_parse t (Array.mem_of_getElem? ht)
    obtain ⟨c, rest, rfl, hends⟩ := hlexed.head hproper
    have hc : text.toList[t.start]? = some c := by
      rw [hlexed.text_eq, hlexed.start, List.append_assoc, List.getElem?_append_right (Nat.le_refl _), Nat.sub_self]
      rfl
    exact ⟨i, t, c, hfirst, ht, hc, hends⟩
  case closes =>
    intro p children hat
    obtain ⟨-, j, -, u, -, hlast, -, -, hu, hcloses⟩ := exists_ends_of_method hclean hat
    exact ⟨j, u, hlast, hu, hcloses⟩

/-! ### Texts with the same tokens -/

variable {tokens others : Array Token}

/-- What a form takes depends on what the grammar sees of the tokens. -/
lemma run_congr {ρ : Type} (grammar : ρ → Form ρ) (h : others.map Token.sight = tokens.map Token.sight) (fuel : Nat)
    (form : Form ρ) (i : Nat) : run grammar others fuel form i = run grammar tokens fuel form i := by
  induction fuel generalizing form i with
  | zero => rfl
  | succ fuel ih =>
    cases form with
    | terminal t =>
      have hsight : others[i]?.map Token.sight = tokens[i]?.map Token.sight := by
        rw [← Array.getElem?_map, ← Array.getElem?_map, h]
      simp only [run]
      cases hu : others[i]? with
      | none =>
        rw [hu, Option.map_none, eq_comm, Option.map_eq_none_iff] at hsight
        rw [hsight]
      | some u =>
        rw [hu, Option.map_some, eq_comm, Option.map_eq_some_iff] at hsight
        obtain ⟨v, hv, hsame⟩ := hsight
        obtain ⟨hsymbol, hglued⟩ := Prod.mk.inj hsame
        rw [hv]
        simp only [hsymbol, hglued]
    | empty => rfl
    | seq | alt | many | ahead | notAhead | named | node => simp only [run, ih]

lemma fit?_congr (h : others.map Token.sight = tokens.map Token.sight) : fit? others = fit? tokens := by
  have hsize := congrArg Array.size h
  rw [Array.size_map, Array.size_map] at hsize
  simp only [fit?, fuelFor, hsize, run_congr _ h]

theorem seesTokens_parse : Parser.SeesTokens parse := by
  intro a b hclean hsight
  rw [tokens_parse, tokens_parse] at hsight
  have hfit := fit?_congr hsight
  unfold parse ofTokens at hclean ⊢
  rw [hfit]
  split at hclean
  · exact ⟨rfl, rfl⟩
  · split at hclean <;> cases hclean

theorem skipsLineFeeds_parse : Parser.SkipsLineFeeds parse := by
  intro text hplain _
  have hchars : ("\n" ++ text).toList = '\n' :: text.toList := String.toList_append
  have htokens : (parse ("\n" ++ text)).tokens = (parse text).tokens.map (Token.shift 1) := by
    rw [tokens_parse, tokens_parse, hchars, tokens_lineFeed hplain.2, List.map_toArray]
  rw [htokens, Array.map_map, Array.map_map]
  exact ⟨rfl, rfl⟩

/-! ### Names on one line -/

open Text (OneLine oneLine_append)

lemma oneLine_tokenText : ∀ t ∈ (parse text).tokens, OneLine t.text := by
  intro t ht
  obtain ⟨before, taken, after, hlexed⟩ := isLexed_of_mem_tokens_parse t ht
  unfold Token.text
  split
  · rename_i w hw
    obtain ⟨hchars, hends⟩ := hlexed.word w hw
    intro hmem
    rw [hchars] at hmem
    exact (hends _ hmem).1 rfl
  · decide

lemma oneLine_textOf {tokens : Array Token} (h : ∀ t ∈ tokens, OneLine t.text) (ts : List Tree) :
    OneLine (textOf tokens ts) := by
  unfold textOf
  generalize leavesOf ts = leaves
  induction leaves with
  | nil => exact List.not_mem_nil
  | cons i leaves ih =>
    rw [List.map_cons, String.join_cons, oneLine_append]
    refine ⟨?_, ih⟩
    cases ht : tokens[i]? with
    | none => decide
    | some t => exact h t (Array.mem_of_getElem? ht)

lemma oneLine_nameAmong {tokens : Array Token} (h : ∀ t ∈ tokens, OneLine t.text) (children : List Tree) :
    OneLine (nameAmong tokens children) := by
  fun_induction nameAmong tokens children with
  | case1 => decide
  | case2 named rest => exact oneLine_textOf h named
  | case3 t rest hname ih => exact ih

/-- No summary of a node of a source has a line feed, with errors or without. -/
theorem oneLine_summary {path : String} {n : Node} (h : n ∈ (parse text).nodes path) : OneLine n.summary := by
  obtain ⟨-, p, children, htells⟩ := exists_tellsMethod h
  rw [htells.summary]
  exact oneLine_nameAmong oneLine_tokenText children

end CodeContext.CSharp.Source
