import CodeContext.Proofs.ParsedTexts

/-!
# The lines of a method

A node tells the first and the last line of a method. If the source has no errors and its trees fit the text,
the method begins on the first of these lines and ends on the last one, and one of them holds its name.
-/

namespace CodeContext.CSharp

open Text

namespace Tree

/-- The place where some trees begin in a text. -/
def startOf (tokens : Array Token) (ts : List Tree) : Option Nat :=
  ((leavesOf ts).head?.bind (tokens[·]?)).map Token.start

/-- The place of the last character of some trees in a text. -/
def endOf (tokens : Array Token) (ts : List Tree) : Option Nat :=
  ((leavesOf ts).getLast?.bind (tokens[·]?)).map (·.stop - 1)

end Tree

/-- A node tells the names and the lines of a method of a source. -/
structure Source.TellsMethod (s : Source) (n : Node) (p : List Nat) (children : List Tree) : Prop where
  shows : s.ShowsMethod p children
  summary : n.summary = Tree.nameAmong s.tokens children
  lineStart : n.lineStart = (Tree.node .methodDeclaration children).firstLine s.tokens
  lineEnd : n.lineEnd = (Tree.node .methodDeclaration children).lastLine s.tokens

/-- Lines of a text hold a method: it begins on the first one and ends on the last one, and its name is on
one of them. -/
structure HoldMethod (tokens : Array Token) (text : List Char) (name : String) (children : List Tree)
    (above shown below : List Line) : Prop where
  layout : IsLayout (above ++ shown ++ below) text
  begins : ∃ place, Tree.startOf tokens children = some place ∧ OnLine (above ++ shown ++ below) above.length place
  ends : ∃ place, Tree.endOf tokens children = some place ∧
    OnLine (above ++ shown ++ below) (above.length + shown.length - 1) place
  named : ∃ l ∈ shown, name.toList <:+: l.content

lemma hasErrors_extractWith (parser : Parser) (text path : String) :
    (extractWith parser text path).hasErrors = (parser text).hasErrors :=
  rfl

lemma nodes_extractWith (parser : Parser) (text path : String) :
    (extractWith parser text path).nodes = (parser text).nodes path :=
  rfl

lemma hasErrors_extract (text path : String) : (extract text path).hasErrors = (Source.parse text).hasErrors :=
  rfl

lemma nodes_extract (text path : String) : (extract text path).nodes = (Source.parse text).nodes path :=
  rfl

/-- The nodes of a source tell its methods in the order of their positions. -/
lemma Source.exists_positions (s : Source) (path : String) : ∃ found : List (List Nat × Node),
    (found.map Prod.fst).Pairwise (· < ·) ∧ found.map Prod.snd = s.nodes path ∧
      ∀ p n, (p, n) ∈ found → n.path = path ∧ ∃ children, s.TellsMethod n p children := by
  obtain ⟨found, hlists, hmap⟩ := Tree.lists_methods s.tokens none s.root
  have hroot : s.root.methods s.tokens none = Tree.methodsOf s.tokens none s.trees := by rw [root, Tree.methods]
  refine ⟨found.map fun e => (e.1, e.2.toNode path), ?_, ?_, fun p n hmem => ?_⟩
  · rw [List.map_map]
    exact hlists.ordered
  · rw [nodes, ← hroot, ← hmap, List.map_map, List.map_map]
    rfl
  · obtain ⟨⟨p, m⟩, hfound, hpair⟩ := List.mem_map.mp hmem
    obtain ⟨rfl, rfl⟩ := Prod.mk.inj hpair
    obtain ⟨children, c, hat, hname, hopens, -, hm⟩ := (hlists.mem_iff p m).mp hfound
    rw [Tree.methodOf, if_neg hname, List.mem_singleton] at hm
    subst hm
    exact ⟨rfl, children, ⟨hat, hname, fun e he => (hopens e he).notMethod, fun e he => (hopens e he).named,
      fun e he => (hopens e he).inBody⟩, rfl, rfl, rfl⟩

lemma Source.exists_tellsMethod {s : Source} {path : String} {n : Node} (h : n ∈ s.nodes path) :
    n.path = path ∧ ∃ p children, s.TellsMethod n p children := by
  obtain ⟨found, -, hmap, htells⟩ := s.exists_positions path
  rw [← hmap] at h
  obtain ⟨⟨p, n⟩, hmem, rfl⟩ := List.mem_map.mp h
  obtain ⟨hpath, children, htells⟩ := htells p n hmem
  exact ⟨hpath, p, children, htells⟩

/-! ### Lines of tokens -/

lemma le_of_head? {l : List Nat} {i j : Nat} (hl : l.Pairwise (· < ·)) (hi : l.head? = some i) (hj : j ∈ l) :
    i ≤ j := by
  obtain ⟨rest, rfl⟩ := List.head?_eq_some_iff.mp hi
  rcases List.mem_cons.mp hj with rfl | hj
  · exact Nat.le_refl _
  · exact Nat.le_of_lt (List.rel_of_pairwise_cons hl hj)

lemma le_of_getLast? {l : List Nat} {i j : Nat} (hl : l.Pairwise (· < ·)) (hi : l.getLast? = some i) (hj : j ∈ l) :
    j ≤ i := by
  obtain ⟨rest, rfl⟩ := List.getLast?_eq_some_iff.mp hi
  rcases List.mem_append.mp hj with hj | hj
  · exact Nat.le_of_lt ((List.pairwise_append.mp hl).2.2 j hj i (List.mem_singleton_self i))
  · exact (List.mem_singleton.mp hj).le

lemma exists_lines_between {ls : List Line} {i j : Nat} (hij : i ≤ j) (hj : j ≤ ls.length) :
    ∃ above shown below, ls = above ++ shown ++ below ∧ above.length = i ∧ above.length + shown.length = j := by
  refine ⟨ls.take i, (ls.drop i).take (j - i), ls.drop j, ?_, ?_, ?_⟩
  · have hdrop : (ls.drop i).drop (j - i) = ls.drop j := by
      rw [List.drop_drop, Nat.add_sub_cancel' hij]
    rw [List.append_assoc, ← hdrop, List.take_append_drop, List.take_append_drop]
  · rw [List.length_take]
    omega
  · rw [List.length_take, List.length_take, List.length_drop]
    omega

/-- A method that a source shows is held by its lines, if its trees fit the text. -/
theorem Source.FitsText.exists_holdMethod {s : Source} {text : List Char} (hfits : s.FitsText text) {p : List Nat}
    {children : List Tree} (h : s.ShowsMethod p children) :
    ∃ above shown below,
      HoldMethod s.tokens text (Tree.nameAmong s.tokens children) children above shown below ∧
        (Tree.node .methodDeclaration children).firstLine s.tokens = above.length + 1 ∧
        (Tree.node .methodDeclaration children).lastLine s.tokens = above.length + shown.length := by
  obtain ⟨i, a, c, hfirst, ha, hc, hvisible⟩ := hfits.begins p children h.at_eq
  obtain ⟨k, z, hlast, hz, hcloses⟩ := hfits.closes p children h.at_eq
  obtain ⟨j, b, hleaf, hb, hname⟩ := hfits.exists_word h.at_eq h.named
  obtain ⟨ls, hls⟩ := exists_isLayout text
  have hbegin := (hfits.standsIn ha).onLine_start hls hc hvisible
  have hend := (hfits.standsIn hz).onLine_stop hls hcloses
  obtain ⟨l, hl, hword⟩ := (hfits.standsIn hb).isInfix_word hls hname h.named
  -- The first token, the name and the last token come in this order, and so do their lines.
  have hordered := hfits.ordered_leavesOf h.at_eq
  have habove := (hfits.lines_le (le_of_head? hordered hfirst hleaf) ha hb).1
  have hwithin := (hfits.standsIn hb).firstLine_le_lastLine
  have hbelow := (hfits.lines_le (le_of_getLast? hordered hlast hleaf) hb hz).2
  have hone : 1 ≤ a.firstLine := by
    rw [(hfits.standsIn ha).firstLine_eq]
    omega
  have hlength : z.lastLine ≤ ls.length := by
    obtain ⟨l, hl, -⟩ := hend
    have hlt := (List.getElem?_eq_some_iff.mp hl).1
    omega
  have hspanned : a.firstLine - 1 ≤ z.lastLine := by omega
  obtain ⟨above, shown, below, rfl, hfirstLine, hlastLine⟩ := exists_lines_between hspanned hlength
  have hmem : l ∈ shown := by
    rw [List.append_assoc, List.getElem?_append_right (by omega), List.getElem?_append_left (by omega)] at hl
    exact List.mem_of_getElem? hl
  refine ⟨above, shown, below, ⟨hls, ⟨a.start, ?_, ?_⟩, ⟨z.stop - 1, ?_, ?_⟩, l, hmem, hword⟩, ?_, ?_⟩
  · simp [Tree.startOf, hfirst, ha]
  · rw [hfirstLine]
    exact hbegin
  · simp [Tree.endOf, hlast, hz]
  · rw [hlastLine]
    exact hend
  · simp only [Tree.firstLine, Tree.leaves, hfirst, Option.bind_some, ha, Option.map_some, Option.getD_some]
    omega
  · simp only [Tree.lastLine, Tree.firstLine, Tree.leaves, hfirst, hlast, Option.bind_some, ha, hz, Option.map_some,
      Option.getD_some]
    omega

end CodeContext.CSharp
