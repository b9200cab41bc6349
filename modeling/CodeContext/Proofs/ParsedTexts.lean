import CodeContext.Proofs.LineLayout
import CodeContext.Proofs.TreeLeaves

/-!
# What a parser gives of a text

The tokens of a parsed text are pieces of it, one after the other, and the line feeds before the two ends of a
token count its lines. If the text has no errors, the leaves of its trees are tokens, in order, a name is a
word, and a method begins with a character that ends no line and ends in a semicolon or a closing brace. All
that is said of the lines of methods rests on these facts and holds for every parser that keeps to them.
-/

namespace CodeContext.CSharp

open Text

/-- Neither a line feed nor a carriage return. -/
def NoLineEnd (c : Char) : Prop :=
  c ≠ '\n' ∧ c ≠ '\r'

instance (c : Char) : Decidable (NoLineEnd c) :=
  inferInstanceAs (Decidable (_ ∧ _))

/-! ### Tokens in a text -/

namespace Token

/-- A token is what stands in a text between what is before and what is after it. -/
structure IsCut (t : Token) (text before taken after : List Char) : Prop where
  text_eq : text = before ++ taken ++ after
  start : t.start = before.length
  stop : t.stop = before.length + taken.length
  firstLine : t.firstLine = before.count '\n' + 1
  lastLine : t.lastLine = (before ++ taken).count '\n' + 1
  word : ∀ w, t.symbol = .word w → w.toList = taken ∧ ∀ c ∈ taken, NoLineEnd c
  mark : ∀ m, t.symbol = .mark m → m.toList = taken

/-- A token stands somewhere in a text. -/
def StandsIn (t : Token) (text : List Char) : Prop :=
  ∃ before taken after, t.IsCut text before taken after

/-- A token is a semicolon or a closing brace. -/
def Closes (t : Token) : Prop :=
  t.symbol = .mark ";" ∨ t.symbol = .mark "\x7d"

variable {t u : Token} {text : List Char} {ls : List Line}

lemma StandsIn.start_le_stop (h : t.StandsIn text) : t.start ≤ t.stop := by
  obtain ⟨before, taken, after, h⟩ := h
  rw [h.start, h.stop]
  omega

lemma StandsIn.firstLine_eq (h : t.StandsIn text) : t.firstLine = (text.take t.start).count '\n' + 1 := by
  obtain ⟨before, taken, after, h⟩ := h
  rw [h.firstLine, h.text_eq, h.start, List.append_assoc, List.take_left]

lemma StandsIn.lastLine_eq (h : t.StandsIn text) : t.lastLine = (text.take t.stop).count '\n' + 1 := by
  obtain ⟨before, taken, after, h⟩ := h
  rw [h.lastLine, h.text_eq, h.stop, ← List.length_append, List.take_left]

lemma count_take_le {m n : Nat} (text : List Char) (h : m ≤ n) : (text.take m).count '\n' ≤ (text.take n).count '\n' :=
  (List.take_sublist_take_left h).count_le '\n'

lemma StandsIn.firstLine_le_lastLine (h : t.StandsIn text) : t.firstLine ≤ t.lastLine := by
  rw [h.firstLine_eq, h.lastLine_eq]
  exact Nat.succ_le_succ (count_take_le text h.start_le_stop)

lemma StandsIn.lastLine_le_firstLine (ht : t.StandsIn text) (hu : u.StandsIn text) (h : t.stop ≤ u.start) :
    t.lastLine ≤ u.firstLine := by
  rw [ht.lastLine_eq, hu.firstLine_eq]
  exact Nat.succ_le_succ (count_take_le text h)

lemma StandsIn.onLine_start (h : t.StandsIn text) (hls : IsLayout ls text) {c : Char} (hc : text[t.start]? = some c)
    (hends : NoLineEnd c) : OnLine ls (t.firstLine - 1) t.start := by
  rw [h.firstLine_eq, Nat.add_sub_cancel]
  exact hls.onLine hc hends.1 hends.2

lemma StandsIn.onLine_stop (h : t.StandsIn text) (hls : IsLayout ls text) (hcloses : t.Closes) :
    OnLine ls (t.lastLine - 1) (t.stop - 1) := by
  obtain ⟨before, taken, after, h⟩ := h
  obtain ⟨c, htaken, hends⟩ : ∃ c, taken = [c] ∧ NoLineEnd c := by
    rcases hcloses with hmark | hmark
    · exact ⟨';', (h.mark _ hmark).symm, by decide⟩
    · exact ⟨'\x7d', (h.mark _ hmark).symm, by decide⟩
  subst htaken
  have hplace : t.stop - 1 = before.length := by
    rw [h.stop, List.length_singleton, Nat.add_sub_cancel]
  have hc : text[before.length]? = some c := by
    rw [h.text_eq, List.append_assoc, List.getElem?_append_right (Nat.le_refl _), Nat.sub_self]
    rfl
  have hcount : (text.take before.length).count '\n' = t.lastLine - 1 := by
    have hfeed : [c].count '\n' = 0 := List.count_eq_zero.mpr (by simpa using hends.1.symm)
    rw [h.lastLine, h.text_eq, List.append_assoc, List.take_left, List.count_append, hfeed]
    omega
  rw [hplace, ← hcount]
  exact hls.onLine hc hends.1 hends.2

lemma StandsIn.isInfix_word (h : t.StandsIn text) (hls : IsLayout ls text) {w : String} (hw : t.symbol = .word w)
    (hne : w ≠ "") : ∃ l, ls[t.firstLine - 1]? = some l ∧ w.toList <:+: l.content := by
  obtain ⟨before, taken, after, h⟩ := h
  obtain ⟨htaken, hends⟩ := h.word w hw
  have hchars : taken ≠ [] := by
    intro hnil
    rw [hnil] at htaken
    exact hne (String.toList_eq_nil_iff.mp htaken)
  rw [h.text_eq] at hls
  rw [h.firstLine, Nat.add_sub_cancel, htaken]
  exact hls.isInfix_of_oneLine hchars hends

end Token

/-! ### Trees of a text -/

/-- The facts about the tokens and trees of a text without errors that are relied on. -/
structure Source.FitsText (s : Source) (text : List Char) : Prop where
  /-- Each token is a piece of the text, with its lines. -/
  stands : ∀ t ∈ s.tokens, t.StandsIn text
  /-- No token starts before the one in front of it has ended. -/
  apart : s.tokens.toList.Pairwise (·.stop ≤ ·.start)
  /-- Each leaf is a token. -/
  within : ∀ i ∈ s.root.leaves, i < s.tokens.size
  /-- The children of a node come in order, and no token is in two of them. -/
  ordered : s.root.leaves.Pairwise (· < ·)
  /-- A name is a single word. -/
  named : ∀ p children, s.root.at? p = some (.node .name children) →
    ∃ i t w, children = [.leaf i] ∧ s.tokens[i]? = some t ∧ t.symbol = .word w
  /-- A method begins with a character that ends no line. -/
  begins : ∀ p children, s.root.at? p = some (.node .methodDeclaration children) →
    ∃ i t c, (Tree.leavesOf children).head? = some i ∧ s.tokens[i]? = some t ∧ text[t.start]? = some c ∧ NoLineEnd c
  /-- A method ends in a semicolon or a closing brace. -/
  closes : ∀ p children, s.root.at? p = some (.node .methodDeclaration children) →
    ∃ i t, (Tree.leavesOf children).getLast? = some i ∧ s.tokens[i]? = some t ∧ t.Closes

namespace Parser

variable (parser : Parser)

/-- The parser gives trees that fit, for each text in which it finds no errors. -/
def FitsTexts : Prop :=
  ∀ text, (parser text).hasErrors = false → (parser text).FitsText text.toList

/-- The grammar sees the tokens and not their places: two texts with the same tokens have the same trees, if one
of them has no errors, and then the other has none either. -/
def SeesTokens : Prop :=
  ∀ a b, (parser a).hasErrors = false → (parser b).tokens.map Token.sight = (parser a).tokens.map Token.sight →
    (parser b).trees = (parser a).trees ∧ (parser b).hasErrors = false

/-- A text begins with neither a byte-order mark nor `#!`. -/
def BeginsPlainly (text : List Char) : Prop :=
  ¬ ['\uFEFF'] <+: text ∧ ¬ ['#', '!'] <+: text

/-- A line feed before a text is passed over: it leads to the same tokens, one place further on. -/
def SkipsLineFeeds : Prop :=
  ∀ text, BeginsPlainly text.toList → (parser text).hasErrors = false →
    (parser ("\n" ++ text)).tokens.map Token.sight = (parser text).tokens.map Token.sight ∧
      (parser ("\n" ++ text)).tokens.map (fun t => (t.start, t.stop)) =
        (parser text).tokens.map fun t => (t.start + 1, t.stop + 1)

end Parser

namespace Source.FitsText

variable {s : Source} {text : List Char} {i j : Nat} {t u : Token} {p : List Nat} {children : List Tree}

lemma standsIn (h : s.FitsText text) (ht : s.tokens[i]? = some t) : t.StandsIn text :=
  h.stands t (Array.mem_of_getElem? ht)

lemma lastLine_le_firstLine (h : s.FitsText text) (hij : i < j) (ht : s.tokens[i]? = some t)
    (hu : s.tokens[j]? = some u) : t.lastLine ≤ u.firstLine := by
  refine (h.standsIn ht).lastLine_le_firstLine (h.standsIn hu) ?_
  rw [← Array.getElem?_toList] at ht hu
  obtain ⟨hi, rfl⟩ := List.getElem?_eq_some_iff.mp ht
  obtain ⟨hj, rfl⟩ := List.getElem?_eq_some_iff.mp hu
  exact List.pairwise_iff_getElem.mp h.apart i j hi hj hij

lemma lines_le (h : s.FitsText text) (hij : i ≤ j) (ht : s.tokens[i]? = some t) (hu : s.tokens[j]? = some u) :
    t.firstLine ≤ u.firstLine ∧ t.lastLine ≤ u.lastLine := by
  rcases Nat.lt_or_eq_of_le hij with hlt | rfl
  · have hlines := h.lastLine_le_firstLine hlt ht hu
    exact ⟨(h.standsIn ht).firstLine_le_lastLine.trans hlines, hlines.trans (h.standsIn hu).firstLine_le_lastLine⟩
  · obtain rfl : t = u := Option.some.inj (ht.symm.trans hu)
    exact ⟨Nat.le_refl _, Nat.le_refl _⟩

lemma ordered_leavesOf (h : s.FitsText text) {c : Construct} (hat : s.root.at? p = some (.node c children)) :
    (Tree.leavesOf children).Pairwise (· < ·) :=
  h.ordered.sublist (Tree.leaves_sublist_of_at? hat)

/-- The name of a declaration, if it is not empty, is a word among its tokens. -/
lemma exists_word (h : s.FitsText text) {c : Construct} (hat : s.root.at? p = some (.node c children))
    (hname : Tree.nameAmong s.tokens children ≠ "") :
    ∃ i t, i ∈ Tree.leavesOf children ∧ s.tokens[i]? = some t ∧
      t.symbol = .word (Tree.nameAmong s.tokens children) := by
  obtain ⟨named, hmem, htext⟩ := Tree.exists_name_of_nameAmong_ne hname
  obtain ⟨q, hq⟩ := Tree.exists_at?_of_mem hat hmem
  obtain ⟨i, t, w, rfl, ht, hw⟩ := h.named q named hq
  have hnamed : Tree.nameAmong s.tokens children = w := by
    rw [htext]
    simp [Tree.textOf, Tree.leavesOf, Tree.leaves, ht, Token.text, hw]
  have hleaf : i ∈ Tree.leavesOf children :=
    (Tree.leaves_isInfix_of_mem hmem).subset (by simp [Tree.leaves, Tree.leavesOf])
  exact ⟨i, t, hleaf, ht, hnamed ▸ hw⟩

end Source.FitsText

end CodeContext.CSharp
