import CodeContext.Document
import CodeContext.Proofs.Cuts

/-!
# Documents read back

A context document tells everything it shows. Whatever the fields of rules, nodes and decisions hold, as
long as they hold no line feed, no node's id a space and no item of a list the separator of items, two
inputs have one text just when they agree on all that is shown: texts like "L:1-2" in a path, quotes in
a summary, empty tags and absent lists do not make two inputs look alike.
-/

namespace CodeContext.Document

open Text

/-! ### What is shown -/

/-- What a document shows of a rule. -/
structure RuleView where
  id : String
  priority : String
  description : String

def RuleView.of (r : Rule) : RuleView :=
  ⟨r.id, r.priority.tenthsText, r.description⟩

/-- What a document shows of a node. -/
structure NodeView where
  id : String
  category : Category
  path : String
  lineStart : Int
  lineEnd : Int
  tags : TextSet
  deps : TextSet
  amplitudes : List (String × String)
  summary : String

def NodeView.of (n : Node) : NodeView :=
  { id := n.id
    category := n.category
    path := n.path
    lineStart := n.lineStart
    lineEnd := n.lineEnd
    tags := n.tags
    deps := n.deps
    amplitudes := n.amplitudes.entries.map fun e => (e.1, e.2.tenthsText)
    summary := n.summary }

/-- What a document shows of a decision. No rule's id and the id `NONE` look the same. -/
structure DecisionView where
  id : String
  ruleId : String
  context : String
  scope : List String

def DecisionView.of (d : Decision) : DecisionView :=
  ⟨d.id, d.ruleId.getD "NONE", d.context, d.scope⟩

/-- All that a document shows. -/
structure Outline where
  rules : List RuleView
  nodes : List NodeView
  decisions : List DecisionView

def outline (rules : List Rule) (nodes : List Node) (decisions : List Decision) : Outline :=
  ⟨(ordered rules).map RuleView.of, nodes.map NodeView.of, decisions.map DecisionView.of⟩

/-! ### Inputs that take their lines only -/

structure PlainRule (r : Rule) : Prop where
  id : OneLine r.id
  description : OneLine r.description

structure PlainNode (n : Node) : Prop where
  id : OneLine n.id
  spaceless : ' ' ∉ n.id.toList
  path : OneLine n.path
  tags : ∀ t ∈ n.tags.toList, IsItem t
  deps : ∀ d ∈ n.deps.toList, IsItem d
  amplitudes : ∀ e ∈ n.amplitudes.entries, IsItem e.1
  summary : OneLine n.summary

/-- No text of a node has a line feed. -/
structure OneLineNode (n : Node) : Prop where
  id : OneLine n.id
  path : OneLine n.path
  tags : ∀ t ∈ n.tags.toList, OneLine t
  deps : ∀ d ∈ n.deps.toList, OneLine d
  amplitudes : ∀ e ∈ n.amplitudes.entries, OneLine e.1
  summary : OneLine n.summary

lemma PlainNode.oneLine {n : Node} (hn : PlainNode n) : OneLineNode n where
  id := hn.id
  path := hn.path
  tags t ht := (hn.tags t ht).oneLine
  deps d hd := (hn.deps d hd).oneLine
  amplitudes e he := (hn.amplitudes e he).oneLine
  summary := hn.summary

structure PlainDecision (d : Decision) : Prop where
  id : OneLine d.id
  ruleId : ∀ r ∈ d.ruleId, OneLine r
  context : OneLine d.context
  scope : ∀ s ∈ d.scope, IsItem s

/-- No text has a line feed, no node's id a space, and no item of a list a comma and a space. -/
structure IsPlain (rules : List Rule) (nodes : List Node) (decisions : List Decision) : Prop where
  rules : ∀ r ∈ rules, PlainRule r
  nodes : ∀ n ∈ nodes, PlainNode n
  decisions : ∀ d ∈ decisions, PlainDecision d

/-! ### Each part takes one line -/

lemma oneLine_tenthsText (x : Binary64) : OneLine x.tenthsText :=
  notMem_tenthsText (by decide) (by decide) x

lemma oneLine_intText (i : Int) : OneLine (toString i) :=
  notMem_intText (by decide) (by decide) i

lemma oneLine_categoryName (c : Category) : OneLine c.name := by
  cases c <;> decide

lemma oneLine_inner {text : String} : OneLine (inner text) ↔ OneLine text := by
  rw [inner, oneLine_append]
  exact and_iff_right (by decide)

lemma oneLine_quote {text : String} : OneLine (quote text) ↔ OneLine text := by
  rw [quote, oneLine_append, oneLine_append]
  exact ⟨fun h => h.1.2, fun h => ⟨⟨by decide, h⟩, by decide⟩⟩

lemma oneLine_of_mem_listLine {tag : String} (htag : OneLine tag) {items : List String}
    (h : ∀ x ∈ items, OneLine x) : ∀ p ∈ listLine tag items, OneLine p := by
  intro p hp
  unfold listLine at hp
  split at hp
  · exact absurd hp List.not_mem_nil
  · rw [List.mem_singleton.mp hp, oneLine_inner, oneLine_append, oneLine_append]
    exact ⟨⟨htag, by decide⟩, oneLine_intercalate h⟩

lemma oneLine_of_mem_ruleLines {r : Rule} (hr : PlainRule r) : ∀ p ∈ ruleLines r, OneLine p := by
  have hhead : OneLine "@RULE " := by decide
  have hmid : OneLine " PRI:" := by decide
  simp [ruleLines, oneLine_inner, oneLine_quote, oneLine_tenthsText, hhead, hmid, hr.id, hr.description]

lemma isItem_of_mem_amplitudes {n : Node} (hn : PlainNode n) : ∀ a ∈ amplitudes n, IsItem a := by
  intro a ha
  obtain ⟨e, he, rfl⟩ := List.mem_map.mp ha
  rw [String.append_assoc, String.append_assoc]
  refine isItem_append (hn.amplitudes e he) ?_ ?_
  · have htenths : ' ' ∉ e.2.tenthsText.toList := notMem_tenthsText (by decide) (by decide) _
    simp [String.toList_append, htenths]
  · have hopen : OneLine "(" := by decide
    have hclose : OneLine ")" := by decide
    simp [hopen, hclose, oneLine_tenthsText]

lemma nodeLine_eq (n : Node) : nodeLine n =
    "@NODE " ++ (n.id ++ " T:" ++ (n.category.name ++ " P:" ++ (n.path ++ " L:" ++
      (toString n.lineStart ++ "-" ++ toString n.lineEnd)))) := by
  have h : nodeLine n = "@NODE " ++ n.id ++ " T:" ++ n.category.name ++ " P:" ++ n.path ++ " L:" ++
      toString n.lineStart ++ "-" ++ toString n.lineEnd := rfl
  rw [h]
  simp only [String.append_assoc]

lemma oneLine_of_mem_amplitudes {n : Node} (hn : OneLineNode n) : ∀ a ∈ amplitudes n, OneLine a := by
  intro a ha
  obtain ⟨e, he, rfl⟩ := List.mem_map.mp ha
  have hopen : OneLine "(" := by decide
  have hclose : OneLine ")" := by decide
  simp [hopen, hclose, oneLine_tenthsText, hn.amplitudes e he]

lemma oneLine_nodeLine {n : Node} (hn : OneLineNode n) : OneLine (nodeLine n) := by
  have hseps : OneLine "@NODE " ∧ OneLine " T:" ∧ OneLine " P:" ∧ OneLine " L:" ∧ OneLine "-" := by decide
  simp [nodeLine_eq, -Int.toString_eq_repr, hseps, hn.id, hn.path, oneLine_categoryName, oneLine_intText]

lemma oneLine_of_mem_nodeLines {n : Node} (hn : OneLineNode n) : ∀ p ∈ nodeLines n, OneLine p := by
  intro p hp
  have hsum : OneLine (inner ("SUM: " ++ quote n.summary)) := by
    rw [oneLine_inner, oneLine_append, oneLine_quote]
    exact ⟨by decide, hn.summary⟩
  simp only [nodeLines, List.cons_append, List.mem_cons, List.mem_append, List.not_mem_nil, or_false] at hp
  rcases hp with rfl | ((hp | hp) | hp) | rfl | rfl
  · exact oneLine_nodeLine hn
  · exact oneLine_of_mem_listLine (by decide) hn.tags p hp
  · exact oneLine_of_mem_listLine (by decide) hn.deps p hp
  · exact oneLine_of_mem_listLine (by decide) (oneLine_of_mem_amplitudes hn) p hp
  · exact hsum
  · decide

lemma oneLine_of_mem_decisionLines {d : Decision} (hd : PlainDecision d) :
    ∀ p ∈ decisionLines d, OneLine p := by
  intro p hp
  have hrule : OneLine (d.ruleId.getD "NONE") := by
    cases hr : d.ruleId with
    | none => decide
    | some r => exact hd.ruleId r hr
  simp only [decisionLines, List.cons_append, List.nil_append, List.mem_cons, List.mem_append,
    List.not_mem_nil, or_false] at hp
  rcases hp with rfl | rfl | rfl | hp | rfl
  · exact oneLine_append.mpr ⟨by decide, hd.id⟩
  · rw [oneLine_inner, oneLine_append]
    exact ⟨by decide, hrule⟩
  · rw [oneLine_inner, oneLine_append, oneLine_quote]
    exact ⟨by decide, hd.context⟩
  · exact oneLine_of_mem_listLine (by decide) (fun s hs => (hd.scope s hs).oneLine) p hp
  · decide

lemma mem_ordered {r : Rule} {rules : List Rule} : r ∈ ordered rules ↔ r ∈ rules :=
  List.mem_mergeSort

lemma parts_eq (rules : List Rule) (nodes : List Node) (decisions : List Decision) :
    parts rules nodes decisions =
      rulesHeader :: ((ordered rules).flatMap ruleLines ++
        "" :: nodesHeader :: (nodes.flatMap nodeLines ++
          decisionsHeader :: decisions.flatMap decisionLines)) := by
  simp [parts, rulesSection, nodesSection, decisionsSection]

lemma oneLine_of_mem_parts {rules : List Rule} {nodes : List Node} {decisions : List Decision}
    (h : IsPlain rules nodes decisions) : ∀ p ∈ parts rules nodes decisions, OneLine p := by
  intro p hp
  rw [parts_eq] at hp
  simp only [List.mem_append, List.mem_cons, List.mem_flatMap] at hp
  rcases hp with rfl | ⟨r, hr, hp⟩ | rfl | rfl | ⟨n, hn, hp⟩ | rfl | ⟨d, hd, hp⟩
  · decide
  · exact oneLine_of_mem_ruleLines (h.rules r (mem_ordered.mp hr)) p hp
  · decide
  · decide
  · exact oneLine_of_mem_nodeLines (h.nodes n hn).oneLine p hp
  · decide
  · exact oneLine_of_mem_decisionLines (h.decisions d hd) p hp

/-! ### Lines of one record -/

lemma inner_inj {a b : String} : inner a = inner b ↔ a = b :=
  String.append_right_inj "    "

lemma quote_inj {a b : String} : quote a = quote b ↔ a = b := by
  rw [quote, quote, String.append_left_inj, String.append_right_inj]

lemma ruleLines_append_inj {r q : Rule} {x y : List String}
    (h : ruleLines r ++ x = ruleLines q ++ y) : RuleView.of r = RuleView.of q ∧ x = y := by
  simp only [ruleLines, List.cons_append, List.nil_append, List.cons.injEq, inner_inj, quote_inj] at h
  obtain ⟨hhead, hdescription, hrest⟩ := h
  have hparts := cut_last (c := ' ') rfl (by decide) (notMem_tenthsText (by decide) (by decide) _)
    (notMem_tenthsText (by decide) (by decide) _) hhead
  have hid : r.id = q.id := (String.append_right_inj "@RULE ").mp hparts.1
  exact ⟨by rw [RuleView.of, RuleView.of, hid, hparts.2, hdescription], hrest⟩

/-- The lines go on with a line under the tag. -/
def Tagged (tag : String) (lines : List String) : Prop :=
  ∃ text rest, lines = inner (tag ++ ": " ++ text) :: rest

lemma inner_tag_inj {tag tag' text text' : String} (htag : ':' ∉ tag.toList) (htag' : ':' ∉ tag'.toList)
    (h : inner (tag ++ ": " ++ text) = inner (tag' ++ ": " ++ text')) : tag = tag' ∧ text = text' :=
  cut_first (c := ':') rfl htag htag' (inner_inj.mp h)

lemma not_tagged_inner {tag tag' : String} (htag : ':' ∉ tag.toList) (htag' : ':' ∉ tag'.toList)
    (hne : tag ≠ tag') (text : String) (rest : List String) :
    ¬ Tagged tag (inner (tag' ++ ": " ++ text) :: rest) := by
  rintro ⟨text', rest', h⟩
  exact hne (inner_tag_inj htag htag' (List.cons.inj h).1.symm).1

lemma not_tagged_listLine {tag tag' : String} (htag : ':' ∉ tag.toList) (htag' : ':' ∉ tag'.toList)
    (hne : tag ≠ tag') (items : List String) {rest : List String} (hrest : ¬ Tagged tag rest) :
    ¬ Tagged tag (listLine tag' items ++ rest) := by
  unfold listLine
  split
  · exact hrest
  · exact not_tagged_inner htag htag' hne _ _

/-- A list is found again with its line left out or not, if no other line has its tag. -/
lemma listLine_append_inj {tag : String} (htag : ':' ∉ tag.toList) {xs ys : List String}
    (hxs : ∀ x ∈ xs, IsItem x) (hys : ∀ y ∈ ys, IsItem y) {u v : List String} (hu : ¬ Tagged tag u)
    (hv : ¬ Tagged tag v) (h : listLine tag xs ++ u = listLine tag ys ++ v) : xs = ys ∧ u = v := by
  cases xs with
  | nil =>
    cases ys with
    | nil => exact ⟨rfl, h⟩
    | cons y ys => exact absurd ⟨_, _, h⟩ hu
  | cons x xs =>
    cases ys with
    | nil => exact absurd ⟨_, _, h.symm⟩ hv
    | cons y ys =>
      obtain ⟨hline, hrest⟩ := List.cons.inj h
      have htext := (inner_tag_inj htag htag hline).2
      exact ⟨eq_of_intercalate_comma hxs hys (List.cons_ne_nil _ _) (List.cons_ne_nil _ _) htext, hrest⟩

/-! ### Nodes -/

lemma categoryName_injective {c d : Category} (h : c.name = d.name) : c = d := by
  have hd := Category.ofName?_name d
  rw [← h, Category.ofName?_name] at hd
  exact Option.some.inj hd

lemma notMem_categoryName (c : Category) : ' ' ∉ c.name.toList := by
  cases c <;> decide

lemma notMem_spanText (i j : Int) : ' ' ∉ (toString i ++ "-" ++ toString j).toList := by
  rw [String.toList_append, String.toList_append, List.mem_append, List.mem_append, not_or, not_or]
  exact ⟨⟨notMem_intText (by decide) (by decide) i, by decide⟩, notMem_intText (by decide) (by decide) j⟩

lemma nodeLine_inj {n m : Node} (hn : ' ' ∉ n.id.toList) (hm : ' ' ∉ m.id.toList)
    (h : nodeLine n = nodeLine m) :
    n.id = m.id ∧ n.category = m.category ∧ n.path = m.path ∧ n.lineStart = m.lineStart ∧
      n.lineEnd = m.lineEnd := by
  rw [nodeLine_eq, nodeLine_eq, String.append_right_inj] at h
  obtain ⟨hid, h⟩ := cut_first (c := ' ') rfl hn hm h
  obtain ⟨hcategory, h⟩ := cut_first (c := ' ') rfl (notMem_categoryName _) (notMem_categoryName _) h
  -- A path may itself look like the end of the line, so it ends at the last space.
  obtain ⟨hpath, h⟩ := cut_last (c := ' ') rfl (by decide) (notMem_spanText _ _) (notMem_spanText _ _) h
  obtain ⟨hstart, h⟩ := intText_cut h
  exact ⟨hid, categoryName_injective hcategory, hpath, hstart, intText_injective h⟩

lemma textSet_eq {s t : TextSet} (h : s.toList = t.toList) : s = t := by
  have hentries : s.map.entries = t.map.entries :=
    (List.map_inj_right fun _ _ hfst => Prod.ext hfst rfl).mp h
  obtain ⟨⟨_, _⟩⟩ := s
  obtain ⟨⟨_, _⟩⟩ := t
  obtain rfl := hentries
  rfl

lemma amplitude_inj {a b : String × Binary64}
    (h : a.1 ++ "(" ++ a.2.tenthsText ++ ")" = b.1 ++ "(" ++ b.2.tenthsText ++ ")") :
    (a.1, a.2.tenthsText) = (b.1, b.2.tenthsText) := by
  rw [String.append_left_inj] at h
  have hparts := cut_last (c := '(') rfl (by decide) (notMem_tenthsText (by decide) (by decide) _)
    (notMem_tenthsText (by decide) (by decide) _) h
  rw [hparts.1, hparts.2]

lemma map_eq_map_of {α β γ : Type} {f : α → β} {g : α → γ} (hfg : ∀ a b, f a = f b → g a = g b)
    {as bs : List α} (h : as.map f = bs.map f) : as.map g = bs.map g := by
  induction as generalizing bs with
  | nil => rw [List.map_eq_nil_iff.mp h.symm]
  | cons a as ih =>
    cases bs with
    | nil => exact absurd h (List.cons_ne_nil _ _)
    | cons b bs =>
      obtain ⟨hab, hrest⟩ := List.cons.inj h
      rw [List.map_cons, List.map_cons, hfg a b hab, ih hrest]

lemma nodeLines_append_inj {n m : Node} (hn : PlainNode n) (hm : PlainNode m) {x y : List String}
    (h : nodeLines n ++ x = nodeLines m ++ y) : NodeView.of n = NodeView.of m ∧ x = y := by
  have hlines (n : Node) (x : List String) : nodeLines n ++ x =
      nodeLine n :: (listLine "TAGS" n.tags.toList ++ (listLine "DEP" n.deps.toList ++
        (listLine "DEC" (amplitudes n) ++ inner ("SUM" ++ ": " ++ quote n.summary) :: "" :: x))) := by
    simp [nodeLines]
  -- The tags tell the lines apart that may be left out.
  have hsum (tag : String) (htag : ':' ∉ tag.toList ∧ tag ≠ "SUM") (n : Node) (x : List String) :
      ¬ Tagged tag (inner ("SUM" ++ ": " ++ quote n.summary) :: "" :: x) :=
    not_tagged_inner htag.1 (by decide) htag.2 _ _
  have hdec (tag : String) (htag : ':' ∉ tag.toList ∧ tag ≠ "DEC" ∧ tag ≠ "SUM") (n : Node)
      (x : List String) :
      ¬ Tagged tag (listLine "DEC" (amplitudes n) ++ inner ("SUM" ++ ": " ++ quote n.summary) :: "" :: x) :=
    not_tagged_listLine htag.1 (by decide) htag.2.1 _ (hsum tag ⟨htag.1, htag.2.2⟩ n x)
  have hdep (n : Node) (x : List String) : ¬ Tagged "TAGS" (listLine "DEP" n.deps.toList ++
      (listLine "DEC" (amplitudes n) ++ inner ("SUM" ++ ": " ++ quote n.summary) :: "" :: x)) :=
    not_tagged_listLine (by decide) (by decide) (by decide) _ (hdec "TAGS" (by decide) n x)
  rw [hlines n, hlines m] at h
  obtain ⟨hhead, h⟩ := List.cons.inj h
  obtain ⟨hid, hcategory, hpath, hstart, hend⟩ := nodeLine_inj hn.spaceless hm.spaceless hhead
  obtain ⟨htags, h⟩ := listLine_append_inj (by decide) hn.tags hm.tags (hdep n x) (hdep m y) h
  obtain ⟨hdeps, h⟩ := listLine_append_inj (by decide) hn.deps hm.deps (hdec "DEP" (by decide) n x)
    (hdec "DEP" (by decide) m y) h
  obtain ⟨hamplitudes, h⟩ := listLine_append_inj (by decide) (isItem_of_mem_amplitudes hn)
    (isItem_of_mem_amplitudes hm) (hsum "DEC" (by decide) n x) (hsum "DEC" (by decide) m y) h
  obtain ⟨hsummary, h⟩ := List.cons.inj h
  have hquoted := quote_inj.mp (inner_tag_inj (by decide) (by decide) hsummary).2
  have hentries : (NodeView.of n).amplitudes = (NodeView.of m).amplitudes :=
    map_eq_map_of (fun _ _ => amplitude_inj) hamplitudes
  refine ⟨?_, (List.cons.inj h).2⟩
  rw [NodeView.of, NodeView.of, NodeView.mk.injEq]
  exact ⟨hid, hcategory, hpath, hstart, hend, textSet_eq htags, textSet_eq hdeps, hentries, hquoted⟩

/-! ### Decisions -/

lemma decisionLines_append_inj {d e : Decision} (hd : PlainDecision d) (he : PlainDecision e)
    {x y : List String} (h : decisionLines d ++ x = decisionLines e ++ y) :
    DecisionView.of d = DecisionView.of e ∧ x = y := by
  have hend (x : List String) : ¬ Tagged "SCOPE" ("" :: x) := by
    rintro ⟨text, rest, h⟩
    have hline := congrArg String.toList (List.cons.inj h).1
    simp [inner, String.toList_append] at hline
  simp only [decisionLines, List.cons_append, List.nil_append, List.append_assoc, List.cons.injEq,
    String.append_right_inj, inner_inj, quote_inj] at h
  obtain ⟨hid, hrule, hcontext, h⟩ := h
  obtain ⟨hscope, h⟩ := listLine_append_inj (by decide) hd.scope he.scope (hend x) (hend y) h
  exact ⟨by rw [DecisionView.of, DecisionView.of, hid, hrule, hcontext, hscope], (List.cons.inj h).2⟩

/-! ### Sections -/

/-- Records that are found again in front of any lines are found again in a section, if what follows
the section cannot be taken for one more record. -/
lemma flatMap_append_inj {α β : Type} {lines : α → List String} {view : α → β} {P : α → Prop}
    (hlines : ∀ a b x y, P a → P b → lines a ++ x = lines b ++ y → view a = view b ∧ x = y)
    {x y : List String} (hx : ∀ a u, lines a ++ u ≠ x) (hy : ∀ a u, lines a ++ u ≠ y)
    {as bs : List α} (has : ∀ a ∈ as, P a) (hbs : ∀ b ∈ bs, P b)
    (h : as.flatMap lines ++ x = bs.flatMap lines ++ y) : as.map view = bs.map view ∧ x = y := by
  induction as generalizing bs with
  | nil =>
    cases bs with
    | nil => exact ⟨rfl, h⟩
    | cons b bs =>
      rw [List.flatMap_cons, List.append_assoc] at h
      exact absurd h.symm (hx b _)
  | cons a as ih =>
    cases bs with
    | nil =>
      rw [List.flatMap_cons, List.append_assoc] at h
      exact absurd h (hy a _)
    | cons b bs =>
      rw [List.flatMap_cons, List.flatMap_cons, List.append_assoc, List.append_assoc] at h
      obtain ⟨hview, hrest⟩ := hlines a b _ _ (has a List.mem_cons_self) (hbs b List.mem_cons_self) h
      obtain ⟨hviews, hxy⟩ := ih (fun c hc => has c (List.mem_cons_of_mem _ hc))
        (fun c hc => hbs c (List.mem_cons_of_mem _ hc)) hrest
      exact ⟨by rw [List.map_cons, List.map_cons, hview, hviews], hxy⟩

lemma ruleLines_append_ne (r : Rule) (u x : List String) : ruleLines r ++ u ≠ "" :: x := by
  intro h
  have hline := congrArg String.toList (List.cons.inj h).1
  simp [String.toList_append] at hline

lemma nodeLines_append_ne (n : Node) (u x : List String) : nodeLines n ++ u ≠ decisionsHeader :: x := by
  intro h
  have hline := congrArg String.toList (List.cons.inj h).1
  simp [nodeLine_eq, decisionsHeader, String.toList_append] at hline

lemma outline_eq_of_parts {rules rules' : List Rule} {nodes nodes' : List Node}
    {decisions decisions' : List Decision} (h : IsPlain rules nodes decisions)
    (h' : IsPlain rules' nodes' decisions')
    (heq : parts rules nodes decisions = parts rules' nodes' decisions') :
    outline rules nodes decisions = outline rules' nodes' decisions' := by
  rw [parts_eq, parts_eq, List.cons.injEq] at heq
  obtain ⟨hrules, heq⟩ := flatMap_append_inj (P := PlainRule) (fun _ _ _ _ _ _ h => ruleLines_append_inj h)
    (fun a u => ruleLines_append_ne a u _) (fun a u => ruleLines_append_ne a u _)
    (fun r hr => h.rules r (mem_ordered.mp hr)) (fun r hr => h'.rules r (mem_ordered.mp hr)) heq.2
  rw [List.cons.injEq, List.cons.injEq] at heq
  obtain ⟨hnodes, heq⟩ := flatMap_append_inj (fun _ _ _ _ hn hm h => nodeLines_append_inj hn hm h)
    (fun a u => nodeLines_append_ne a u _) (fun a u => nodeLines_append_ne a u _) h.nodes h'.nodes heq.2.2
  rw [List.cons.injEq, ← List.append_nil (decisions.flatMap _),
    ← List.append_nil (decisions'.flatMap _)] at heq
  obtain ⟨hdecisions, -⟩ := flatMap_append_inj (fun _ _ _ _ hd he h => decisionLines_append_inj hd he h)
    (fun _ _ => List.cons_ne_nil _ _) (fun _ _ => List.cons_ne_nil _ _) h.decisions h'.decisions heq.2
  rw [outline, outline, Outline.mk.injEq]
  exact ⟨hrules, hnodes, hdecisions⟩

/-! ### What is shown is all that matters -/

lemma ruleLines_congr (r q : Rule) (h : RuleView.of r = RuleView.of q) : ruleLines r = ruleLines q := by
  obtain ⟨hid, hpriority, hdescription⟩ := RuleView.mk.inj h
  rw [ruleLines, ruleLines, hid, hpriority, hdescription]

lemma nodeLines_congr (n m : Node) (h : NodeView.of n = NodeView.of m) : nodeLines n = nodeLines m := by
  obtain ⟨hid, hcategory, hpath, hstart, hend, htags, hdeps, hentries, hsummary⟩ := NodeView.mk.inj h
  have hamplitudes : amplitudes n = amplitudes m := by
    refine map_eq_map_of (fun a b hab => ?_) hentries
    rw [(Prod.mk.inj hab).1, (Prod.mk.inj hab).2]
  rw [nodeLines, nodeLines, nodeLine_eq, nodeLine_eq, hid, hcategory, hpath, hstart, hend, htags, hdeps,
    hamplitudes, hsummary]

lemma decisionLines_congr (d e : Decision) (h : DecisionView.of d = DecisionView.of e) :
    decisionLines d = decisionLines e := by
  obtain ⟨hid, hrule, hcontext, hscope⟩ := DecisionView.mk.inj h
  rw [decisionLines, decisionLines, hid, hrule, hcontext, hscope]

lemma parts_eq_of_outline {rules rules' : List Rule} {nodes nodes' : List Node}
    {decisions decisions' : List Decision}
    (h : outline rules nodes decisions = outline rules' nodes' decisions') :
    parts rules nodes decisions = parts rules' nodes' decisions' := by
  obtain ⟨hrules, hnodes, hdecisions⟩ := Outline.mk.inj h
  rw [parts_eq, parts_eq, List.flatMap_def, List.flatMap_def, List.flatMap_def, List.flatMap_def,
    List.flatMap_def, List.flatMap_def, map_eq_map_of ruleLines_congr hrules,
    map_eq_map_of nodeLines_congr hnodes, map_eq_map_of decisionLines_congr hdecisions]

/-- Two inputs have one text just when they agree on all that is shown: the rules from the highest
priority to the lowest, the nodes and the decisions, each with its fields and its place. -/
theorem render_eq_iff {rules rules' : List Rule} {nodes nodes' : List Node}
    {decisions decisions' : List Decision} (h : IsPlain rules nodes decisions)
    (h' : IsPlain rules' nodes' decisions') :
    render rules nodes decisions = render rules' nodes' decisions' ↔
      outline rules nodes decisions = outline rules' nodes' decisions' := by
  constructor
  · intro heq
    have hparts := eq_of_join_lines (oneLine_of_mem_parts h) (oneLine_of_mem_parts h') heq
    exact outline_eq_of_parts h h' hparts
  · intro heq
    rw [render, render, parts_eq_of_outline heq]

/-- A node whose path looks like the end of its line. -/
def twisted : Node :=
  { id := "FN:1"
    category := .service
    path := "a L:1--2 T:Test P:b L:-3--4"
    lineStart := -3
    lineEnd := -4
    tags := .empty
    deps := .ofList ["DEP: x,", ""]
    amplitudes := .ofList [("R(0.1)", .ofQuotient true 1 4), ("", .ofQuotient false 1 3)]
    summary := "\"\\" }

lemma plainNode_twisted : PlainNode twisted where
  id := by decide
  spaceless := by decide
  path := by decide
  tags := by decide
  deps := by decide +kernel
  amplitudes := by decide +kernel
  summary := by decide

/-- One empty tag shows: its line is there, while the line of no tags is left out. -/
theorem render_empty_tag_ne :
    IsPlain [] [twisted] [] ∧ IsPlain [] [{ twisted with tags := .ofList [""] }] [] ∧
      render [] [twisted] [] ≠ render [] [{ twisted with tags := .ofList [""] }] [] := by
  have hnone : IsPlain [] [twisted] [] := ⟨by simp, by simpa using plainNode_twisted, by simp⟩
  have hone : IsPlain [] [{ twisted with tags := .ofList [""] }] [] :=
    ⟨by simp, by simpa using { plainNode_twisted with tags := by decide }, by simp⟩
  refine ⟨hnone, hone, fun heq => ?_⟩
  have hnodes := congrArg Outline.nodes ((render_eq_iff hnone hone).mp heq)
  have htags := congrArg (fun n : NodeView => n.tags.toList) (List.cons.inj hnodes).1
  exact absurd htags (by decide)

end CodeContext.Document
