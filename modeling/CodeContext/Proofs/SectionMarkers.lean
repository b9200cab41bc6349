import CodeContext.Proofs.DocumentReading
import CodeContext.Proofs.LineLayout

/-!
# Section markers

The header lines of the three sections are markers, and a reader finds the sections by them. The fields
of rules, nodes and decisions are written as they are, so a field with line feeds in it can put a line
into the document that looks like a marker. The markers are clear just when no field does so.
-/

namespace CodeContext

namespace Text

/-! ### Rows of a text -/

/-- The texts between line feeds, with their carriage returns. -/
def rows (text : String) : List (List Char) :=
  text.toList.splitOn '\n'

lemma rows_oneLine {text : String} (h : OneLine text) : rows text = [text.toList] :=
  List.splitOn_eq_singleton h

lemma rows_cut (line rest : List Char) (h : '\n' ∉ line) :
    (line ++ '\n' :: rest).splitOn '\n' = line :: rest.splitOn '\n' := by
  rw [List.splitOn_append_cons_self, List.splitOn_eq_singleton h, List.singleton_append]

lemma splitOn_append (x y : List Char) : ∃ init last first rest, x.splitOn '\n' = init ++ [last] ∧
    y.splitOn '\n' = first :: rest ∧ (x ++ y).splitOn '\n' = init ++ (last ++ first) :: rest := by
  induction hn : x.length using Nat.strong_induction_on generalizing x with
  | _ n ih =>
    by_cases hx : '\n' ∈ x
    · obtain ⟨line, more, rfl, hline⟩ := List.eq_append_cons_of_mem hx
      have hlength : more.length < n := by
        rw [← hn, List.length_append, List.length_cons]
        omega
      obtain ⟨init, last, first, rest, hmore, hy, hboth⟩ := ih more.length hlength more rfl
      refine ⟨line :: init, last, first, rest, ?_, hy, ?_⟩
      · rw [rows_cut line more hline, hmore, List.cons_append]
      · rw [List.append_assoc, List.cons_append, rows_cut line _ hline, hboth, List.cons_append]
    · by_cases hy : '\n' ∈ y
      · obtain ⟨line, rest, rfl, hline⟩ := List.eq_append_cons_of_mem hy
        refine ⟨[], x, line, rest.splitOn '\n', List.splitOn_eq_singleton hx, rows_cut line rest hline, ?_⟩
        rw [← List.append_assoc, rows_cut (x ++ line) rest (by simp [hx, hline]), List.nil_append]
      · exact ⟨[], x, y, [], List.splitOn_eq_singleton hx, List.splitOn_eq_singleton hy,
          List.splitOn_eq_singleton (by simp [hx, hy])⟩

lemma rows_append (a b : String) : ∃ init last first rest, rows a = init ++ [last] ∧
    rows b = first :: rest ∧ rows (a ++ b) = init ++ (last ++ first) :: rest := by
  rw [rows, rows, rows, String.toList_append]
  exact splitOn_append a.toList b.toList

lemma lines_ended (text : String) (rest : List Char) :
    lines (text.toList ++ '\n' :: rest) = (rows text).map dropReturn ++ lines rest := by
  rw [rows]
  induction hn : text.toList.length using Nat.strong_induction_on generalizing text with
  | _ n ih =>
    by_cases htext : '\n' ∈ text.toList
    · obtain ⟨line, more, hcut, hline⟩ := List.eq_append_cons_of_mem htext
      have hlength : more.length < n := by
        rw [← hn, hcut, List.length_append, List.length_cons]
        omega
      have hmore := ih more.length hlength (String.ofList more) (by simp)
      rw [String.toList_ofList] at hmore
      rw [hcut, rows_cut line more hline, List.append_assoc, List.cons_append, lines, linesFrom_line hline,
        ← lines, hmore]
      simp
    · rw [List.splitOn_eq_singleton htext, lines, linesFrom_line htext, ← lines]
      simp

/-- The lines of texts that are written one below the other are the rows of each. -/
theorem lines_join_eq_rows (texts : List String) :
    lines (String.join (texts.map (· ++ "\n"))).toList = texts.flatMap fun text => (rows text).map dropReturn := by
  induction texts with
  | nil => rfl
  | cons text texts ih =>
    have hjoin : (String.join ((text :: texts).map (· ++ "\n"))).toList =
        text.toList ++ '\n' :: (String.join (texts.map (· ++ "\n"))).toList := by
      simp [String.toList_append]
    rw [hjoin, lines_ended, ih, List.flatMap_cons]

end Text

namespace Document

open Text

/-! ### Rows that are markers -/

def markers : List String :=
  [rulesHeader, nodesHeader, decisionsHeader]

/-- The lines of a text that are markers are the three markers, each once and in their order. -/
def HasClearMarkers (text : String) : Prop :=
  ((lines text.toList).map String.ofList).filter (· ∈ markers) = markers

instance (text : String) : Decidable (HasClearMarkers text) :=
  inferInstanceAs (Decidable (_ = _))

/-- A row is read as a marker. -/
def IsMarker (row : List Char) : Prop :=
  String.ofList (dropReturn row) ∈ markers

instance (row : List Char) : Decidable (IsMarker row) :=
  inferInstanceAs (Decidable (String.ofList (dropReturn row) ∈ markers))

/-- A row of a text is a marker. -/
def HasMarker (text : String) : Prop :=
  ∃ row ∈ rows text, IsMarker row

instance (text : String) : Decidable (HasMarker text) :=
  inferInstanceAs (Decidable (∃ row ∈ rows text, IsMarker row))

/-- A row of a text after a line feed is a marker. -/
def HasMarkerAfter (text : String) : Prop :=
  ∃ row ∈ (rows text).tail, IsMarker row

/-- A row of a text between two line feeds is a marker. -/
def HasMarkerInside (text : String) : Prop :=
  ∃ row ∈ (rows text).tail.dropLast, IsMarker row

/-- A text on one line with a character that no marker has. -/
structure IsForeign (text : String) : Prop where
  oneLine : OneLine text
  exists_notMem : ∃ c ∈ text.toList, c ≠ '\r' ∧ ∀ m ∈ markers, c ∉ m.toList

instance (text : String) : Decidable (IsForeign text) :=
  decidable_of_iff (OneLine text ∧ text.toList.any (fun c => c ≠ '\r' ∧ ∀ m ∈ markers, c ∉ m.toList) = true)
    ⟨fun h => ⟨h.1, by simpa using h.2⟩, fun h => ⟨h.oneLine, by simpa using h.exists_notMem⟩⟩

lemma isForeign_of_mem {text : String} (c : Char) (hline : OneLine text) (hc : c ∈ text.toList)
    (hmarkers : c ≠ '\r' ∧ ∀ m ∈ markers, c ∉ m.toList) : IsForeign text :=
  ⟨hline, c, hc, hmarkers⟩

lemma IsForeign.not_isMarker {text : String} (h : IsForeign text) (before after : List Char) :
    ¬ IsMarker (before ++ (text.toList ++ after)) := by
  obtain ⟨c, hc, hreturn, hmarkers⟩ := h.exists_notMem
  intro hmarker
  refine hmarkers _ hmarker ?_
  rw [String.toList_ofList, dropReturn]
  split
  · rename_i hlast
    obtain ⟨init, hinit⟩ := List.getLast?_eq_some_iff.mp hlast
    have hmem : c ∈ init ++ ['\r'] := by
      rw [← hinit]
      simp [hc]
    rw [hinit, List.dropLast_concat]
    simpa [hreturn] using hmem
  · simp [hc]

lemma hasMarkerAfter_of_hasMarkerInside {text : String} (h : HasMarkerInside text) : HasMarkerAfter text := by
  obtain ⟨row, hrow, hmarker⟩ := h
  exact ⟨row, List.dropLast_subset _ hrow, hmarker⟩

lemma not_hasMarkerAfter_of_oneLine {text : String} (h : OneLine text) : ¬ HasMarkerAfter text := by
  simp [HasMarkerAfter, rows_oneLine h]

lemma not_hasMarkerInside_of_oneLine {text : String} (h : OneLine text) : ¬ HasMarkerInside text :=
  fun hinside => not_hasMarkerAfter_of_oneLine h (hasMarkerAfter_of_hasMarkerInside hinside)

/-- After a foreign text only later rows can be markers. -/
lemma hasMarker_foreign {tag : String} (h : IsForeign tag) (text : String) :
    HasMarker (tag ++ text) ↔ HasMarkerAfter text := by
  obtain ⟨init, last, first, rest, htag, htext, hboth⟩ := rows_append tag text
  rw [rows_oneLine h.oneLine, ← List.nil_append [tag.toList]] at htag
  obtain ⟨rfl, hlast⟩ := List.append_inj' htag rfl
  obtain rfl := (List.cons.inj hlast).1
  have hfirst : ¬ IsMarker (tag.toList ++ first) := h.not_isMarker [] first
  rw [HasMarker, HasMarkerAfter, hboth, htext]
  simp [hfirst]

/-- What goes on after a foreign text cannot make one marker with what is before. -/
lemma hasMarkerAfter_cut {sep : String} (h : IsForeign sep) (a b : String) :
    HasMarkerAfter (a ++ sep ++ b) ↔ HasMarkerInside a ∨ HasMarkerAfter b := by
  obtain ⟨none', sep', first, rest, hsep, hb, hsepb⟩ := rows_append sep b
  rw [rows_oneLine h.oneLine, ← List.nil_append [sep.toList]] at hsep
  obtain ⟨rfl, hsep'⟩ := List.append_inj' hsep rfl
  obtain rfl := (List.cons.inj hsep').1
  obtain ⟨init, last, first', rest', ha, hsepb', hall⟩ := rows_append a (sep ++ b)
  rw [hsepb, List.nil_append] at hsepb'
  obtain ⟨rfl, rfl⟩ := List.cons.inj hsepb'
  have hmiddle : ¬ IsMarker (last ++ (sep.toList ++ first)) := h.not_isMarker last first
  rw [HasMarkerAfter, HasMarkerInside, HasMarkerAfter, String.append_assoc, hall, ha, hb]
  cases init with
  | nil => simp
  | cons row init =>
    rw [List.cons_append, List.cons_append, List.tail_cons, List.tail_cons, List.dropLast_concat, List.tail_cons]
    simp only [List.mem_append, List.mem_cons, or_and_right, exists_or, exists_eq_left, hmiddle, false_or]

lemma hasMarkerInside_cut {sep : String} (h : IsForeign sep) (a : String) :
    HasMarkerInside (a ++ sep) ↔ HasMarkerInside a := by
  obtain ⟨init, last, first, rest, ha, hsep, hboth⟩ := rows_append a sep
  rw [rows_oneLine h.oneLine] at hsep
  obtain ⟨rfl, rfl⟩ := List.cons.inj hsep
  rw [HasMarkerInside, HasMarkerInside, hboth, ha]
  cases init with
  | nil => simp
  | cons row init => simp

/-! ### Records that show no marker -/

/-- No item of a list shows a marker, where the last one is followed by a line feed. -/
structure ClearItems (items : List String) : Prop where
  inside : ∀ x ∈ items, ¬ HasMarkerInside x
  last : ∀ x ∈ items.getLast?, ¬ HasMarkerAfter x

structure ClearRule (r : Rule) : Prop where
  id : ¬ HasMarkerInside r.id
  description : ¬ HasMarkerInside r.description

structure ClearNode (n : Node) : Prop where
  id : ¬ HasMarkerInside n.id
  path : ¬ HasMarkerInside n.path
  tags : ClearItems n.tags.toList
  deps : ClearItems n.deps.toList
  amplitudes : ∀ e ∈ n.amplitudes.entries, ¬ HasMarkerInside e.1
  summary : ¬ HasMarkerInside n.summary

structure ClearDecision (d : Decision) : Prop where
  id : ¬ HasMarkerAfter d.id
  ruleId : ∀ r ∈ d.ruleId, ¬ HasMarkerAfter r
  context : ¬ HasMarkerInside d.context
  scope : ClearItems d.scope

lemma hasMarkerAfter_listed {items : List String} : ¬ HasMarkerAfter (listed items) ↔ ClearItems items := by
  have hcomma : IsForeign ", " := by decide
  induction items with
  | nil => exact ⟨fun _ => ⟨by simp, by simp⟩, fun _ => not_hasMarkerAfter_of_oneLine (by decide)⟩
  | cons x items ih =>
    by_cases hnil : items = []
    · subst hnil
      rw [listed, String.intercalate_singleton]
      refine ⟨fun h => ⟨?_, ?_⟩, fun h => h.last x (by simp)⟩
      · simpa using fun hx => h (hasMarkerAfter_of_hasMarkerInside hx)
      · simpa using h
    · have hlast : (x :: items).getLast? = items.getLast? := List.getLast?_cons_of_ne_nil hnil
      rw [listed, String.intercalate_cons_of_ne_nil hnil, hasMarkerAfter_cut hcomma, not_or, ← listed]
      refine (and_congr_right fun _ => ih).trans ?_
      constructor
      · rintro ⟨hx, h⟩
        exact ⟨List.forall_mem_cons.mpr ⟨hx, h.inside⟩, hlast ▸ h.last⟩
      · rintro ⟨hinside, hitems⟩
        exact ⟨hinside x List.mem_cons_self, fun y hy => hinside y (List.mem_cons_of_mem _ hy), hlast ▸ hitems⟩

lemma hasMarkerAfter_quote {text : String} : HasMarkerAfter (quote text) ↔ HasMarkerInside text := by
  have hquote : IsForeign "\"" := by decide
  have hempty : ¬ HasMarkerAfter "" := not_hasMarkerAfter_of_oneLine (by decide)
  have hcut : quote text = "" ++ "\"" ++ (text ++ "\"" ++ "") := by simp [quote, String.append_assoc]
  have hinside : ¬ HasMarkerInside "" := not_hasMarkerInside_of_oneLine (by decide)
  rw [hcut, hasMarkerAfter_cut hquote, hasMarkerAfter_cut hquote]
  simp [hempty, hinside]

lemma hasMarker_tagged (tag : String) (htag : OneLine tag) (text : String) :
    HasMarker (inner (tag ++ ": " ++ text)) ↔ HasMarkerAfter text := by
  have hline : OneLine ("    " ++ tag ++ ": ") := by
    rw [oneLine_append, oneLine_append]
    exact ⟨⟨by decide, htag⟩, by decide⟩
  have hforeign : IsForeign ("    " ++ tag ++ ": ") :=
    isForeign_of_mem ':' hline (by simp [String.toList_append]) (by decide)
  have hcut : inner (tag ++ ": " ++ text) = "    " ++ tag ++ ": " ++ text := by
    simp only [inner, String.append_assoc]
  rw [hcut, hasMarker_foreign hforeign]

lemma clear_listLine (tag : String) (htag : OneLine tag) (items : List String) :
    (∀ p ∈ listLine tag items, ¬ HasMarker p) ↔ ClearItems items := by
  cases items with
  | nil => exact ⟨fun _ => ⟨by simp, by simp⟩, fun _ => by simp [listLine]⟩
  | cons x items =>
    have hline : listLine tag (x :: items) = [inner (tag ++ ": " ++ listed (x :: items))] := rfl
    rw [hline, List.forall_mem_singleton, hasMarker_tagged tag htag, hasMarkerAfter_listed]

lemma clear_ruleLines (r : Rule) : (∀ p ∈ ruleLines r, ¬ HasMarker p) ↔ ClearRule r := by
  have hrule : IsForeign "@RULE " := by decide
  have hpriority : IsForeign " PRI:" := by decide
  have hquote : IsForeign "    \"" := by decide
  have hhead : HasMarker ("@RULE " ++ r.id ++ " PRI:" ++ r.priority.tenthsText) ↔ HasMarkerInside r.id := by
    have hcut : "@RULE " ++ r.id ++ " PRI:" ++ r.priority.tenthsText =
        "@RULE " ++ (r.id ++ " PRI:" ++ r.priority.tenthsText) := by
      simp only [String.append_assoc]
    rw [hcut, hasMarker_foreign hrule, hasMarkerAfter_cut hpriority,
      or_iff_left (not_hasMarkerAfter_of_oneLine (oneLine_tenthsText _))]
  have hdescription : HasMarker (inner (quote r.description)) ↔ HasMarkerInside r.description := by
    have hcut : inner (quote r.description) = "    \"" ++ (r.description ++ "\"" ++ "") := by
      have htag : "    " ++ "\"" = "    \"" := rfl
      rw [inner, quote, ← htag]
      simp only [String.append_assoc, String.append_empty]
    have hend : IsForeign "\"" := by decide
    rw [hcut, hasMarker_foreign hquote, hasMarkerAfter_cut hend,
      or_iff_left (not_hasMarkerAfter_of_oneLine (by decide))]
  rw [ruleLines, List.forall_mem_cons, List.forall_mem_singleton, hhead, hdescription]
  exact ⟨fun h => ⟨h.1, h.2⟩, fun h => ⟨h.id, h.description⟩⟩

lemma hasMarker_nodeLine (n : Node) : HasMarker (nodeLine n) ↔ HasMarkerInside n.id ∨ HasMarkerInside n.path := by
  have hnode : IsForeign "@NODE " := by decide
  have hcategory : IsForeign " T:" := by decide
  have hpath : IsForeign " P:" := by decide
  have hlines : IsForeign " L:" := by decide
  have hspan : OneLine (toString n.lineStart ++ "-" ++ toString n.lineEnd) := by
    rw [oneLine_append, oneLine_append]
    exact ⟨⟨oneLine_intText _, by decide⟩, oneLine_intText _⟩
  rw [nodeLine_eq, hasMarker_foreign hnode, hasMarkerAfter_cut hcategory, hasMarkerAfter_cut hpath,
    hasMarkerAfter_cut hlines,
    or_iff_right (not_hasMarkerInside_of_oneLine (oneLine_categoryName _)),
    or_iff_left (not_hasMarkerAfter_of_oneLine hspan)]

lemma clearItems_amplitudes (n : Node) :
    ClearItems (amplitudes n) ↔ ∀ e ∈ n.amplitudes.entries, ¬ HasMarkerInside e.1 := by
  have hopen : IsForeign "(" := by decide
  have hline (e : String × Binary64) : OneLine ("(" ++ (e.2.tenthsText ++ ")")) := by
    rw [oneLine_append, oneLine_append]
    exact ⟨by decide, oneLine_tenthsText _, by decide⟩
  have hinside (e : String × Binary64) :
      HasMarkerInside (e.1 ++ "(" ++ e.2.tenthsText ++ ")") ↔ HasMarkerInside e.1 := by
    have hsep : IsForeign ("(" ++ (e.2.tenthsText ++ ")")) :=
      isForeign_of_mem '(' (hline e) (by simp [String.toList_append]) (by decide)
    rw [String.append_assoc, String.append_assoc, hasMarkerInside_cut hsep]
  have hafter (e : String × Binary64) :
      HasMarkerAfter (e.1 ++ "(" ++ e.2.tenthsText ++ ")") ↔ HasMarkerInside e.1 := by
    have hrest : OneLine (e.2.tenthsText ++ ")") := (oneLine_append.mp (hline e)).2
    rw [String.append_assoc, hasMarkerAfter_cut hopen, or_iff_left (not_hasMarkerAfter_of_oneLine hrest)]
  constructor
  · intro h e he hshows
    exact h.inside _ (List.mem_map_of_mem he) ((hinside e).mpr hshows)
  · refine fun h => ⟨fun x hx => ?_, fun x hx => ?_⟩
    · obtain ⟨e, he, rfl⟩ := List.mem_map.mp hx
      exact (hinside e).not.mpr (h e he)
    · obtain ⟨e, he, rfl⟩ := List.mem_map.mp (List.mem_of_getLast? hx)
      exact (hafter e).not.mpr (h e he)

lemma not_hasMarker_empty : ¬ HasMarker "" := by
  decide

lemma clear_nodeLines (n : Node) : (∀ p ∈ nodeLines n, ¬ HasMarker p) ↔ ClearNode n := by
  have hsummary : HasMarker (inner ("SUM: " ++ quote n.summary)) ↔ HasMarkerInside n.summary :=
    (hasMarker_tagged "SUM" (by decide) _).trans hasMarkerAfter_quote
  simp only [nodeLines, List.cons_append, List.forall_mem_cons, List.forall_mem_append, hasMarker_nodeLine, not_or,
    clear_listLine "TAGS" (by decide), clear_listLine "DEP" (by decide),
    clear_listLine "DEC" (by decide), clearItems_amplitudes, hsummary]
  constructor
  · rintro ⟨⟨hid, hpath⟩, ⟨⟨htags, hdeps⟩, hamplitudes⟩, hsum, -⟩
    exact ⟨hid, hpath, htags, hdeps, hamplitudes, hsum⟩
  · rintro ⟨hid, hpath, htags, hdeps, hamplitudes, hsum⟩
    exact ⟨⟨hid, hpath⟩, ⟨⟨htags, hdeps⟩, hamplitudes⟩, hsum, by simp [not_hasMarker_empty]⟩

lemma clear_decisionLines (d : Decision) : (∀ p ∈ decisionLines d, ¬ HasMarker p) ↔ ClearDecision d := by
  have hdecision : IsForeign "@DECISION " := by decide
  have hcontext : HasMarker (inner ("CONTEXT: " ++ quote d.context)) ↔ HasMarkerInside d.context :=
    (hasMarker_tagged "CONTEXT" (by decide) _).trans hasMarkerAfter_quote
  have hrule : HasMarker (inner ("RULE: " ++ d.ruleId.getD "NONE")) ↔ ∃ r ∈ d.ruleId, HasMarkerAfter r := by
    refine (hasMarker_tagged "RULE" (by decide) _).trans ?_
    cases d.ruleId with
    | none =>
      have hnone : OneLine "NONE" := by decide
      simpa using not_hasMarkerAfter_of_oneLine hnone
    | some r => simp
  simp only [decisionLines, List.cons_append, List.nil_append, List.forall_mem_cons, List.forall_mem_append,
    hasMarker_foreign hdecision, hrule, hcontext, clear_listLine "SCOPE" (by decide)]
  constructor
  · rintro ⟨hid, hrule, hcontext, hscope, -⟩
    exact ⟨hid, fun r hr hshows => hrule ⟨r, hr, hshows⟩, hcontext, hscope⟩
  · rintro ⟨hid, hrule, hcontext, hscope⟩
    refine ⟨hid, ?_, hcontext, hscope, by simp [not_hasMarker_empty]⟩
    rintro ⟨r, hr, hshows⟩
    exact hrule r hr hshows

/-! ### Documents with clear markers -/

/-- The markers among the lines of a text that a line feed ends. -/
def markersIn (text : String) : List String :=
  ((rows text).map fun row => String.ofList (dropReturn row)).filter (· ∈ markers)

lemma markersIn_eq_nil_iff {text : String} : markersIn text = [] ↔ ¬ HasMarker text := by
  simp [markersIn, List.filter_eq_nil_iff, HasMarker, IsMarker]

lemma flatMap_markersIn_eq_nil_iff {α : Type} {write : α → List String} {clear : α → Prop}
    (h : ∀ a, (∀ p ∈ write a, ¬ HasMarker p) ↔ clear a) (records : List α) :
    (records.flatMap write).flatMap markersIn = [] ↔ ∀ a ∈ records, clear a := by
  simp only [List.flatMap_eq_nil_iff, List.mem_flatMap, forall_exists_index, and_imp, markersIn_eq_nil_iff, ← h]
  exact ⟨fun hall a ha p hp => hall p a ha hp, fun hall p a ha hp => hall a ha p hp⟩

lemma markers_render (rules : List Rule) (nodes : List Node) (decisions : List Decision) :
    ((lines (render rules nodes decisions).toList).map String.ofList).filter (· ∈ markers) =
      rulesHeader :: (((ordered rules).flatMap ruleLines).flatMap markersIn ++
        nodesHeader :: ((nodes.flatMap nodeLines).flatMap markersIn ++
          decisionsHeader :: (decisions.flatMap decisionLines).flatMap markersIn)) := by
  have hempty : markersIn "" = [] := by decide
  have hrules : markersIn rulesHeader = [rulesHeader] := by decide
  have hnodes : markersIn nodesHeader = [nodesHeader] := by decide
  have hdecisions : markersIn decisionsHeader = [decisionsHeader] := by decide
  have hlines : ((lines (render rules nodes decisions).toList).map String.ofList).filter (· ∈ markers) =
      (parts rules nodes decisions).flatMap markersIn := by
    rw [render, lines_join_eq_rows, List.map_flatMap, List.filter_flatMap]
    simp only [List.map_map]
    rfl
  rw [hlines, parts_eq, List.flatMap_cons, List.flatMap_append, List.flatMap_cons, List.flatMap_cons,
    List.flatMap_append, List.flatMap_cons, hempty, hrules, hnodes, hdecisions]
  simp

/-- The markers of a document are clear just when no field of a rule, a node or a decision has a marker on
a row of its own. A text that is the last of its line must not end in one either. -/
theorem markers_clear_iff (rules : List Rule) (nodes : List Node) (decisions : List Decision) :
    HasClearMarkers (render rules nodes decisions) ↔
      (∀ r ∈ rules, ClearRule r) ∧ (∀ n ∈ nodes, ClearNode n) ∧ ∀ d ∈ decisions, ClearDecision d := by
  have hrules := flatMap_markersIn_eq_nil_iff clear_ruleLines (ordered rules)
  simp only [mem_ordered] at hrules
  rw [HasClearMarkers, markers_render, ← hrules, ← flatMap_markersIn_eq_nil_iff clear_nodeLines,
    ← flatMap_markersIn_eq_nil_iff clear_decisionLines]
  generalize ((ordered rules).flatMap ruleLines).flatMap markersIn = inRules
  generalize (nodes.flatMap nodeLines).flatMap markersIn = inNodes
  generalize (decisions.flatMap decisionLines).flatMap markersIn = inDecisions
  constructor
  · intro h
    have hlength := congrArg List.length h
    simp only [markers, List.length_cons, List.length_append, List.length_nil] at hlength
    exact ⟨List.length_eq_zero_iff.mp (by omega), List.length_eq_zero_iff.mp (by omega),
      List.length_eq_zero_iff.mp (by omega)⟩
  · rintro ⟨rfl, rfl, rfl⟩
    rfl

/-- A file name with line feeds can bring a marker into a document. -/
theorem markers_not_clear_for_path :
    ¬ HasClearMarkers (render [] [{ twisted with path := "a\n=== DECISIONS ===\nb.cs" }] []) := by
  decide +kernel

end Document

end CodeContext
