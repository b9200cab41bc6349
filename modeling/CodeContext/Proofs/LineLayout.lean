import CodeContext.Proofs.Cuts
import CodeContext.Text.Lines

/-!
# How a text is laid out in lines

A text consists of lines, each with the characters that end it: a line feed, or a carriage return and a
line feed. Only the last line may have no end, and then it is not empty. The lines that are read are the
contents, and a character that ends no line is in the contents of the line that the line feeds before it
count.
-/

namespace CodeContext.Text

/-! ### Lines one after the other -/

lemma linesFrom_line {line : List Char} (h : '\n' ∉ line) (start rest : List Char) :
    linesFrom start (line ++ '\n' :: rest) = dropReturn (start.reverse ++ line) :: linesFrom [] rest := by
  induction line generalizing start with
  | nil => simp [linesFrom]
  | cons c line ih =>
    have hc : c ≠ '\n' := fun hc => h (hc ▸ List.mem_cons_self)
    rw [List.cons_append, linesFrom, if_neg hc, ih fun hmem => h (List.mem_cons_of_mem _ hmem)]
    simp

lemma linesFrom_last {line : List Char} (h : '\n' ∉ line) (start : List Char) :
    linesFrom start line = if start = [] ∧ line = [] then [] else [start.reverse ++ line] := by
  induction line generalizing start with
  | nil => simp [linesFrom]
  | cons c line ih =>
    have hc : c ≠ '\n' := fun hc => h (hc ▸ List.mem_cons_self)
    rw [linesFrom, if_neg hc, ih fun hmem => h (List.mem_cons_of_mem _ hmem)]
    simp

/-- The lines of a text are those that were joined, if none of them ends in a carriage return. -/
lemma lines_join {texts : List String} (hline : ∀ text ∈ texts, OneLine text)
    (hend : ∀ text ∈ texts, text.toList.getLast? ≠ some '\r') :
    (lines (String.join (texts.map (· ++ "\n"))).toList).map String.ofList = texts := by
  induction texts with
  | nil => rfl
  | cons text texts ih =>
    have hrest := ih (fun t ht => hline t (List.mem_cons_of_mem _ ht)) fun t ht => hend t (List.mem_cons_of_mem _ ht)
    rw [lines] at hrest
    have htext : (String.join ((text :: texts).map (· ++ "\n"))).toList =
        text.toList ++ '\n' :: (String.join (texts.map (· ++ "\n"))).toList := by
      simp [String.toList_append]
    have hdrop : dropReturn text.toList = text.toList := if_neg (hend text List.mem_cons_self)
    rw [htext, lines, linesFrom_line (hline text List.mem_cons_self), List.reverse_nil, List.nil_append, hdrop,
      List.map_cons, hrest, String.ofList_toList]

/-! ### Layouts -/

/-- A line with the characters that end it. -/
structure Line where
  content : List Char
  ending : List Char

namespace Line

def chars (l : Line) : List Char :=
  l.content ++ l.ending

/-- A line feed ends the line. A carriage return before it belongs to the end. -/
structure IsEnded (l : Line) : Prop where
  oneLine : '\n' ∉ l.content
  ending : l.ending = ['\r', '\n'] ∨ l.ending = ['\n'] ∧ l.content.getLast? ≠ some '\r'

end Line

/-- The lines that a text consists of. Only the last may have no end, and then it is not empty. -/
inductive IsLayout : List Line → List Char → Prop
  | nil : IsLayout [] []
  | last {cs : List Char} (ne : cs ≠ []) (oneLine : '\n' ∉ cs) : IsLayout [⟨cs, []⟩] cs
  | cons {l : Line} {ls : List Line} {rest : List Char} (ended : l.IsEnded) (h : IsLayout ls rest) :
      IsLayout (l :: ls) (l.chars ++ rest)

lemma exists_isLayout (text : List Char) : ∃ ls, IsLayout ls text := by
  induction hn : text.length using Nat.strong_induction_on generalizing text with
  | _ n ih =>
    by_cases hmem : '\n' ∈ text
    · obtain ⟨line, rest, rfl, hline⟩ := List.eq_append_cons_of_mem hmem
      have hlength : rest.length < n := by
        rw [← hn, List.length_append, List.length_cons]
        omega
      obtain ⟨ls, hls⟩ := ih rest.length hlength rest rfl
      by_cases hreturn : line.getLast? = some '\r'
      · obtain ⟨content, rfl⟩ := List.getLast?_eq_some_iff.mp hreturn
        have hl : (⟨content, ['\r', '\n']⟩ : Line).IsEnded :=
          ⟨fun h => hline (List.mem_append_left _ h), .inl rfl⟩
        refine ⟨⟨content, ['\r', '\n']⟩ :: ls, ?_⟩
        simpa [Line.chars] using IsLayout.cons hl hls
      · have hl : (⟨line, ['\n']⟩ : Line).IsEnded := ⟨hline, .inr ⟨rfl, hreturn⟩⟩
        refine ⟨⟨line, ['\n']⟩ :: ls, ?_⟩
        simpa [Line.chars] using IsLayout.cons hl hls
    · by_cases hnil : text = []
      · exact ⟨[], hnil ▸ .nil⟩
      · exact ⟨_, .last hnil hmem⟩

variable {ls : List Line} {text : List Char}

/-- The lines read are the contents of the lines that the text consists of. -/
theorem IsLayout.lines_eq (h : IsLayout ls text) : lines text = ls.map Line.content := by
  induction h with
  | nil => rfl
  | last ne oneLine =>
    rw [lines, linesFrom_last oneLine, if_neg fun h => ne h.2]
    rfl
  | @cons l ls rest ended h ih =>
    rw [lines] at ih ⊢
    rcases ended.ending with hending | ⟨hending, hlast⟩
    · have hline : '\n' ∉ l.content ++ ['\r'] := by simp [ended.oneLine]
      have hdrop : dropReturn (l.content ++ ['\r']) = l.content := by simp [dropReturn]
      have hchars : l.chars ++ rest = (l.content ++ ['\r']) ++ '\n' :: rest := by simp [Line.chars, hending]
      rw [hchars, linesFrom_line hline, List.reverse_nil, List.nil_append, hdrop, ih, List.map_cons]
    · have hdrop : dropReturn l.content = l.content := if_neg hlast
      have hchars : l.chars ++ rest = l.content ++ '\n' :: rest := by simp [Line.chars, hending]
      rw [hchars, linesFrom_line ended.oneLine, List.reverse_nil, List.nil_append, hdrop, ih, List.map_cons]

lemma IsLayout.eq_flatMap (h : IsLayout ls text) : text = ls.flatMap Line.chars := by
  induction h with
  | nil => rfl
  | last ne oneLine => simp [Line.chars]
  | cons ended h ih => rw [List.flatMap_cons, ← ih]

/-- The slice of a text from one line to another joins the contents of these lines. -/
theorem IsLayout.slice_eq {above shown below : List Line} {text : String}
    (h : IsLayout (above ++ shown ++ below) text.toList) :
    slice text (above.length + 1 : Nat) (above.length + shown.length : Nat) =
      String.ofList (List.intercalate ['\n'] (shown.map Line.content)) := by
  have hfirst : (max ((above.length + 1 : Nat) : Int) 1 - 1).toNat = above.length := by omega
  have hlast : ((above.length + shown.length : Nat) : Int).toNat = above.length + shown.length := by omega
  have htake : ((above ++ shown ++ below).map Line.content).take (above.length + shown.length) =
      above.map Line.content ++ shown.map Line.content := by
    rw [List.map_append, List.map_append]
    exact List.take_left' (by simp)
  rw [slice, hfirst, hlast, h.lines_eq, htake, List.drop_left' (List.length_map _)]

/-! ### The line of a character -/

/-- The character at a place is in the contents of the line with a number, counted from zero. -/
def OnLine (ls : List Line) (k place : Nat) : Prop :=
  ∃ l, ls[k]? = some l ∧ ((ls.take k).flatMap Line.chars).length ≤ place ∧
    place < ((ls.take k).flatMap Line.chars).length + l.content.length

lemma OnLine.cons {k place : Nat} (h : OnLine ls k place) (l : Line) :
    OnLine (l :: ls) (k + 1) (l.chars.length + place) := by
  obtain ⟨found, hfound, hfrom, hto⟩ := h
  refine ⟨found, by rwa [List.getElem?_cons_succ], ?_, ?_⟩
  · rw [List.take_succ_cons, List.flatMap_cons, List.length_append]
    omega
  · rw [List.take_succ_cons, List.flatMap_cons, List.length_append]
    omega

lemma Line.IsEnded.count_chars {l : Line} (h : l.IsEnded) : l.chars.count '\n' = 1 := by
  have hcontent : l.content.count '\n' = 0 := List.count_eq_zero.mpr h.oneLine
  rcases h.ending with hending | ⟨hending, -⟩
  · simp [Line.chars, hending, hcontent]
  · simp [Line.chars, hending, hcontent]

/-- Only the characters that end a line are after its contents. -/
lemma Line.IsEnded.lt_length_content {l : Line} (h : l.IsEnded) {place : Nat} {c : Char}
    (hc : l.chars[place]? = some c) (hfeed : c ≠ '\n') (hreturn : c ≠ '\r') : place < l.content.length := by
  by_contra hle
  rw [Line.chars, List.getElem?_append_right (Nat.le_of_not_lt hle)] at hc
  have hmem : c ∈ l.ending := List.mem_of_getElem? hc
  rcases h.ending with hending | ⟨hending, -⟩
  · simp [hending, hfeed, hreturn] at hmem
  · simp [hending, hfeed] at hmem

/-- A character that ends no line is on the line that the line feeds before it count. -/
theorem IsLayout.onLine (h : IsLayout ls text) {place : Nat} {c : Char} (hc : text[place]? = some c)
    (hfeed : c ≠ '\n') (hreturn : c ≠ '\r') : OnLine ls ((text.take place).count '\n') place := by
  induction h generalizing place with
  | nil => cases hc
  | @last cs ne oneLine =>
    have hcount : (cs.take place).count '\n' = 0 :=
      List.count_eq_zero.mpr fun hmem => oneLine (List.mem_of_mem_take hmem)
    obtain ⟨hlt, -⟩ := List.getElem?_eq_some_iff.mp hc
    rw [hcount]
    exact ⟨_, rfl, by simp, by simpa using hlt⟩
  | @cons l ls rest ended h ih =>
    by_cases hplace : place < l.chars.length
    · rw [List.getElem?_append_left hplace] at hc
      have hlt := ended.lt_length_content hc hfeed hreturn
      have hcount : ((l.chars ++ rest).take place).count '\n' = 0 := by
        rw [List.take_append_of_le_length (Nat.le_of_lt hplace), Line.chars,
          List.take_append_of_le_length (Nat.le_of_lt hlt)]
        exact List.count_eq_zero.mpr fun hmem => ended.oneLine (List.mem_of_mem_take hmem)
      rw [hcount]
      exact ⟨l, rfl, by simp, by simpa using hlt⟩
    · obtain ⟨later, rfl⟩ := Nat.exists_eq_add_of_le (Nat.le_of_not_lt hplace)
      rw [List.getElem?_append_right (Nat.le_add_right _ _), Nat.add_sub_cancel_left] at hc
      rw [List.take_length_add_append, List.count_append, ended.count_chars, Nat.add_comm 1]
      exact (ih hc).cons l

/-- A text on one line is found in the contents of that line. -/
theorem IsLayout.isInfix_of_oneLine {before word after : List Char} (h : IsLayout ls (before ++ word ++ after))
    (hne : word ≠ []) (hword : ∀ c ∈ word, c ≠ '\n' ∧ c ≠ '\r') :
    ∃ l, ls[before.count '\n']? = some l ∧ word <:+: l.content := by
  have hpos : 0 < word.length := List.length_pos_of_ne_nil hne
  have hat (i : Nat) (hi : i < word.length) : OnLine ls (before.count '\n') (before.length + i) := by
    have hc : (before ++ word ++ after)[before.length + i]? = some word[i] := by
      rw [List.append_assoc, List.getElem?_append_right (Nat.le_add_right _ _), Nat.add_sub_cancel_left,
        List.getElem?_append_left hi, List.getElem?_eq_getElem hi]
    have hends := hword _ (List.getElem_mem hi)
    have hcount : ((before ++ word ++ after).take (before.length + i)).count '\n' = before.count '\n' := by
      rw [List.append_assoc, List.take_length_add_append, List.count_append,
        List.take_append_of_le_length (Nat.le_of_lt hi)]
      have hzero : (word.take i).count '\n' = 0 :=
        List.count_eq_zero.mpr fun hmem => (hword _ (List.mem_of_mem_take hmem)).1 rfl
      omega
    rw [← hcount]
    exact h.onLine hc hends.1 hends.2
  obtain ⟨l, hl, hfrom, -⟩ := hat 0 hpos
  obtain ⟨l', hl', -, hto⟩ := hat (word.length - 1) (by omega)
  obtain rfl : l = l' := Option.some.inj (hl.symm.trans hl')
  refine ⟨l, hl, ?_⟩
  -- Both ends of the word are among the contents of one line, which are a part of the text.
  generalize hpre : (ls.take (before.count '\n')).flatMap Line.chars = pre at hfrom hto
  have htext : before ++ word ++ after =
      pre ++ (l.content ++ (l.ending ++ (ls.drop (before.count '\n' + 1)).flatMap Line.chars)) := by
    rw [h.eq_flatMap, ← hpre]
    conv_lhs => rw [← List.take_append_drop (before.count '\n') ls]
    obtain ⟨hlt, rfl⟩ := List.getElem?_eq_some_iff.mp hl
    rw [List.flatMap_append, List.drop_eq_getElem_cons hlt, List.flatMap_cons, Line.chars, List.append_assoc]
  obtain ⟨skip, hskip⟩ := Nat.exists_eq_add_of_le (by omega : pre.length ≤ before.length)
  have hword : word = (l.content.drop skip).take word.length := by
    have hdrop := congrArg (fun cs => (cs.drop before.length).take word.length) htext
    rw [List.append_assoc, List.drop_left, List.take_left, hskip, List.drop_length_add_append,
      List.drop_append_of_le_length (by omega), List.take_append_of_le_length] at hdrop
    · exact hdrop
    · rw [List.length_drop]
      omega
  rw [hword]
  exact (List.take_prefix _ _).isInfix.trans (List.drop_suffix _ _).isInfix

end CodeContext.Text
