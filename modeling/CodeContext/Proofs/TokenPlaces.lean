import CodeContext.CSharp.Lexer
import CodeContext.Proofs.ParsedTexts

/-!
# Where tokens stand

Each token of the lexer stands at a place of its own in the text, and the places follow each other as the tokens
do. The line feeds before its two ends give its lines. Words and marks are spelled as they stand in the text, and
no token that is well formed begins with the end of a line. Line feeds before a text are passed over, and each
of them moves the tokens one place on and one line down.
-/

namespace CodeContext.CSharp

/-- Neither a word nor a mark. -/
def Symbol.IsUnspelled : Symbol → Prop
  | .word _ => False
  | .mark _ => False
  | _ => True

/-- The symbol of a token has these characters. -/
structure Symbol.Spells (s : Symbol) (chars : List Char) : Prop where
  head : s ≠ .invalid → ∀ c ∈ chars.head?, NoLineEnd c
  word : ∀ w, s = .word w → w.toList = chars ∧ ∀ c ∈ chars, NoLineEnd c
  mark : ∀ m, s = .mark m → m.toList = chars

lemma Symbol.IsUnspelled.spells {s : Symbol} (hs : s.IsUnspelled) {c : Char} (hc : s = .invalid ∨ NoLineEnd c)
    (rest : List Char) (n : Nat) : s.Spells ((c :: rest).take (n + 1)) where
  head hinvalid := by simpa using hc.resolve_left hinvalid
  word w hw := by
    subst hw
    exact hs.elim
  mark m hm := by
    subst hm
    exact hs.elim

namespace Lexer

/-! ### Words -/

lemma noLineEnd_of_isHexDigit {c : Char} (h : isHexDigit c = true) : NoLineEnd c := by
  constructor
  · rintro rfl
    exact absurd h (by decide)
  · rintro rfl
    exact absurd h (by decide)

lemma noLineEnd_of_isWordPart {c : Char} (h : isWordPart c = true) : NoLineEnd c := by
  constructor
  · rintro rfl
    exact absurd h (by decide)
  · rintro rfl
    exact absurd h (by decide)

lemma noLineEnd_of_isWordStart {c : Char} (h : isWordStart c = true) : NoLineEnd c :=
  noLineEnd_of_isWordPart (by simp [isWordPart, h])

lemma noLineEnd_of_not_isSpace {c : Char} (h : isSpace c = false) : NoLineEnd c := by
  constructor
  · rintro rfl
    exact absurd h (by decide)
  · rintro rfl
    exact absurd h (by decide)

lemma noLineEnd_take_hex {n : Nat} {cs : List Char} (h : n ≤ runLength isHexDigit (cs.take n)) :
    ∀ c ∈ cs.take n, NoLineEnd c := by
  have hbegins := List.takeWhile_prefix isHexDigit (l := cs.take n)
  have hlength : (cs.take n).length ≤ ((cs.take n).takeWhile isHexDigit).length :=
    Nat.le_trans (List.length_take_le n cs) h
  have hall := hbegins.eq_of_length_le hlength
  intro c hc
  rw [← hall] at hc
  exact noLineEnd_of_isHexDigit (List.all_eq_true.mp (List.all_takeWhile (l := cs.take n)) c hc)

lemma noLineEnd_escape (cs : List Char) : ∀ c ∈ cs.take (escapeLength cs), NoLineEnd c := by
  have hmark (u : Char) (hu : NoLineEnd u) (n : Nat) (rest : List Char)
      (h : ∀ c ∈ rest.take n, NoLineEnd c) : ∀ c ∈ ('\\' :: u :: rest).take (n + 2), NoLineEnd c := by
    rw [List.take_succ_cons, List.take_succ_cons]
    exact List.forall_mem_cons.mpr ⟨by decide, List.forall_mem_cons.mpr ⟨hu, h⟩⟩
  unfold escapeLength
  split
  · rename_i rest
    split
    · rename_i h
      exact hmark 'u' (by decide) 4 rest (noLineEnd_take_hex h)
    · simp
  · rename_i rest
    split
    · rename_i h
      exact hmark 'U' (by decide) 8 rest (noLineEnd_take_hex h)
    · simp
  · simp

lemma noLineEnd_take_add {n m : Nat} {cs : List Char} (hn : ∀ c ∈ cs.take n, NoLineEnd c)
    (hm : ∀ c ∈ (cs.drop n).take m, NoLineEnd c) : ∀ c ∈ cs.take (n + m), NoLineEnd c := by
  rw [List.take_add]
  exact List.forall_mem_append.mpr ⟨hn, hm⟩

lemma noLineEnd_wordTail (fuel : Nat) (cs : List Char) : ∀ c ∈ cs.take (wordTail fuel cs), NoLineEnd c := by
  fun_induction wordTail fuel cs with
  | case1 | case2 => simp
  | case3 fuel c rest hc ih =>
    rw [Nat.add_comm, List.take_succ_cons]
    exact List.forall_mem_cons.mpr ⟨noLineEnd_of_isWordPart hc, ih⟩
  | case4 => simp
  | case5 fuel c rest hc hn ih => exact noLineEnd_take_add (noLineEnd_escape _) ih

lemma noLineEnd_word (cs : List Char) : ∀ c ∈ cs.take (wordLength cs), NoLineEnd c := by
  unfold wordLength
  split
  · simp
  · rename_i c rest
    split
    · rename_i hc
      rw [Nat.add_comm, List.take_succ_cons]
      exact List.forall_mem_cons.mpr ⟨noLineEnd_of_isWordStart hc, noLineEnd_wordTail _ _⟩
    · split
      · simp
      · exact noLineEnd_take_add (noLineEnd_escape _) (noLineEnd_wordTail _ _)

/-! ### Lexemes -/

/-- The token that is found, if any, has the characters that the lexeme takes. -/
def Spells (l : Lexeme) (cs : List Char) : Prop :=
  ∀ s, l.symbol = some s → s.Spells (cs.take (l.more + 1))

variable {c : Char} {rest : List Char} {quotes : List Quote}

lemma spells_gap (n : Nat) (cs : List Char) : Spells (gap n quotes) cs := by
  intro s hs
  cases hs

lemma spells_token {s : Symbol} (hc : NoLineEnd c) (n : Nat) (hs : s.IsUnspelled := by trivial) :
    Spells (token n s quotes) (c :: rest) := by
  intro s' hs'
  obtain rfl : s = s' := Option.some.inj hs'
  exact hs.spells (.inr hc) rest (n - 1)

lemma spells_invalid (n : Nat) : Spells (token n .invalid quotes) (c :: rest) := by
  intro s hs
  obtain rfl : .invalid = s := Option.some.inj hs
  exact Symbol.IsUnspelled.spells (s := .invalid) trivial (.inl rfl) rest (n - 1)

lemma spells_tokenOr {s : Symbol} (hc : NoLineEnd c) (n : Option Nat) (hs : s.IsUnspelled := by trivial) :
    Spells (tokenOr n s quotes) (c :: rest) := by
  cases n with
  | none => exact spells_invalid 1
  | some n => exact spells_token hc n hs

lemma spells_word {n : Nat} {cs : List Char} (hn : 0 < n) (hcs : ∀ c ∈ cs.take n, NoLineEnd c) :
    Spells (token n (.word (String.ofList (cs.take n))) quotes) cs := by
  intro s hs
  obtain rfl : .word _ = s := Option.some.inj hs
  have hmore : n - 1 + 1 = n := by omega
  refine ⟨fun _ c hc => ?_, fun w hw => ?_, fun m hm => nomatch hm⟩
  · rw [token, hmore] at hc
    exact hcs c (List.mem_of_mem_head? hc)
  · obtain rfl : String.ofList (cs.take n) = w := Symbol.word.inj hw
    rw [token, hmore, String.toList_ofList]
    exact ⟨rfl, hcs⟩

lemma spells_mark {m : String} {cs : List Char} (hm : m ≠ "") (hbegins : m.toList <+: cs)
    (hc : ∀ c ∈ cs.head?, NoLineEnd c) (quotes : List Quote) : Spells (token m.length (.mark m) quotes) cs := by
  intro s hs
  obtain rfl : .mark m = s := Option.some.inj hs
  have hlength : m.length - 1 + 1 = m.toList.length := by
    have hpos : m.toList.length ≠ 0 := by simpa using hm
    rw [← String.length_toList]
    omega
  have htake : cs.take (m.length - 1 + 1) = m.toList := by
    rw [hlength]
    exact (List.prefix_iff_eq_take.mp hbegins).symm
  refine ⟨fun _ c hhead => ?_, fun w hw => (nomatch hw), fun m' hm' => ?_⟩
  · rw [token, htake] at hhead
    obtain ⟨after, rfl⟩ := hbegins
    exact hc c (by rw [List.head?_append, Option.mem_def.mp hhead, Option.some_or]; rfl)
  · obtain rfl : m = m' := Symbol.mark.inj hm'
    exact htake.symm

lemma spells_directive (rest : List Char) : Spells (directive rest quotes) ('#' :: rest) := by
  have hsign : NoLineEnd '#' := by decide
  unfold directive
  dsimp only
  split
  · split
    · exact spells_invalid _
    · split <;> exact spells_token hsign _
  · split
    · exact spells_token hsign _
    · split
      · exact spells_token hsign _
      · split
        · exact spells_gap _ _
        · exact spells_invalid 1

lemma spells_interpolation (hc : NoLineEnd c) {found : Lexeme} (h : interpolation (c :: rest) quotes = some found) :
    Spells found (c :: rest) := by
  unfold interpolation at h
  dsimp only at h
  split at h
  · cases h
  · split at h
    · split at h
      · obtain rfl := Option.some.inj h
        exact spells_token hc _
      · cases h
    · split at h
      · obtain rfl := Option.some.inj h
        exact spells_token hc _
      · split at h
        · obtain rfl := Option.some.inj h
          exact spells_token hc _
        · cases h

lemma spells_inText (q : Quote) : Spells (inText q quotes (c :: rest)) (c :: rest) := by
  unfold inText
  dsimp only
  split
  · rename_i hc
    obtain rfl : c = '"' := by simpa using hc
    have hquote : NoLineEnd '"' := by decide
    split
    · split
      · exact spells_token hquote _
      · exact spells_gap _ _
    · split
      · exact spells_gap _ _
      · exact spells_token hquote _
  · split
    · rename_i hc
      obtain rfl : c = '\x7b' := by simpa using hc
      have hbrace : NoLineEnd '\x7b' := by decide
      split
      · split
        · exact spells_token hbrace _
        · exact spells_gap _ _
      · split
        · exact spells_gap _ _
        · exact spells_token hbrace _
    · split
      · exact spells_gap _ _
      · split
        · exact spells_invalid 1
        · split
          · split
            · exact spells_invalid 1
            · exact spells_gap _ _
          · exact spells_gap _ _

lemma spells_markAt (hc : NoLineEnd c) : Spells (markAt (c :: rest) quotes) (c :: rest) := by
  have hhead : ∀ c' ∈ (c :: rest).head?, NoLineEnd c' := by simpa using hc
  unfold markAt
  split
  · rename_i m hm
    have hne : ∀ m ∈ longMarks, m ≠ "" := by decide
    have hbegins := List.find?_some hm
    exact spells_mark (hne m (List.mem_of_find?_eq_some hm)) (List.isPrefixOf_iff_prefix.mp hbegins) hhead _
  · dsimp only
    split
    · have hlength : (String.singleton c).length = 1 := by simp
      have hmark := spells_mark (m := String.singleton c) (by simp) (by simp) hhead
      rw [hlength] at hmark
      exact hmark _
    · exact spells_invalid 1

lemma spells_inCode : Spells (inCode (c :: rest) quotes) (c :: rest) := by
  unfold inCode
  dsimp only
  split
  · exact spells_gap _ _
  · rename_i hspace
    have hc := noLineEnd_of_not_isSpace (Bool.not_eq_true _ ▸ hspace)
    split
    · exact spells_gap _ _
    split
    · split
      · exact spells_gap _ _
      · exact spells_invalid 2
    split
    · rename_i hsign
      obtain rfl : c = '#' := by simpa using hsign
      exact spells_directive rest
    split
    · exact spells_token hc _
    split
    · split <;> exact spells_tokenOr hc _
    split
    · exact spells_tokenOr hc _
    split
    · exact spells_tokenOr hc _
    split
    · rename_i hverbatim
      have hat : c = '@' := by
        rw [Bool.and_eq_true] at hverbatim
        simpa using hverbatim.1
      refine spells_word (by omega) ?_
      rw [Nat.add_comm, List.take_succ_cons, hat]
      exact List.forall_mem_cons.mpr ⟨by decide, noLineEnd_word rest⟩
    split
    · cases hfound : interpolation (c :: rest) quotes with
      | none => exact spells_invalid 1
      | some found => exact spells_interpolation hc hfound
    · split
      · exact spells_markAt hc
      · rename_i n hn
        exact spells_word (Nat.pos_of_ne_zero hn) (noLineEnd_word _)

/-- A token is spelled by the characters of its lexeme. -/
theorem spells_lexeme (quotes : List Quote) (c : Char) (rest : List Char) :
    Spells (lexeme quotes (c :: rest)) (c :: rest) := by
  unfold lexeme
  split
  · exact spells_inCode
  · split
    · exact spells_inText _
    · dsimp only
      split
      · rename_i heq
        obtain ⟨rfl, -⟩ := List.cons.inj heq
        split
        · split
          · exact spells_token (by decide) _
          · exact spells_invalid 1
        · exact spells_inCode
      · rename_i heq
        obtain ⟨rfl, -⟩ := List.cons.inj heq
        split
        · exact spells_token (by decide) _
        · exact spells_inCode
      · exact spells_inCode

end Lexer

/-! ### Tokens in the text -/

namespace Token

/-- A token that is cut out of a text by the lexer: if it is well formed, it does not begin with the end of a line. -/
structure IsLexed (t : Token) (text before taken after : List Char) : Prop extends t.IsCut text before taken after where
  head : t.symbol ≠ .invalid → ∃ c rest, taken = c :: rest ∧ NoLineEnd c

end Token

namespace Lexer

lemma isLexed_tokensFrom (quotes : List Quote) (glued : Bool) (place line : Nat) (cs : List Char) :
    ∀ before : List Char, place = before.length → line = before.count '\n' + 1 →
      ∀ t ∈ tokensFrom quotes glued place line cs, place ≤ t.start ∧
        ∃ start taken after, t.IsLexed (before ++ cs) start taken after := by
  fun_induction tokensFrom quotes glued place line cs with
  | case1 => simp
  | case2 quotes glued place line c rest found taken stop lastLine more hsymbol ih =>
    intro before hplace hline t ht
    have hcut : before ++ c :: rest = before ++ taken ++ rest.drop found.more := by
      rw [List.append_assoc, ← List.drop_succ_cons, List.take_append_drop]
    obtain ⟨hstart, hlexed⟩ := ih (before ++ taken) (by rw [List.length_append]; omega)
      (by rw [List.count_append]; omega) t ht
    exact ⟨by omega, hcut ▸ hlexed⟩
  | case3 quotes glued place line c rest found taken stop lastLine more s hsymbol ih =>
    intro before hplace hline t ht
    have hcut : before ++ c :: rest = before ++ taken ++ rest.drop found.more := by
      rw [List.append_assoc, ← List.drop_succ_cons, List.take_append_drop]
    rcases List.mem_cons.mp ht with rfl | ht
    · have hspells := spells_lexeme quotes c rest s hsymbol
      have hlast : lastLine = (before ++ taken).count '\n' + 1 := by
        rw [List.count_append]
        omega
      refine ⟨Nat.le_refl _, before, taken, rest.drop found.more,
        ⟨hcut, hplace, by rw [← hplace], hline, hlast, hspells.word, hspells.mark⟩, fun hinvalid => ?_⟩
      exact ⟨c, _, List.take_succ_cons, hspells.head hinvalid c rfl⟩
    · obtain ⟨hstart, hlexed⟩ := ih (before ++ taken) (by rw [List.length_append]; omega)
        (by rw [List.count_append]; omega) t ht
      exact ⟨by omega, hcut ▸ hlexed⟩

lemma pairwise_tokensFrom (quotes : List Quote) (glued : Bool) (place line : Nat) (cs : List Char) :
    ∀ before : List Char, place = before.length → line = before.count '\n' + 1 →
      (tokensFrom quotes glued place line cs).Pairwise (·.stop ≤ ·.start) := by
  fun_induction tokensFrom quotes glued place line cs with
  | case1 => simp
  | case2 quotes glued place line c rest found taken stop lastLine more hsymbol ih =>
    intro before hplace hline
    exact ih (before ++ taken) (by rw [List.length_append]; omega) (by rw [List.count_append]; omega)
  | case3 quotes glued place line c rest found taken stop lastLine more s hsymbol ih =>
    intro before hplace hline
    have hstop : stop = (before ++ taken).length := by rw [List.length_append]; omega
    have hlast : lastLine = (before ++ taken).count '\n' + 1 := by rw [List.count_append]; omega
    exact .cons (fun t ht => (isLexed_tokensFrom _ _ _ _ _ _ hstop hlast t ht).1) (ih _ hstop hlast)

/-- A text that starts further down has the same tokens further down. What a lexeme takes depends on the text and
the open strings, and on no place. -/
lemma tokensFrom_add (k : Nat) (quotes : List Quote) (glued : Bool) (place line : Nat) (cs : List Char) :
    tokensFrom quotes glued (place + k) (line + k) cs =
      (tokensFrom quotes glued place line cs).map (Token.shift k) := by
  fun_induction tokensFrom quotes glued place line cs with
  | case1 => rw [tokensFrom, List.map_nil]
  | case2 quotes glued place line c rest found taken stop lastLine more hsymbol ih =>
    rw [tokensFrom]
    simp only [more, found, stop, lastLine, taken] at hsymbol ih ⊢
    simp only [hsymbol, Nat.add_right_comm _ k] at ih ⊢
    exact ih
  | case3 quotes glued place line c rest found taken stop lastLine more s hsymbol ih =>
    rw [tokensFrom]
    simp only [more, found, stop, lastLine, taken] at hsymbol ih ⊢
    simp only [hsymbol, Nat.add_right_comm _ k] at ih ⊢
    rw [List.map_cons, ← ih]
    rfl

lemma tokensFrom_lineFeed (place line : Nat) (cs : List Char) :
    tokensFrom [] false place line ('\n' :: cs) = tokensFrom [] false (place + 1) (line + 1) cs := by
  rw [tokensFrom]
  rfl

end Lexer

/-- The place where the tokens of a source start, and the text from there. -/
lemma exists_tokens_eq (source : List Char) : ∃ before cs, before.count '\n' = 0 ∧ source = before ++ cs ∧
    tokens source = Lexer.tokensFrom [] false before.length 1 cs := by
  unfold tokens
  split
  · rename_i rest
    refine ⟨_, rest.dropWhile (· != '\n'), ?_, ?_, rfl⟩
    · refine List.count_eq_zero.mpr fun hmem => ?_
      have hline : '\n' ∈ rest.takeWhile (· != '\n') := by simpa using hmem
      simpa using List.all_eq_true.mp List.all_takeWhile _ hline
    · simp
  · exact ⟨[], source, rfl, rfl, rfl⟩

/-- Each token of a source stands in it. -/
theorem isLexed_of_mem_tokens {source : List Char} :
    ∀ t ∈ tokens source, ∃ before taken after, t.IsLexed source before taken after := by
  obtain ⟨before, cs, hcount, rfl, htokens⟩ := exists_tokens_eq source
  intro t ht
  rw [htokens] at ht
  exact (Lexer.isLexed_tokensFrom _ _ _ _ _ before rfl (by rw [hcount]) t ht).2

/-- The tokens of a source stand one after the other. -/
theorem pairwise_tokens (source : List Char) : (tokens source).Pairwise (·.stop ≤ ·.start) := by
  obtain ⟨before, cs, hcount, rfl, htokens⟩ := exists_tokens_eq source
  rw [htokens]
  exact Lexer.pairwise_tokensFrom _ _ _ _ _ before rfl (by rw [hcount])

/-- A line feed before a source moves its tokens down. -/
theorem tokens_lineFeed {source : List Char} (h : ¬ ['#', '!'] <+: source) :
    tokens ('\n' :: source) = (tokens source).map (Token.shift 1) := by
  have hplain : tokens source = Lexer.tokensFrom [] false 0 1 source := by
    unfold tokens
    split
    · exact absurd (List.prefix_append ['#', '!'] _) h
    · rfl
  have hmoved : tokens ('\n' :: source) = Lexer.tokensFrom [] false 0 1 ('\n' :: source) := rfl
  rw [hmoved, hplain, Lexer.tokensFrom_lineFeed, Lexer.tokensFrom_add]

end CodeContext.CSharp
