import CodeContext.Number.Tenths
import CodeContext.Text.Lowercase
import Mathlib.Data.List.Infix
import Mathlib.Tactic.Lemma

/-!
# Cutting texts at marks

A text put together around a mark can be cut in one place only, as long as the mark does not occur on
one of its sides. This file has the cuts at the first and at the last mark, the cuts of a list of items
with commas between them and of lines, and the texts of numbers, where only certain marks can occur.
-/

namespace CodeContext.Text

lemma occursIn_iff {needle text : List Char} : occursIn needle text = true ↔ needle <:+: text := by
  induction text with
  | nil => simp [occursIn]
  | cons c rest ih => rw [occursIn, Bool.or_eq_true, List.isPrefixOf_iff_prefix, ih, List.infix_cons_iff]

lemma toUTF8_eq_flatMap (s : String) : s.toUTF8.data.toList = s.toList.flatMap String.utf8EncodeChar := by
  rw [String.toUTF8, ← String.utf8Encode_toList, List.utf8Encode, List.data_toByteArray]

lemma fromUTF8?_eq_some_iff {bytes : ByteArray} {s : String} : String.fromUTF8? bytes = some s ↔ bytes = s.toUTF8 := by
  unfold String.fromUTF8?
  split
  · rw [Option.some_inj]
    constructor
    · rintro rfl
      rfl
    · intro h
      apply String.toByteArray_inj.mp
      exact h
  · rename_i hnot
    refine iff_of_false nofun fun h => hnot ?_
    rw [h]
    exact s.isValidUTF8

lemma fromUTF8?_toUTF8 (s : String) : String.fromUTF8? s.toUTF8 = some s :=
  fromUTF8?_eq_some_iff.mpr rfl

/-! ### One mark -/

lemma cons_cut_first {c : Char} {a b x y : List Char} (ha : c ∉ a) (hb : c ∉ b)
    (h : a ++ c :: x = b ++ c :: y) : a = b ∧ x = y := by
  induction a generalizing b with
  | nil =>
    cases b with
    | nil => simpa using h
    | cons d b =>
      have hd : c = d := (List.cons.inj h).1
      exact absurd (hd ▸ List.mem_cons_self) hb
  | cons d a ih =>
    cases b with
    | nil =>
      have hd : d = c := (List.cons.inj h).1
      exact absurd (hd ▸ List.mem_cons_self) ha
    | cons e b =>
      obtain ⟨rfl, htail⟩ := List.cons.inj h
      have hrest := ih (fun hc => ha (List.mem_cons_of_mem _ hc))
        (fun hc => hb (List.mem_cons_of_mem _ hc)) htail
      exact ⟨by rw [hrest.1], hrest.2⟩

lemma cons_cut_last {c : Char} {a b x y : List Char} (hx : c ∉ x) (hy : c ∉ y)
    (h : a ++ c :: x = b ++ c :: y) : a = b ∧ x = y := by
  have hr : x.reverse ++ c :: a.reverse = y.reverse ++ c :: b.reverse := by
    simpa using congrArg List.reverse h
  have hcut := cons_cut_first (by simpa using hx) (by simpa using hy) hr
  exact ⟨List.reverse_inj.mp hcut.2, List.reverse_inj.mp hcut.1⟩

/-- A separator is found again where its first character comes first. -/
theorem cut_first {sep : String} {c : Char} {cs : List Char} (hsep : sep.toList = c :: cs)
    {a b x y : String} (ha : c ∉ a.toList) (hb : c ∉ b.toList) (h : a ++ sep ++ x = b ++ sep ++ y) :
    a = b ∧ x = y := by
  have hl : a.toList ++ c :: (cs ++ x.toList) = b.toList ++ c :: (cs ++ y.toList) := by
    simpa [String.toList_append, hsep] using congrArg String.toList h
  have hcut := cons_cut_first ha hb hl
  exact ⟨String.toList_inj.mp hcut.1, String.toList_inj.mp (List.append_cancel_left hcut.2)⟩

/-- A separator is found again where its first character comes last. -/
theorem cut_last {sep : String} {c : Char} {cs : List Char} (hsep : sep.toList = c :: cs) (hcs : c ∉ cs)
    {a b x y : String} (hx : c ∉ x.toList) (hy : c ∉ y.toList) (h : a ++ sep ++ x = b ++ sep ++ y) :
    a = b ∧ x = y := by
  have hl : a.toList ++ c :: (cs ++ x.toList) = b.toList ++ c :: (cs ++ y.toList) := by
    simpa [String.toList_append, hsep] using congrArg String.toList h
  have hcut := cons_cut_last (by simp [hcs, hx]) (by simp [hcs, hy]) hl
  exact ⟨String.toList_inj.mp hcut.1, String.toList_inj.mp (List.append_cancel_left hcut.2)⟩

/-! ### Lines -/

/-- A text that fits on one line. -/
def OneLine (text : String) : Prop :=
  '\n' ∉ text.toList

instance (text : String) : Decidable (OneLine text) :=
  inferInstanceAs (Decidable ('\n' ∉ text.toList))

@[simp]
lemma oneLine_append {a b : String} : OneLine (a ++ b) ↔ OneLine a ∧ OneLine b := by
  simp [OneLine, String.toList_append]

/-- Lines are found again in the text that ends each of them with a line feed. -/
theorem eq_of_join_lines {ps qs : List String} (hp : ∀ p ∈ ps, OneLine p) (hq : ∀ q ∈ qs, OneLine q)
    (h : String.join (ps.map (· ++ "\n")) = String.join (qs.map (· ++ "\n"))) : ps = qs := by
  induction ps generalizing qs with
  | nil =>
    cases qs with
    | nil => rfl
    | cons q qs =>
      have hl := congrArg String.toList h
      simp [String.toList_append] at hl
  | cons p ps ih =>
    cases qs with
    | nil =>
      have hl := congrArg String.toList h
      simp [String.toList_append] at hl
    | cons q qs =>
      rw [List.map_cons, List.map_cons, String.join_cons, String.join_cons] at h
      obtain ⟨rfl, hrest⟩ := cut_first (c := '\n') rfl (hp p List.mem_cons_self) (hq q List.mem_cons_self) h
      rw [ih (fun r hr => hp r (List.mem_cons_of_mem _ hr))
        (fun r hr => hq r (List.mem_cons_of_mem _ hr)) hrest]

/-! ### Items with commas between them -/

/-- A text on one line that does not look like two items of a list. -/
structure IsItem (text : String) : Prop where
  oneLine : OneLine text
  whole : ¬ [',', ' '] <:+: text.toList

instance (text : String) : Decidable (IsItem text) :=
  decidable_of_iff (OneLine text ∧ ¬ [',', ' '] <:+: text.toList)
    ⟨fun h => ⟨h.1, h.2⟩, fun h => ⟨h.oneLine, h.whole⟩⟩

lemma not_comma_of_append {a d x : List Char} {y : List Char} (hd : d ≠ []) (ha : ¬ [',', ' '] <:+: a ++ d)
    (h : ',' :: ' ' :: x = d ++ ',' :: ' ' :: y) : False := by
  cases d with
  | nil => exact hd rfl
  | cons c d =>
    cases d with
    | nil => simp at h
    | cons e d =>
      rw [List.cons_append, List.cons_append, List.cons.injEq, List.cons.injEq] at h
      obtain ⟨rfl, rfl, -⟩ := h
      exact ha ⟨a, d, by simp⟩

lemma cons_cut_comma {a b x y : List Char} (ha : ¬ [',', ' '] <:+: a) (hb : ¬ [',', ' '] <:+: b)
    (h : a ++ ',' :: ' ' :: x = b ++ ',' :: ' ' :: y) : a = b ∧ x = y := by
  rcases List.append_eq_append_iff.mp h with ⟨d, rfl, hd⟩ | ⟨d, rfl, hd⟩
  · by_cases hnil : d = []
    · subst hnil
      simpa using hd
    · exact (not_comma_of_append hnil hb hd).elim
  · by_cases hnil : d = []
    · subst hnil
      simpa [eq_comm] using hd
    · exact (not_comma_of_append hnil ha hd).elim

lemma cut_comma {a b x y : String} (ha : IsItem a) (hb : IsItem b)
    (h : a ++ ", " ++ x = b ++ ", " ++ y) : a = b ∧ x = y := by
  have hl : a.toList ++ ',' :: ' ' :: x.toList = b.toList ++ ',' :: ' ' :: y.toList := by
    simpa [String.toList_append] using congrArg String.toList h
  have hcut := cons_cut_comma ha.whole hb.whole hl
  exact ⟨String.toList_inj.mp hcut.1, String.toList_inj.mp hcut.2⟩

lemma not_isItem_of_comma {a x : String} : ¬ IsItem (a ++ ", " ++ x) := by
  intro h
  exact h.whole ⟨a.toList, x.toList, by simp [String.toList_append]⟩

/-- The items of a list that is not empty are found again in its text. -/
theorem eq_of_intercalate_comma {xs ys : List String} (hx : ∀ x ∈ xs, IsItem x) (hy : ∀ y ∈ ys, IsItem y)
    (hxs : xs ≠ []) (hys : ys ≠ [])
    (h : String.intercalate ", " xs = String.intercalate ", " ys) : xs = ys := by
  induction xs generalizing ys with
  | nil => exact absurd rfl hxs
  | cons x xs ih =>
    cases ys with
    | nil => exact absurd rfl hys
    | cons y ys =>
      by_cases hxnil : xs = [] <;> by_cases hynil : ys = []
      · subst hxnil hynil
        simpa using h
      · subst hxnil
        rw [String.intercalate_singleton, String.intercalate_cons_of_ne_nil hynil] at h
        exact absurd (h ▸ hx x List.mem_cons_self) not_isItem_of_comma
      · subst hynil
        rw [String.intercalate_singleton, String.intercalate_cons_of_ne_nil hxnil] at h
        exact absurd (h ▸ hy y List.mem_cons_self) not_isItem_of_comma
      · rw [String.intercalate_cons_of_ne_nil hxnil, String.intercalate_cons_of_ne_nil hynil] at h
        obtain ⟨rfl, hrest⟩ := cut_comma (hx x List.mem_cons_self) (hy y List.mem_cons_self) h
        rw [ih (fun z hz => hx z (List.mem_cons_of_mem _ hz)) (fun z hz => hy z (List.mem_cons_of_mem _ hz))
          hxnil hynil hrest]

lemma oneLine_intercalate {xs : List String} (h : ∀ x ∈ xs, OneLine x) :
    OneLine (String.intercalate ", " xs) := by
  induction xs with
  | nil => decide
  | cons x xs ih =>
    have hx := h x List.mem_cons_self
    by_cases hnil : xs = []
    · rw [hnil, String.intercalate_singleton]
      exact hx
    · rw [String.intercalate_cons_of_ne_nil hnil, oneLine_append, oneLine_append]
      exact ⟨⟨hx, by decide⟩, ih fun y hy => h y (List.mem_cons_of_mem _ hy)⟩

lemma isItem_append {a b : String} (ha : IsItem a) (hb : ' ' ∉ b.toList) (hline : OneLine b) :
    IsItem (a ++ b) := by
  refine ⟨oneLine_append.mpr ⟨ha.oneLine, hline⟩, ?_⟩
  rintro ⟨s, t, h⟩
  rw [String.toList_append] at h
  rcases List.append_eq_append_iff.mp h with ⟨d, hd, -⟩ | ⟨d, hd, ht⟩
  · exact ha.whole ⟨s, d, hd.symm⟩
  · -- The space of the separator is either the last character of `a` or one of `b`.
    rcases List.eq_nil_or_concat d with rfl | ⟨d, c, rfl⟩
    · exact ha.whole ⟨s, [], by simpa using hd⟩
    · have hc : c = ' ' := by
        have hlast := congrArg List.getLast? hd
        simpa [eq_comm] using hlast
      exact hb (by rw [ht, hc]; simp)

/-! ### Numbers -/

lemma notMem_natText {c : Char} (hc : c.isDigit = false) (n : Nat) : c ∉ (toString n).toList := by
  rw [Nat.toString_eq_repr, Nat.toList_repr]
  intro h
  have hdigit := Nat.isDigit_of_mem_toDigits (by decide) (by decide) h
  rw [hc] at hdigit
  exact Bool.noConfusion hdigit

lemma notMem_intText {c : Char} (hc : c.isDigit = false) (hm : c ≠ '-') (i : Int) :
    c ∉ (toString i).toList := by
  rw [Int.toString_eq_repr, Int.repr_eq_if]
  split
  · exact notMem_natText hc _
  · rw [String.toList_append]
    simpa [hm] using notMem_natText hc (-i).toNat

lemma natText_injective {m n : Nat} (h : toString m = toString n) : m = n := by
  have hd : Nat.toDigits 10 m = Nat.toDigits 10 n := by
    simpa using congrArg String.toList h
  rw [← Nat.ofDigitChars_ten_toDigits (n := m), hd, Nat.ofDigitChars_ten_toDigits]

lemma natText_ne_minus (n : Nat) (x y : String) : toString n ++ x ≠ "-" ++ y := by
  intro h
  have hl : Nat.toDigits 10 n ++ x.toList = '-' :: y.toList := by
    simpa [String.toList_append] using congrArg String.toList h
  obtain ⟨c, cs, hc⟩ := List.exists_cons_of_ne_nil (Nat.toDigits_ne_nil (n := n) (b := 10))
  rw [hc] at hl
  have hmem : '-' ∈ Nat.toDigits 10 n := by
    rw [hc, ← (List.cons.inj hl).1]
    exact List.mem_cons_self
  exact notMem_natText (c := '-') rfl n (by simpa using hmem)

/-- An integer is found again before a minus sign, although it may have one of its own. -/
theorem intText_cut {i j : Int} {x y : String} (h : toString i ++ "-" ++ x = toString j ++ "-" ++ y) :
    i = j ∧ x = y := by
  have hcut {m n : Nat} (h : toString m ++ "-" ++ x = toString n ++ "-" ++ y) : m = n ∧ x = y := by
    have hparts := cut_first (c := '-') rfl (notMem_natText rfl m) (notMem_natText rfl n) h
    exact ⟨natText_injective hparts.1, hparts.2⟩
  rw [Int.toString_eq_repr, Int.repr_eq_if, Int.toString_eq_repr, Int.repr_eq_if] at h
  by_cases hi : 0 ≤ i <;> by_cases hj : 0 ≤ j <;> simp only [hi, hj, if_true, if_false] at h
  · have hparts := hcut h
    exact ⟨by omega, hparts.2⟩
  · rw [String.append_assoc, String.append_assoc, String.append_assoc] at h
    exact (natText_ne_minus _ _ _ h).elim
  · rw [String.append_assoc, String.append_assoc, String.append_assoc] at h
    exact (natText_ne_minus _ _ _ h.symm).elim
  · rw [String.append_assoc, String.append_assoc, String.append_assoc, String.append_assoc,
      String.append_right_inj, ← String.append_assoc, ← String.append_assoc] at h
    have hparts := hcut h
    exact ⟨by omega, hparts.2⟩

lemma intText_injective {i j : Int} (h : toString i = toString j) : i = j := by
  have hd : toString i ++ "-" ++ "" = toString j ++ "-" ++ "" := by rw [h]
  exact (intText_cut hd).1

/-- A text with one decimal place has no characters but digits, a sign, a point and some letters. -/
lemma notMem_tenthsText {c : Char} (hc : c.isDigit = false) (hs : c ∉ "-.NaNinf".toList) (x : Binary64) :
    c ∉ x.tenthsText.toList := by
  have hlit (s : String) (hsub : s.toList.all ("-.NaNinf".toList.contains ·) = true) : c ∉ s.toList := by
    intro h
    have hmem := List.all_eq_true.mp hsub c h
    exact hs (List.contains_iff_mem.mp hmem)
  have hsign : c ∉ (if x.negative then "-" else "").toList := by
    split
    · exact hlit "-" rfl
    · exact hlit "" rfl
  unfold Binary64.tenthsText
  split
  · exact hlit "NaN" rfl
  · dsimp only
    split
    · rw [String.toList_append, List.mem_append, not_or]
      exact ⟨hsign, hlit "inf" rfl⟩
    · rw [String.toList_append, String.toList_append, String.toList_append]
      simp only [List.mem_append, not_or]
      exact ⟨⟨⟨hsign, notMem_natText hc _⟩, hlit "." rfl⟩, notMem_natText hc _⟩

end CodeContext.Text
