import CodeContext.Json.Decoder
import CodeContext.Proofs.PassedScalars
import CodeContext.Proofs.ResponseLines
import Mathlib.Algebra.Group.Int.Defs
import Mathlib.Algebra.Group.Nat.Defs
import Mathlib.Data.List.TakeWhile
import Mathlib.Tactic.Common

/-!
# Scalars read back

A string or an integer that is written within an array or an object is read back from there: every character
of a string, whatever way it is escaped, and every integer of sixty-four bits.
-/

namespace CodeContext.Json

open Cursor

/-! ### Strings -/

lemma hexValue_digitChar : ∀ n < 16, hexValue (Nat.digitChar n) = some n := by
  decide

lemma readUnicode_control {c : Char} (hc : c.toNat < 0x20) (rest : List Char) (pos : Position) :
    ∃ pos', readUnicode ⟨'0' :: '0' :: Nat.digitChar (c.toNat / 16) :: Nat.digitChar (c.toNat % 16) :: rest, pos⟩ =
      .ok (c, ⟨rest, pos'⟩) := by
  have hhigh := hexValue_digitChar (c.toNat / 16) (by omega)
  have hlow := hexValue_digitChar (c.toNat % 16) (by omega)
  have hzero : hexValue '0' = some 0 := rfl
  have hvalue : ((0 * 16 + 0) * 16 + c.toNat / 16) * 16 + c.toNat % 16 = c.toNat := by omega
  have hread : readHex ⟨'0' :: '0' :: Nat.digitChar (c.toNat / 16) :: Nat.digitChar (c.toNat % 16) :: rest, pos⟩ =
      .ok (c.toNat, ⟨rest, ⟨pos.line, pos.column + 4⟩⟩) := by
    simp only [readHex, hzero, hhigh, hlow, hvalue]
  refine ⟨⟨pos.line, pos.column + 4⟩, ?_⟩
  rw [readUnicode, hread]
  have hnoSurrogate : ¬ 0xDC00 ≤ c.toNat := by omega
  have hplain : c.toNat < 0xD800 := by omega
  simp [hnoSurrogate, hplain]

lemma readStringFrom_escapeChar (fuel : Nat) (done : List Char) (c : Char) (rest : List Char) (pos : Position) :
    ∃ pos', readStringFrom (fuel + 1) done ⟨escapeChar c ++ rest, pos⟩ =
      readStringFrom fuel (c :: done) ⟨rest, pos'⟩ := by
  by_cases hquote : c = '"'
  · exact ⟨_, by subst hquote; rfl⟩
  by_cases hslash : c = '\\'
  · exact ⟨_, by subst hslash; rfl⟩
  by_cases hshort : c = '\n' ∨ c = '\r' ∨ c = '\t' ∨ c = '\x08' ∨ c = '\x0c'
  · rcases hshort with rfl | rfl | rfl | rfl | rfl <;> exact ⟨_, rfl⟩
  simp only [not_or] at hshort
  obtain ⟨hn, hr, ht, hb, hf⟩ := hshort
  by_cases hcontrol : c.toNat < 0x20
  · have hescape : escapeChar c =
        ['\\', 'u', '0', '0', Nat.digitChar (c.toNat / 16), Nat.digitChar (c.toNat % 16)] := by
      simp [escapeChar, hquote, hslash, hn, hr, ht, hb, hf, hcontrol]
    obtain ⟨pos', hread⟩ := readUnicode_control hcontrol rest ((pos.after '\\').after 'u')
    refine ⟨pos', ?_⟩
    have hletter : readEscape
        ⟨'u' :: '0' :: '0' :: Nat.digitChar (c.toNat / 16) :: Nat.digitChar (c.toNat % 16) :: rest,
          pos.after '\\'⟩ = .ok (c, ⟨rest, pos'⟩) := hread
    rw [hescape]
    simp only [List.cons_append, List.nil_append, readStringFrom, next?, hletter]
    rfl
  · have hescape : escapeChar c = [c] := by simp [escapeChar, hquote, hslash, hn, hr, ht, hb, hf, hcontrol]
    refine ⟨pos.after c, ?_⟩
    rw [hescape]
    simp only [List.cons_append, List.nil_append, readStringFrom, next?, if_neg hquote, if_neg hslash, if_neg hcontrol]

lemma readStringFrom_write (cs : List Char) (fuel : Nat) (done rest : List Char) (pos : Position)
    (hfuel : cs.length < fuel) : ∃ pos', readStringFrom fuel done ⟨cs.flatMap escapeChar ++ '"' :: rest, pos⟩ =
      .ok (String.ofList (done.reverse ++ cs), ⟨rest, pos'⟩) := by
  induction cs generalizing fuel done pos with
  | nil =>
    obtain ⟨fuel, rfl⟩ := Nat.exists_eq_add_one.mpr hfuel
    exact ⟨_, by simp [readStringFrom, next?]; rfl⟩
  | cons c cs ih =>
    obtain ⟨fuel, rfl⟩ := Nat.exists_eq_add_one.mpr (Nat.zero_lt_of_lt hfuel)
    rw [List.flatMap_cons, List.append_assoc]
    obtain ⟨pos', hstep⟩ := readStringFrom_escapeChar fuel done c (cs.flatMap escapeChar ++ '"' :: rest) pos
    obtain ⟨last, hrest⟩ := ih fuel (c :: done) pos' (Nat.lt_of_succ_lt_succ hfuel)
    exact ⟨last, by rw [hstep, hrest, List.reverse_cons, List.append_assoc, List.singleton_append]⟩

lemma length_le_flatMap_escapeChar (cs : List Char) : cs.length ≤ (cs.flatMap escapeChar).length := by
  have hpos (c : Char) : 1 ≤ (escapeChar c).length := by
    unfold escapeChar
    repeat' split
    all_goals simp
  induction cs with
  | nil => simp
  | cons c cs ih =>
    have := hpos c
    rw [List.flatMap_cons, List.length_append, List.length_cons]
    omega

lemma readString_write (s : String) (rest : List Char) (pos : Position) :
    ∃ pos', readString ⟨s.toList.flatMap escapeChar ++ '"' :: rest, pos⟩ = .ok (s, ⟨rest, pos'⟩) := by
  have hlength := length_le_flatMap_escapeChar s.toList
  obtain ⟨pos', h⟩ := readStringFrom_write s.toList ((s.toList.flatMap escapeChar ++ '"' :: rest).length + 1) [] rest
    pos (by rw [List.length_append]; omega)
  exact ⟨pos', by rw [readString, h, List.reverse_nil, List.nil_append, String.ofList_toList]⟩

/-! ### Integers -/

/-- What may follow a value: the end of the text, a comma, or a closing bracket. -/
def Delimits (rest : List Char) : Prop :=
  ∀ c, rest.head? = some c → c = ',' ∨ c = ']' ∨ c = '\x7d'

/-- A character that does not follow a value stops before what does. -/
lemma Delimits.any_head? {rest : List Char} (h : Delimits rest) {p : Char → Bool}
    (hp : p ',' = false ∧ p ']' = false ∧ p '\x7d' = false) : rest.head?.any p = false := by
  cases hrest : rest.head? with
  | none => rfl
  | some c =>
    rcases h c hrest with rfl | rfl | rfl
    · exact hp.1
    · exact hp.2.1
    · exact hp.2.2

lemma spanFrom_append {p : Char → Bool} {rest : List Char} (hrest : rest.head?.any p = false) (cs : List Char)
    (pos pos' : Position) : (spanFrom p (cs ++ rest) pos').rest = (spanFrom p cs pos).rest ++ rest := by
  induction cs generalizing pos pos' with
  | nil =>
    cases rest with
    | nil => rfl
    | cons c rest =>
      have hc : p c = false := hrest
      simp [spanFrom, hc]
  | cons c cs ih =>
    rw [List.cons_append, spanFrom, spanFrom]
    split
    · exact ih _ _
    · rfl

lemma takeWhile_append_of_stop {p : Char → Bool} {rest : List Char} (hrest : rest.head?.any p = false)
    (cs : List Char) : (cs ++ rest).takeWhile p = cs.takeWhile p := by
  induction cs with
  | nil =>
    cases rest with
    | nil => rfl
    | cons c rest =>
      have hc : p c = false := hrest
      simp [hc]
  | cons c cs ih => rw [List.cons_append, List.takeWhile_cons, List.takeWhile_cons, ih]

lemma spanFrom_all {p : Char → Bool} {cs : List Char} (h : ∀ c ∈ cs, p c = true) (pos : Position) :
    (spanFrom p cs pos).rest = [] := by
  induction cs generalizing pos with
  | nil => rfl
  | cons c cs ih =>
    rw [spanFrom, if_pos (h c List.mem_cons_self)]
    exact ih (fun d hd => h d (List.mem_cons_of_mem c hd)) _

lemma digits_append {ds rest : List Char} (hds : ∀ c ∈ ds, c.isDigit = true) (hrest : Delimits rest) (pos : Position) :
    ∃ pos', Cursor.digits ⟨ds ++ rest, pos⟩ = (ds, ⟨rest, pos'⟩) := by
  have hstop : rest.head?.any Char.isDigit = false := hrest.any_head? (by decide)
  have hall : (ds ++ rest).takeWhile Char.isDigit = ds :=
    (takeWhile_append_of_stop hstop ds).trans (List.takeWhile_eq_self_iff.mpr hds)
  have hspan : (spanFrom Char.isDigit (ds ++ rest) pos).rest = rest := by
    rw [spanFrom_append hstop ds pos, spanFrom_all hds, List.nil_append]
  generalize hk : spanFrom Char.isDigit (ds ++ rest) pos = k at hspan
  refine ⟨k.position, Prod.ext hall ?_⟩
  change spanFrom Char.isDigit (ds ++ rest) pos = _
  rw [hk, ← hspan]

lemma le_ofDigitChars (ds : List Char) (init : Nat) : init ≤ Nat.ofDigitChars 10 ds init := by
  induction ds generalizing init with
  | nil => exact Nat.le_refl _
  | cons c ds ih =>
    rw [Nat.ofDigitChars_cons]
    have := ih (10 * init + (c.toNat - '0'.toNat))
    omega

lemma absorb_eq {ds : List Char} {init : Nat} (h : Nat.ofDigitChars 10 ds init ≤ maxWord) :
    absorb init ds = (Nat.ofDigitChars 10 ds init, ds.length) := by
  induction ds generalizing init with
  | nil => rfl
  | cons c ds ih =>
    have hcons : Nat.ofDigitChars 10 (c :: ds) init = Nat.ofDigitChars 10 ds (init * 10 + (c.toNat - 48)) := by
      rw [Nat.ofDigitChars_cons, Nat.mul_comm]
      rfl
    rw [hcons] at h ⊢
    have hfits := Nat.le_trans (le_ofDigitChars ds _) h
    simp only [absorb, if_pos hfits, ih h, List.length_cons]

lemma exists_digit_toDigits (n : Nat) : ∃ c cs, Nat.toDigits 10 n = c :: cs ∧ c.isDigit = true := by
  obtain ⟨c, cs, hcons⟩ := List.exists_cons_of_ne_nil (Nat.toDigits_ne_nil (n := n) (b := 10))
  exact ⟨c, cs, hcons, Nat.isDigit_of_mem_toDigits (by decide) (by decide) (hcons ▸ List.mem_cons_self)⟩

lemma head?_toDigits_ne_zero {n : Nat} (h : 0 < n) : (Nat.toDigits 10 n).head? ≠ some '0' := by
  induction n using Nat.strongRecOn with
  | ind n ih =>
    rw [Nat.toDigits_eq_if (by decide)]
    split
    · simpa using Nat.ne_of_gt h
    · have hpos : 0 < n / 10 := by omega
      have := ih (n / 10) (by omega) hpos
      rwa [List.head?_append_of_ne_nil _ Nat.toDigits_ne_nil]

lemma Delimits.peek? {rest : List Char} (h : Delimits rest) {c : Char} (hc : c ≠ ',' ∧ c ≠ ']' ∧ c ≠ '\x7d')
    (pos : Position) : (Cursor.peek? ⟨rest, pos⟩ == some c) = false := by
  refine beq_eq_false_iff_ne.mpr fun hpeek => ?_
  rcases h c hpeek with rfl | rfl | rfl
  · exact hc.1 rfl
  · exact hc.2.1 rfl
  · exact hc.2.2 rfl

lemma Delimits.startsExponent {rest : List Char} (h : Delimits rest) (pos : Position) :
    startsExponent ⟨rest, pos⟩ = false := by
  rw [Json.startsExponent, h.peek? (by decide), h.peek? (by decide), Bool.false_or]

lemma readNumber_toDigits (negative : Bool) {n : Nat} (hn : n ≤ maxWord) {rest : List Char} (hrest : Delimits rest)
    (pos : Position) : ∃ pos', readNumber negative ⟨Nat.toDigits 10 n ++ rest, pos⟩ =
      .ok (finishInteger negative n, ⟨rest, pos'⟩) := by
  have hdigits (c : Char) (hc : c ∈ Nat.toDigits 10 n) : c.isDigit = true :=
    Nat.isDigit_of_mem_toDigits (by decide) (by decide) hc
  obtain ⟨pos', hall⟩ := digits_append hdigits hrest pos
  have habsorb : absorb 0 (Nat.toDigits 10 n) = (n, (Nat.toDigits 10 n).length) := by
    rw [absorb_eq (by rwa [Nat.ofDigitChars_ten_toDigits]), Nat.ofDigitChars_ten_toDigits]
  obtain ⟨c, cs, hcons, hc⟩ := exists_digit_toDigits n
  have hnext : Cursor.next? ⟨Nat.toDigits 10 n ++ rest, pos⟩ = some (c, ⟨cs ++ rest, pos.after c⟩) := by
    rw [hcons]
    rfl
  -- Only the number zero starts with a zero, and then no digit follows.
  have hzero : (c = '0' && Option.any Char.isDigit (Cursor.peek? ⟨cs ++ rest, pos.after c⟩)) = false := by
    rcases Nat.eq_zero_or_pos n with rfl | hpos
    · rw [Nat.toDigits_zero] at hcons
      obtain ⟨-, rfl⟩ := List.cons.inj hcons
      rw [List.nil_append]
      exact (congrArg _ (hrest.any_head? (by decide))).trans (Bool.and_false _)
    · have hne : c ≠ '0' := by
        rintro rfl
        exact head?_toDigits_ne_zero hpos (by rw [hcons]; rfl)
      simp [hne]
  refine ⟨pos', ?_⟩
  simp only [readNumber, hnext, hc, Bool.not_true, Bool.false_eq_true, if_false, hzero, hall, habsorb,
    hrest.peek? (c := '.') (by decide), hrest.startsExponent, Nat.sub_self, ne_eq, not_true_eq_false]

/-! ### Texts of values -/

/-- A text that a value is read from, wherever it stands. -/
structure Reads {α : Type} (d : Decoder α) (depth : Nat) (text : List Char) (x : α) : Prop where
  /-- The text begins like a value. -/
  begins : ∃ c rest, text = c :: rest ∧ isSpace c = false ∧ c ≠ ']'
  read : ∀ rest, Delimits rest → ∀ pos, ∃ pos', d.read depth ⟨text ++ rest, pos⟩ = .ok (x, ⟨rest, pos'⟩)

lemma skipSpace_of_begins {text : List Char} (h : ∃ c rest, text = c :: rest ∧ isSpace c = false ∧ c ≠ ']')
    (rest : List Char) (pos : Position) : Cursor.skipSpace ⟨text ++ rest, pos⟩ = ⟨text ++ rest, pos⟩ := by
  obtain ⟨c, cs, rfl, hc, -⟩ := h
  change spanFrom isSpace (c :: (cs ++ rest)) pos = _
  rw [spanFrom, if_neg (by rw [hc]; decide)]
  rfl

lemma reads_string (s : String) (depth : Nat) : Reads Decoder.string depth (writeString s) s where
  begins := ⟨'"', _, rfl, rfl, by decide⟩
  read rest _ pos := by
    obtain ⟨pos', h⟩ := readString_write s rest (pos.after '"')
    refine ⟨pos', ?_⟩
    simpa [Decoder.string, writeString, Cursor.skipSpace, Cursor.skipWhile, spanFrom, isSpace, Cursor.peek?,
      Cursor.skip] using h

/-- An integer of sixty-four bits. -/
def IsInt64 (n : Int) : Prop :=
  -2 ^ 63 ≤ n ∧ n ≤ Decoder.maxInt64

def readSigned (k : Cursor) : Reading Number :=
  let negative := k.peek? == some '-'
  readNumber negative (if negative then k.skip else k)

lemma finishInteger_neg {n : Nat} (hpos : 0 < n) (hn : n ≤ 2 ^ 63) : finishInteger true n = .integer (-n) := by
  have hsmall : ¬ Nat.pow 2 63 < n := Nat.not_lt.mpr hn
  simp [finishInteger, Nat.ne_of_gt hpos, hsmall]

lemma readSigned_intText {n : Int} (hn : IsInt64 n) {rest : List Char} (hrest : Delimits rest) (pos : Position) :
    ∃ pos', readSigned ⟨(toString n).toList ++ rest, pos⟩ = .ok (.integer n, ⟨rest, pos'⟩) := by
  obtain ⟨hlow, hhigh⟩ := hn
  have hmax : Decoder.maxInt64 = 2 ^ 63 - 1 := rfl
  have hword : maxWord = 2 ^ 64 - 1 := rfl
  rw [Int.toString_eq_repr, Int.repr_eq_if]
  split
  · rename_i hpos
    obtain ⟨pos', hread⟩ := readNumber_toDigits false (n := n.toNat) (by omega) hrest pos
    obtain ⟨c, cs, hcons, hdigit⟩ := exists_digit_toDigits n.toNat
    have hc : c ≠ '-' := by
      rintro rfl
      cases hdigit
    have hsign : (Cursor.peek? ⟨Nat.toDigits 10 n.toNat ++ rest, pos⟩ == some '-') = false := by
      simpa [hcons, Cursor.peek?] using hc
    refine ⟨pos', ?_⟩
    simp only [Nat.toList_repr, readSigned, hsign, Bool.false_eq_true, if_false, hread, finishInteger, Bool.not_false,
      if_true, Int.toNat_of_nonneg hpos]
  · obtain ⟨pos', hread⟩ := readNumber_toDigits true (n := (-n).toNat) (by omega) hrest (pos.after '-')
    refine ⟨pos', ?_⟩
    rw [String.toList_append, Nat.toList_repr]
    change readNumber true ⟨Nat.toDigits 10 (-n).toNat ++ rest, pos.after '-'⟩ = _
    rw [hread, finishInteger_neg (by omega) (by omega)]
    congr 3
    omega

def BeginsNumber (text : List Char) : Prop :=
  ∃ c rest, text = c :: rest ∧ (c = '-' ∨ c.isDigit = true)

lemma beginsNumber_intText (n : Int) : BeginsNumber (toString n).toList := by
  rw [Int.toString_eq_repr, Int.repr_eq_if]
  split
  · obtain ⟨c, cs, hcons, hdigit⟩ := exists_digit_toDigits n.toNat
    exact ⟨c, cs, by rw [Nat.toList_repr, hcons], .inr hdigit⟩
  · exact ⟨'-', _, String.toList_append, .inl rfl⟩

lemma BeginsNumber.begins {text : List Char} (h : BeginsNumber text) :
    ∃ c rest, text = c :: rest ∧ isSpace c = false ∧ c ≠ ']' := by
  obtain ⟨c, rest, htext, hc⟩ := h
  have hother {d : Char} (hd : (d ≠ '-' ∧ d.isDigit = false)) : c ≠ d := by
    rintro rfl
    rcases hc with hc | hc
    · exact hd.1 hc
    · rw [hd.2] at hc
      cases hc
  refine ⟨c, rest, htext, ?_, hother (by decide)⟩
  simp [isSpace, hother (d := ' ') (by decide), hother (d := '\n') (by decide), hother (d := '\t') (by decide),
    hother (d := '\r') (by decide)]

lemma BeginsNumber.startsNumber {text : List Char} (h : BeginsNumber text) (rest : List Char) (pos : Position) :
    Decoder.startsNumber ⟨text ++ rest, pos⟩ = true := by
  obtain ⟨c, cs, rfl, hc⟩ := h
  simpa [Decoder.startsNumber, Cursor.peek?] using hc

lemma reads_int64 {n : Int} (hn : IsInt64 n) (depth : Nat) : Reads Decoder.int64 depth (toString n).toList n := by
  have hbegins := beginsNumber_intText n
  refine ⟨hbegins.begins, fun rest hrest pos => ?_⟩
  obtain ⟨pos', hread⟩ := readSigned_intText hn hrest pos
  refine ⟨pos', ?_⟩
  unfold readSigned at hread
  dsimp only at hread
  simp only [Decoder.int64, skipSpace_of_begins hbegins.begins, hbegins.startsNumber, if_true, hread, bind, Except.bind,
    Decoder.int64Of, if_pos hn.2]

end CodeContext.Json
