import CodeContext.Json.Decoder
import Mathlib.Tactic.Common

/-!
# Scalars that are passed over

A string, a number or a word that can be read is passed over up to the place where reading it ends. Reading
checks more on the way, and counts its steps in another way: a character beyond sixteen bits is read in one
step, and passed over in two.
-/

namespace CodeContext.Json

lemma bind_eq_ok_iff {ε α β : Type} {x : Except ε α} {f : α → Except ε β} {b : β} :
    x >>= f = .ok b ↔ ∃ a, x = .ok a ∧ f a = .ok b := by
  cases x <;> simp [bind, Except.bind]

lemma map_eq_ok_iff {ε α β : Type} {x : Except ε α} {f : α → β} {b : β} :
    x.map f = .ok b ↔ ∃ a, x = .ok a ∧ f a = b := by
  cases x <;> simp [Except.map]

lemma readEnd_eq_ok_iff {α : Type} {x y : α} {k : Cursor} : readEnd x k = .ok y ↔ k.skipSpace.rest = [] ∧ x = y := by
  unfold readEnd
  dsimp only
  split
  · rename_i hempty
    simp [List.isEmpty_iff.mp hempty]
  · rename_i hmore
    refine iff_of_false nofun fun h => hmore ?_
    rw [h.1]
    rfl

lemma refuseNext_ne_ok {α : Type} {expected : String} {k : Cursor} {r : α × Cursor} :
    Decoder.refuseNext expected k ≠ .ok r := by
  unfold Decoder.refuseNext
  split
  · exact nofun
  · split
    · exact nofun
    · split
      · exact nofun
      · split <;> exact nofun

namespace Cursor

lemma suffix_spanFrom (p : Char → Bool) (cs : List Char) (pos : Position) : (spanFrom p cs pos).rest <:+ cs := by
  induction cs generalizing pos with
  | nil => exact List.suffix_refl []
  | cons c cs ih =>
    rw [spanFrom]
    split
    · exact (ih _).trans (List.suffix_cons c cs)
    · exact List.suffix_refl _

lemma suffix_digits (k : Cursor) : k.digits.2.rest <:+ k.rest :=
  suffix_spanFrom Char.isDigit k.rest k.position

lemma suffix_skip (k : Cursor) : k.skip.rest <:+ k.rest := by
  obtain ⟨_ | ⟨c, rest⟩, pos⟩ := k
  · exact List.suffix_refl []
  · exact List.suffix_cons c rest

/-- The place after the sign of an exponent. -/
def afterSign (k : Cursor) : Cursor :=
  if k.peek? == some '-' || k.peek? == some '+' then k.skip else k

lemma suffix_afterSign (k : Cursor) : k.afterSign.rest <:+ k.rest := by
  unfold afterSign
  split
  · exact suffix_skip k
  · exact List.suffix_refl _

lemma length_skipSpace_le (k : Cursor) : k.skipSpace.rest.length ≤ k.rest.length :=
  (suffix_spanFrom isSpace k.rest k.position).length_le

lemma length_skip_le (k : Cursor) : k.skip.rest.length ≤ k.rest.length :=
  (suffix_skip k).length_le

lemma length_skip_of_peek? {k : Cursor} {c : Char} (h : k.peek? = some c) : k.skip.rest.length + 1 = k.rest.length := by
  obtain ⟨_ | ⟨c, rest⟩, pos⟩ := k
  · cases h
  · rfl

lemma next?_eq_some {k after : Cursor} {c : Char} (h : k.next? = some (c, after)) :
    k.peek? = some c ∧ after = k.skip := by
  obtain ⟨_ | ⟨d, rest⟩, pos⟩ := k
  · cases h
  · obtain ⟨rfl, rfl⟩ := Prod.mk.inj (Option.some.inj h)
    exact ⟨rfl, rfl⟩

lemma next?_of_peek? {k : Cursor} {c : Char} (h : k.peek? = some c) : k.next? = some (c, k.skip) := by
  obtain ⟨_ | ⟨d, rest⟩, pos⟩ := k
  · cases h
  · obtain rfl := Option.some.inj h
    rfl

lemma length_of_next? {k after : Cursor} {c : Char} (h : k.next? = some (c, after)) :
    after.rest.length + 1 = k.rest.length := by
  obtain ⟨hpeek, rfl⟩ := next?_eq_some h
  exact length_skip_of_peek? hpeek

lemma skipSpace_skipSpace (k : Cursor) : k.skipSpace.skipSpace = k.skipSpace := by
  obtain ⟨rest, pos⟩ := k
  unfold skipSpace skipWhile
  induction rest generalizing pos with
  | nil => rfl
  | cons c rest ih =>
    rw [spanFrom]
    split
    · exact ih _
    · rename_i hspace
      rw [spanFrom, if_neg hspace]

end Cursor

open Cursor

/-! ### Strings -/

lemma length_readHex {k k' : Cursor} {n : Nat} (h : readHex k = .ok (n, k')) : k'.rest.length < k.rest.length := by
  have hrefuse (r : Nat × Cursor) : readHex.refuseHex k ≠ .ok r := by
    unfold readHex.refuseHex
    split <;> exact nofun
  obtain ⟨rest, pos⟩ := k
  unfold readHex at h
  split at h
  · rename_i a b c d rest hrest
    obtain rfl : _ = a :: b :: c :: d :: rest := hrest
    split at h
    · obtain ⟨-, rfl⟩ := Prod.mk.inj (Except.ok.inj h)
      simp only [List.length_cons]
      omega
    · exact absurd h (hrefuse _)
  · exact absurd h (hrefuse _)

lemma passString_short {k after k' : Cursor} {c : Char} (hslash : k.next? = some ('\\', after))
    (hc : after.next? = some (c, k')) (hshort : (shortEscape c).isSome) (n : Nat) :
    passString (n + 1) k = passString n k' := by
  simp [passString, hslash, hc, hshort]

lemma passString_unicode {k after digits k' : Cursor} {x : Nat} (hslash : k.next? = some ('\\', after))
    (hu : after.next? = some ('u', digits)) (hhex : readHex digits = .ok (x, k')) (n : Nat) :
    passString (n + 1) k = passString n k' := by
  have hlong : (shortEscape 'u').isSome = false := rfl
  simp [passString, hslash, hu, hlong, hhex]

lemma next?_of_expectChar {k k' : Cursor} {c : Char} (h : readUnicode.expectChar c k = .ok k') :
    k.next? = some (c, k') := by
  unfold readUnicode.expectChar at h
  split at h
  · cases h
  · split at h
    · rename_i hpeek
      obtain rfl := Except.ok.inj h
      exact next?_of_peek? (beq_iff_eq.mp hpeek)
    · cases h

/-- The second one of two escapes that a character is written as. -/
lemma exists_next?_of_second {k k' : Cursor} {x : Nat}
    (h : readUnicode.expectChar '\\' k >>= readUnicode.expectChar 'u' >>= readHex = .ok (x, k')) :
    ∃ after digits, k.next? = some ('\\', after) ∧ after.next? = some ('u', digits) ∧ readHex digits = .ok (x, k') := by
  obtain ⟨digits, hu, hhex⟩ := bind_eq_ok_iff.mp h
  obtain ⟨after, hslash, hu⟩ := bind_eq_ok_iff.mp hu
  exact ⟨after, digits, next?_of_expectChar hslash, next?_of_expectChar hu, hhex⟩

lemma passString_of_readUnicode {k k' : Cursor} {e : Char} (h : readUnicode k = .ok (e, k')) {before after : Cursor}
    (hslash : before.next? = some ('\\', after)) (hu : after.next? = some ('u', k)) :
    ∃ m, m + k'.rest.length ≤ k.rest.length ∧ ∀ n, passString (n + m) before = passString n k' := by
  unfold readUnicode at h
  split at h
  · cases h
  · rename_i x first hfirst
    have hpass := passString_unicode hslash hu hfirst
    have hlength := length_readHex hfirst
    split at h
    · cases h
    · split at h
      · obtain ⟨-, rfl⟩ := Prod.mk.inj (Except.ok.inj h)
        exact ⟨1, by omega, hpass⟩
      · split at h
        · cases h
        · rename_i y second hsecond
          obtain ⟨after', digits, hslash', hu', hsecond⟩ := exists_next?_of_second hsecond
          have hpass' := passString_unicode hslash' hu' hsecond
          have hlength' := length_readHex hsecond
          have hafter := length_of_next? hslash'
          have hdigits := length_of_next? hu'
          split at h
          · cases h
          · obtain ⟨-, rfl⟩ := Prod.mk.inj (Except.ok.inj h)
            exact ⟨2, by omega, fun n => (hpass (n + 1)).trans (hpass' n)⟩

/-- An escape is passed over in one step, or in two if its character is written as two escapes. -/
lemma passString_of_readEscape {k k' : Cursor} {e : Char} (h : readEscape k = .ok (e, k')) {before : Cursor}
    (hslash : before.next? = some ('\\', k)) :
    ∃ m, m + k'.rest.length ≤ k.rest.length ∧ ∀ n, passString (n + m) before = passString n k' := by
  unfold readEscape at h
  split at h
  · cases h
  · rename_i c after hnext
    have hlength := length_of_next? hnext
    split at h
    · rename_i hshort
      obtain ⟨-, rfl⟩ := Prod.mk.inj (Except.ok.inj h)
      exact ⟨1, by omega, passString_short hslash hnext (by simp [hshort])⟩
    · split at h
      · rename_i hu
        obtain ⟨m, hm, hpass⟩ := passString_of_readUnicode h hslash (hu ▸ hnext)
        exact ⟨m, by omega, hpass⟩
      · cases h

lemma passString_of_readStringFrom {fuel : Nat} {done : List Char} {k k' : Cursor} {s : String}
    (h : readStringFrom fuel done k = .ok (s, k')) :
    k'.rest.length < k.rest.length ∧ ∀ n, k.rest.length < n → passString n k = .ok k' := by
  induction fuel generalizing done k with
  | zero => cases h
  | succ fuel ih =>
    rw [readStringFrom] at h
    cases hnext : k.next? with
    | none => rw [hnext] at h; cases h
    | some next =>
      obtain ⟨c, after⟩ := next
      have hlength := length_of_next? hnext
      rw [hnext] at h
      dsimp only at h
      split at h
      · rename_i hquote
        obtain ⟨-, rfl⟩ := Prod.mk.inj (Except.ok.inj h)
        refine ⟨by omega, fun n hn => ?_⟩
        obtain ⟨n, rfl⟩ := Nat.exists_eq_add_one.mpr (Nat.zero_lt_of_lt hn)
        simp [passString, hnext, hquote]
      · rename_i hquote
        split at h
        · rename_i hslash
          subst hslash
          split at h
          · cases h
          · rename_i e next hescape
            obtain ⟨m, hm, hpass⟩ := passString_of_readEscape hescape hnext
            obtain ⟨hle, hrest⟩ := ih h
            refine ⟨by omega, fun n hn => ?_⟩
            obtain ⟨n, rfl⟩ := Nat.exists_eq_add_of_le' (show m ≤ n by omega)
            rw [hpass]
            exact hrest n (by omega)
        · rename_i hslash
          split at h
          · cases h
          · rename_i hcontrol
            obtain ⟨hle, hpass⟩ := ih h
            refine ⟨by omega, fun n hn => ?_⟩
            obtain ⟨n, rfl⟩ := Nat.exists_eq_add_one.mpr (Nat.zero_lt_of_lt hn)
            rw [passString, hnext]
            simp only [if_neg hquote, if_neg hslash, if_neg hcontrol]
            exact hpass n (by omega)

/-! ### Numbers -/

lemma finishReal_eq_ok {negative : Bool} {significand : Nat} {e : Int} {k k' : Cursor} {n : Number}
    (h : finishReal negative significand e k = .ok (n, k')) : k' = k := by
  unfold finishReal at h
  split at h
  · cases h
  · exact (Prod.mk.inj (Except.ok.inj h)).2.symm

/-- Digits of an exponent are all the digits there are, or some of them. -/
lemma digits_exponentDigits (e : Nat) (cs : List Char) (pos : Position) :
    match exponentDigits e cs pos with
    | (some _, k) => k = (⟨cs, pos⟩ : Cursor).digits.2
    | (none, k) => k.digits.2 = (⟨cs, pos⟩ : Cursor).digits.2 := by
  change match exponentDigits e cs pos with
    | (some _, k) => k = spanFrom Char.isDigit cs pos
    | (none, k) => spanFrom Char.isDigit k.rest k.position = spanFrom Char.isDigit cs pos
  fun_induction exponentDigits e cs pos with
  | case1 e pos => rfl
  | case2 e c rest pos hdigit more hfits ih =>
    rw [spanFrom, if_pos hdigit]
    exact ih
  | case3 e c rest pos hdigit more hlarge => rw [spanFrom, if_pos hdigit]
  | case4 e c rest pos hother => rw [spanFrom, if_neg hother]

lemma passExponent_of_readExponent {negative : Bool} {significand : Nat} {e : Int} {k k' : Cursor} {n : Number}
    (h : readExponent negative significand e k = .ok (n, k')) : passExponent k = .ok k' := by
  unfold readExponent at h
  unfold passExponent
  dsimp only at h ⊢
  generalize hsigned : (if (k.skip.peek? == some '-' || k.skip.peek? == some '+') = true then k.skip.skip else k.skip)
    = signed at h ⊢
  cases hnext : signed.next? with
  | none => rw [hnext] at h; cases h
  | some next =>
    obtain ⟨c, after⟩ := next
    have hpeek := (next?_eq_some hnext).1
    rw [hnext] at h
    dsimp only at h
    split at h
    · cases h
    · rename_i hdigit
      have hdigit : c.isDigit = true := by simpa using hdigit
      have hall := digits_exponentDigits 0 signed.rest signed.position
      rw [hpeek, Option.any_some, if_pos hdigit]
      congr 1
      split at h
      · rename_i value k hexponent
        rw [hexponent] at hall
        rw [finishReal_eq_ok h]
        exact hall.symm
      · rename_i k hexponent
        rw [hexponent] at hall
        split at h
        · cases h
        · obtain ⟨-, rfl⟩ := Prod.mk.inj (Except.ok.inj h)
          exact hall.symm

/-- What follows the digits before a point is passed over like it is read. -/
def passAfterDigits (k : Cursor) : Except Error Cursor :=
  if k.peek? == some '.' then
    if k.skip.digits.1.isEmpty then k.skip.digits.2.failAhead .badNumber
    else if startsExponent k.skip.digits.2 then passExponent k.skip.digits.2
    else .ok k.skip.digits.2
  else if startsExponent k then passExponent k
  else .ok k

lemma passFraction_of_readFraction {negative : Bool} {significand : Nat} {e : Int} {k k' : Cursor} {n : Number}
    (hpoint : (k.peek? == some '.') = true) (h : readFraction negative significand e k = .ok (n, k')) :
    passAfterDigits k = .ok k' := by
  unfold readFraction at h
  dsimp only at h
  rw [passAfterDigits, if_pos hpoint]
  split at h
  · split at h <;> cases h
  · rename_i hdigits
    rw [if_neg hdigits]
    split at h
    · rename_i hexponent
      rw [if_pos hexponent, passExponent_of_readExponent h]
    · rename_i hexponent
      rw [if_neg hexponent, finishReal_eq_ok h]

lemma passNumber_of_readNumber {negative : Bool} {k k' : Cursor} {n : Number}
    (h : readNumber negative k = .ok (n, k')) : passNumber k = .ok k' := by
  unfold readNumber at h
  split at h
  · cases h
  · rename_i c after hnext
    obtain ⟨hpeek, rfl⟩ := next?_eq_some hnext
    split at h
    · cases h
    · rename_i hdigit
      have hdigit : c.isDigit = true := by simpa using hdigit
      split at h
      · cases h
      · rename_i hzero
        have hpass : passNumber k = passAfterDigits k.digits.2 := by
          have hzero' : (k.peek? == some '0' && k.skip.peek?.any Char.isDigit) = false := by
            simpa [hpeek] using hzero
          rw [passNumber, hzero', hpeek]
          simp only [Option.any_some, hdigit, Bool.not_true, Bool.false_eq_true, if_false]
          rfl
        rw [hpass]
        dsimp only at h
        split at h
        · rename_i hpoint
          exact passFraction_of_readFraction hpoint h
        · rename_i hpoint
          rw [passAfterDigits, if_neg hpoint]
          split at h
          · rename_i hexponent
            rw [if_pos hexponent, passExponent_of_readExponent h]
          · rename_i hexponent
            rw [if_neg hexponent]
            split at h
            · rw [finishReal_eq_ok h]
            · rw [(Prod.mk.inj (Except.ok.inj h)).2]

lemma suffix_passExponent {k k' : Cursor} (h : passExponent k = .ok k') : k'.rest <:+ k.rest := by
  have hdigits : (if k.skip.afterSign.peek?.any Char.isDigit then .ok k.skip.afterSign.digits.2
    else k.skip.afterSign.failAhead .badNumber) = Except.ok k' := h
  split at hdigits
  · rw [← Except.ok.inj hdigits]
    exact (suffix_digits _).trans ((suffix_afterSign _).trans (suffix_skip k))
  · cases hdigits

lemma suffix_passAfterDigits {k k' : Cursor} (h : passAfterDigits k = .ok k') : k'.rest <:+ k.rest := by
  have hfraction := (suffix_digits k.skip).trans (suffix_skip k)
  unfold passAfterDigits at h
  split at h
  · split at h
    · cases h
    · split at h
      · exact (suffix_passExponent h).trans hfraction
      · rwa [← Except.ok.inj h]
  · split at h
    · exact suffix_passExponent h
    · exact Except.ok.inj h ▸ List.suffix_refl _

lemma length_digits_lt {k : Cursor} (h : k.peek?.any Char.isDigit = true) : k.digits.2.rest.length < k.rest.length := by
  obtain ⟨_ | ⟨c, rest⟩, pos⟩ := k
  · cases h
  · change (spanFrom Char.isDigit (c :: rest) pos).rest.length < rest.length + 1
    rw [spanFrom, if_pos (show c.isDigit = true from h)]
    exact Nat.lt_succ_of_le (suffix_spanFrom _ _ _).length_le

lemma exists_digits_of_passNumber {k k' : Cursor} (h : passNumber k = .ok k') :
    k.peek?.any Char.isDigit = true ∧ passAfterDigits k.digits.2 = .ok k' := by
  unfold passNumber at h
  split at h
  · cases h
  · rename_i hdigit
    split at h
    · cases h
    · exact ⟨by simpa using hdigit, h⟩

lemma suffix_passNumber {k k' : Cursor} (h : passNumber k = .ok k') : k'.rest <:+ k.rest :=
  (suffix_passAfterDigits (exists_digits_of_passNumber h).2).trans (suffix_digits k)

lemma length_passNumber_lt {k k' : Cursor} (h : passNumber k = .ok k') : k'.rest.length < k.rest.length := by
  obtain ⟨hdigit, hrest⟩ := exists_digits_of_passNumber h
  exact Nat.lt_of_le_of_lt (suffix_passAfterDigits hrest).length_le (length_digits_lt hdigit)

/-! ### Scalar values -/

lemma length_readWord_le {cs : List Char} {k k' : Cursor} (h : readWord cs k = .ok k') :
    k'.rest.length ≤ k.rest.length := by
  induction cs generalizing k with
  | nil => exact Except.ok.inj h ▸ Nat.le_refl _
  | cons c cs ih =>
    rw [readWord] at h
    split at h
    · cases h
    · rename_i d after hnext
      obtain ⟨-, rfl⟩ := next?_eq_some hnext
      split at h
      · exact Nat.le_trans (ih h) (length_skip_le k)
      · cases h

/-- How a word, a number or a string is read, told by its first character. -/
inductive ReadsScalar (k : Cursor) : Char → Value → Cursor → Prop
  | null {k' : Cursor} (word : readWord "ull".toList k.skip = .ok k') : ReadsScalar k 'n' .null k'
  | yes {k' : Cursor} (word : readWord "rue".toList k.skip = .ok k') : ReadsScalar k 't' (.bool true) k'
  | no {k' : Cursor} (word : readWord "alse".toList k.skip = .ok k') : ReadsScalar k 'f' (.bool false) k'
  | negative {n : Number} {k' : Cursor} (number : readNumber true k.skip = .ok (n, k')) :
      ReadsScalar k '-' (.number n) k'
  | number {c : Char} {n : Number} {k' : Cursor} (digit : c.isDigit = true) (number : readNumber false k = .ok (n, k')) :
      ReadsScalar k c (.number n) k'
  | string {s : String} {k' : Cursor} (text : readString k.skip = .ok (s, k')) : ReadsScalar k '"' (.string s) k'

/-- How a value is read once the space before it is skipped. -/
inductive ReadsValue (depth : Nat) (k : Cursor) : Char → Value → Cursor → Prop
  | scalar {c : Char} {v : Value} {k' : Cursor} (scalar : ReadsScalar k c v k') : ReadsValue depth k c v k'
  | array {vs : List Value} {k' : Cursor}
      (items : readItems (readValue depth) (k.rest.length + 1) true k.skip = .ok (vs, k')) :
      ReadsValue depth k '[' (.array vs) k'
  | object {ms : List (String × Value)} {k' : Cursor}
      (members : readMembers (readValue depth) (k.rest.length + 1) true k.skip = .ok (ms, k')) :
      ReadsValue depth k '\x7b' (objectOf ms) k'

lemma readsValue_of_readValue {depth : Nat} {k k' : Cursor} {v : Value} (h : readValue (depth + 1) k = .ok (v, k')) :
    ∃ c, k.skipSpace.peek? = some c ∧ ReadsValue depth k.skipSpace c v k' := by
  rw [readValue] at h
  dsimp only at h
  split at h
  · cases h
  · rename_i c hc
    refine ⟨c, hc, ?_⟩
    split at h
    · rename_i hnull
      obtain ⟨after, hword, hv⟩ := map_eq_ok_iff.mp h
      obtain ⟨rfl, rfl⟩ := Prod.mk.inj hv
      exact .scalar (hnull ▸ .null hword)
    split at h
    · rename_i htrue
      obtain ⟨after, hword, hv⟩ := map_eq_ok_iff.mp h
      obtain ⟨rfl, rfl⟩ := Prod.mk.inj hv
      exact .scalar (htrue ▸ .yes hword)
    split at h
    · rename_i hfalse
      obtain ⟨after, hword, hv⟩ := map_eq_ok_iff.mp h
      obtain ⟨rfl, rfl⟩ := Prod.mk.inj hv
      exact .scalar (hfalse ▸ .no hword)
    split at h
    · rename_i hminus
      obtain ⟨⟨n, after⟩, hnumber, hv⟩ := map_eq_ok_iff.mp h
      obtain ⟨rfl, rfl⟩ := Prod.mk.inj hv
      exact .scalar (hminus ▸ .negative hnumber)
    split at h
    · rename_i hdigit
      obtain ⟨⟨n, after⟩, hnumber, hv⟩ := map_eq_ok_iff.mp h
      obtain ⟨rfl, rfl⟩ := Prod.mk.inj hv
      exact .scalar (.number hdigit hnumber)
    split at h
    · rename_i hquote
      obtain ⟨⟨s, after⟩, hstring, hv⟩ := map_eq_ok_iff.mp h
      obtain ⟨rfl, rfl⟩ := Prod.mk.inj hv
      exact .scalar (hquote ▸ .string hstring)
    split at h
    · rename_i hlist
      split at h
      · cases h
      · obtain ⟨⟨vs, after⟩, hitems, hv⟩ := map_eq_ok_iff.mp h
        obtain ⟨rfl, rfl⟩ := Prod.mk.inj hv
        exact hlist ▸ .array hitems
    split at h
    · rename_i hobject
      split at h
      · cases h
      · obtain ⟨⟨ms, after⟩, hmembers, hv⟩ := map_eq_ok_iff.mp h
        obtain ⟨rfl, rfl⟩ := Prod.mk.inj hv
        exact hobject ▸ .object hmembers
    · cases h

/-- A scalar is passed over by the steps that read it. -/
lemma ReadsScalar.passScalar {k k' : Cursor} {c : Char} {v : Value} (h : ReadsScalar k c v k') (hc : k.peek? = some c) :
    passScalar c k = some (.ok k') ∧ k'.rest.length < k.rest.length := by
  have hskip := length_skip_of_peek? hc
  have hword {cs : List Char} (word : readWord cs k.skip = .ok k') : k'.rest.length < k.rest.length := by
    have := length_readWord_le word
    omega
  cases h with
  | null word => exact ⟨congrArg some word, hword word⟩
  | yes word => exact ⟨congrArg some word, hword word⟩
  | no word => exact ⟨congrArg some word, hword word⟩
  | negative number =>
    have hpass := passNumber_of_readNumber number
    have := length_passNumber_lt hpass
    exact ⟨congrArg some hpass, by omega⟩
  | number digit number =>
    have hpass := passNumber_of_readNumber number
    have hother {d : Char} (hd : d.isDigit = false) : c ≠ d := by
      rintro rfl
      cases digit.symm.trans hd
    rw [Json.passScalar, if_neg (hother rfl), if_neg (hother rfl), if_neg (hother rfl), if_neg (hother rfl),
      if_pos digit, hpass]
    exact ⟨rfl, length_passNumber_lt hpass⟩
  | string text =>
    obtain ⟨hlength, hpass⟩ := passString_of_readStringFrom text
    exact ⟨congrArg some (hpass _ (by omega)), by omega⟩

end CodeContext.Json
