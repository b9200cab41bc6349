import CodeContext.Proofs.WrittenScalars

/-!
# Real numbers read back

A real number that is read back from its text alone is read back wherever it is written within an array or an
object: reading a number stops before a comma or a closing bracket, and does the same at every place up to
there.
-/

namespace CodeContext.Json

open Cursor

namespace Cursor

/-- A place with the same text ahead and more behind it. -/
def ExtendedBy (rest : List Char) (k l : Cursor) : Prop :=
  l.rest = k.rest ++ rest

section

variable {rest : List Char} (hrest : Delimits rest) {k k' l : Cursor}

lemma ExtendedBy.skip {c : Char} (h : k.ExtendedBy rest l) (hpeek : k.peek? = some c) :
    k.skip.ExtendedBy rest l.skip := by
  obtain ⟨_ | ⟨d, cs⟩, pos⟩ := k
  · cases hpeek
  · obtain ⟨_, pos'⟩ := l
    obtain rfl : _ = d :: cs ++ rest := h
    rfl

lemma ExtendedBy.next? {c : Char} {after : Cursor} (h : k.ExtendedBy rest l) (hnext : k.next? = some (c, after)) :
    ∃ after', l.next? = some (c, after') ∧ after.ExtendedBy rest after' := by
  obtain ⟨hpeek, rfl⟩ := next?_eq_some hnext
  have hskip := ExtendedBy.skip h hpeek
  obtain ⟨_ | ⟨d, cs⟩, pos⟩ := k
  · cases hpeek
  · obtain ⟨_, pos'⟩ := l
    obtain rfl : _ = d :: cs ++ rest := h
    obtain rfl := Option.some.inj hpeek
    exact ⟨_, rfl, hskip⟩

lemma ExtendedBy.finishReal {negative : Bool} {significand : Nat} {e : Int} {n : Number} (h : k.ExtendedBy rest l)
    (hread : finishReal negative significand e k = .ok (n, k')) :
    ∃ l', finishReal negative significand e l = .ok (n, l') ∧ k'.ExtendedBy rest l' := by
  unfold Json.finishReal at hread ⊢
  split at hread
  · cases hread
  · obtain ⟨rfl, rfl⟩ := Prod.mk.inj (Except.ok.inj hread)
    exact ⟨l, rfl, h⟩

lemma exists_mark {k : Cursor} (h : startsExponent k = true) : ∃ mark, k.peek? = some mark := by
  unfold startsExponent at h
  cases hpeek : k.peek? with
  | none => simp [hpeek] at h
  | some mark => exact ⟨mark, rfl⟩

include hrest

lemma ExtendedBy.any_peek? {p : Char → Bool} (h : k.ExtendedBy rest l)
    (hp : p ',' = false ∧ p ']' = false ∧ p '\x7d' = false) : l.peek?.any p = k.peek?.any p := by
  obtain ⟨_, pos'⟩ := l
  obtain rfl : _ = k.rest ++ rest := h
  obtain ⟨_ | ⟨c, cs⟩, pos⟩ := k
  · exact hrest.any_head? hp
  · rfl

lemma ExtendedBy.peek?_beq {c : Char} (h : k.ExtendedBy rest l) (hc : c ≠ ',' ∧ c ≠ ']' ∧ c ≠ '\x7d') :
    (l.peek? == some c) = (k.peek? == some c) := by
  obtain ⟨_, pos'⟩ := l
  obtain rfl : _ = k.rest ++ rest := h
  obtain ⟨_ | ⟨d, cs⟩, pos⟩ := k
  · exact hrest.peek? hc pos'
  · rfl

lemma ExtendedBy.startsExponent (h : k.ExtendedBy rest l) : startsExponent l = startsExponent k := by
  rw [Json.startsExponent, Json.startsExponent, h.peek?_beq hrest (by decide), h.peek?_beq hrest (by decide)]

lemma ExtendedBy.digits (h : k.ExtendedBy rest l) :
    l.digits.1 = k.digits.1 ∧ k.digits.2.ExtendedBy rest l.digits.2 := by
  have hstop : rest.head?.any Char.isDigit = false := hrest.any_head? (by decide)
  obtain ⟨_, pos'⟩ := l
  obtain rfl : _ = k.rest ++ rest := h
  refine ⟨takeWhile_append_of_stop hstop k.rest, ?_⟩
  change (spanFrom Char.isDigit (k.rest ++ rest) pos').rest = _
  exact spanFrom_append hstop k.rest k.position pos'

lemma ExtendedBy.exponentDigits (e : Nat) (h : k.ExtendedBy rest l) :
    (exponentDigits e l.rest l.position).1 = (exponentDigits e k.rest k.position).1 ∧
      (exponentDigits e k.rest k.position).2.ExtendedBy rest (exponentDigits e l.rest l.position).2 := by
  have hstop : rest.head?.any Char.isDigit = false := hrest.any_head? (by decide)
  obtain ⟨_, pos'⟩ := l
  obtain rfl : _ = k.rest ++ rest := h
  obtain ⟨cs, pos⟩ := k
  dsimp only
  induction cs generalizing e pos pos' with
  | nil =>
    cases rest with
    | nil => exact ⟨rfl, rfl⟩
    | cons c rest =>
      have hc : c.isDigit = false := hstop
      simp [Json.exponentDigits, hc, Cursor.ExtendedBy]
  | cons c cs ih =>
    rw [List.cons_append, Json.exponentDigits, Json.exponentDigits]
    split
    · dsimp only
      split
      · exact ih _ _ _
      · exact ⟨rfl, rfl⟩
    · exact ⟨rfl, rfl⟩

lemma ExtendedBy.afterSign (h : k.ExtendedBy rest l) : k.afterSign.ExtendedBy rest l.afterSign := by
  unfold Cursor.afterSign
  rw [h.peek?_beq hrest (by decide), h.peek?_beq hrest (by decide)]
  split
  · rename_i hsign
    cases hpeek : k.peek? with
    | none => simp [hpeek] at hsign
    | some c => exact h.skip hpeek
  · exact h

/-- A number from the digits of its exponent on. -/
def readPower (negative down : Bool) (significand : Nat) (e : Int) (k : Cursor) : Reading Number :=
  match k.next? with
  | none => k.fail .endOfValue
  | some (c, _) =>
    if !c.isDigit then k.failAhead .badNumber
    else
      match exponentDigits 0 k.rest k.position with
      | (some n, k) => finishReal negative significand (if down then e - n else e + n) k
      | (none, k) =>
        if significand ≠ 0 && !down then k.fail .numberOutOfRange
        else .ok (.real (.ofMagnitude negative 0), k.digits.2)

lemma ExtendedBy.readPower {negative down : Bool} {significand : Nat} {e : Int} {n : Number} (h : k.ExtendedBy rest l)
    (hread : readPower negative down significand e k = .ok (n, k')) :
    ∃ l', readPower negative down significand e l = .ok (n, l') ∧ k'.ExtendedBy rest l' := by
  unfold Cursor.readPower at hread ⊢
  split at hread
  · cases hread
  · rename_i c after hnext
    obtain ⟨after', hnext', -⟩ := h.next? hnext
    rw [hnext']
    dsimp only
    split at hread
    · cases hread
    · rename_i hdigit
      rw [if_neg hdigit]
      obtain ⟨hvalue, hend⟩ := h.exponentDigits hrest 0
      generalize Json.exponentDigits 0 l.rest l.position = taken at hvalue hend ⊢
      obtain ⟨value, last'⟩ := taken
      obtain rfl : value = _ := hvalue
      split at hread
      · rename_i x last hexponent
        rw [hexponent] at hend ⊢
        exact hend.finishReal hread
      · rename_i last hexponent
        rw [hexponent] at hend ⊢
        dsimp only
        split at hread
        · cases hread
        · rename_i hzero
          obtain ⟨rfl, rfl⟩ := Prod.mk.inj (Except.ok.inj hread)
          rw [if_neg hzero]
          exact ⟨_, rfl, (hend.digits hrest).2⟩

lemma ExtendedBy.readExponent {negative : Bool} {significand : Nat} {e : Int} {n : Number} (h : k.ExtendedBy rest l)
    (hmark : Json.startsExponent k = true) (hread : readExponent negative significand e k = .ok (n, k')) :
    ∃ l', readExponent negative significand e l = .ok (n, l') ∧ k'.ExtendedBy rest l' := by
  obtain ⟨mark, hmark⟩ := exists_mark hmark
  have hskip := h.skip hmark
  have hpower := (hskip.afterSign hrest).readPower hrest hread
  rw [← hskip.peek?_beq hrest (by decide)] at hpower
  exact hpower

lemma ExtendedBy.readFraction {negative : Bool} {significand : Nat} {e : Int} {n : Number} (h : k.ExtendedBy rest l)
    (hpoint : (k.peek? == some '.') = true) (hread : readFraction negative significand e k = .ok (n, k')) :
    ∃ l', readFraction negative significand e l = .ok (n, l') ∧ k'.ExtendedBy rest l' := by
  obtain ⟨hdigits, hend⟩ := (h.skip (beq_iff_eq.mp hpoint)).digits hrest
  unfold Json.readFraction at hread ⊢
  dsimp only at hread ⊢
  rw [hdigits, hend.startsExponent hrest]
  split at hread
  · split at hread <;> cases hread
  · rename_i hsome
    rw [if_neg hsome]
    split at hread
    · rename_i hexponent
      rw [if_pos hexponent]
      exact hend.readExponent hrest hexponent hread
    · rename_i hexponent
      rw [if_neg hexponent]
      exact hend.finishReal hread

lemma ExtendedBy.readNumber {negative : Bool} {n : Number} (h : k.ExtendedBy rest l)
    (hread : readNumber negative k = .ok (n, k')) :
    ∃ l', readNumber negative l = .ok (n, l') ∧ k'.ExtendedBy rest l' := by
  obtain ⟨hdigits, hend⟩ := h.digits hrest
  unfold Json.readNumber at hread ⊢
  split at hread
  · cases hread
  · rename_i c after hnext
    obtain ⟨after', hnext', hafter⟩ := h.next? hnext
    rw [hnext']
    dsimp only
    split at hread
    · cases hread
    · rename_i hdigit
      rw [if_neg hdigit, hafter.any_peek? hrest (by decide)]
      split at hread
      · cases hread
      · rename_i hzero
        rw [if_neg hzero, hdigits]
        dsimp only at hread ⊢
        rw [hend.peek?_beq hrest (by decide), hend.startsExponent hrest]
        split at hread
        · rename_i hpoint
          rw [if_pos hpoint]
          exact hend.readFraction hrest hpoint hread
        · rename_i hpoint
          rw [if_neg hpoint]
          split at hread
          · rename_i hexponent
            rw [if_pos hexponent]
            exact hend.readExponent hrest hexponent hread
          · rename_i hexponent
            rw [if_neg hexponent]
            split at hread
            · rename_i hleft
              rw [if_pos hleft]
              exact hend.finishReal hread
            · rename_i hleft
              obtain ⟨rfl, rfl⟩ := Prod.mk.inj (Except.ok.inj hread)
              exact ⟨_, if_neg hleft, hend⟩

end

end Cursor

/-- A real number that is written as a number, and read back from it. -/
structure Survives (x : Binary64) : Prop where
  finite : x.isFinite = true
  parse : Decoder.real.parse (String.ofList x.shortestText) = .ok x

lemma skipSpace_of_notMem {k : Cursor} (h : ∀ c ∈ k.rest, isSpace c = false) : k.skipSpace = k := by
  obtain ⟨_ | ⟨c, rest⟩, pos⟩ := k
  · rfl
  · change spanFrom isSpace (c :: rest) pos = _
    rw [spanFrom, if_neg (by rw [h c List.mem_cons_self]; decide)]

lemma isSpace_of_mem_shortestText {x : Binary64} : ∀ c ∈ x.shortestText, isSpace c = false := by
  intro c hc
  have hne {d : Char} (hd : d.isDigit = false) (hs : d ∉ ['.', 'e', '+', '-']) : c ≠ d := by
    rintro rfl
    exact notMem_shortestText hd hs x hc
  simp [isSpace, hne (d := ' ') rfl (by decide), hne (d := '\n') rfl (by decide), hne (d := '\t') rfl (by decide),
    hne (d := '\r') rfl (by decide)]

lemma real_read {k : Cursor} (hspace : k.skipSpace = k) (hstart : Decoder.startsNumber k = true) (depth : Nat) :
    Decoder.real.read depth k = (readSigned k).map fun (n, k) => (Decoder.realOf n, k) := by
  simp only [Decoder.real, hspace, hstart, if_true, readSigned]
  cases readNumber (k.peek? == some '-') (if (k.peek? == some '-') = true then k.skip else k) <;> rfl

lemma suffix_readSigned {k k' : Cursor} {n : Number} (h : readSigned k = .ok (n, k')) : k'.rest <:+ k.rest := by
  have hsuffix := suffix_passNumber (passNumber_of_readNumber h)
  split at hsuffix
  · exact hsuffix.trans (suffix_skip k)
  · exact hsuffix

lemma Survives.readSigned_eq {x : Binary64} (h : Survives x) : BeginsNumber x.shortestText ∧
    ∃ n pos, readSigned (.start x.shortestText) = .ok (n, ⟨[], pos⟩) ∧ Decoder.realOf n = x := by
  have hspace := skipSpace_of_notMem (k := .start x.shortestText) isSpace_of_mem_shortestText
  obtain ⟨⟨y, last⟩, hread, hend⟩ := bind_eq_ok_iff.mp h.parse
  rw [String.toList_ofList] at hread
  have hstart : Decoder.startsNumber (.start x.shortestText) = true := by
    by_contra hother
    have hrefuse : Decoder.refuseNext "f64" (.start x.shortestText) = .ok (y, last) := by
      rw [← hread]
      simp [Decoder.real, hspace, hother]
    exact refuseNext_ne_ok hrefuse
  rw [real_read hspace hstart] at hread
  obtain ⟨⟨n, after⟩, hsigned, hpair⟩ := map_eq_ok_iff.mp hread
  obtain ⟨rfl, rfl⟩ := Prod.mk.inj hpair
  obtain ⟨hempty, hx⟩ := readEnd_eq_ok_iff.mp hend
  refine ⟨?_, n, after.skipSpace.position, ?_, ?_⟩
  · cases htext : x.shortestText with
    | nil => rw [htext] at hstart; cases hstart
    | cons c rest =>
      rw [htext] at hstart
      exact ⟨c, rest, rfl, by simpa [Decoder.startsNumber, Cursor.start, Cursor.peek?] using hstart⟩
  · have hall : after.skipSpace = after := skipSpace_of_notMem fun c hc =>
      isSpace_of_mem_shortestText c ((suffix_readSigned hsigned).subset hc)
    rw [hsigned, ← hempty, hall]
  · exact hx

lemma Cursor.ExtendedBy.readSigned {rest : List Char} {k k' l : Cursor} (hrest : Delimits rest) {n : Number}
    (h : k.ExtendedBy rest l) (hread : readSigned k = .ok (n, k')) :
    ∃ l', readSigned l = .ok (n, l') ∧ k'.ExtendedBy rest l' := by
  unfold Json.readSigned at hread ⊢
  dsimp only at hread ⊢
  rw [h.peek?_beq hrest (by decide)]
  cases hsign : k.peek? == some '-' with
  | true =>
    rw [hsign] at hread
    exact (h.skip (beq_iff_eq.mp hsign)).readNumber hrest hread
  | false =>
    rw [hsign] at hread
    exact h.readNumber hrest hread

lemma reads_real {x : Binary64} (h : Survives x) (depth : Nat) : Reads Decoder.real depth x.shortestText x := by
  obtain ⟨hbegins, n, pos, hsigned, hx⟩ := h.readSigned_eq
  refine ⟨hbegins.begins, fun rest hrest pos => ?_⟩
  have hextended : (Cursor.start x.shortestText).ExtendedBy rest ⟨x.shortestText ++ rest, pos⟩ := rfl
  obtain ⟨l, hread, hend⟩ := hextended.readSigned hrest hsigned
  refine ⟨l.position, ?_⟩
  have hl : l = ⟨rest, l.position⟩ := by
    obtain ⟨_, p⟩ := l
    obtain rfl : _ = [] ++ rest := hend
    rfl
  rw [real_read (skipSpace_of_begins hbegins.begins rest pos) (hbegins.startsNumber rest pos), hread, ← hx, hl]
  rfl

end CodeContext.Json
