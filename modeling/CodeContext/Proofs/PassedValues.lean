import CodeContext.Proofs.PassedScalars

/-!
# Values that are passed over

Passing over a value goes through its characters in one loop that keeps the open brackets, while reading it
calls itself for each part. A value that can be read is passed over up to the place where reading it ends:
each part of it takes the loop from the place before it to the place after it, whatever brackets are open
around it.
-/

namespace CodeContext.Json

open Cursor

/-! ### Closing brackets and commas -/

/-- What is left to pass over after a part of a value: closing brackets, a comma, a key, and then the next
part. -/
def passRest (fuel : Nat) (frames : List Char) (comma : Bool) (k : Cursor) : Except Error Cursor := do
  let (left, k) ← passClosings (frames.length + 1) frames comma k
  match left with
  | none => .ok k
  | some frames =>
    let k ← if frames.head? == some '\x7b' then passKey k else .ok k
    passValueFrom fuel frames k

lemma passValueFrom_scalar {fuel : Nat} {frames : List Char} {k k' : Cursor} {c : Char}
    (hc : k.skipSpace.peek? = some c) (h : passScalar c k.skipSpace = some (.ok k')) :
    passValueFrom (fuel + 1) frames k = passRest fuel frames true k' := by
  rw [passValueFrom]
  simp only [hc, h]
  rfl

lemma passValueFrom_bracket {fuel : Nat} {frames : List Char} {k : Cursor} {c : Char} (hc : k.skipSpace.peek? = some c)
    (h : passScalar c k.skipSpace = none) :
    passValueFrom (fuel + 1) frames k = passRest fuel (c :: frames) false k.skipSpace.skip := by
  rw [passValueFrom]
  simp only [hc, h]
  rfl

lemma passValueFrom_skipSpace (fuel : Nat) (frames : List Char) (k : Cursor) :
    passValueFrom (fuel + 1) frames k.skipSpace = passValueFrom (fuel + 1) frames k := by
  rw [passValueFrom, passValueFrom, skipSpace_skipSpace]

lemma passKey_skipSpace (k : Cursor) : passKey k.skipSpace = passKey k := by
  rw [passKey, passKey, skipSpace_skipSpace]

/-- A character closes a bracket that is open. -/
def Closes (c frame : Char) : Prop :=
  c = ']' ∧ frame = '[' ∨ c = '\x7d' ∧ frame = '\x7b'

lemma passRest_close {fuel : Nat} {frame c : Char} {frames : List Char} {comma : Bool} {k : Cursor}
    (hc : k.skipSpace.peek? = some c) (hclose : Closes c frame) :
    passRest fuel (frame :: frames) comma k = passRest fuel frames true k.skipSpace.skip := by
  have hcomma : c ≠ ',' := by
    rcases hclose with ⟨rfl, -⟩ | ⟨rfl, -⟩ <;> decide
  rw [passRest, List.length_cons, passClosings]
  simp only [hc, hcomma, decide_false, Bool.false_and, Bool.false_eq_true, if_false]
  rw [if_pos (by simpa [Closes] using hclose)]
  rfl

lemma passRest_next {fuel : Nat} {frame c : Char} {frames : List Char} {comma : Bool} {k : Cursor}
    (hc : k.skipSpace.peek? = some c) (hnext : if comma then c = ',' else ¬ Closes c frame) :
    passRest fuel (frame :: frames) comma k =
      let next := if comma then k.skipSpace.skip else k.skipSpace
      (if frame = '\x7b' then passKey next else .ok next) >>= passValueFrom fuel (frame :: frames) := by
  rw [passRest, passClosings]
  cases comma with
  | true =>
    obtain rfl : c = ',' := hnext
    simp only [hc, decide_true, Bool.true_and, if_true, bind, Except.bind, List.head?_cons]
    by_cases hobject : frame = '\x7b' <;> simp [hobject]
  | false =>
    simp only [hc, Bool.and_false, Bool.false_eq_true, if_false, bind, Except.bind]
    rw [if_neg (by simpa [Closes] using hnext)]
    by_cases hobject : frame = '\x7b' <;> simp [hobject]

/-- Passing over goes from one place to another, whatever is open around. -/
def Passes (k k' : Cursor) : Prop :=
  ∃ m, m + k'.rest.length < k.rest.length ∧
    ∀ fuel frames, passValueFrom (fuel + (m + 1)) frames k = passRest fuel frames true k'

lemma passes_of_scalar {k k' : Cursor} {c : Char} (hc : k.skipSpace.peek? = some c)
    (h : passScalar c k.skipSpace = some (.ok k')) (hlength : k'.rest.length < k.skipSpace.rest.length) : Passes k k' :=
  ⟨0, by have := length_skipSpace_le k; omega, fun _ _ => passValueFrom_scalar hc h⟩

lemma passValue_of_passes {k k' : Cursor} (h : Passes k k') : passValue k = .ok k' := by
  obtain ⟨m, hm, hpass⟩ := h
  obtain ⟨fuel, hfuel⟩ := Nat.exists_eq_add_of_le' (show m + 1 ≤ k.rest.length + 1 by omega)
  rw [passValue, hfuel, hpass]
  rfl

/-- One more part of an array or an object follows, the first one or one after a comma. -/
structure Continues (frame : Char) (first : Bool) (k start : Cursor) : Prop where
  next : ∃ c, k.skipSpace.peek? = some c ∧ if !first then c = ',' else ¬ Closes c frame
  start_eq : start = if !first then k.skipSpace.skip.skipSpace else k.skipSpace

lemma Continues.length_le {frame : Char} {first : Bool} {k start : Cursor} (h : Continues frame first k start) :
    start.rest.length ≤ k.rest.length := by
  have hspace := length_skipSpace_le k
  rw [h.start_eq]
  split
  · exact Nat.le_trans (length_skipSpace_le _) (Nat.le_trans (length_skip_le _) hspace)
  · exact hspace

lemma Continues.skipSpace_eq {frame : Char} {first : Bool} {k start : Cursor} (h : Continues frame first k start) :
    start.skipSpace = start := by
  rw [h.start_eq]
  split <;> exact skipSpace_skipSpace _

lemma Continues.passRest_eq {frame : Char} {first : Bool} {k start : Cursor} (h : Continues frame first k start)
    (fuel : Nat) (frames : List Char) : passRest (fuel + 1) (frame :: frames) (!first) k =
      (if frame = '\x7b' then passKey start else .ok start) >>= passValueFrom (fuel + 1) (frame :: frames) := by
  obtain ⟨⟨c, hc, hnext⟩, hstart⟩ := h
  rw [passRest_next hc hnext, hstart]
  cases first with
  | true => rfl
  | false =>
    simp only [Bool.not_false, if_true, passKey_skipSpace]
    split
    · rfl
    · exact (passValueFrom_skipSpace fuel _ _).symm

/-- Either the bracket of an array closes, or one more item follows. -/
lemma moreItems_cases {first more : Bool} {k k' : Cursor} (h : moreItems first k = .ok (more, k')) :
    more = false ∧ k.skipSpace.peek? = some ']' ∧ k' = k.skipSpace ∨ more = true ∧ Continues '[' first k k' := by
  unfold moreItems at h
  dsimp only at h
  split at h
  · cases h
  · rename_i c hc
    split at h
    · rename_i hclose
      obtain ⟨rfl, rfl⟩ := Prod.mk.inj (Except.ok.inj h)
      exact .inl ⟨rfl, hclose ▸ hc, rfl⟩
    · rename_i hopen
      cases first with
      | true =>
        obtain ⟨rfl, rfl⟩ := Prod.mk.inj (Except.ok.inj h)
        exact .inr ⟨rfl, ⟨c, hc, by simpa [Closes] using hopen⟩, rfl⟩
      | false =>
        rw [if_neg Bool.false_ne_true] at h
        split at h
        · rename_i hcomma
          split at h
          · cases h
          · split at h
            · cases h
            · obtain ⟨rfl, rfl⟩ := Prod.mk.inj (Except.ok.inj h)
              exact .inr ⟨rfl, ⟨c, hc, hcomma⟩, rfl⟩
        · cases h

/-- Either the bracket of an object closes, or the key of one more member follows. -/
lemma moreMembers_cases {first more : Bool} {k k' : Cursor} (h : moreMembers first k = .ok (more, k')) :
    more = false ∧ k.skipSpace.peek? = some '\x7d' ∧ k' = k.skipSpace ∨
      more = true ∧ Continues '\x7b' first k k' ∧ k'.peek? = some '"' := by
  unfold moreMembers at h
  dsimp only at h
  split at h
  · cases h
  · rename_i c hc
    split at h
    · rename_i hclose
      obtain ⟨rfl, rfl⟩ := Prod.mk.inj (Except.ok.inj h)
      exact .inl ⟨rfl, hclose ▸ hc, rfl⟩
    · rename_i hopen
      cases first with
      | true =>
        rw [if_pos rfl] at h
        split at h
        · rename_i hquote
          obtain ⟨rfl, rfl⟩ := Prod.mk.inj (Except.ok.inj h)
          exact .inr ⟨rfl, ⟨⟨c, hc, by simpa [Closes] using hopen⟩, rfl⟩, hquote ▸ hc⟩
        · cases h
      | false =>
        rw [if_neg Bool.false_ne_true] at h
        split at h
        · rename_i hcomma
          split at h
          · cases h
          · rename_i d hd
            split at h
            · rename_i hquote
              obtain ⟨rfl, rfl⟩ := Prod.mk.inj (Except.ok.inj h)
              exact .inr ⟨rfl, ⟨⟨c, hc, hcomma⟩, rfl⟩, hquote ▸ hd⟩
            · split at h <;> cases h
        · cases h

lemma passRest_of_readItems {α : Type} {item : Cursor → Reading α}
    (hitem : ∀ {k k' : Cursor} {x : α}, item k = .ok (x, k') → Passes k k') {fuel : Nat} {first : Bool}
    {k k' : Cursor} {xs : List α} (h : readItems item fuel first k = .ok (xs, k')) :
    ∃ m, m + k'.rest.length < k.rest.length ∧
      ∀ fuel frames, passRest (fuel + m) ('[' :: frames) (!first) k = passRest fuel frames true k' := by
  induction fuel generalizing first k xs with
  | zero => cases h
  | succ fuel ih =>
    obtain ⟨⟨more, start⟩, hmore, h⟩ := bind_eq_ok_iff.mp h
    rcases moreItems_cases hmore with ⟨rfl, hclose, rfl⟩ | ⟨rfl, hstart⟩
    · obtain ⟨-, rfl⟩ := Prod.mk.inj (Except.ok.inj h)
      have hspace := length_skipSpace_le k
      have hlength := length_skip_of_peek? hclose
      exact ⟨0, by omega, fun _ _ => passRest_close hclose (.inl ⟨rfl, rfl⟩)⟩
    · obtain ⟨⟨x, next⟩, hx, h⟩ := bind_eq_ok_iff.mp h
      obtain ⟨⟨rest, last⟩, hrest, h⟩ := bind_eq_ok_iff.mp h
      obtain ⟨-, rfl⟩ := Prod.mk.inj (Except.ok.inj h)
      have hlength := hstart.length_le
      obtain ⟨m, hm, hpass⟩ := hitem hx
      obtain ⟨m', hm', hpass'⟩ := ih hrest
      refine ⟨m' + (m + 1), by omega, fun fuel frames => ?_⟩
      calc passRest (fuel + (m' + (m + 1))) ('[' :: frames) (!first) k
          = passValueFrom (fuel + m' + (m + 1)) ('[' :: frames) start := by
            rw [← Nat.add_assoc, ← Nat.add_assoc]
            exact hstart.passRest_eq _ _
        _ = passRest (fuel + m') ('[' :: frames) true next := hpass _ _
        _ = passRest fuel frames true last := hpass' fuel frames

lemma length_readColon_le {k k' : Cursor} (h : readColon k = .ok k') : k'.rest.length ≤ k.rest.length := by
  unfold readColon at h
  dsimp only at h
  split at h
  · cases h
  · split at h
    · rw [← Except.ok.inj h]
      exact Nat.le_trans (length_skip_le _) (length_skipSpace_le k)
    · cases h

lemma passKey_of_readString {k afterKey afterColon : Cursor} {key : String} (hspace : k.skipSpace = k)
    (hquote : k.peek? = some '"') (hkey : readString k.skip = .ok (key, afterKey))
    (hcolon : readColon afterKey = .ok afterColon) :
    afterColon.rest.length < k.rest.length ∧ passKey k = .ok afterColon := by
  have hskip := length_skip_of_peek? hquote
  have hle := length_readColon_le hcolon
  obtain ⟨hlength, hpass⟩ := passString_of_readStringFrom hkey
  refine ⟨by omega, ?_⟩
  rw [passKey, hspace]
  simp only [hquote]
  rw [if_neg (not_not.mpr rfl), hpass _ (by omega)]
  exact hcolon

lemma passRest_of_readMembers {α : Type} {value : Cursor → Reading α}
    (hvalue : ∀ {k k' : Cursor} {x : α}, value k = .ok (x, k') → Passes k k') {fuel : Nat} {first : Bool}
    {k k' : Cursor} {ms : List (String × α)} (h : readMembers value fuel first k = .ok (ms, k')) :
    ∃ m, m + k'.rest.length < k.rest.length ∧
      ∀ fuel frames, passRest (fuel + m) ('\x7b' :: frames) (!first) k = passRest fuel frames true k' := by
  induction fuel generalizing first k ms with
  | zero => cases h
  | succ fuel ih =>
    obtain ⟨⟨more, start⟩, hmore, h⟩ := bind_eq_ok_iff.mp h
    rcases moreMembers_cases hmore with ⟨rfl, hclose, rfl⟩ | ⟨rfl, hstart, hquote⟩
    · obtain ⟨-, rfl⟩ := Prod.mk.inj (Except.ok.inj h)
      have hspace := length_skipSpace_le k
      have hlength := length_skip_of_peek? hclose
      exact ⟨0, by omega, fun _ _ => passRest_close hclose (.inr ⟨rfl, rfl⟩)⟩
    · obtain ⟨⟨key, afterKey⟩, hkey, h⟩ := bind_eq_ok_iff.mp h
      obtain ⟨afterColon, hcolon, h⟩ := bind_eq_ok_iff.mp h
      obtain ⟨⟨x, next⟩, hx, h⟩ := bind_eq_ok_iff.mp h
      obtain ⟨⟨rest, last⟩, hrest, h⟩ := bind_eq_ok_iff.mp h
      obtain ⟨-, rfl⟩ := Prod.mk.inj (Except.ok.inj h)
      have hlength := hstart.length_le
      obtain ⟨hlength', hkey⟩ := passKey_of_readString hstart.skipSpace_eq hquote hkey hcolon
      obtain ⟨m, hm, hpass⟩ := hvalue hx
      obtain ⟨m', hm', hpass'⟩ := ih hrest
      refine ⟨m' + (m + 1), by omega, fun fuel frames => ?_⟩
      calc passRest (fuel + (m' + (m + 1))) ('\x7b' :: frames) (!first) k
          = passValueFrom (fuel + m' + (m + 1)) ('\x7b' :: frames) afterColon := by
            rw [← Nat.add_assoc, ← Nat.add_assoc, hstart.passRest_eq, if_pos rfl, hkey]
            rfl
        _ = passRest (fuel + m') ('\x7b' :: frames) true next := hpass _ _
        _ = passRest fuel frames true last := hpass' fuel frames

/-- A value that can be read is passed over, whatever is open around it. -/
theorem passes_of_readValue {depth : Nat} {k k' : Cursor} {v : Value} (h : readValue depth k = .ok (v, k')) :
    Passes k k' := by
  induction depth generalizing k k' v with
  | zero => cases h
  | succ depth ih =>
    obtain ⟨c, hc, hread⟩ := readsValue_of_readValue h
    have hskip := length_skip_of_peek? hc
    have hspace := length_skipSpace_le k
    cases hread with
    | scalar scalar =>
      obtain ⟨hpass, hlength⟩ := scalar.passScalar hc
      exact passes_of_scalar hc hpass hlength
    | array items =>
      have hpass : passScalar '[' k.skipSpace = none := rfl
      obtain ⟨m, hm, hrest⟩ := passRest_of_readItems ih items
      exact ⟨m, by omega, fun fuel frames => (passValueFrom_bracket hc hpass).trans (hrest fuel frames)⟩
    | object members =>
      have hpass : passScalar '\x7b' k.skipSpace = none := rfl
      obtain ⟨m, hm, hrest⟩ := passRest_of_readMembers ih members
      exact ⟨m, by omega, fun fuel frames => (passValueFrom_bracket hc hpass).trans (hrest fuel frames)⟩

/-- A value that can be read is passed over up to its end. -/
theorem passValue_of_readValue {depth : Nat} {k k' : Cursor} {v : Value} (h : readValue depth k = .ok (v, k')) :
    passValue k = .ok k' :=
  passValue_of_passes (passes_of_readValue h)

end CodeContext.Json
