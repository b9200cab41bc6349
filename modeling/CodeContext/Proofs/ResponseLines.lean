import CodeContext.Proofs.Cuts
import CodeContext.Service.Response

/-!
# Responses are lines

A value that is written without space holds no line feed: strings escape it, and nothing else has one. So a
response is one line, of an object that has an id and either a result or an error.
-/

namespace CodeContext

open Text (OneLine notMem_natText notMem_intText)

namespace Json

lemma lineFeed_ne_digitChar : ∀ n < 16, '\n' ≠ Nat.digitChar n := by
  decide

lemma lineFeed_notMem_escapeChar (c : Char) : '\n' ∉ escapeChar c := by
  have hhigh (h : c.toNat < 0x20) : '\n' ≠ Nat.digitChar (c.toNat / 16) := lineFeed_ne_digitChar _ (by omega)
  have hlow : '\n' ≠ Nat.digitChar (c.toNat % 16) := lineFeed_ne_digitChar _ (by omega)
  unfold escapeChar
  repeat' split
  all_goals simp_all [eq_comm]

lemma lineFeed_notMem_writeString (s : String) : '\n' ∉ writeString s := by
  have hchars : '\n' ∉ s.toList.flatMap escapeChar := by
    rw [List.mem_flatMap]
    rintro ⟨c, -, hc⟩
    exact lineFeed_notMem_escapeChar c hc
  simp [writeString, hchars]

lemma notMem_render {c : Char} (hc : c.isDigit = false) (hs : c ∉ ['.', 'e', '+', '-']) (d : Decimal) :
    c ∉ d.render := by
  have hdigits : c ∉ (toString d.digits).toList := notMem_natText hc _
  simp only [List.mem_cons, List.not_mem_nil, or_false, not_or] at hs
  obtain ⟨hpoint, hmark, hplus, hminus⟩ := hs
  have hzero : c ≠ '0' := by
    rintro rfl
    cases hc
  unfold Decimal.render
  generalize (toString d.digits).toList = ds at hdigits
  dsimp only
  split
  · simp [hzero, hpoint]
  · split
    · have hsign (log : Int) : c ≠ if log < 0 then '-' else '+' := by split <;> assumption
      have hpower (log : Int) : c ∉ (toString log.natAbs).toList := notMem_natText hc _
      simp only [List.mem_append, List.mem_cons, not_or]
      refine ⟨?_, hmark, hsign _, hpower _⟩
      split <;> simp_all
    · have htake (n : Nat) : c ∉ ds.take n := fun h => hdigits (List.mem_of_mem_take h)
      have hdrop (n : Nat) : c ∉ ds.drop n := fun h => hdigits (List.mem_of_mem_drop h)
      repeat' split
      all_goals simp [hdigits, htake, hdrop, hzero, hpoint]

lemma notMem_shortestText {c : Char} (hc : c.isDigit = false) (hs : c ∉ ['.', 'e', '+', '-']) (x : Binary64) :
    c ∉ x.shortestText := by
  have hsign : c ∉ (if x.negative then ['-'] else []) := by
    split
    · exact fun h => hs (by simp [List.mem_singleton.mp h])
    · exact List.not_mem_nil
  rw [Binary64.shortestText, List.mem_append, not_or]
  exact ⟨hsign, notMem_render hc hs _⟩

lemma lineFeed_notMem_writeNumber (n : Number) : '\n' ∉ writeNumber n := by
  cases n with
  | integer n => exact notMem_intText rfl (by decide) n
  | real x => exact notMem_shortestText rfl (by decide) x

namespace Value

mutual

lemma lineFeed_notMem_write : (v : Value) → '\n' ∉ v.write
  | .null => by decide
  | .bool true => by decide
  | .bool false => by decide
  | .number n => lineFeed_notMem_writeNumber n
  | .string s => lineFeed_notMem_writeString s
  | .array [] => by decide
  | .array (v :: rest) => by
    have hv := lineFeed_notMem_write v
    have hrest := lineFeed_notMem_writeItems rest
    simp [write, hv, hrest]
  | .object [] => by decide
  | .object ((key, v) :: rest) => by
    have hkey := lineFeed_notMem_writeString key
    have hv := lineFeed_notMem_write v
    have hrest := lineFeed_notMem_writeMembers rest
    simp [write, hkey, hv, hrest]

lemma lineFeed_notMem_writeItems : (vs : List Value) → '\n' ∉ writeItems vs
  | [] => by decide
  | v :: rest => by
    have hv := lineFeed_notMem_write v
    have hrest := lineFeed_notMem_writeItems rest
    simp [writeItems, hv, hrest]

lemma lineFeed_notMem_writeMembers : (ms : List (String × Value)) → '\n' ∉ writeMembers ms
  | [] => by decide
  | (key, v) :: rest => by
    have hkey := lineFeed_notMem_writeString key
    have hv := lineFeed_notMem_write v
    have hrest := lineFeed_notMem_writeMembers rest
    simp [writeMembers, hkey, hv, hrest]

end

theorem oneLine_compact (v : Value) : OneLine v.compact := by
  rw [OneLine, compact, String.toList_ofList]
  exact lineFeed_notMem_write v

lemma getLast?_writeMembers (ms : List (String × Value)) : (writeMembers ms).getLast? = some '\x7d' := by
  induction ms with
  | nil => rfl
  | cons m ms ih => rw [writeMembers, List.getLast?_append, ih, Option.some_or]

lemma getLast?_compact_object (ms : List (String × Value)) : (object ms).compact.toList.getLast? = some '\x7d' := by
  rw [compact, String.toList_ofList]
  cases ms with
  | nil => rfl
  | cons m ms => rw [write, List.getLast?_append, getLast?_writeMembers, Option.some_or]

end Value

end Json

open Json

/-- A line holds an object with an id and either a result or an error, and nothing else. -/
structure IsResponseLine (line : String) : Prop where
  oneLine : OneLine line
  shape : ∃ id outcome, line = (Value.object [("id", id), ("result", outcome)]).compact ∨
    line = (Value.object [("id", id), ("error", outcome)]).compact

lemma IsResponseLine.getLast? {line : String} (h : IsResponseLine line) : line.toList.getLast? = some '\x7d' := by
  obtain ⟨id, outcome, rfl | rfl⟩ := h.shape <;> exact Value.getLast?_compact_object _

theorem Response.isResponseLine (r : Response) : IsResponseLine r.line where
  oneLine := Value.oneLine_compact r.toJson
  shape := by
    refine ⟨r.id.sorted, (outcomeMember r.outcome).2, ?_⟩
    rw [line, toJson]
    cases r.outcome with
    | ok result => exact .inl rfl
    | error message => exact .inr rfl

end CodeContext
