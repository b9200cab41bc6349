import CodeContext.Text.Lines
import Mathlib.Tactic.Lemma

/-!
# Slices of lines

A slice joins the lines whose numbers are in its range. It is computed on machine words, where nothing
overflows whatever the numbers are. A slice of several lines is cut between any two of them into two slices
with a line feed between them, so the pages of a text, slices of equally many lines one after the other, are
joined to the whole text by line feeds.
-/

namespace CodeContext.Text

/-! ### Lines by their numbers -/

def lineCount (text : String) : Nat :=
  (lines text.toList).length

/-- The lines with numbers from `first` to `last`, both included. -/
def linesBetween (text : String) (first last : Int) : List String :=
  (((lines text.toList).zipIdx 1).filter fun l => first ≤ l.2 ∧ l.2 ≤ last).map fun l => String.ofList l.1

lemma filter_zipIdx {α : Type} (all : List α) (first last : Int) (k : Nat) :
    ((all.zipIdx k).filter fun l => first ≤ l.2 ∧ l.2 ≤ last).map Prod.fst =
      (all.take (last + 1 - k).toNat).drop (first - k).toNat := by
  -- The number of the first line moves along with the lines.
  induction all generalizing k with
  | nil => simp
  | cons l all ih =>
    have hlater := ih (k + 1)
    rw [List.zipIdx_cons]
    by_cases hlast : (k : Int) ≤ last
    · have htake : (last + 1 - k).toNat = (last + 1 - (k + 1 : Nat)).toNat + 1 := by omega
      rw [htake, List.take_succ_cons]
      by_cases hfirst : first ≤ (k : Int)
      · have hdrop : (first - k).toNat = 0 ∧ (first - (k + 1 : Nat)).toNat = 0 := by omega
        rw [hdrop.2, List.drop_zero] at hlater
        rw [List.filter_cons_of_pos (by simp [hfirst, hlast]), List.map_cons, hlater, hdrop.1, List.drop_zero]
      · have hdrop : (first - k).toNat = (first - (k + 1 : Nat)).toNat + 1 := by omega
        rw [List.filter_cons_of_neg (by simp [hfirst]), hlater, hdrop, List.drop_succ_cons]
    · have htake : (last + 1 - k).toNat = 0 ∧ (last + 1 - (k + 1 : Nat)).toNat = 0 := by omega
      rw [htake.2, List.take_zero] at hlater
      rw [List.filter_cons_of_neg (by simp [hlast]), hlater, htake.1, List.take_zero, List.drop_nil, List.drop_nil]

lemma linesBetween_eq (text : String) (first last : Int) :
    linesBetween text first last =
      (((lines text.toList).take last.toNat).drop (first - 1).toNat).map String.ofList := by
  have hfirst : first - ((1 : Nat) : Int) = first - 1 := rfl
  have hlast : (last + 1 - (1 : Nat)).toNat = last.toNat := by omega
  have hfilter := congrArg (List.map String.ofList) (filter_zipIdx (lines text.toList) first last 1)
  rwa [List.map_map, hfirst, hlast] at hfilter

lemma length_linesBetween (text : String) (first last : Int) :
    (linesBetween text first last).length = min last.toNat (lineCount text) - (first - 1).toNat := by
  rw [linesBetween_eq, List.length_map, List.length_drop, List.length_take, lineCount]

lemma linesBetween_min (text : String) (first last : Int) :
    linesBetween text first (min last (lineCount text)) = linesBetween text first last := by
  have htake : (min last (lineCount text)).toNat = min last.toNat (lines text.toList).length := by
    rw [lineCount]
    omega
  rw [linesBetween_eq, linesBetween_eq, htake, ← List.take_eq_take_min]

lemma linesBetween_ne_nil {text : String} {first last : Int} (hfirst : 1 ≤ first) (hle : first ≤ min last (lineCount text)) :
    linesBetween text first last ≠ [] := by
  apply List.ne_nil_of_length_pos
  rw [length_linesBetween]
  omega

lemma linesBetween_append (text : String) {first middle last : Int} (hfirst : first ≤ middle + 1) (hmiddle : 0 ≤ middle)
    (hlast : middle ≤ last) :
    linesBetween text first middle ++ linesBetween text (middle + 1) last = linesBetween text first last := by
  have hcount : last.toNat - (first - 1).toNat =
      (middle.toNat - (first - 1).toNat) + (last.toNat - (middle + 1 - 1).toNat) := by omega
  have hskip : (first - 1).toNat + (middle.toNat - (first - 1).toNat) = (middle + 1 - 1).toNat := by omega
  rw [linesBetween_eq, linesBetween_eq, linesBetween_eq, ← List.map_append, List.drop_take, List.drop_take,
    List.drop_take, hcount, List.take_add, List.drop_drop, hskip]

/-! ### Slices -/

theorem slice_eq_intercalate (text : String) (start stop : Int) :
    slice text start stop = String.intercalate "\n" (linesBetween text (max 1 start) stop) := by
  have hfirst : (max 1 start - 1).toNat = (max start 1 - 1).toNat := by omega
  have hback : String.toList ∘ String.ofList = id := funext fun _ => String.toList_ofList
  rw [← String.toList_inj, String.toList_intercalate, linesBetween_eq, List.map_map, hback, List.map_id, hfirst, slice,
    String.toList_ofList]
  rfl

theorem slice_eq_empty {text : String} {start stop : Int} (h : min stop (lineCount text) < max 1 start) :
    slice text start stop = "" := by
  have hnil : linesBetween text (max 1 start) stop = [] := by
    apply List.eq_nil_of_length_eq_zero
    rw [length_linesBetween]
    omega
  rw [slice_eq_intercalate, hnil, String.intercalate_nil]

lemma slice_congr {text : String} {stop stop' : Int} (start : Int)
    (h : min stop (lineCount text) = min stop' (lineCount text)) : slice text start stop = slice text start stop' := by
  rw [slice_eq_intercalate, slice_eq_intercalate, ← linesBetween_min text _ stop, h, linesBetween_min]

/-- A slice can be cut after each of its lines but the last. -/
theorem slice_cut {text : String} {start stop middle : Int} (hstart : max 1 start ≤ middle)
    (hstop : middle < min stop (lineCount text)) :
    slice text start stop = slice text start middle ++ "\n" ++ slice text (middle + 1) stop := by
  have hlater : max 1 (middle + 1) = middle + 1 := by omega
  rw [slice_eq_intercalate, slice_eq_intercalate, slice_eq_intercalate, hlater,
    ← String.intercalate_append_of_ne_nil (linesBetween_ne_nil (by omega) (by omega))
      (linesBetween_ne_nil (by omega) (by omega)),
    linesBetween_append text (by omega) (by omega) (by omega)]

/-! ### Machine words -/

/-- A signed word less another one. Nothing comes out if no word is their difference. -/
def minus? (a b : Int64) : Option Int64 :=
  if BitVec.ssubOverflow a.toBitVec b.toBitVec then none else some (a - b)

/-- The elements from one index to before another. Nothing comes out if the indices are not in order or go beyond
the list. -/
def between? {α : Type} (all : List α) (first last : Nat) : Option (List α) :=
  if first ≤ last ∧ last ≤ all.length then some ((all.take last).drop first) else none

/-- A slice on machine words: the numbers of lines are signed, the indices of lines are not. Nothing comes out if
a step leaves the words or the lines. -/
def sliceOnWords? (text : String) (start stop : Int64) : Option String := do
  if text.isEmpty then return ""
  let all := lines text.toList
  if all.isEmpty then return ""
  let first := (← minus? (max start 1) 1).toUInt64.toNat
  let last := (max stop 0).toUInt64.toNat
  if all.length ≤ first then return ""
  let last := if all.length < last then all.length else last
  if last ≤ first then return ""
  return String.ofList (List.intercalate ['\n'] (← between? all first last))

lemma toInt_max (a b : Int64) : (max a b).toInt = max a.toInt b.toInt := by
  have hmax : max a b = if a ≤ b then b else a := rfl
  rw [hmax]
  split
  · rename_i h
    rw [Int64.le_iff_toInt_le] at h
    omega
  · rename_i h
    rw [Int64.le_iff_toInt_le] at h
    omega

lemma toNat_toUInt64 {a : Int64} (h : 0 ≤ a.toInt) : a.toUInt64.toNat = a.toInt.toNat :=
  Int64.toNat_toUInt64_of_le (Int64.le_iff_toInt_le.mpr h)

/-- No word is too small to be the number of a first line, so the index of that line is found. -/
lemma exists_firstIndex (start : Int64) :
    ∃ before, minus? (max start 1) 1 = some before ∧ before.toUInt64.toNat = (max start.toInt 1 - 1).toNat := by
  have hmax : (max start 1).toInt = max start.toInt 1 := toInt_max start 1
  have hless := start.toInt_lt
  have hfits : BitVec.ssubOverflow (max start 1).toBitVec (1 : Int64).toBitVec = false := by
    have hleft : (max start 1).toBitVec.toInt = max start.toInt 1 := hmax
    have hright : (1 : Int64).toBitVec.toInt = 1 := rfl
    rw [BitVec.ssubOverflow, hleft, hright, Bool.or_eq_false_iff, decide_eq_false_iff_not, decide_eq_false_iff_not]
    omega
  have hminus : (max start 1 - 1).toInt = max start.toInt 1 - 1 := by
    rw [← hmax]
    exact BitVec.toInt_sub_of_not_ssubOverflow (by rw [hfits]; decide)
  refine ⟨max start 1 - 1, ?_, ?_⟩
  · rw [minus?, hfits]
    rfl
  · rw [toNat_toUInt64 (by omega), hminus]

lemma lastIndex_eq (stop : Int64) : (max stop 0).toUInt64.toNat = stop.toInt.toNat := by
  have hmax : (max stop 0).toInt = max stop.toInt 0 := toInt_max stop 0
  rw [toNat_toUInt64 (by omega), hmax]
  omega

/-- Whatever the numbers are, no step of a slice on machine words fails. -/
theorem sliceOnWords?_eq (text : String) (start stop : Int64) :
    sliceOnWords? text start stop = some (slice text start.toInt stop.toInt) := by
  obtain ⟨before, hminus, hfirst⟩ := exists_firstIndex start
  have hempty (h : min stop.toInt.toNat (lineCount text) ≤ (max start.toInt 1 - 1).toNat) :
      slice text start.toInt stop.toInt = "" := slice_eq_empty (by omega)
  have hmin : (if lineCount text < stop.toInt.toNat then lineCount text else stop.toInt.toNat) =
      min stop.toInt.toNat (lineCount text) := by
    split <;> omega
  have hcount : (lines text.toList).length = lineCount text := rfl
  simp only [sliceOnWords?, hminus, Option.bind_eq_bind, Option.bind_some, Option.pure_def, hfirst, lastIndex_eq, hcount,
    hmin]
  -- Each of the early ends is met only if no line is in the range.
  split
  · rename_i htext
    obtain rfl := String.isEmpty_iff.mp htext
    have hzero : lineCount "" = 0 := rfl
    rw [hempty (by omega)]
  split
  · rename_i hnil
    have hzero : lineCount text = 0 := List.length_eq_zero_iff.mpr (List.isEmpty_iff.mp hnil)
    rw [hempty (by omega)]
  split
  · rename_i hbeyond
    rw [hempty (by omega)]
  split
  · rename_i hbefore
    rw [hempty hbefore]
  · rename_i hinside
    rw [between?, if_pos ⟨by omega, Nat.min_le_right _ _⟩, Option.bind_some, lineCount, ← List.take_eq_take_min]
    rfl

example : sliceOnWords? "a\r\n\nb" Int64.minValue Int64.maxValue = some "a\n\nb" := by decide

/-! ### Pages -/

/-- The slice of `size` lines with so many slices of as many lines above it, up to the line `stop`. -/
def page (text : String) (size stop i : Nat) : String :=
  slice text (i * size + 1 : Nat) (min ((i + 1) * size) stop : Nat)

/-- The slices of `size` lines one after the other, from the first line to the line `stop` or the last line. The
last of these slices may have fewer lines. -/
def pages (text : String) (size stop : Nat) : List String :=
  (List.range ((min stop (lineCount text) + size - 1) / size)).map (page text size stop)

/-- Pages are joined to a slice if each of them starts at a line that there is. -/
lemma intercalate_page {text : String} {size stop count : Nat} (hsize : 1 ≤ size)
    (h : ∀ i < count, i * size < min stop (lineCount text)) :
    String.intercalate "\n" ((List.range count).map (page text size stop)) =
      slice text 1 (min (count * size) stop : Nat) := by
  induction count with
  | zero =>
    rw [slice_eq_empty (by omega)]
    exact String.intercalate_nil
  | succ count ih =>
    have hlines := h count (by omega)
    have hnext : (count + 1) * size = count * size + size := Nat.succ_mul count size
    rw [List.range_succ, List.map_append, List.map_singleton]
    by_cases hcount : count = 0
    · rw [hcount, List.range_zero, List.map_nil, List.nil_append, String.intercalate_singleton, page, Nat.zero_mul]
      rfl
    · -- The next page is what the slice has below the lines of the pages before it.
      have hpos : 1 ≤ count * size := Nat.mul_pos (Nat.pos_of_ne_zero hcount) hsize
      have habove : min (count * size) stop = count * size := by omega
      rw [String.intercalate_append_of_ne_nil (by simpa using hcount) (by simp), ih fun i hi => h i (by omega), habove,
        String.intercalate_singleton, page]
      exact (slice_cut (by omega) (by omega)).symm

theorem intercalate_pages {size : Nat} (hsize : 1 ≤ size) (text : String) (stop : Nat) :
    String.intercalate "\n" (pages text size stop) = slice text 1 stop := by
  generalize hshown : min stop (lineCount text) = shown
  have hstarts : ∀ i < (shown + size - 1) / size, i * size < shown := by
    intro i hi
    have := (Nat.le_div_iff_mul_le hsize).mp hi
    rw [Nat.succ_mul] at this
    omega
  have hends : shown ≤ (shown + size - 1) / size * size := by
    have := Nat.div_add_mod' (shown + size - 1) size
    have := Nat.mod_lt (shown + size - 1) hsize
    omega
  rw [pages, hshown, intercalate_page hsize fun i hi => hshown ▸ hstarts i hi]
  exact slice_congr 1 (by omega)

example : pages "a\n\nb\r\nc\nd" 2 9 = ["a\n", "b\nc", "d"] := by decide

/-! ### Every slice -/

/-- What the slices of a text are. -/
structure SlicesExactly (text : String) : Prop where
  /-- Machine words suffice, whatever the numbers are. -/
  onWords : ∀ start stop : Int64, sliceOnWords? text start stop = some (slice text start.toInt stop.toInt)
  /-- The lines are joined whose numbers are in the range, of those that there are. -/
  joined : ∀ start stop : Int, slice text start stop =
    String.intercalate "\n" (linesBetween text (max 1 start) (min stop (lineCount text)))
  empty : ∀ start stop : Int, min stop (lineCount text) < max 1 start → slice text start stop = ""
  cut : ∀ start stop middle : Int, max 1 start ≤ middle → middle < min stop (lineCount text) →
    slice text start stop = slice text start middle ++ "\n" ++ slice text (middle + 1) stop
  /-- Pages of any size are joined to the whole text, as far as the numbers of its lines are machine words. -/
  paged : ∀ size : Nat, 1 ≤ size →
    String.intercalate "\n" (pages text size Int64.maxValue.toInt.toNat) = slice text 1 Int64.maxValue.toInt

/-- A slice of a text has the lines in its range and no others, and can be put together from smaller ones. -/
theorem slices_exactly (text : String) : SlicesExactly text where
  onWords := sliceOnWords?_eq text
  joined start stop := by rw [linesBetween_min, slice_eq_intercalate]
  empty _ _ := slice_eq_empty
  cut _ _ _ := slice_cut
  paged _ hsize := intercalate_pages hsize text _

end CodeContext.Text
