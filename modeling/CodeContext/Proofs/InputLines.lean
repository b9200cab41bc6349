import CodeContext.Proofs.LineLayout
import CodeContext.Text.Input

/-!
# Lines of an input and lines of a text

The byte of an ASCII character is part of no other character, so the bytes of a text end their lines where the text
ends its own. An input that is a text has the lines of that text. Any other input has the lines of the text before
its first line that is not UTF-8.
-/

namespace CodeContext.Text

/-! ### Bytes of characters -/

/-- The bytes of a text. -/
def bytesOf (s : String) : List UInt8 :=
  s.toUTF8.data.toList

lemma bytesOf_append (s t : String) : bytesOf (s ++ t) = bytesOf s ++ bytesOf t := by
  simp only [bytesOf, toUTF8_eq_flatMap, String.toList_append, List.flatMap_append]

lemma utf8EncodeChar_of_lt {c : Char} (h : c.toNat < 128) : String.utf8EncodeChar c = [UInt8.ofNat c.toNat] := by
  have hle : c.val.toNat ≤ 127 := Nat.le_of_lt_succ h
  simp only [String.utf8EncodeChar, if_pos hle]
  rfl

/-- No byte of a character that is not ASCII is that of an ASCII character. -/
lemma le_of_mem_utf8EncodeChar {c : Char} (h : 128 ≤ c.toNat) {b : UInt8} (hb : b ∈ String.utf8EncodeChar c) :
    128 ≤ b.toNat := by
  have hnot : ¬ c.val.toNat ≤ 127 := Nat.not_le_of_lt h
  have hlarge {n : ℕ} (hn : 128 ≤ n % 256) : 128 ≤ (UInt8.ofNat n).toNat := by rwa [UInt8.toNat_ofNat']
  simp only [String.utf8EncodeChar, if_neg hnot] at hb
  split_ifs at hb
  all_goals simp only [List.mem_cons, List.not_mem_nil, or_false] at hb
  · rcases hb with rfl | rfl <;> exact hlarge (by omega)
  · rcases hb with rfl | rfl | rfl <;> exact hlarge (by omega)
  · rcases hb with rfl | rfl | rfl | rfl <;> exact hlarge (by omega)

lemma mem_utf8EncodeChar_iff {b : UInt8} (hb : b.toNat < 128) {c : Char} :
    b ∈ String.utf8EncodeChar c ↔ c.toNat = b.toNat := by
  by_cases hc : c.toNat < 128
  · rw [utf8EncodeChar_of_lt hc, List.mem_singleton, ← UInt8.toNat_inj, UInt8.toNat_ofNat', Nat.mod_eq_of_lt (by omega)]
    exact eq_comm
  · refine iff_of_false (fun hmem => ?_) fun h => hc (h ▸ hb)
    have hlarge := le_of_mem_utf8EncodeChar (Nat.le_of_not_lt hc) hmem
    omega

/-- The bytes of a line end with a carriage return just when the line does. -/
lemma dropReturnByte_bytes (line : List Char) :
    dropReturnByte (line.flatMap String.utf8EncodeChar) = (dropReturn line).flatMap String.utf8EncodeChar := by
  obtain rfl | ⟨start, c, rfl⟩ := List.eq_nil_or_concat' line
  · rfl
  rw [List.flatMap_append, List.flatMap_singleton]
  by_cases hc : c = '\r'
  · subst hc
    have hbyte : String.utf8EncodeChar '\r' = [13] := by decide
    simp [dropReturnByte, dropReturn, hbyte]
  · have hreturn : dropReturn (start ++ [c]) = start ++ [c] := if_neg (by simpa using hc)
    have hlast : (start.flatMap String.utf8EncodeChar ++ String.utf8EncodeChar c).getLast? ≠ some 13 := by
      intro hlast
      have hmem := List.mem_of_getLast? ((List.getLast?_append_of_ne_nil _ String.utf8EncodeChar_ne_nil).symm.trans hlast)
      exact hc (Char.toNat_inj.mp ((mem_utf8EncodeChar_iff (by decide)).mp hmem))
    rw [dropReturnByte, if_neg hlast, hreturn, List.flatMap_append, List.flatMap_singleton]

/-! ### Lines of bytes -/

variable {line : List UInt8}

lemma byteLinesFrom_append (h : 10 ∉ line) (start rest : List UInt8) :
    byteLinesFrom start (line ++ rest) = byteLinesFrom (line.reverse ++ start) rest := by
  induction line generalizing start with
  | nil => rfl
  | cons b line ih =>
    have hb : b ≠ 10 := fun hb => h (hb ▸ List.mem_cons_self)
    rw [List.cons_append, byteLinesFrom, if_neg hb, ih fun hmem => h (List.mem_cons_of_mem _ hmem)]
    simp

lemma byteLinesFrom_feed (start before rest : List UInt8) :
    byteLinesFrom start (before ++ 10 :: rest) = byteLinesFrom start (before ++ [10]) ++ byteLines rest := by
  induction before generalizing start with
  | nil => rfl
  | cons b before ih =>
    rw [List.cons_append, List.cons_append, byteLinesFrom, byteLinesFrom]
    split
    · rw [ih, List.cons_append]
    · exact ih _

/-- The lines of the bytes of a text are the bytes of its lines. -/
theorem byteLinesFrom_bytes (start cs : List Char) :
    byteLinesFrom (start.reverse.flatMap String.utf8EncodeChar).reverse (cs.flatMap String.utf8EncodeChar) =
      (linesFrom start cs).map fun line => line.flatMap String.utf8EncodeChar := by
  induction cs generalizing start with
  | nil =>
    cases start with
    | nil => rfl
    | cons c start =>
      have hne : (((c :: start).reverse).flatMap String.utf8EncodeChar).reverse ≠ [] := by simp
      rw [List.flatMap_nil, byteLinesFrom, if_neg (by rwa [List.isEmpty_iff]), List.reverse_reverse]
      rfl
  | cons c cs ih =>
    rw [List.flatMap_cons]
    by_cases hc : c = '\n'
    · have hnil := ih []
      subst hc
      have hbyte : String.utf8EncodeChar '\n' = [10] := by decide
      rw [hbyte, List.singleton_append, byteLinesFrom, if_pos rfl, List.reverse_reverse, dropReturnByte_bytes,
        linesFrom, if_pos rfl, List.map_cons, ← hnil]
      rfl
    · have hfeed : 10 ∉ String.utf8EncodeChar c := fun hmem =>
        hc (Char.toNat_inj.mp ((mem_utf8EncodeChar_iff (by decide)).mp hmem))
      rw [byteLinesFrom_append hfeed, linesFrom, if_neg hc, ← ih]
      simp

/-! ### Texts of bytes -/

lemma ofBytes?_eq_some_iff {bytes : List UInt8} {s : String} : ofBytes? bytes = some s ↔ bytes = bytesOf s := by
  rw [ofBytes?, fromUTF8?_eq_some_iff, bytesOf]
  constructor
  · intro h
    rw [← h]
  · rintro rfl
    rfl

lemma textsOf_append (texts : List String) (rest : List (List UInt8)) :
    textsOf (texts.map bytesOf ++ rest) = texts ++ textsOf rest := by
  induction texts with
  | nil => rfl
  | cons text texts ih =>
    rw [List.map_cons, List.cons_append, textsOf, ofBytes?_eq_some_iff.mpr rfl, ih, List.cons_append]

lemma ofBytes?_eq_none_iff {bytes : List UInt8} : ofBytes? bytes = none ↔ ∀ s, bytes ≠ bytesOf s := by
  rw [Option.eq_none_iff_forall_ne_some]
  exact forall_congr' fun s => not_congr ofBytes?_eq_some_iff

/-- A carriage return at the end of a line does not make it UTF-8. -/
lemma ofBytes?_dropReturnByte (h : ofBytes? line = none) : ofBytes? (dropReturnByte line) = none := by
  rw [dropReturnByte]
  split
  · rename_i hlast
    obtain ⟨start, rfl⟩ := List.getLast?_eq_some_iff.mp hlast
    rw [ofBytes?_eq_none_iff] at h ⊢
    intro s hs
    apply h (s ++ "\r")
    rw [List.dropLast_concat] at hs
    rw [bytesOf_append, ← hs]
    rfl
  · exact h

/-! ### The text of an input -/

/-- The first line of some bytes is not UTF-8. -/
inductive StartsUnreadable : List UInt8 → Prop
  | last {line : List UInt8} (oneLine : 10 ∉ line) (unreadable : ∀ s, line ≠ bytesOf s) : StartsUnreadable line
  | line {line : List UInt8} (oneLine : 10 ∉ line) (unreadable : ∀ s, line ≠ bytesOf s) (rest : List UInt8) :
      StartsUnreadable (line ++ 10 :: rest)

/-- The text of an input is all of it, or all before its first line that is not UTF-8. -/
inductive IsTextOf (text : String) : List UInt8 → Prop
  | whole : IsTextOf text (bytesOf text)
  | cut {rest : List UInt8} (ended : ∀ c ∈ text.toList.getLast?, c = '\n') (unreadable : StartsUnreadable rest) :
      IsTextOf text (bytesOf text ++ rest)

lemma IsTextOf.cons {text line : String} {rest : List UInt8} (h : IsTextOf text rest) :
    IsTextOf (line ++ "\n" ++ text) (bytesOf line ++ 10 :: rest) := by
  have hbytes : bytesOf (line ++ "\n" ++ text) = bytesOf line ++ 10 :: bytesOf text := by
    rw [bytesOf_append, bytesOf_append, List.append_assoc]
    rfl
  cases h with
  | whole => exact hbytes ▸ .whole
  | @cut bad ended unreadable =>
    have hended : ∀ c ∈ (line ++ "\n" ++ text).toList.getLast?, c = '\n' := by
      rw [String.toList_append, String.toList_append, List.append_assoc]
      cases htext : text.toList with
      | nil => simp
      | cons d text =>
        intro c hc
        apply ended
        simpa [htext] using hc
    have hcut := IsTextOf.cut hended unreadable
    rwa [hbytes, List.append_assoc, List.cons_append] at hcut

/-- Any input has a text. -/
theorem exists_isTextOf (bytes : List UInt8) : ∃ text, IsTextOf text bytes := by
  induction hn : bytes.length using Nat.strong_induction_on generalizing bytes with
  | _ n ih =>
    by_cases hmem : 10 ∈ bytes
    · obtain ⟨line, rest, rfl, hline⟩ := List.eq_append_cons_of_mem hmem
      by_cases hread : ∃ s, line = bytesOf s
      · obtain ⟨s, rfl⟩ := hread
        have hlength : rest.length < n := by
          rw [← hn, List.length_append, List.length_cons]
          omega
        obtain ⟨text, htext⟩ := ih rest.length hlength rest rfl
        exact ⟨_, htext.cons⟩
      · exact ⟨"", .cut nofun (.line hline (not_exists.mp hread) rest)⟩
    · by_cases hread : ∃ s, bytes = bytesOf s
      · obtain ⟨s, rfl⟩ := hread
        exact ⟨s, .whole⟩
      · exact ⟨"", .cut nofun (.last hmem (not_exists.mp hread))⟩

lemma textsOf_of_startsUnreadable {bytes : List UInt8} (h : StartsUnreadable bytes) :
    textsOf (byteLines bytes) = [] := by
  cases h with
  | last oneLine unreadable =>
    have hnone := ofBytes?_eq_none_iff.mpr unreadable
    have hcut := byteLinesFrom_append oneLine [] []
    rw [List.append_nil, List.append_nil] at hcut
    rw [byteLines, hcut, byteLinesFrom]
    split
    · rfl
    · rw [List.reverse_reverse, textsOf, hnone]
  | line oneLine unreadable rest =>
    have hnone := ofBytes?_dropReturnByte (ofBytes?_eq_none_iff.mpr unreadable)
    rw [byteLines, byteLinesFrom_append oneLine, List.append_nil, byteLinesFrom, if_pos rfl, List.reverse_reverse,
      textsOf, hnone]

lemma byteLines_bytesOf (s : String) : byteLines (bytesOf s) = ((lines s.toList).map String.ofList).map bytesOf := by
  have hbytes := byteLinesFrom_bytes [] s.toList
  rw [← toUTF8_eq_flatMap] at hbytes
  rw [List.map_map]
  refine hbytes.trans (List.map_congr_left fun line _ => ?_)
  rw [Function.comp_apply, bytesOf, toUTF8_eq_flatMap, String.toList_ofList]

/-- The lines of an input are those of its text. -/
theorem IsTextOf.inputLines_eq {text : String} {input : ByteArray} (h : IsTextOf text input.data.toList) :
    inputLines input = (lines text.toList).map String.ofList := by
  rw [inputLines]
  generalize input.data.toList = bytes at h
  cases h with
  | whole =>
    have hread := textsOf_append ((lines text.toList).map String.ofList) []
    rwa [List.append_nil, ← byteLines_bytesOf, textsOf, List.append_nil] at hread
  | @cut rest ended unreadable =>
    have hlines : byteLines (bytesOf text ++ rest) = byteLines (bytesOf text) ++ byteLines rest := by
      obtain hnil | ⟨start, c, hlast⟩ := List.eq_nil_or_concat' text.toList
      · rw [bytesOf, toUTF8_eq_flatMap, hnil]
        rfl
      · obtain rfl : c = '\n' := ended c (by simp [hlast])
        have hbytes : bytesOf text = start.flatMap String.utf8EncodeChar ++ [10] := by
          rw [bytesOf, toUTF8_eq_flatMap, hlast, List.flatMap_append]
          rfl
        rw [hbytes, List.append_assoc, List.singleton_append]
        exact byteLinesFrom_feed [] _ rest
    rw [hlines, byteLines_bytesOf, textsOf_append, textsOf_of_startsUnreadable unreadable, List.append_nil]

/-- Lines that are joined with their ends come back from an input. -/
theorem IsTextOf.inputLines_of_isLayout {text : String} {input : ByteArray} (h : IsTextOf text input.data.toList)
    {ls : List Line} (hls : IsLayout ls text.toList) :
    inputLines input = ls.map fun l => String.ofList l.content := by
  rw [h.inputLines_eq, hls.lines_eq, List.map_map]
  rfl

/-- A line with either end, a line that is not UTF-8, and one after it. -/
example : inputLines ⟨#[65, 13, 10, 66, 10, 67, 255, 10, 68, 10]⟩ = ["A", "B"] := by decide

end CodeContext.Text
