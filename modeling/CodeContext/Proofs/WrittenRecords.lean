import CodeContext.Proofs.WrittenReals
import Mathlib.Data.List.Forall2

/-!
# Lists, maps and records read back

What is written for a list, a map or a record is read back if each of its parts is. The parts stand one after
the other with commas between them, and reading one stops before the comma or the bracket that follows it.
-/

namespace CodeContext

/-! ### Maps in order -/

lemma putEntry_of_lt {α : Type} {key : String} {value : α} {entries : List (String × α)}
    (h : ∀ e ∈ entries, e.1 < key) : putEntry key value entries = entries ++ [(key, value)] := by
  induction entries with
  | nil => rfl
  | cons e rest ih =>
    have he : e.1 < key := h e List.mem_cons_self
    rw [putEntry, if_neg (String.lt_asymm he), if_neg fun heq => String.lt_irrefl _ (heq ▸ he),
      ih fun e he => h e (List.mem_cons_of_mem _ he), List.cons_append]

namespace TextMap

variable {α : Type}

lemma entries_foldl_insert {entries : List (String × α)} {m : TextMap α}
    (h : (m.entries ++ entries).Pairwise fun a b => a.1 < b.1) :
    (entries.foldl (fun m e => m.insert e.1 e.2) m).entries = m.entries ++ entries := by
  induction entries generalizing m with
  | nil => simp
  | cons e rest ih =>
    have hlast : ∀ a ∈ m.entries, a.1 < e.1 := fun a ha =>
      (List.pairwise_append.mp h).2.2 a ha e List.mem_cons_self
    have hinsert : (m.insert e.1 e.2).entries = m.entries ++ [e] := putEntry_of_lt hlast
    rw [List.foldl_cons, ih (by rwa [hinsert, List.append_assoc]), hinsert, List.append_assoc]
    rfl

lemma ofList_entries (m : TextMap α) : ofList m.entries = m := by
  have hentries : (ofList m.entries).entries = m.entries := entries_foldl_insert m.sorted
  cases hm : ofList m.entries
  cases m
  simp_all

end TextMap

namespace TextSet

lemma ofList_eq (items : List String) : ofList items = ⟨TextMap.ofList (items.map (·, ()))⟩ := by
  have hfold (m : TextMap Unit) : items.foldl (fun s item => s.insert item) ⟨m⟩ =
      (⟨(items.map (·, ())).foldl (fun m e => m.insert e.1 e.2) m⟩ : TextSet) := by
    induction items generalizing m with
    | nil => rfl
    | cons item rest ih => exact ih (m.insert item ())
  exact hfold .empty

lemma ofList_toList (s : TextSet) : ofList s.toList = s := by
  have hentries : s.map.keys.map (·, ()) = s.map.entries := by
    rw [TextMap.keys, List.map_map]
    exact List.map_id' _
  rw [ofList_eq, toList, hentries, TextMap.ofList_entries]

end TextSet

namespace Json

open Cursor

/-! ### Items and members -/

/-- The items of an array up to its end, the first of all with no comma before. -/
def itemsText (first : Bool) : List (List Char) → List Char
  | [] => [']']
  | text :: rest => (if first then [] else [',']) ++ text ++ itemsText false rest

/-- The members of an object up to its end, the first of all with no comma before. -/
def membersText (first : Bool) : List (String × List Char) → List Char
  | [] => ['\x7d']
  | (key, text) :: rest => (if first then [] else [',']) ++ writeString key ++ ':' :: text ++ membersText false rest

lemma delimits_itemsText (texts : List (List Char)) (rest : List Char) : Delimits (itemsText false texts ++ rest) := by
  intro c hc
  cases texts with
  | nil => exact .inr (.inl (Option.some.inj hc).symm)
  | cons text texts => exact .inl (Option.some.inj hc).symm

lemma delimits_membersText (ms : List (String × List Char)) (rest : List Char) :
    Delimits (membersText false ms ++ rest) := by
  intro c hc
  cases ms with
  | nil => exact .inr (.inr (Option.some.inj hc).symm)
  | cons m ms => exact .inl (Option.some.inj hc).symm

lemma write_array (vs : List Value) : (Value.array vs).write = '[' :: itemsText true (vs.map Value.write) := by
  have hrest (vs : List Value) : Value.writeItems vs = itemsText false (vs.map Value.write) := by
    induction vs with
    | nil => rfl
    | cons v vs ih => simp [Value.writeItems, itemsText, ih]
  cases vs with
  | nil => rfl
  | cons v vs => simp [Value.write, itemsText, hrest]

lemma write_object (ms : List (String × Value)) :
    (Value.object ms).write = '\x7b' :: membersText true (ms.map fun m => (m.1, m.2.write)) := by
  have hrest (ms : List (String × Value)) :
      Value.writeMembers ms = membersText false (ms.map fun m => (m.1, m.2.write)) := by
    induction ms with
    | nil => rfl
    | cons m ms ih => simp [Value.writeMembers, membersText, ih]
  cases ms with
  | nil => rfl
  | cons m ms => simp [Value.write, membersText, hrest]

/-! ### Lists -/

variable {α : Type} {d : Decoder α} {depth : Nat}

lemma moreItems_begins (first : Bool) {text : List Char}
    (h : ∃ c rest, text = c :: rest ∧ isSpace c = false ∧ c ≠ ']') (rest : List Char) (pos : Position) :
    ∃ pos', moreItems first ⟨(if first then [] else [',']) ++ text ++ rest, pos⟩ =
      .ok (true, ⟨text ++ rest, pos'⟩) := by
  have hspace := skipSpace_of_begins h rest
  obtain ⟨c, cs, rfl, -, hclose⟩ := h
  cases first with
  | true =>
    refine ⟨pos, ?_⟩
    simp only [if_true, List.nil_append, moreItems, hspace]
    simp [Cursor.peek?, hclose]
  | false =>
    refine ⟨pos.after ',', ?_⟩
    have hcomma : Cursor.skipSpace ⟨',' :: (c :: cs ++ rest), pos⟩ = ⟨',' :: (c :: cs ++ rest), pos⟩ := rfl
    have hskip : Cursor.skip ⟨',' :: (c :: cs ++ rest), pos⟩ = ⟨c :: cs ++ rest, pos.after ','⟩ := rfl
    simp only [Bool.false_eq_true, if_false, List.cons_append, moreItems] at hcomma hskip hspace ⊢
    simp [hcomma, hskip, hspace, Cursor.peek?, hclose]

lemma readItems_write {texts : List (List Char)} {xs : List α} (h : List.Forall₂ (Reads d depth) texts xs)
    (first : Bool) {fuel : Nat} (hfuel : texts.length < fuel) (rest : List Char) (pos : Position) :
    ∃ pos', readItems (d.read depth) fuel first ⟨itemsText first texts ++ rest, pos⟩ = .ok (xs, ⟨rest, pos'⟩) := by
  induction h generalizing first fuel pos with
  | nil =>
    obtain ⟨fuel, rfl⟩ := Nat.exists_eq_add_one.mpr hfuel
    exact ⟨_, rfl⟩
  | @cons text x texts xs hx hxs ih =>
    obtain ⟨fuel, rfl⟩ := Nat.exists_eq_add_one.mpr (Nat.zero_lt_of_lt hfuel)
    obtain ⟨start, hmore⟩ := moreItems_begins first hx.begins (itemsText false texts ++ rest) pos
    obtain ⟨next, hitem⟩ := hx.read _ (delimits_itemsText texts rest) start
    obtain ⟨last, hitems⟩ := ih false (Nat.lt_of_succ_lt_succ hfuel) next
    refine ⟨last, ?_⟩
    rw [itemsText, List.append_assoc]
    simp only [readItems, hmore, bind, Except.bind, if_true, hitem, hitems]

lemma length_le_itemsText {texts : List (List Char)} {xs : List α} (h : List.Forall₂ (Reads d depth) texts xs)
    (first : Bool) : texts.length ≤ (itemsText first texts).length := by
  induction h generalizing first with
  | nil => simp
  | cons hx hxs ih =>
    obtain ⟨c, cs, rfl, -⟩ := hx.begins
    have := ih false
    simp only [itemsText, List.length_append, List.length_cons]
    omega

lemma reads_list {vs : List Value} {xs : List α} (h : List.Forall₂ (fun v x => Reads d depth v.write x) vs xs)
    (hdepth : 0 < depth) : Reads (Decoder.list d) (depth + 1) (Value.array vs).write xs := by
  rw [write_array]
  have htexts : List.Forall₂ (Reads d depth) (vs.map Value.write) xs := List.forall₂_map_left_iff.mpr h
  have hlength := length_le_itemsText htexts true
  refine ⟨⟨'[', _, rfl, rfl, by decide⟩, fun rest _ pos => ?_⟩
  obtain ⟨pos', hitems⟩ := readItems_write htexts true
    (show _ < (itemsText true (vs.map Value.write) ++ rest).length + 1 + 1 by rw [List.length_append]; omega) rest
    (pos.after '[')
  refine ⟨pos', ?_⟩
  have hshallow : ¬ depth + 1 ≤ 1 := by omega
  change (if depth + 1 ≤ 1 then _ else _) = _
  rw [if_neg hshallow]
  exact hitems

/-! ### Texts, sets and choices -/

lemma reads_none {d : Decoder α} : Reads (Decoder.option d) depth Value.null.write none where
  begins := ⟨'n', _, rfl, rfl, by decide⟩
  read _ _ _ := ⟨_, rfl⟩

lemma reads_some {text : List Char} {x : α} (h : Reads d depth text x) (hnull : text.head? ≠ some 'n') :
    Reads (Decoder.option d) depth text (some x) where
  begins := h.begins
  read rest hrest pos := by
    obtain ⟨pos', hread⟩ := h.read rest hrest pos
    have hpeek : (Cursor.peek? ⟨text ++ rest, pos⟩ == some 'n') = false := by
      obtain ⟨c, cs, rfl, -⟩ := h.begins
      simpa [Cursor.peek?] using hnull
    refine ⟨pos', ?_⟩
    simp only [Decoder.option, skipSpace_of_begins h.begins rest pos, hpeek, hread]
    rfl

lemma reads_strings (items : List String) (hdepth : 0 < depth) :
    Reads (Decoder.list Decoder.string) (depth + 1) (Value.strings items).write items := by
  refine reads_list (List.forall₂_map_left_iff.mpr ?_) hdepth
  exact List.forall₂_same.mpr fun s _ => reads_string s depth

lemma reads_set (s : TextSet) (hdepth : 0 < depth) :
    Reads Decoder.set (depth + 1) (Value.strings s.toList).write s := by
  have hlist := reads_strings s.toList hdepth
  refine ⟨hlist.begins, fun rest hrest pos => ?_⟩
  obtain ⟨pos', hread⟩ := hlist.read rest hrest pos
  refine ⟨pos', ?_⟩
  change ((Decoder.list Decoder.string).read (depth + 1) _).map _ = _
  rw [hread]
  simp only [Except.map, TextSet.ofList_toList]

lemma reads_variant {known : List String} {named : String → Option α} {name : String} {x : α}
    (h : named name = some x) : Reads (Decoder.variant known named) depth (writeString name) x where
  begins := ⟨'"', _, rfl, rfl, by decide⟩
  read rest _ pos := by
    obtain ⟨pos', hread⟩ := readString_write name rest (pos.after '"')
    refine ⟨pos', ?_⟩
    have htext : writeString name ++ rest = '"' :: (name.toList.flatMap escapeChar ++ '"' :: rest) := by
      simp [writeString]
    rw [htext]
    change Decoder.variant.readName known named ⟨'"' :: (name.toList.flatMap escapeChar ++ '"' :: rest), pos⟩ = _
    simp only [Decoder.variant.readName, Cursor.skip, hread, bind, Except.bind, Decoder.variant.ofName, h]

/-! ### Members -/

/-- The key and the colon of the next member are read, and its text is next. -/
lemma exists_key (first : Bool) (key : String) (text : List Char) (ms : List (String × List Char)) (rest : List Char)
    (pos : Position) : ∃ start afterKey afterColon,
      moreMembers first ⟨membersText first ((key, text) :: ms) ++ rest, pos⟩ = .ok (true, start) ∧
      readString start.skip = .ok (key, afterKey) ∧
      readColon afterKey = .ok ⟨text ++ (membersText false ms ++ rest), afterColon⟩ := by
  have htext : membersText first ((key, text) :: ms) ++ rest = (if first then [] else [',']) ++
      '"' :: (key.toList.flatMap escapeChar ++ '"' :: ':' :: (text ++ (membersText false ms ++ rest))) := by
    simp [membersText, writeString]
  obtain ⟨start, hmore⟩ : ∃ start, moreMembers first ⟨membersText first ((key, text) :: ms) ++ rest, pos⟩ =
      .ok (true, ⟨'"' :: (key.toList.flatMap escapeChar ++
        '"' :: ':' :: (text ++ (membersText false ms ++ rest))), start⟩) := by
    rw [htext]
    cases first with
    | true => exact ⟨pos, rfl⟩
    | false => exact ⟨pos.after ',', rfl⟩
  obtain ⟨afterKey, hkey⟩ :=
    readString_write key (':' :: (text ++ (membersText false ms ++ rest))) (start.after '"')
  exact ⟨_, _, afterKey.after ':', hmore, hkey, rfl⟩

lemma moreMembers_end (first : Bool) (rest : List Char) (pos : Position) :
    moreMembers first ⟨membersText first [] ++ rest, pos⟩ = .ok (false, ⟨'\x7d' :: rest, pos⟩) := rfl

lemma length_lt_membersText (ms : List (String × List Char)) (first : Bool) :
    ms.length < (membersText first ms).length := by
  induction ms generalizing first with
  | nil => simp [membersText]
  | cons m ms ih =>
    have := ih false
    simp only [membersText, List.length_append, List.length_cons]
    omega

lemma readMembers_write {ms : List (String × List Char)} {entries : List (String × α)}
    (h : List.Forall₂ (fun m e => m.1 = e.1 ∧ Reads d depth m.2 e.2) ms entries) (first : Bool) {fuel : Nat}
    (hfuel : ms.length < fuel) (rest : List Char) (pos : Position) : ∃ pos',
      readMembers (d.read depth) fuel first ⟨membersText first ms ++ rest, pos⟩ = .ok (entries, ⟨rest, pos'⟩) := by
  induction h generalizing first fuel pos with
  | nil =>
    obtain ⟨fuel, rfl⟩ := Nat.exists_eq_add_one.mpr hfuel
    exact ⟨_, rfl⟩
  | @cons m e ms entries hm hms ih =>
    obtain ⟨fuel, rfl⟩ := Nat.exists_eq_add_one.mpr (Nat.zero_lt_of_lt hfuel)
    obtain ⟨key, text⟩ := m
    obtain ⟨_, x⟩ := e
    obtain ⟨rfl, hx⟩ := hm
    obtain ⟨start, afterKey, afterColon, hmore, hkey, hcolon⟩ := exists_key first key text ms rest pos
    obtain ⟨next, hvalue⟩ := hx.read _ (delimits_membersText ms rest) afterColon
    obtain ⟨last, hrest⟩ := ih false (Nat.lt_of_succ_lt_succ hfuel) next
    refine ⟨last, ?_⟩
    dsimp only at hvalue
    simp only [readMembers, hmore, bind, Except.bind, if_true, hkey, hcolon, hvalue, hrest]

lemma reads_map {m : TextMap α} {write : α → Value} (h : ∀ e ∈ m.entries, Reads d depth (write e.2).write e.2)
    (hdepth : 0 < depth) :
    Reads (Decoder.map d) (depth + 1) (Value.object (m.entries.map fun e => (e.1, write e.2))).write m := by
  rw [write_object, List.map_map]
  generalize htexts : m.entries.map _ = texts
  have hentries : List.Forall₂ (fun t e => t.1 = e.1 ∧ Reads d depth t.2 e.2) texts m.entries := by
    rw [← htexts, List.forall₂_map_left_iff]
    exact List.forall₂_same.mpr fun e he => ⟨rfl, h e he⟩
  refine ⟨⟨'\x7b', _, rfl, rfl, by decide⟩, fun rest _ pos => ?_⟩
  have hlength := length_lt_membersText texts true
  obtain ⟨pos', hmembers⟩ := readMembers_write hentries true
    (show _ < (membersText true texts ++ rest).length + 1 + 1 by rw [List.length_append]; omega) rest (pos.after '\x7b')
  refine ⟨pos', ?_⟩
  have hshallow : ¬ depth + 1 ≤ 1 := by omega
  change (if depth + 1 ≤ 1 then _ else Except.map _ (readMembers (d.read depth)
    ((membersText true texts ++ rest).length + 1 + 1) true ⟨membersText true texts ++ rest, pos.after '\x7b'⟩)) = _
  rw [if_neg hshallow, hmembers]
  simp only [Except.map, TextMap.ofList_entries]

/-! ### Records -/

variable {σ : Type} {s : Decoder.Shape σ α}

/-- A field takes a text into a draft, wherever the text stands. -/
def Takes (f : Decoder.Field σ) (depth : Nat) (text : List Char) (draft next : σ) : Prop :=
  ∀ rest, Delimits rest → ∀ pos, ∃ pos', f.read depth ⟨text ++ rest, pos⟩ draft = .ok (next, ⟨rest, pos'⟩)

/-- Members that fill a draft one after the other. -/
inductive Fills (s : Decoder.Shape σ α) (depth : Nat) : List (String × Value) → σ → σ → Prop
  | nil (draft : σ) : Fills s depth [] draft draft
  | cons {f : Decoder.Field σ} {key : String} {v : Value} {ms : List (String × Value)} {draft next last : σ}
      (field : s.fields.find? (·.hasName key) = some f) (filled : f.filled draft = false)
      (takes : Takes f depth v.write draft next) (rest : Fills s depth ms next last) :
      Fills s depth ((key, v) :: ms) draft last

lemma Fills.append {ms ms' : List (String × Value)} {draft next last : σ} (h : Fills s depth ms draft next)
    (h' : Fills s depth ms' next last) : Fills s depth (ms ++ ms') draft last := by
  induction h with
  | nil draft => exact h'
  | cons field filled takes _ ih => exact .cons field filled takes (ih h')

lemma takes_slot {β : Type} {name : String} {dec : Decoder β} {get : σ → Option β} {set : β → σ → σ} {text : List Char}
    {x : β} (h : Reads dec depth text x) (draft : σ) :
    Takes (Decoder.slot name dec get set) depth text draft (set x draft) := by
  intro rest hrest pos
  obtain ⟨pos', hread⟩ := h.read rest hrest pos
  refine ⟨pos', ?_⟩
  change (dec.read depth _).map _ = _
  rw [hread]
  rfl

/-- The members of a record are read if they fill a draft that can be finished. -/
lemma readFields_write {ms : List (String × Value)} {draft last : σ} (h : Fills s depth ms draft last) {x : α}
    (hfinish : s.finish last = .ok x) (first : Bool) {fuel : Nat} (hfuel : ms.length < fuel) (rest : List Char)
    (pos : Position) : ∃ pos', s.readFields depth fuel first
      ⟨membersText first (ms.map fun m => (m.1, m.2.write)) ++ rest, pos⟩ draft = .ok (x, ⟨rest, pos'⟩) := by
  induction h generalizing first fuel pos with
  | nil draft =>
    obtain ⟨fuel, rfl⟩ := Nat.exists_eq_add_one.mpr hfuel
    refine ⟨pos.after '\x7d', ?_⟩
    rw [List.map_nil]
    simp only [Decoder.Shape.readFields, moreMembers_end, bind, Except.bind, Bool.false_eq_true, if_false,
      Decoder.Shape.finishAt, hfinish, Cursor.skip]
  | @cons f key v ms draft next last field filled takes _ ih =>
    obtain ⟨fuel, rfl⟩ := Nat.exists_eq_add_one.mpr (Nat.zero_lt_of_lt hfuel)
    obtain ⟨start, afterKey, afterColon, hmore, hkey, hcolon⟩ :=
      exists_key first key v.write (ms.map fun m => (m.1, m.2.write)) rest pos
    obtain ⟨after, hvalue⟩ := takes _ (delimits_membersText (ms.map fun m => (m.1, m.2.write)) rest) afterColon
    obtain ⟨end', hrest⟩ := ih hfinish false (Nat.lt_of_succ_lt_succ hfuel) after
    refine ⟨end', ?_⟩
    rw [List.map_cons]
    simp only [Decoder.Shape.readFields, hmore, bind, Except.bind, if_true, hkey, field, filled, Bool.false_eq_true,
      if_false, hcolon, hvalue, hrest]

/-- A record is read back from members that fill it. -/
theorem reads_record {ms : List (String × Value)} {last : σ} {x : α} (h : Fills s depth ms s.blank last)
    (hfinish : s.finish last = .ok x) (hdepth : 0 < depth) : Reads s.decoder (depth + 1) (Value.object ms).write x := by
  rw [write_object]
  refine ⟨⟨'\x7b', _, rfl, rfl, by decide⟩, fun rest _ pos => ?_⟩
  have hlength := length_lt_membersText (ms.map fun m => (m.1, m.2.write)) true
  rw [List.length_map] at hlength
  obtain ⟨pos', hfields⟩ := readFields_write h hfinish true
    (show _ < (membersText true (ms.map fun m => (m.1, m.2.write)) ++ rest).length + 1 + 1 by
      rw [List.length_append]; omega) rest (pos.after '\x7b')
  refine ⟨pos', ?_⟩
  have hshallow : ¬ depth + 1 ≤ 1 := by omega
  change (if depth + 1 ≤ 1 then _ else _) = _
  rw [if_neg hshallow]
  exact hfields

/-- What is read within a value is read alone. -/
theorem Reads.parse {v : Value} {x : α} (h : Reads d depthLimit v.write x) : d.parse v.compact = .ok x := by
  obtain ⟨pos, hread⟩ := h.read [] (fun _ hc => nomatch hc) ⟨1, 0⟩
  rw [List.append_nil] at hread
  have htext : Cursor.start v.compact.toList = ⟨v.write, ⟨1, 0⟩⟩ := by rw [Value.compact, String.toList_ofList]; rfl
  rw [Decoder.parse, htext]
  exact bind_eq_ok_iff.mpr ⟨_, hread, rfl⟩

end Json

end CodeContext
