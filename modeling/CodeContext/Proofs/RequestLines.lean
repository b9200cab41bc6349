import CodeContext.Proofs.PassedValues
import CodeContext.Service.Basic
import Mathlib.Tactic.Common

/-!
# Ids of responses

A request repeats its id in its response. The id is one member of the line among others, which may be
missing, repeated, of the wrong type, or unknown. The members of a line tell whether it reads as a request:
there is one method, its value is a string, and there are parameters at most once. Else the response has no
id, even if the line has one, and an id that cannot be held is never repeated.
-/

namespace CodeContext

namespace Json

/-- The value of a member, if it can be held. A value with a number out of range, with half of a character
beyond sixteen bits, or nested too deep, is only passed over. -/
def heldOrPassed (depth : Nat) (k : Cursor) : Reading (Option Value) :=
  match readValue depth k with
  | .ok (v, k) => .ok (some v, k)
  | .error _ => (passValue k).map (none, ·)

/-- The members of a text that is an object, in the order they are written, with all that are repeated. -/
def writtenMembers (text : String) : Except Error (List (String × Option Value)) :=
  let k := (Cursor.start text.toList).skipSpace
  if k.peek? == some '\x7b' then do
    let (ms, k) ← readMembers (heldOrPassed (depthLimit - 1)) (k.rest.length + 1) true k.skip
    readEnd ms k
  else k.failAhead .valueExpected

/-- The values of the members with a key. -/
def valuesOf (key : String) (ms : List (String × Option Value)) : List (Option Value) :=
  ms.filterMap fun m => if m.1 = key then some m.2 else none

variable {depth : Nat} {k k' : Cursor}

lemma passValue_of_heldOrPassed {x : Option Value} (h : heldOrPassed depth k = .ok (x, k')) : passValue k = .ok k' := by
  unfold heldOrPassed at h
  split at h
  · rename_i v after hread
    obtain ⟨-, rfl⟩ := Prod.mk.inj (Except.ok.inj h)
    exact passValue_of_readValue hread
  · obtain ⟨after, hpass, h⟩ := map_eq_ok_iff.mp h
    obtain ⟨-, rfl⟩ := Prod.mk.inj h
    exact hpass

lemma toOption_readValue {x : Option Value} (h : heldOrPassed depth k = .ok (x, k')) :
    (Decoder.value.read depth k).toOption = x.map (·, k') := by
  change (readValue depth k).toOption = x.map (·, k')
  unfold heldOrPassed at h
  split at h
  · rename_i v after hread
    obtain ⟨rfl, rfl⟩ := Prod.mk.inj (Except.ok.inj h)
    rw [hread]
    rfl
  · rename_i e hread
    obtain ⟨after, -, h⟩ := map_eq_ok_iff.mp h
    obtain ⟨rfl, rfl⟩ := Prod.mk.inj h
    rw [hread]
    rfl

def Value.text? : Value → Option String
  | .string s => some s
  | _ => none

lemma Value.eq_string_of_text? {v : Value} {s : String} (h : v.text? = some s) : v = .string s := by
  cases v with
  | string t => exact congrArg Value.string (Option.some.inj h)
  | _ => cases h

lemma readValue_of_quote (hquote : k.skipSpace.peek? = some '"') : readValue (depth + 1) k =
    (readString k.skipSpace.skip).map fun (s, k) => (.string s, k) := by
  rw [readValue]
  simp only [hquote]
  rfl

lemma quote_of_readValue {s : String} (h : readValue (depth + 1) k = .ok (.string s, k')) :
    k.skipSpace.peek? = some '"' := by
  obtain ⟨c, hc, hread⟩ := readsValue_of_readValue h
  cases hread with
  | scalar scalar =>
    cases scalar
    exact hc

/-- Only a brace starts an object, and its members are read in their order. -/
lemma members_of_readValue {entries : List (String × Value)} (h : readValue (depth + 1) k = .ok (.object entries, k')) :
    k.skipSpace.peek? = some '\x7b' ∧ ∃ ms, objectOf ms = .object entries ∧
      readMembers (readValue depth) (k.skipSpace.rest.length + 1) true k.skipSpace.skip = .ok (ms, k') := by
  obtain ⟨c, hc, hread⟩ := readsValue_of_readValue h
  cases hread with
  | scalar scalar => cases scalar
  | object members => exact ⟨hc, _, rfl, members⟩

lemma readMembers_heldOrPassed {fuel : Nat} {first : Bool} {ms : List (String × Value)}
    (h : readMembers (readValue depth) fuel first k = .ok (ms, k')) :
    readMembers (heldOrPassed depth) fuel first k = .ok (ms.map fun m => (m.1, some m.2), k') := by
  induction fuel generalizing first k ms with
  | zero => cases h
  | succ fuel ih =>
    obtain ⟨⟨more, start⟩, hmore, h⟩ := bind_eq_ok_iff.mp h
    cases more with
    | false =>
      obtain ⟨rfl, rfl⟩ := Prod.mk.inj (Except.ok.inj h)
      simp only [readMembers, hmore, bind, Except.bind, Bool.false_eq_true, if_false, List.map_nil]
    | true =>
      obtain ⟨⟨key, afterKey⟩, hkey, h⟩ := bind_eq_ok_iff.mp h
      obtain ⟨afterColon, hcolon, h⟩ := bind_eq_ok_iff.mp h
      obtain ⟨⟨v, next⟩, hv, h⟩ := bind_eq_ok_iff.mp h
      obtain ⟨⟨rest, last⟩, hrest, h⟩ := bind_eq_ok_iff.mp h
      obtain ⟨rfl, rfl⟩ := Prod.mk.inj (Except.ok.inj h)
      have hheld : heldOrPassed depth afterColon = .ok (some v, next) := by rw [heldOrPassed, hv]
      simp only [readMembers, hmore, bind, Except.bind, if_true, hkey, hcolon, hheld, ih hrest, List.map_cons]

/-- A text that reads as an object has members, and these make up the object. -/
theorem writtenMembers_of_parse {text : String} {entries : List (String × Value)}
    (h : Value.parse text = .ok (.object entries)) : ∃ ms, objectOf ms = .object entries ∧
      writtenMembers text = .ok (ms.map fun m => (m.1, some m.2)) := by
  obtain ⟨⟨v, last⟩, hread, hend⟩ := bind_eq_ok_iff.mp h
  obtain ⟨hempty, rfl⟩ := readEnd_eq_ok_iff.mp hend
  obtain ⟨hopen, ms, hentries, hmembers⟩ := members_of_readValue hread
  have hheld : readMembers (heldOrPassed (depthLimit - 1)) _ true _ = _ := readMembers_heldOrPassed hmembers
  refine ⟨ms, hentries, ?_⟩
  simp only [writtenMembers, hopen, BEq.rfl, if_true, hheld]
  exact readEnd_eq_ok_iff.mpr ⟨hempty, rfl⟩

lemma toOption_refuseNext {α : Type} (expected : String) (k : Cursor) :
    (Decoder.refuseNext expected k : Except Error (α × Cursor)).toOption = none := by
  cases h : (Decoder.refuseNext expected k : Except Error (α × Cursor)) with
  | error e => rfl
  | ok r => exact absurd h refuseNext_ne_ok

/-- A text is read just when a string is held. -/
lemma toOption_readText {x : Option Value} (h : heldOrPassed (depth + 1) k = .ok (x, k')) (other : Nat) :
    (Decoder.string.read other k).toOption = (x.bind Value.text?).map (·, k') := by
  have hread : (readValue (depth + 1) k).toOption = x.map (·, k') := toOption_readValue h
  by_cases hquote : k.skipSpace.peek? = some '"'
  · rw [readValue_of_quote hquote] at hread
    have hstring : Decoder.string.read other k = readString k.skipSpace.skip := by
      simp [Decoder.string, hquote]
    rw [hstring]
    cases hs : readString k.skipSpace.skip with
    | error e =>
      rw [hs] at hread
      cases x with
      | none => rfl
      | some v => cases hread
    | ok found =>
      rw [hs] at hread
      cases x with
      | none => cases hread
      | some v =>
        obtain ⟨rfl, rfl⟩ := Prod.mk.inj (Option.some.inj hread)
        rfl
  · -- Without a quote no string is read, and no string can be held either.
    have hstring : Decoder.string.read other k = Decoder.refuseNext "a string" k.skipSpace := by
      simp [Decoder.string, hquote]
    rw [hstring, toOption_refuseNext]
    cases x with
    | none => rfl
    | some v =>
      cases v with
      | string s =>
        have hvalue : readValue (depth + 1) k = .ok (.string s, k') := by
          cases hr : readValue (depth + 1) k <;> rw [hr] at hread <;> cases hread
          rfl
        exact absurd (quote_of_readValue hvalue) hquote
      | _ => rfl

end Json

open Json

/-! ### Requests -/

namespace Request

/-- What a slot holds after some values: it is filled at most once, with a value that can be taken. -/
def slotAfter {β : Type} (take : Value → Option β) : List (Option Value) → Option β → Option (Option β)
  | [], held => some held
  | _ :: _, some _ => none
  | x :: rest, none => (x.bind take).bind fun b => slotAfter take rest (some b)

/-- What is filled in after some members, if they can be taken. -/
def Draft.after (d : Draft) (ms : List (String × Option Value)) : Option Draft := do
  let id ← slotAfter some (valuesOf "id" ms) d.id
  let method ← slotAfter Value.text? (valuesOf "method" ms) d.method
  let params ← slotAfter some (valuesOf "params" ms) d.params
  some ⟨id, method, params⟩

variable {k start afterKey afterColon k' : Cursor} {first : Bool} {key : String}

lemma readFields_of_unknown {σ α : Type} {s : Decoder.Shape σ α} (hmore : moreMembers first k = .ok (true, start))
    (hkey : readString start.skip = .ok (key, afterKey)) (hcolon : readColon afterKey = .ok afterColon)
    (hpass : passValue afterColon = .ok k') (hfind : s.fields.find? (·.hasName key) = none) (depth fuel : Nat) (d : σ) :
    s.readFields depth (fuel + 1) first k d = s.readFields depth fuel false k' d := by
  simp only [Decoder.Shape.readFields, hmore, bind, Except.bind, if_true, hkey, hfind, hcolon, hpass]

/-- A member for a slot is read into it, unless the slot is filled. -/
lemma toOption_readFields_slot {σ α β : Type} {s : Decoder.Shape σ α} {f : Decoder.Field σ} (dec : Decoder β)
    (get : σ → Option β) (set : β → σ → σ) (hmore : moreMembers first k = .ok (true, start))
    (hkey : readString start.skip = .ok (key, afterKey)) (hcolon : readColon afterKey = .ok afterColon)
    (hfind : s.fields.find? (·.hasName key) = some f) (hfilled : f.filled = fun d => (get d).isSome)
    (hread : f.read = fun depth k d => (dec.read depth k).map fun (x, k) => (set x d, k)) (depth fuel : Nat) (d : σ) :
    (s.readFields depth (fuel + 1) first k d).toOption =
      if (get d).isSome then none
      else (dec.read depth afterColon).toOption.bind fun (x, k) =>
        (s.readFields depth fuel false k (set x d)).toOption := by
  simp only [Decoder.Shape.readFields, hmore, bind, Except.bind, if_true, hkey, hfind, hcolon, hfilled, hread]
  split
  · rfl
  · cases dec.read depth afterColon <;> rfl

/-- Reading the members of a request fills in what the members tell. -/
lemma toOption_readFields {fuel : Nat} {ms : List (String × Option Value)}
    (h : readMembers (heldOrPassed (depthLimit - 1)) fuel first k = .ok (ms, k')) (d : Draft) :
    (shape.readFields (depthLimit - 1) fuel first k d).toOption =
      (d.after ms).bind fun d => (shape.finishAt d k').toOption := by
  induction fuel generalizing first k ms d with
  | zero => cases h
  | succ fuel ih =>
    obtain ⟨⟨more, start⟩, hmore, h⟩ := bind_eq_ok_iff.mp h
    cases more with
    | false =>
      obtain ⟨rfl, rfl⟩ := Prod.mk.inj (Except.ok.inj h)
      rw [Decoder.Shape.readFields, hmore]
      rfl
    | true =>
      obtain ⟨⟨key, afterKey⟩, hkey, h⟩ := bind_eq_ok_iff.mp h
      obtain ⟨afterColon, hcolon, h⟩ := bind_eq_ok_iff.mp h
      obtain ⟨⟨x, next⟩, hx, h⟩ := bind_eq_ok_iff.mp h
      obtain ⟨⟨rest, last⟩, hrest, h⟩ := bind_eq_ok_iff.mp h
      obtain ⟨rfl, rfl⟩ := Prod.mk.inj (Except.ok.inj h)
      -- Each known key has its own slot and its own reader, and all other keys are passed over alike.
      by_cases hid : key = "id"
      · subst hid
        rw [toOption_readFields_slot Decoder.value Draft.id (fun x d => { d with id := some x })
          hmore hkey hcolon rfl rfl rfl, toOption_readValue hx]
        cases hd : d.id <;> cases x <;> simp [Draft.after, valuesOf, slotAfter, hd, ih hrest]
      by_cases hmethod : key = "method"
      · subst hmethod
        rw [toOption_readFields_slot Decoder.string Draft.method (fun x d => { d with method := some x })
          hmore hkey hcolon rfl rfl rfl, toOption_readText hx]
        cases hd : d.method <;> cases hname : x.bind Value.text? <;>
          simp [Draft.after, valuesOf, slotAfter, hd, hname, ih hrest]
      by_cases hparams : key = "params"
      · subst hparams
        rw [toOption_readFields_slot Decoder.value Draft.params (fun x d => { d with params := some x })
          hmore hkey hcolon rfl rfl rfl, toOption_readValue hx]
        cases hd : d.params <;> cases x <;> simp [Draft.after, valuesOf, slotAfter, hd, ih hrest]
      have hfind : shape.fields.find? (·.hasName key) = none := by
        simp [shape, Decoder.Field.hasName, Decoder.slot, Decoder.Field.orDefault, hid, hmethod, hparams]
      rw [readFields_of_unknown hmore hkey hcolon (passValue_of_heldOrPassed hx) hfind, ih hrest]
      simp [Draft.after, valuesOf, hid, hmethod, hparams]

lemma toOption_bind_readEnd {α : Type} {x : Except Error (α × Cursor)} {k : Cursor} {found : Option α}
    (hx : x.toOption = found.map (·, k)) (hend : k.skipSpace.rest = []) :
    (x >>= fun p => readEnd p.1 p.2).toOption = found := by
  cases x with
  | error e => cases found <;> first | rfl | cases hx
  | ok p =>
    cases found with
    | none => cases hx
    | some y =>
      obtain rfl := Option.some.inj hx
      exact congrArg Except.toOption (readEnd_eq_ok_iff.mpr ⟨hend, rfl⟩)

/-- A line with members is read as the request that they tell, if they tell one. -/
lemma toOption_parse {line : String} {ms : List (String × Option Value)} (h : writtenMembers line = .ok ms) :
    (decoder.parse line).toOption = (shape.blank.after ms).bind fun d => (shape.finish d).toOption := by
  unfold writtenMembers at h
  dsimp only at h
  split at h
  · rename_i hopen
    obtain ⟨⟨found, last⟩, hread, hend⟩ := bind_eq_ok_iff.mp h
    have hpeek : (Cursor.start line.toList).skipSpace.peek? = some '\x7b' := by simpa using hopen
    have hfields : decoder.read depthLimit (.start line.toList) = shape.readFields (depthLimit - 1)
        ((Cursor.start line.toList).skipSpace.rest.length + 1) true (Cursor.start line.toList).skipSpace.skip
        shape.blank := by
      simp only [decoder, Decoder.Shape.decoder, hpeek]
      rfl
    have hfound := toOption_readFields hread shape.blank
    rw [← hfields] at hfound
    obtain ⟨hempty, rfl⟩ := readEnd_eq_ok_iff.mp hend
    refine toOption_bind_readEnd (hfound.trans ?_) hempty
    cases shape.blank.after found with
    | none => rfl
    | some d =>
      simp only [Option.bind_some, Decoder.Shape.finishAt]
      cases shape.finish d <;> rfl
  · cases h

lemma slotAfter_eq_some_iff {β : Type} {take : Value → Option β} {xs : List (Option Value)} {held : Option β} :
    slotAfter take xs none = some held ↔
      xs = [] ∧ held = none ∨ ∃ v b, xs = [some v] ∧ take v = some b ∧ held = some b := by
  match xs with
  | [] => simp [slotAfter, eq_comm]
  | [none] => simp [slotAfter]
  | [some v] => cases h : take v <;> simp [slotAfter, h, eq_comm]
  | none :: _ :: _ => simp [slotAfter]
  | some v :: _ :: _ => cases h : take v <;> simp [slotAfter, h]

lemma slotAfter_nil {β : Type} {take : Value → Option β} {xs : List (Option Value)} :
    slotAfter take xs none = some none ↔ xs = [] := by
  simp [slotAfter_eq_some_iff]

lemma slotAfter_singleton {β : Type} {take : Value → Option β} {xs : List (Option Value)} {b : β} :
    slotAfter take xs none = some (some b) ↔ ∃ v, xs = [some v] ∧ take v = some b := by
  simp [slotAfter_eq_some_iff]

/-- Members tell a request: the method is named once, by a string, and there are parameters at most once, which
can be held. -/
structure IsToldBy (ms : List (String × Option Value)) : Prop where
  method : ∃ name, valuesOf "method" ms = [some (.string name)]
  params : valuesOf "params" ms = [] ∨ ∃ p, valuesOf "params" ms = [some p]

/-- A request that is told takes the one id there is. -/
lemma isToldBy_of_bind {ms : List (String × Option Value)} {x : Option Value} (hid : valuesOf "id" ms = [x])
    {r : Request} (h : (shape.blank.after ms).bind (fun d => (shape.finish d).toOption) = some r) :
    IsToldBy ms ∧ x = some r.id := by
  obtain ⟨d, hd, hr⟩ := Option.bind_eq_some_iff.mp h
  cases x with
  | none =>
    have hfirst : slotAfter some (valuesOf "id" ms) none = none := by rw [hid, slotAfter, Option.bind_none, Option.bind_none]
    simp only [Draft.after, shape, hfirst, Option.bind_eq_bind, Option.bind_none] at hd
    cases hd
  | some v =>
    have hfirst : slotAfter some (valuesOf "id" ms) none = some (some v) := slotAfter_singleton.mpr ⟨v, hid, rfl⟩
    simp only [Draft.after, shape, hfirst, Option.bind_eq_bind, Option.bind_some] at hd
    obtain ⟨method, hmethod, hd⟩ := Option.bind_eq_some_iff.mp hd
    obtain ⟨params, hparams, hd⟩ := Option.bind_eq_some_iff.mp hd
    obtain rfl := Option.some.inj hd
    cases method with
    | none => cases hr
    | some name =>
      obtain ⟨y, hy, hname⟩ := slotAfter_singleton.mp hmethod
      obtain rfl := Option.some.inj hr
      refine ⟨⟨⟨name, Value.eq_string_of_text? hname ▸ hy⟩, ?_⟩, rfl⟩
      cases params with
      | none => exact .inl (slotAfter_nil.mp hparams)
      | some p =>
        obtain ⟨z, hz, -⟩ := slotAfter_singleton.mp hparams
        exact .inr ⟨z, hz⟩

lemma exists_told {ms : List (String × Option Value)} {v : Value} (hid : valuesOf "id" ms = [some v])
    (h : IsToldBy ms) : ∃ r, (shape.blank.after ms).bind (fun d => (shape.finish d).toOption) = some r := by
  obtain ⟨⟨name, hmethod⟩, hparams⟩ := h
  have hheld : ∃ held, slotAfter some (valuesOf "params" ms) none = some held := by
    rcases hparams with hnone | ⟨p, hp⟩
    · exact ⟨none, slotAfter_nil.mpr hnone⟩
    · exact ⟨some p, slotAfter_singleton.mpr ⟨p, hp, rfl⟩⟩
  obtain ⟨held, hheld⟩ := hheld
  refine ⟨⟨v, name, held.getD .null⟩, ?_⟩
  simp [Draft.after, shape, hheld, hid, hmethod, slotAfter, Value.text?, Decoder.required, Except.toOption, bind,
    Except.bind]

end Request

/-! ### Responses -/

namespace Service

/-- The response to a line with one id that can be held has this id just when it is null or the other members tell
a request. Else, and always when the id cannot be held, the response is an error with no id. -/
theorem response_id_eq_iff (s : Service) (o : Occasion) {line : String} {ms : List (String × Option Value)}
    (hline : writtenMembers line = .ok ms) {x : Option Value} (hid : valuesOf "id" ms = [x]) :
    (∀ v, x = some v → ((s.respondToLine o line).1.id = v ↔ v = .null ∨ Request.IsToldBy ms)) ∧
      (x = none ∨ ¬ Request.IsToldBy ms → (s.respondToLine o line).1.id = .null ∧
        ∃ e : Json.Error, (s.respondToLine o line).1.outcome = .error ("invalid request: " ++ e.message)) := by
  have hparse := Request.toOption_parse hline
  unfold respondToLine
  cases hr : Request.decoder.parse line with
  | error e =>
    rw [hr] at hparse
    refine ⟨?_, fun _ => ⟨rfl, e, rfl⟩⟩
    rintro v rfl
    have hnone : ¬ Request.IsToldBy ms := by
      intro htold
      obtain ⟨r, hr⟩ := Request.exists_told hid htold
      cases hparse.trans hr
    refine ⟨fun hnull => .inl hnull.symm, ?_⟩
    rintro (hnull | htold)
    · exact hnull.symm
    · exact absurd htold hnone
  | ok r =>
    rw [hr] at hparse
    obtain ⟨htold, rfl⟩ := Request.isToldBy_of_bind hid hparse.symm
    refine ⟨?_, ?_⟩
    · intro v hv
      exact iff_of_true (Option.some.inj hv) (.inr htold)
    · rintro (hnone | hnot)
      · cases hnone
      · exact absurd htold hnot

/-- A service that has just started, and a tree with no files. -/
def bareService : Service :=
  start .standard

def bareOccasion : Occasion :=
  ⟨⟨.directory [], []⟩, 0, 0⟩

/-- A line with a number that is out of range, an id that is an array, and a method that is not known. -/
def oddLine : String :=
  "\x7b\"x\":1e999,\"id\":[7],\"method\":\"nope\"\x7d"

set_option maxRecDepth 10000 in
lemma writtenMembers_oddLine : writtenMembers oddLine =
    .ok [("x", none), ("id", some (.array [.ofInt 7])), ("method", some (.string "nope"))] := rfl

/-- A line with an id that is out of range. -/
def hugeLine : String :=
  "\x7b\"id\":1e999,\"method\":\"clear_cache\"\x7d"

set_option maxRecDepth 10000 in
lemma writtenMembers_hugeLine :
    writtenMembers hugeLine = .ok [("id", none), ("method", some (.string "clear_cache"))] := rfl

/-- A method that is not known and a member that cannot be held do not cost a response its id. An id that cannot be
held does. -/
theorem response_id_of_oddLine :
    writtenMembers oddLine = .ok [("x", none), ("id", some (.array [.ofInt 7])), ("method", some (.string "nope"))] ∧
      valuesOf "id" [("x", none), ("id", some (.array [.ofInt 7])), ("method", some (.string "nope"))] =
        [some (.array [.ofInt 7])] ∧
      (bareService.respondToLine bareOccasion oddLine).1.id = .array [.ofInt 7] ∧
      writtenMembers hugeLine = .ok [("id", none), ("method", some (.string "clear_cache"))] ∧
      valuesOf "id" [("id", none), ("method", some (.string "clear_cache"))] = [none] ∧
      (bareService.respondToLine bareOccasion hugeLine).1.id = .null := by
  refine ⟨writtenMembers_oddLine, rfl, ?_, writtenMembers_hugeLine, rfl, ?_⟩
  · exact ((response_id_eq_iff bareService bareOccasion writtenMembers_oddLine rfl).1 _ rfl).mpr
      (.inr ⟨⟨"nope", rfl⟩, .inl rfl⟩)
  · exact ((response_id_eq_iff bareService bareOccasion writtenMembers_hugeLine rfl).2 (.inl rfl)).1

/-- A line with an id and no method. -/
def methodlessLine : String :=
  "\x7b\"id\":7\x7d"

/-- The id of a line is lost if the line has no method. -/
theorem id_lost_without_method :
    writtenMembers methodlessLine = .ok [("id", some (.ofInt 7))] ∧
      (bareService.respondToLine bareOccasion methodlessLine).1.line =
        "\x7b\"id\":null,\"error\":\x7b\"message\":" ++
          "\"invalid request: missing field `method` at line 1 column 8\"\x7d\x7d" ∧
      (bareService.respondToLine bareOccasion methodlessLine).1.id ≠ .ofInt 7 := by
  have hparse : Request.decoder.parse methodlessLine = .error ⟨.missingField "method", some ⟨1, 8⟩⟩ := rfl
  refine ⟨rfl, ?_, ?_⟩
  · rw [respondToLine, hparse]
    decide +kernel
  · rw [respondToLine, hparse]
    exact nofun

end Service

end CodeContext
