import CodeContext.Model.Decision
import CodeContext.Model.Node
import CodeContext.Model.Rule
import CodeContext.Proofs.WrittenRecords

/-!
# Nodes, rules and decisions read back

A node, a rule or a decision that is written as JSON and read again is the same, whatever its texts, its sets
and its scope are, provided its real numbers survive being written. A text that is accepted as one of them
has lines of sixty-four bits, so writing it back loses nothing either.
-/

namespace CodeContext

open Json

/-! ### Sets and maps that may be left out -/

lemma TextMap.eq_empty {α : Type} {m : TextMap α} (h : m.isEmpty = true) : m = .empty := by
  cases m
  simpa [TextMap.empty] using List.isEmpty_iff.mp h

lemma TextSet.eq_empty {s : TextSet} (h : s.isEmpty = true) : s = .empty := by
  obtain ⟨m⟩ := s
  exact congrArg TextSet.mk (TextMap.eq_empty h)

/-- What a slot holds once its member is read or left out. -/
def heldUnless {β : Type} (empty : Bool) (x : β) : Option β :=
  if empty then none else some x

lemma TextMap.getD_heldUnless {α : Type} (m : TextMap α) : (heldUnless m.isEmpty m).getD .empty = m := by
  cases h : m.isEmpty with
  | true => exact (TextMap.eq_empty h).symm
  | false => rfl

lemma TextSet.getD_heldUnless (s : TextSet) : (heldUnless s.isEmpty s).getD .empty = s := by
  cases h : s.isEmpty with
  | true => exact (TextSet.eq_empty h).symm
  | false => rfl

namespace Json

section

variable {σ α : Type} {s : Decoder.Shape σ α} {depth : Nat} {f : Decoder.Field σ} {key : String} {v : Value}
  {draft next : σ}

lemma Fills.single (hfield : s.fields.find? (·.hasName key) = some f) (hfilled : f.filled draft = false)
    (htakes : Takes f depth v.write draft next) : Fills s depth [(key, v)] draft next :=
  .cons hfield hfilled htakes (.nil next)

lemma Fills.unless (empty : Bool) (hfield : s.fields.find? (·.hasName key) = some f) (hfilled : f.filled draft = false)
    (htakes : Takes f depth v.write draft next) {last : σ} (hlast : (if empty then draft else next) = last) :
    Fills s depth (if empty then [] else [(key, v)]) draft last := by
  subst hlast
  cases empty with
  | true => exact .nil draft
  | false => exact .single hfield hfilled htakes

lemma Takes.orDefault {text : List Char} (h : Takes f depth text draft next) :
    Takes f.orDefault depth text draft next :=
  h

end

end Json

/-! ### What is written is read back -/

/-- A node whose numbers are read back: its lines have sixty-four bits, and its amplitudes survive. -/
structure Node.Survives (n : Node) : Prop where
  lineStart : IsInt64 n.lineStart
  lineEnd : IsInt64 n.lineEnd
  amplitudes : ∀ e ∈ n.amplitudes.entries, Json.Survives e.2

lemma write_ofReal {x : Binary64} (h : x.isFinite = true) : (Value.ofReal x).write = x.shortestText := by
  rw [Value.ofReal, if_pos h]
  rfl

lemma reads_ofReal {x : Binary64} (h : Json.Survives x) (depth : Nat) :
    Reads Decoder.real depth (Value.ofReal x).write x := by
  rw [write_ofReal h.finite]
  exact reads_real h depth

lemma reads_category (c : Category) (depth : Nat) :
    Reads (Decoder.variant (Category.all.map Category.name) Category.ofName?) depth (Value.string c.name).write c :=
  reads_variant (Category.ofName?_name c)

namespace Node

/-- The draft of a node whose first five members are read. -/
def begun (n : Node) (tags deps : Option TextSet) (amplitudes : Option (TextMap Binary64)) (summary : Option String) :
    Draft :=
  ⟨some n.id, some n.category, some n.path, some n.lineStart, some n.lineEnd, tags, deps, amplitudes, summary⟩

lemma finish_begun (n : Node) : shape.finish (n.begun (heldUnless n.tags.isEmpty n.tags)
    (heldUnless n.deps.isEmpty n.deps) (heldUnless n.amplitudes.isEmpty n.amplitudes) (some n.summary)) = .ok n := by
  change Except.ok (Node.mk n.id n.category n.path n.lineStart n.lineEnd
    ((heldUnless n.tags.isEmpty n.tags).getD .empty) ((heldUnless n.deps.isEmpty n.deps).getD .empty)
    ((heldUnless n.amplitudes.isEmpty n.amplitudes).getD .empty)
    n.summary) = _
  rw [TextSet.getD_heldUnless, TextSet.getD_heldUnless, TextMap.getD_heldUnless]

/-- A node is read back from its members, those of its empty sets and maps left out. -/
lemma reads_toJson {n : Node} (h : n.Survives) : Reads decoder depthLimit n.toJson.write n := by
  have hfixed : Fills shape 127 [("node_id", .string n.id), ("category", .string n.category.name),
      ("path", .string n.path), ("line_start", .ofInt n.lineStart), ("line_end", .ofInt n.lineEnd)] shape.blank
      (n.begun none none none none) :=
    .cons rfl rfl (takes_slot (reads_string n.id 127) _) <|
    .cons rfl rfl (takes_slot (reads_category n.category 127) _) <|
    .cons rfl rfl (takes_slot (reads_string n.path 127) _) <|
    .cons rfl rfl (takes_slot (reads_int64 h.lineStart 127) _) <|
    .cons rfl rfl (takes_slot (reads_int64 h.lineEnd 127) _) <|
    .nil _
  have htags : Fills shape 127 (if n.tags.isEmpty then [] else [("tags", .strings n.tags.toList)])
      (n.begun none none none none) (n.begun (heldUnless n.tags.isEmpty n.tags) none none none) :=
    .unless _ rfl rfl (takes_slot (reads_set n.tags (by decide)) _).orDefault (by cases n.tags.isEmpty <;> rfl)
  have hdeps (tags : Option TextSet) : Fills shape 127
      (if n.deps.isEmpty then [] else [("deps", .strings n.deps.toList)])
      (n.begun tags none none none) (n.begun tags (heldUnless n.deps.isEmpty n.deps) none none) :=
    .unless _ rfl rfl (takes_slot (reads_set n.deps (by decide)) _).orDefault (by cases n.deps.isEmpty <;> rfl)
  have hamplitudes (tags deps : Option TextSet) : Fills shape 127 (if n.amplitudes.isEmpty then []
      else [("rule_amplitudes", .object (n.amplitudes.entries.map fun e => (e.1, .ofReal e.2)))])
      (n.begun tags deps none none) (n.begun tags deps (heldUnless n.amplitudes.isEmpty n.amplitudes) none) :=
    .unless _ rfl rfl (takes_slot (reads_map (fun e he => reads_ofReal (h.amplitudes e he) _) (by decide)) _).orDefault
      (by cases n.amplitudes.isEmpty <;> rfl)
  have hsummary (tags deps : Option TextSet) (amplitudes : Option (TextMap Binary64)) :
      Fills shape 127 [("summary", .string n.summary)] (n.begun tags deps amplitudes none)
        (n.begun tags deps amplitudes (some n.summary)) :=
    .single rfl rfl (takes_slot (reads_string n.summary 127) _)
  have hall := (((hfixed.append htags).append (hdeps _)).append (hamplitudes _ _)).append (hsummary _ _ _)
  exact reads_record hall n.finish_begun (by decide)

end Node

namespace Rule

lemma reads_toJson {r : Rule} (h : Json.Survives r.priority) : Reads decoder depthLimit r.toJson.write r := by
  have hall : Fills shape 127 [("rule_id", .string r.id), ("priority", .ofReal r.priority),
      ("description", .string r.description)] shape.blank ⟨some r.id, some r.priority, some r.description⟩ :=
    .cons rfl rfl (takes_slot (reads_string r.id 127) _) <|
    .cons rfl rfl (takes_slot (reads_ofReal h 127) _) <|
    .cons rfl rfl (takes_slot (reads_string r.description 127) _) <|
    .nil _
  exact reads_record hall rfl (by decide)

end Rule

namespace Decision

lemma reads_ruleId (ruleId : Option String) (depth : Nat) :
    Reads (Decoder.option Decoder.string) depth ((ruleId.map Value.string).getD .null).write ruleId := by
  cases ruleId with
  | none => exact reads_none
  | some id => exact reads_some (reads_string id depth) (show some '"' ≠ some 'n' by decide)

lemma reads_toJson (d : Decision) : Reads decoder depthLimit d.toJson.write d := by
  have hall : Fills shape 127 [("decision_id", .string d.id), ("rule_id", (d.ruleId.map Value.string).getD .null),
      ("context", .string d.context), ("scope_nodes", .strings d.scope)] shape.blank
      ⟨some d.id, some d.ruleId, some d.context, some d.scope⟩ :=
    .cons rfl rfl (takes_slot (reads_string d.id 127) _) <|
    .cons rfl rfl (takes_slot (reads_ruleId d.ruleId 127) _) <|
    .cons rfl rfl (takes_slot (reads_string d.context 127) _) <|
    .cons rfl rfl (takes_slot (reads_strings d.scope (by decide)) _).orDefault <|
    .nil _
  exact reads_record hall rfl (by decide)

end Decision

/-! ### What is accepted -/

namespace Json

section

variable {k k' : Cursor} {negative : Bool} {significand : Nat} {e : Int} {n : Int}

lemma finishReal_ne_integer : finishReal negative significand e k ≠ .ok (.integer n, k') := by
  intro h
  unfold finishReal at h
  split at h <;> cases h

lemma readExponent_ne_integer : readExponent negative significand e k ≠ .ok (.integer n, k') := by
  intro h
  unfold readExponent at h
  dsimp only at h
  split at h
  · cases h
  · split at h
    · cases h
    · split at h
      · exact finishReal_ne_integer h
      · split at h <;> cases h

lemma readFraction_ne_integer : readFraction negative significand e k ≠ .ok (.integer n, k') := by
  intro h
  unfold readFraction at h
  dsimp only at h
  split at h
  · split at h <;> cases h
  · split at h
    · exact readExponent_ne_integer h
    · exact finishReal_ne_integer h

lemma le_of_finishInteger (h : finishInteger negative significand = .integer n) : -2 ^ 63 ≤ n := by
  unfold finishInteger at h
  split at h
  · cases h
    omega
  · split at h
    · cases h
    · rename_i hsmall
      cases h
      have hword : Nat.pow 2 63 = 2 ^ 63 := rfl
      simp only [Bool.or_eq_true, decide_eq_true_eq, not_or, Nat.not_lt, hword] at hsmall
      omega

lemma le_of_readNumber (h : readNumber negative k = .ok (.integer n, k')) : -2 ^ 63 ≤ n := by
  unfold readNumber at h
  split at h
  · cases h
  · split at h
    · cases h
    · split at h
      · cases h
      · dsimp only at h
        split at h
        · exact absurd h readFraction_ne_integer
        · split at h
          · exact absurd h readExponent_ne_integer
          · split at h
            · exact absurd h finishReal_ne_integer
            · exact le_of_finishInteger (Prod.mk.inj (Except.ok.inj h)).1

lemma isInt64_of_read {depth : Nat} (h : Decoder.int64.read depth k = .ok (n, k')) : IsInt64 n := by
  simp only [Decoder.int64] at h
  split at h
  · obtain ⟨⟨number, after⟩, hread, hof⟩ := bind_eq_ok_iff.mp h
    dsimp only at hof
    split at hof
    · rename_i m hm
      obtain ⟨rfl, -⟩ := Prod.mk.inj (Except.ok.inj hof)
      unfold Decoder.int64Of at hm
      split at hm
      · split at hm
        · rename_i hmax
          cases hm
          exact ⟨le_of_readNumber hread, hmax⟩
        · cases hm
      · cases hm
    · cases hof
  · exact absurd h refuseNext_ne_ok

end

section

variable {σ α : Type} {s : Decoder.Shape σ α} {P : σ → Prop}

/-- A field keeps a property of drafts, whatever it reads. -/
def Keeps (P : σ → Prop) (f : Decoder.Field σ) : Prop :=
  ∀ depth k draft next k', P draft → f.read depth k draft = .ok (next, k') → P next

lemma finish_of_finishAt {draft : σ} {k k' : Cursor} {x : α} (h : s.finishAt draft k = .ok (x, k')) :
    s.finish draft = .ok x := by
  unfold Decoder.Shape.finishAt at h
  split at h
  · rename_i hx
    rw [hx, (Prod.mk.inj (Except.ok.inj h)).1]
  · cases h

lemma finish_of_closeItems {draft : σ} {k k' : Cursor} {x : α} (h : s.closeItems k draft = .ok (x, k')) :
    s.finish draft = .ok x := by
  unfold Decoder.Shape.closeItems at h
  split at h
  · cases h
  · rename_i y hy
    dsimp only at h
    split at h
    · cases h
    · split at h
      · rw [hy, (Prod.mk.inj (Except.ok.inj h)).1]
      · split at h <;> cases h

lemma exists_finish_of_readFields (hkeeps : ∀ f ∈ s.fields, Keeps P f) {depth fuel : Nat} {first : Bool} {k k' : Cursor}
    {draft : σ} {x : α} (hdraft : P draft) (h : s.readFields depth fuel first k draft = .ok (x, k')) :
    ∃ last, P last ∧ s.finish last = .ok x := by
  induction fuel generalizing first k draft with
  | zero => cases h
  | succ fuel ih =>
    rw [Decoder.Shape.readFields] at h
    obtain ⟨⟨more, start⟩, -, h⟩ := bind_eq_ok_iff.mp h
    cases more with
    | false => exact ⟨draft, hdraft, finish_of_finishAt h⟩
    | true =>
      obtain ⟨⟨key, afterKey⟩, -, h⟩ := bind_eq_ok_iff.mp h
      dsimp only at h
      split at h
      · obtain ⟨afterColon, -, h⟩ := bind_eq_ok_iff.mp h
        obtain ⟨next, -, h⟩ := bind_eq_ok_iff.mp h
        exact ih hdraft h
      · rename_i f hf
        split at h
        · cases h
        · obtain ⟨afterColon, -, h⟩ := bind_eq_ok_iff.mp h
          obtain ⟨⟨next, after⟩, hread, h⟩ := bind_eq_ok_iff.mp h
          exact ih (hkeeps f (List.mem_of_find?_eq_some hf) _ _ _ _ _ hdraft hread) h

lemma exists_finish_of_readItemsOf {depth : Nat} {fs : List (Decoder.Field σ)} (hkeeps : ∀ f ∈ fs, Keeps P f)
    {done : Nat} {k k' : Cursor} {draft : σ} {x : α} (hdraft : P draft)
    (h : s.readItemsOf depth done fs k draft = .ok (x, k')) : ∃ last, P last ∧ s.finish last = .ok x := by
  induction fs generalizing done k draft with
  | nil => exact ⟨draft, hdraft, finish_of_closeItems h⟩
  | cons f fs ih =>
    rw [Decoder.Shape.readItemsOf] at h
    obtain ⟨⟨more, start⟩, -, h⟩ := bind_eq_ok_iff.mp h
    cases more with
    | false =>
      simp only [Bool.false_eq_true, if_false] at h
      split at h
      · cases h
      · exact ⟨draft, hdraft, finish_of_finishAt h⟩
    | true =>
      obtain ⟨⟨next, after⟩, hread, h⟩ := bind_eq_ok_iff.mp h
      exact ih (fun f hf => hkeeps f (List.mem_cons_of_mem _ hf))
        (hkeeps f List.mem_cons_self _ _ _ _ _ hdraft hread) h

/-- A record that is accepted is made from a draft with any property that its fields keep. -/
theorem exists_finish_of_parse (hkeeps : ∀ f ∈ s.fields, Keeps P f) (hblank : P s.blank) {text : String} {x : α}
    (h : s.decoder.parse text = .ok x) : ∃ last, P last ∧ s.finish last = .ok x := by
  obtain ⟨⟨y, k⟩, hread, hend⟩ := bind_eq_ok_iff.mp h
  obtain ⟨-, rfl⟩ := readEnd_eq_ok_iff.mp hend
  simp only [Decoder.Shape.decoder] at hread
  split at hread
  · cases hread
  · split at hread
    · split at hread
      · cases hread
      · exact exists_finish_of_readFields hkeeps hblank hread
    · split at hread
      · split at hread
        · cases hread
        · exact exists_finish_of_readItemsOf hkeeps hblank hread
      · exact absurd hread refuseNext_ne_ok

lemma keeps_slot {β : Type} {name : String} {dec : Decoder β} {get : σ → Option β} {set : β → σ → σ}
    (h : ∀ depth k x k' draft, dec.read depth k = .ok (x, k') → P draft → P (set x draft)) :
    Keeps P (Decoder.slot name dec get set) := by
  intro depth k draft next k' hdraft hread
  obtain ⟨⟨x, after⟩, hx, hpair⟩ := map_eq_ok_iff.mp hread
  obtain ⟨rfl, -⟩ := Prod.mk.inj hpair
  exact h depth k x after draft hx hdraft

lemma Keeps.orDefault {f : Decoder.Field σ} (h : Keeps P f) : Keeps P f.orDefault :=
  h

lemma eq_some_of_required {β : Type} {name : String} {held : Option β} {x : β}
    (h : Decoder.required name held = .ok x) : held = some x := by
  unfold Decoder.required at h
  split at h
  · rw [Except.ok.inj h]
  · cases h

end

end Json

namespace Node

/-- The lines that a draft holds have sixty-four bits. -/
def Draft.LinesFit (d : Draft) : Prop :=
  (∀ n, d.lineStart = some n → IsInt64 n) ∧ ∀ n, d.lineEnd = some n → IsInt64 n

lemma keeps_linesFit : ∀ f ∈ shape.fields, Keeps Draft.LinesFit f := by
  have hother {β : Type} {name : String} {dec : Decoder β} {get : Draft → Option β} {set : β → Draft → Draft}
      (hset : ∀ x d, (set x d).lineStart = d.lineStart ∧ (set x d).lineEnd = d.lineEnd) :
      Keeps Draft.LinesFit (Decoder.slot name dec get set) :=
    keeps_slot fun _ _ x _ d _ hd => by
      unfold Draft.LinesFit
      rw [(hset x d).1, (hset x d).2]
      exact hd
  simp only [shape, List.forall_mem_cons, List.not_mem_nil, false_imp_iff, implies_true, and_true]
  refine ⟨hother fun _ _ => ⟨rfl, rfl⟩, hother fun _ _ => ⟨rfl, rfl⟩, hother fun _ _ => ⟨rfl, rfl⟩, ?start, ?finish,
    .orDefault (hother fun _ _ => ⟨rfl, rfl⟩), .orDefault (hother fun _ _ => ⟨rfl, rfl⟩),
    .orDefault (hother fun _ _ => ⟨rfl, rfl⟩), hother fun _ _ => ⟨rfl, rfl⟩⟩
  case start =>
    exact keeps_slot fun _ _ x _ d hread hd => ⟨fun n hn => Option.some.inj hn ▸ isInt64_of_read hread, hd.2⟩
  case finish =>
    exact keeps_slot fun _ _ x _ d hread hd => ⟨hd.1, fun n hn => Option.some.inj hn ▸ isInt64_of_read hread⟩

lemma isInt64_of_parse {text : String} {n : Node} (h : decoder.parse text = .ok n) :
    IsInt64 n.lineStart ∧ IsInt64 n.lineEnd := by
  have hblank : Draft.LinesFit shape.blank := ⟨fun _ h => (nomatch h), fun _ h => (nomatch h)⟩
  obtain ⟨d, hd, hfinish⟩ := exists_finish_of_parse keeps_linesFit hblank h
  obtain ⟨_, -, hfinish⟩ := bind_eq_ok_iff.mp hfinish
  obtain ⟨_, -, hfinish⟩ := bind_eq_ok_iff.mp hfinish
  obtain ⟨_, -, hfinish⟩ := bind_eq_ok_iff.mp hfinish
  obtain ⟨_, hstart, hfinish⟩ := bind_eq_ok_iff.mp hfinish
  obtain ⟨_, hend, hfinish⟩ := bind_eq_ok_iff.mp hfinish
  obtain ⟨_, -, hfinish⟩ := bind_eq_ok_iff.mp hfinish
  cases hfinish
  exact ⟨hd.1 _ (eq_some_of_required hstart), hd.2 _ (eq_some_of_required hend)⟩

end Node

/-! ### Round trips -/

/-- A node, a rule or a decision whose numbers survive is read back from its own text, and so is whatever was
read from any text: writing it back and reading it again changes nothing. -/
theorem parse_compact_toJson :
    (∀ n : Node, n.Survives → Node.decoder.parse n.toJson.compact = .ok n) ∧
    (∀ r : Rule, Json.Survives r.priority → Rule.decoder.parse r.toJson.compact = .ok r) ∧
    (∀ d : Decision, Decision.decoder.parse d.toJson.compact = .ok d) ∧
    (∀ text n, Node.decoder.parse text = .ok n → (∀ e ∈ n.amplitudes.entries, Json.Survives e.2) →
      Node.decoder.parse n.toJson.compact = .ok n) ∧
    (∀ text r, Rule.decoder.parse text = .ok r → Json.Survives r.priority →
      Rule.decoder.parse r.toJson.compact = .ok r) ∧
    ∀ text d, Decision.decoder.parse text = .ok d → Decision.decoder.parse d.toJson.compact = .ok d := by
  have hnode (n : Node) (h : n.Survives) : Node.decoder.parse n.toJson.compact = .ok n := (Node.reads_toJson h).parse
  have hrule (r : Rule) (h : Json.Survives r.priority) : Rule.decoder.parse r.toJson.compact = .ok r :=
    (Rule.reads_toJson h).parse
  have hdecision (d : Decision) : Decision.decoder.parse d.toJson.compact = .ok d := (Decision.reads_toJson d).parse
  refine ⟨hnode, hrule, hdecision, fun text n hparse hreals => ?_, fun _ r _ => hrule r, fun _ d _ => hdecision d⟩
  obtain ⟨hstart, hend⟩ := Node.isInt64_of_parse hparse
  exact hnode n ⟨hstart, hend, hreals⟩

/-- A node at the ends of the range of lines, with a path that has to be escaped. -/
def farNode : Node :=
  ⟨"FN:75", .service, "a \"b\"\\\n.cs", -9223372036854775808, 9223372036854775807, .ofList ["web", "api"], .empty,
    .ofList [("R01", .ofQuotient false 9 10)], "M"⟩

/-- The same node, its members in another order, one tag twice, and its empty dependencies written out. -/
def farText : String :=
  "\x7b\"summary\":\"M\",\"tags\":[\"web\",\"api\",\"web\"],\"deps\":[],\"rule_amplitudes\":\x7b\"R01\":0.9\x7d," ++
    "\"line_end\":9223372036854775807,\"line_start\":-9223372036854775808,\"category\":\"Service\"," ++
    "\"path\":\"a \\\"b\\\"\\\\\\u000a.cs\",\"node_id\":\"FN:75\"\x7d"

lemma survives_nineTenths : Json.Survives (.ofQuotient false 9 10) where
  finite := by decide +kernel
  parse := by rfl

set_option maxRecDepth 20000 in
lemma parse_farText : Node.decoder.parse farText = .ok farNode := by
  rfl

/-- A node, a rule and a decision with every hypothesis of the round trips. -/
theorem parse_compact_of_shown :
    farNode.Survives ∧ Node.decoder.parse farText = .ok farNode ∧
      Node.decoder.parse farNode.toJson.compact = .ok farNode ∧
      Rule.decoder.parse (Rule.mk "R1" (.ofQuotient false 9 10) "").toJson.compact =
        .ok ⟨"R1", .ofQuotient false 9 10, ""⟩ ∧
      Decision.decoder.parse (Decision.mk "D1" none "" ["b", "a"]).toJson.compact =
        .ok ⟨"D1", none, "", ["b", "a"]⟩ := by
  have hreals : ∀ e ∈ farNode.amplitudes.entries, Json.Survives e.2 := by
    intro e he
    obtain rfl := List.mem_singleton.mp he
    exact survives_nineTenths
  have hnode : farNode.Survives := ⟨⟨by decide, by decide⟩, ⟨by decide, by decide⟩, hreals⟩
  obtain ⟨-, hrule, hdecision, hread, -⟩ := parse_compact_toJson
  exact ⟨hnode, parse_farText, hread farText farNode parse_farText hreals, hrule _ survives_nineTenths, hdecision _⟩

end CodeContext
