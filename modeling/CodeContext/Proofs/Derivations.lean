import CodeContext.Proofs.ParsedTexts

/-!
# What forms take

A derivation says why a form takes some tokens and what trees they make. The trees of a run of tokens have
those tokens as their leaves, in order and without a gap, and every node in them is made by a form for that
node. In a source without errors no token is invalid, a name is one word, and a method ends in a semicolon
or a closing brace.
-/

namespace CodeContext.CSharp

namespace Form

variable {ρ : Type} {grammar : ρ → Form ρ} {tokens : Array Token}

/-- From a token on, a form takes the tokens before another one, and they make some trees. -/
inductive Takes (grammar : ρ → Form ρ) (tokens : Array Token) : Form ρ → Nat → List Tree → Nat → Prop
  | terminal {t : Terminal} {i : Nat} {token : Token} (here : tokens[i]? = some token)
      (accepted : t.accepts token.symbol token.glued = true) :
      Takes grammar tokens (.terminal t) i [.leaf i] (i + 1)
  | empty (i : Nat) : Takes grammar tokens .empty i [] i
  | seq {a b : Form ρ} {i j k : Nat} {ts us : List Tree} (first : Takes grammar tokens a i ts j)
      (second : Takes grammar tokens b j us k) : Takes grammar tokens (.seq a b) i (ts ++ us) k
  | left {a b : Form ρ} {i j : Nat} {ts : List Tree} (h : Takes grammar tokens a i ts j) :
      Takes grammar tokens (.alt a b) i ts j
  | right {a b : Form ρ} {i j : Nat} {ts : List Tree} (h : Takes grammar tokens b i ts j) :
      Takes grammar tokens (.alt a b) i ts j
  | stop (a : Form ρ) (i : Nat) : Takes grammar tokens (.many a) i [] i
  | more {a : Form ρ} {i j k : Nat} {ts us : List Tree} (first : Takes grammar tokens a i ts j)
      (rest : Takes grammar tokens (.many a) j us k) : Takes grammar tokens (.many a) i (ts ++ us) k
  | ahead (a : Form ρ) (i : Nat) : Takes grammar tokens (.ahead a) i [] i
  | notAhead (a : Form ρ) (i : Nat) : Takes grammar tokens (.notAhead a) i [] i
  | named {r : ρ} {i j : Nat} {ts : List Tree} (h : Takes grammar tokens (grammar r) i ts j) :
      Takes grammar tokens (.named r) i ts j
  | node {c : Construct} {a : Form ρ} {i j : Nat} {ts : List Tree} (h : Takes grammar tokens a i ts j) :
      Takes grammar tokens (.node c a) i [.node c ts] j

/-- What is found by matching is derived. -/
theorem takes_of_run {fuel : Nat} {form : Form ρ} {i j : Nat} {ts : List Tree}
    (h : run grammar tokens fuel form i = some (ts, j)) : Takes grammar tokens form i ts j := by
  induction fuel generalizing form i ts j with
  | zero => cases h
  | succ fuel ih =>
    cases form with
    | terminal t =>
      simp only [run] at h
      split at h
      · cases h
      · rename_i token here
        split at h
        · rename_i accepted
          cases h
          exact .terminal here accepted
        · cases h
    | empty =>
      cases h
      exact .empty i
    | seq a b =>
      simp only [run] at h
      split at h
      · cases h
      · rename_i ha
        split at h
        · cases h
        · rename_i hb
          cases h
          exact .seq (ih ha) (ih hb)
    | alt a b =>
      simp only [run] at h
      split at h
      · exact .right (ih h)
      · exact .left (ih h)
    | many a =>
      simp only [run] at h
      split at h
      · cases h
        exact .stop a i
      · rename_i ha
        split at h
        · cases h
          exact .stop a i
        · split at h
          · cases h
          · rename_i hrest
            cases h
            exact .more (ih ha) (ih hrest)
    | ahead a =>
      simp only [run] at h
      split at h
      · cases h
      · cases h
        exact .ahead a i
    | notAhead a =>
      simp only [run] at h
      split at h
      · cases h
        exact .notAhead a i
      · cases h
    | named r => exact .named (ih h)
    | node c a =>
      simp only [run] at h
      split at h
      · cases h
      · rename_i ha
        cases h
        exact .node (ih ha)

variable {form : Form ρ} {i j : Nat} {ts : List Tree}

lemma Takes.le (h : Takes grammar tokens form i ts j) : i ≤ j := by
  induction h with
  | terminal => exact Nat.le_succ _
  | seq _ _ ih₁ ih₂ => exact Nat.le_trans ih₁ ih₂
  | more _ _ ih₁ ih₂ => exact Nat.le_trans ih₁ ih₂
  | left _ ih => exact ih
  | right _ ih => exact ih
  | named _ ih => exact ih
  | node _ ih => exact ih
  | empty | stop | ahead | notAhead => exact Nat.le_refl _

end Form

/-! ### Leaves -/

namespace Form

open CodeContext.CSharp.Tree

variable {ρ : Type} {grammar : ρ → Form ρ} {tokens : Array Token} {form : Form ρ} {i j : Nat} {ts : List Tree}

/-- The leaves of what a form takes are the tokens that it takes. -/
theorem Takes.leavesOf_eq (h : Takes grammar tokens form i ts j) : leavesOf ts = List.range' i (j - i) := by
  have happend {i j k : Nat} (hij : i ≤ j) (hjk : j ≤ k) :
      List.range' i (j - i) ++ List.range' j (k - j) = List.range' i (k - i) := by
    obtain ⟨m, rfl⟩ := Nat.exists_eq_add_of_le hij
    obtain ⟨n, rfl⟩ := Nat.exists_eq_add_of_le hjk
    have h : List.range' i m ++ List.range' (i + m) n = List.range' i (m + n) := List.range'_append_1
    rwa [Nat.add_sub_cancel_left, Nat.add_sub_cancel_left, Nat.add_assoc, Nat.add_sub_cancel_left]
  induction h with
  | terminal => simp [leavesOf, leaves]
  | seq h₁ h₂ ih₁ ih₂ => rw [leavesOf_append, ih₁, ih₂, happend h₁.le h₂.le]
  | more h₁ h₂ ih₁ ih₂ => rw [leavesOf_append, ih₁, ih₂, happend h₁.le h₂.le]
  | left _ ih => exact ih
  | right _ ih => exact ih
  | named _ ih => exact ih
  | node _ ih => rw [leavesOf_singleton, leaves, ih]
  | empty | stop | ahead | notAhead => simp [leavesOf]

end Form

/-! ### The grammar without errors -/

/-- Whether a terminal accepts only tokens that are well formed. -/
def Terminal.isProper : Terminal → Bool
  | .symbol .invalid => false
  | .glued .invalid => false
  | .any => false
  | _ => true

lemma Terminal.isProper.symbol_ne {t : Terminal} (ht : t.isProper = true) {s : Symbol} {glued : Bool}
    (h : t.accepts s glued = true) : s ≠ .invalid := by
  rintro rfl
  cases t with
  | symbol x | glued x => cases x <;> simp_all [isProper, accepts]
  | wordExcept words | wordAmong words => cases h
  | any => cases ht

/-- Whether a form ends in a semicolon or a closing brace, as far as its first levels show. -/
def Form.closes {ρ : Type} (grammar : ρ → Form ρ) : Nat → Form ρ → Bool
  | depth + 1, .seq _ b => b.closes grammar depth
  | depth + 1, .alt a b => a.closes grammar depth && b.closes grammar depth
  | depth + 1, .named r => (grammar r).closes grammar depth
  | _ + 1, .terminal (.symbol (.mark m)) => m == ";" || m == "\x7d"
  | _, _ => false

lemma Form.Takes.closes {ρ : Type} {grammar : ρ → Form ρ} {tokens : Array Token} {form : Form ρ} {i j : Nat}
    {ts : List Tree} (h : Takes grammar tokens form i ts j) {depth : Nat} (hform : form.closes grammar depth = true) :
    i < j ∧ ∃ token, tokens[j - 1]? = some token ∧ token.Closes := by
  induction depth generalizing form i j ts with
  | zero => simp [Form.closes] at hform
  | succ depth ih =>
    cases h with
    | seq first second =>
      obtain ⟨hlt, hlast⟩ := ih second hform
      exact ⟨Nat.lt_of_le_of_lt first.le hlt, hlast⟩
    | left h =>
      rw [Form.closes, Bool.and_eq_true] at hform
      exact ih h hform.1
    | right h =>
      rw [Form.closes, Bool.and_eq_true] at hform
      exact ih h hform.2
    | named h => exact ih h hform
    | @terminal t _ token here accepted =>
      refine ⟨Nat.lt_succ_self i, token, here, ?_⟩
      match t, hform with
      | .symbol (.mark m), hform =>
        have hsymbol : .mark m = token.symbol := by simpa [Terminal.accepts] using accepted
        have hm : m = ";" ∨ m = "\x7d" := by simpa [Form.closes] using hform
        rcases hm with rfl | rfl
        · exact .inl hsymbol.symm
        · exact .inr hsymbol.symm
    | empty | stop | more | ahead | notAhead | node => cases hform

namespace Phrase

/-- Whether a node may be made of what a form takes: a name is one word, and a method has an end. -/
def fitsNode : Construct → P → Bool
  | .name, .terminal (.wordExcept _) => true
  | .name, _ => false
  | .methodDeclaration, a => a.closes (form false) 16
  | _, _ => true

/-- Whether a form takes only tokens that are well formed, and makes only nodes that may be made. -/
def isStrict : P → Bool
  | .terminal t => t.isProper
  | .seq a b => isStrict a && isStrict b
  | .alt a b => isStrict a && isStrict b
  | .many a => isStrict a
  | .named .balanced => false
  | .node c a => fitsNode c a && isStrict a
  | _ => true

/-- The grammar without errors is strict. What is in balanced braces belongs to the other one. -/
theorem isStrict_form {r : Phrase} (h : r ≠ .balanced) : isStrict (form false r) = true := by
  cases r with
  | balanced => exact absurd rfl h
  | _ => rfl

open Form CodeContext.CSharp.Tree

variable {tokens : Array Token} {a : P} {i j : Nat} {ts : List Tree}

lemma isStrict_form_of_named {r : Phrase} (h : isStrict (.named r) = true) : isStrict (form false r) = true := by
  refine isStrict_form ?_
  rintro rfl
  cases h

/-- A strict form takes tokens that are well formed. -/
theorem symbol_ne_of_takes (h : Takes (form false) tokens a i ts j) (ha : isStrict a = true) :
    ∀ k ∈ leavesOf ts, ∃ token, tokens[k]? = some token ∧ token.symbol ≠ .invalid := by
  induction h with
  | @terminal t i token here accepted =>
    intro k hk
    obtain rfl : k = i := by simpa [leavesOf, leaves] using hk
    exact ⟨token, here, Terminal.isProper.symbol_ne ha accepted⟩
  | seq _ _ ih₁ ih₂ =>
    rw [isStrict, Bool.and_eq_true] at ha
    rw [leavesOf_append]
    exact List.forall_mem_append.mpr ⟨ih₁ ha.1, ih₂ ha.2⟩
  | more _ _ ih₁ ih₂ =>
    rw [leavesOf_append]
    exact List.forall_mem_append.mpr ⟨ih₁ ha, ih₂ ha⟩
  | left _ ih =>
    rw [isStrict, Bool.and_eq_true] at ha
    exact ih ha.1
  | right _ ih =>
    rw [isStrict, Bool.and_eq_true] at ha
    exact ih ha.2
  | named _ ih => exact ih (isStrict_form_of_named ha)
  | node _ ih =>
    rw [isStrict, Bool.and_eq_true] at ha
    rw [leavesOf_singleton, leaves]
    exact ih ha.2
  | empty | stop | ahead | notAhead => simp [leavesOf]

/-- Every node in what a strict form takes is made of what a fitting form takes. -/
theorem takes_of_at? (h : Takes (form false) tokens a i ts j) (ha : isStrict a = true) {t : Tree} (ht : t ∈ ts)
    {p : List Nat} {c : Construct} {children : List Tree} (hat : t.at? p = some (.node c children)) :
    ∃ b i j, fitsNode c b = true ∧ isStrict b = true ∧ Takes (form false) tokens b i children j := by
  induction h generalizing t p with
  | terminal =>
    obtain rfl := List.mem_singleton.mp ht
    cases p <;> cases hat
  | seq _ _ ih₁ ih₂ =>
    rw [isStrict, Bool.and_eq_true] at ha
    exact (List.mem_append.mp ht).elim (fun ht => ih₁ ha.1 ht hat) fun ht => ih₂ ha.2 ht hat
  | more _ _ ih₁ ih₂ => exact (List.mem_append.mp ht).elim (fun ht => ih₁ ha ht hat) fun ht => ih₂ ha ht hat
  | left _ ih =>
    rw [isStrict, Bool.and_eq_true] at ha
    exact ih ha.1 ht hat
  | right _ ih =>
    rw [isStrict, Bool.and_eq_true] at ha
    exact ih ha.2 ht hat
  | named _ ih => exact ih (isStrict_form_of_named ha) ht hat
  | @node c' b i j ts h ih =>
    rw [isStrict, Bool.and_eq_true] at ha
    obtain rfl := List.mem_singleton.mp ht
    cases p with
    | nil =>
      cases hat
      exact ⟨b, i, j, ha.1, ha.2, h⟩
    | cons k p =>
      obtain ⟨child, hchild, hat⟩ := Option.bind_eq_some_iff.mp hat
      exact ih ha.2 (List.mem_of_getElem? hchild) hat
  | empty | stop | ahead | notAhead => cases ht

end Phrase

/-! ### Sources without errors -/

namespace Source

open Form CodeContext.CSharp.Tree Phrase

variable {tokens : Array Token}

lemma tokens_ofTokens (tokens : Array Token) : (ofTokens tokens).tokens = tokens := by
  unfold ofTokens
  split
  · rfl
  · split <;> rfl

/-- A source without errors is derived from all of its tokens. -/
theorem takes_of_hasErrors_eq_false (h : (ofTokens tokens).hasErrors = false) :
    Takes (form false) tokens (.many (.named .topLevelItem)) 0 (ofTokens tokens).trees tokens.size := by
  unfold ofTokens at h ⊢
  split at h
  · rename_i trees hfit
    unfold fit? at hfit
    dsimp only at hfit
    split at hfit
    · rename_i found i hrun
      split at hfit
      · rename_i hi
        cases hfit
        exact hi ▸ takes_of_run hrun
      · cases hfit
    · cases hfit
  · split at h <;> cases h

lemma leaves_root (h : (ofTokens tokens).hasErrors = false) : (ofTokens tokens).root.leaves = List.range tokens.size := by
  rw [root, leaves, List.range_eq_range', (takes_of_hasErrors_eq_false h).leavesOf_eq, Nat.sub_zero]

/-- Every node of a source without errors is made of what a fitting form takes. -/
lemma takes_children (h : (ofTokens tokens).hasErrors = false) {p : List Nat} {c : Construct} {children : List Tree}
    (hat : (ofTokens tokens).root.at? p = some (.node c children)) :
    ∃ a i j, fitsNode c a = true ∧ isStrict a = true ∧ Takes (form false) tokens a i children j := by
  have hwhole : Takes (form false) tokens (.node .other (.many (.named .topLevelItem))) 0 [(ofTokens tokens).root]
      tokens.size := .node (takes_of_hasErrors_eq_false h)
  exact takes_of_at? hwhole rfl List.mem_cons_self hat

end Source

end CodeContext.CSharp
