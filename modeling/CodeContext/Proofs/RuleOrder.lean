import CodeContext.Proofs.DocumentReading
import CodeContext.Proofs.RealOrder

/-!
# The order of the rules

A context document shows each rule of a list once, its description below its id and priority. A rule with a
higher priority stands before one with a lower priority, whatever bits the priorities are, and the rules among
which the priorities make no difference stand as they do in the list.
-/

namespace CodeContext.Document

/-- The line of a rule with its priority, and below it the line with its description. -/
def ruleText (r : Rule) : String :=
  "@RULE " ++ r.id ++ " PRI:" ++ r.priority.tenthsText ++ "\n    \"" ++ r.description ++ "\"\n"

/-- The text of the sections below the rules. -/
def belowRules (nodes : List Node) (decisions : List Decision) : String :=
  String.join ((nodesSection nodes ++ decisionsSection decisions).map (· ++ "\n"))

/-- A rule at a place of a list goes before another one: its priority is above the other, or neither is above
the other and the rule comes first in the list. -/
def GoesBefore (a b : Rule × Nat) : Prop :=
  a.1.priority.IsAbove b.1.priority ∨ ¬ b.1.priority.IsAbove a.1.priority ∧ a.2 < b.2

lemma goesBefore_iff {a b : Rule × Nat} : GoesBefore a b ↔
    b.1.priority.rank < a.1.priority.rank ∨ b.1.priority.rank ≤ a.1.priority.rank ∧ a.2 < b.2 := by
  rw [GoesBefore, Binary64.isAbove_iff, Binary64.isAbove_iff, not_lt]

lemma GoesBefore.asymm {a b : Rule × Nat} (h : GoesBefore a b) : ¬ GoesBefore b a := by
  rw [goesBefore_iff] at h ⊢
  omega

lemma join_ruleLines (rules : List Rule) :
    String.join ((rules.flatMap ruleLines).map (· ++ "\n")) = String.join (rules.map ruleText) := by
  induction rules with
  | nil => rfl
  | cons r rules ih =>
    have hbreak : "\n    \"" = "\n" ++ ("    " ++ "\"") := rfl
    have hend : "\"\n" = "\"" ++ "\n" := rfl
    rw [List.flatMap_cons, List.map_append, String.join_append, ih, List.map_cons, String.join_cons, ruleText, hbreak,
      hend]
    simp only [ruleLines, inner, quote, List.map_cons, List.map_nil, String.join_cons, String.join_nil,
      String.append_assoc, String.append_empty]

lemma render_eq (rules : List Rule) (nodes : List Node) (decisions : List Decision) :
    render rules nodes decisions =
      rulesHeader ++ "\n" ++ String.join ((ordered rules).map ruleText) ++ "\n" ++ belowRules nodes decisions := by
  rw [← join_ruleLines, render, parts, rulesSection, belowRules]
  simp only [List.cons_append, List.nil_append, List.append_assoc, List.map_cons, List.map_append, String.join_cons,
    String.join_append, String.append_assoc, String.empty_append]

/-- The rules with their places in the list, in the order in which they are shown. -/
def placedOrder (rules : List Rule) : List (Rule × Nat) :=
  rules.zipIdx.mergeSort (List.zipIdxLE fun a b => b.priority.sortKey.totalPlace ≤ a.priority.sortKey.totalPlace)

lemma map_fst_placedOrder (rules : List Rule) : (placedOrder rules).map Prod.fst = ordered rules :=
  List.mergeSort_zipIdx

lemma perm_placedOrder (rules : List Rule) : (placedOrder rules).Perm rules.zipIdx :=
  List.mergeSort_perm _ _

lemma nodup_places (rules : List Rule) : ((placedOrder rules).map Prod.snd).Nodup := by
  rw [((perm_placedOrder rules).map Prod.snd).nodup_iff, List.zipIdx_map_snd]
  exact List.nodup_range'

lemma pairwise_placedOrder (rules : List Rule) : (placedOrder rules).Pairwise GoesBefore := by
  have hsorted : (placedOrder rules).Pairwise fun a b =>
      List.zipIdxLE (fun a b : Rule => decide (b.priority.sortKey.totalPlace ≤ a.priority.sortKey.totalPlace)) a b =
        true := by
    refine List.pairwise_mergeSort (List.zipIdxLE_trans ?_) (List.zipIdxLE_total ?_) _
    · intro a b c hab hbc
      simp only [decide_eq_true_eq] at hab hbc ⊢
      exact hbc.trans hab
    · intro a b
      simp only [Bool.or_eq_true, decide_eq_true_eq]
      exact Int.le_total _ _
  have hplaces := List.pairwise_map.mp (nodup_places rules)
  refine (hsorted.and hplaces).imp ?_
  rintro a b ⟨hle, hne⟩
  rw [goesBefore_iff]
  simp only [List.zipIdxLE, decide_eq_true_eq, Binary64.totalPlace_sortKey_le_iff] at hle
  split at hle
  · split at hle
    · have hplace : a.2 ≤ b.2 := of_decide_eq_true hle
      omega
    · omega
  · cases hle

/-- In the text of a context document each rule of the list is shown once, and one before the other just when
it goes before the other. -/
theorem rules_shown_in_order (rules : List Rule) (nodes : List Node) (decisions : List Decision) :
    ∃ shown : List (Rule × Nat), shown.Perm rules.zipIdx ∧
      render rules nodes decisions =
        rulesHeader ++ "\n" ++ String.join (shown.map fun e => ruleText e.1) ++ "\n" ++
          belowRules nodes decisions ∧
      ∀ (i j : Nat) (a b : Rule × Nat), shown[i]? = some a → shown[j]? = some b → (i < j ↔ GoesBefore a b) := by
  refine ⟨placedOrder rules, perm_placedOrder rules, ?_, ?_⟩
  · have hrules : (placedOrder rules).map (fun e => ruleText e.1) = (ordered rules).map ruleText := by
      rw [← map_fst_placedOrder, List.map_map]
      rfl
    rw [hrules]
    exact render_eq rules nodes decisions
  · intro i j a b ha hb
    obtain ⟨hi, rfl⟩ := List.getElem?_eq_some_iff.mp ha
    obtain ⟨hj, rfl⟩ := List.getElem?_eq_some_iff.mp hb
    have hbefore := List.pairwise_iff_getElem.mp (pairwise_placedOrder rules)
    refine ⟨hbefore i j hi hj, fun h => ?_⟩
    by_contra hle
    rcases Nat.lt_or_eq_of_le (Nat.le_of_not_lt hle) with hlt | rfl
    · exact h.asymm (hbefore j i hj hi hlt)
    · exact h.asymm h

end CodeContext.Document
