import CodeContext.Filter
import CodeContext.Proofs.Cuts
import Mathlib.Data.List.TakeWhile

/-!
# Targets that occur literally

A target is compared with a text after both are put in lowercase, and a capital sigma has two lowercase forms,
of which the letters around it tell the one that is taken. So a target is found wherever it occurs literally
just when what is in it settles the form of each of its sigmas.
-/

namespace CodeContext

namespace Text

/-! ### Lowercase in a context -/

/-- The lowercase of a character between the characters before it, the nearest first, and those after it. -/
def lowerAt (before : List Char) (c : Char) (after : List Char) : List Char :=
  if c = 'Σ' then [if nextIsCased before && !nextIsCased after then 'ς' else 'σ'] else lowerChar c

/-- The lowercase of a part of a text between the characters before it, the nearest first, and those after it. -/
def lowerWithin (before after : List Char) : List Char → List Char
  | [] => []
  | c :: rest => lowerAt before c (rest ++ after) ++ lowerWithin (c :: before) after rest

lemma lowerFrom_append (before cs after : List Char) :
    lowerFrom before (cs ++ after) = lowerWithin before after cs ++ lowerFrom (cs.reverse ++ before) after := by
  induction cs generalizing before with
  | nil => rfl
  | cons c rest ih =>
    rw [List.cons_append, lowerFrom, ih, lowerWithin, lowerAt, List.reverse_cons, List.append_assoc, List.append_assoc,
      List.singleton_append]

lemma lowerFrom_eq (before cs : List Char) : lowerFrom before cs = lowerWithin before [] cs := by
  have h := lowerFrom_append before cs []
  rwa [List.append_nil, lowerFrom, List.append_nil] at h

lemma lowerWithin_append (before after cs ds : List Char) :
    lowerWithin before after (cs ++ ds) =
      lowerWithin before (ds ++ after) cs ++ lowerWithin (cs.reverse ++ before) after ds := by
  induction cs generalizing before with
  | nil => rfl
  | cons c rest ih =>
    rw [List.cons_append, lowerWithin, ih, lowerWithin, List.reverse_cons, List.append_assoc, List.append_assoc,
      List.append_assoc, List.singleton_append]

/-- Where a part of a text stands does not matter for the length of its lowercase. -/
lemma length_lowerWithin (before before' after after' cs : List Char) :
    (lowerWithin before after cs).length = (lowerWithin before' after' cs).length := by
  induction cs generalizing before before' with
  | nil => rfl
  | cons c rest ih =>
    rw [lowerWithin, lowerWithin, List.length_append, List.length_append, ih (c :: before) (c :: before'), lowerAt,
      lowerAt]
    split <;> rfl

lemma lowerAt_eq_of_lowerWithin_eq {before before' after after' x y : List Char} {c : Char}
    (h : lowerWithin before after (x ++ c :: y) = lowerWithin before' after' (x ++ c :: y)) :
    lowerAt (x.reverse ++ before) c (y ++ after) = lowerAt (x.reverse ++ before') c (y ++ after') := by
  rw [lowerWithin_append, lowerWithin_append] at h
  have htail := (List.append_inj h (length_lowerWithin _ _ _ _ _)).2
  rw [lowerWithin, lowerWithin] at htail
  refine (List.append_inj htail ?_).1
  unfold lowerAt
  split <;> rfl

/-! ### Sigmas -/

/-- What stands before and after a sigma, the nearest first, tells its form whatever is around it. -/
structure Settles (before after : List Char) : Prop where
  before_irrelevant : nextIsCased after = true ∨ ∃ c ∈ before, isCaseIgnorable c = false
  after_irrelevant : nextIsCased before = false ∨ ∃ c ∈ after, isCaseIgnorable c = false

/-- The form of each capital sigma in a text is told by the text alone. -/
def IsSteady (cs : List Char) : Prop :=
  ∀ before after, cs = before ++ 'Σ' :: after → Settles before.reverse after

lemma nextIsCased_append_of_forall {cs : List Char} (h : ∀ c ∈ cs, isCaseIgnorable c = true) (more : List Char) :
    nextIsCased (cs ++ more) = nextIsCased more := by
  rw [nextIsCased, nextIsCased, List.dropWhile_append_of_pos h]

lemma nextIsCased_append_of_exists {cs : List Char} (h : ∃ c ∈ cs, isCaseIgnorable c = false) (more : List Char) :
    nextIsCased (cs ++ more) = nextIsCased cs := by
  have hne : cs.dropWhile isCaseIgnorable ≠ [] := by
    intro hnil
    obtain ⟨c, hc, hfalse⟩ := h
    have htrue := List.dropWhile_eq_nil_iff.mp hnil c hc
    rw [hfalse] at htrue
    cases htrue
  obtain ⟨c, rest, hcs⟩ := List.exists_cons_of_ne_nil hne
  simp [nextIsCased, List.dropWhile_append, hcs]

lemma not_exists_iff_forall {cs : List Char} :
    (¬ ∃ c ∈ cs, isCaseIgnorable c = false) ↔ ∀ c ∈ cs, isCaseIgnorable c = true := by
  simp

lemma nextIsCased_of_forall {cs : List Char} (h : ∀ c ∈ cs, isCaseIgnorable c = true) : nextIsCased cs = false := by
  have happend := nextIsCased_append_of_forall h []
  rwa [List.append_nil] at happend

/-- A sigma that is settled has its form in every context. -/
lemma Settles.lowerAt_eq {u v : List Char} (h : Settles u v) (before after : List Char) :
    lowerAt (u ++ before) 'Σ' (v ++ after) = lowerAt u 'Σ' v := by
  have hform : (nextIsCased (u ++ before) && !nextIsCased (v ++ after)) = (nextIsCased u && !nextIsCased v) := by
    by_cases hu : ∃ c ∈ u, isCaseIgnorable c = false
    · rw [nextIsCased_append_of_exists hu]
      rcases h.after_irrelevant with hnone | hv
      · rw [hnone, Bool.false_and, Bool.false_and]
      · rw [nextIsCased_append_of_exists hv]
    · have hcased := h.before_irrelevant.resolve_right hu
      have hv : ∃ c ∈ v, isCaseIgnorable c = false := by
        by_contra hv
        rw [nextIsCased_of_forall (not_exists_iff_forall.mp hv)] at hcased
        cases hcased
      rw [nextIsCased_append_of_exists hv, hcased, Bool.not_true, Bool.and_false, Bool.and_false]
  rw [lowerAt, lowerAt, if_pos rfl, if_pos rfl, hform]

/-- A letter before a sigma or a letter after it changes the form that the sigma has if it is not settled. -/
lemma exists_lowerAt_ne {u v : List Char} (h : ¬ Settles u v) {c : Char} (hc : isCaseIgnorable c = false)
    (hcased : isCased c = true) :
    lowerAt (u ++ [c]) 'Σ' v ≠ lowerAt u 'Σ' v ∨ lowerAt u 'Σ' (v ++ [c]) ≠ lowerAt u 'Σ' v := by
  have hnext : nextIsCased [c] = true := by simp [nextIsCased, hc, hcased]
  by_cases hfirst : nextIsCased v = true ∨ ∃ c ∈ u, isCaseIgnorable c = false
  · right
    have hsecond : ¬ (nextIsCased u = false ∨ ∃ c ∈ v, isCaseIgnorable c = false) := fun hsecond =>
      h ⟨hfirst, hsecond⟩
    obtain ⟨hu, hv⟩ := not_or.mp hsecond
    have hall := not_exists_iff_forall.mp hv
    simp [lowerAt, nextIsCased_append_of_forall hall, nextIsCased_of_forall hall, hnext, Bool.not_eq_false _ ▸ hu]
  · left
    obtain ⟨hv, hu⟩ := not_or.mp hfirst
    have hall := not_exists_iff_forall.mp hu
    simp [lowerAt, nextIsCased_append_of_forall hall, nextIsCased_of_forall hall, hnext, Bool.not_eq_true _ ▸ hv]

/-! ### Literal occurrences -/

/-- A steady text has its lowercase wherever it stands. -/
lemma IsSteady.lowerWithin_eq {cs x y : List Char} (h : IsSteady cs) (hcs : cs = x ++ y) (before after : List Char) :
    lowerWithin (x.reverse ++ before) after y = lowerWithin x.reverse [] y := by
  induction y generalizing x with
  | nil => rfl
  | cons c y ih =>
    have hhere : lowerAt (x.reverse ++ before) c (y ++ after) = lowerAt x.reverse c y := by
      by_cases hc : c = 'Σ'
      · subst hc
        exact (h x y hcs).lowerAt_eq before after
      · rw [lowerAt, lowerAt, if_neg hc, if_neg hc]
    have hrest := ih (x := x ++ [c]) (by rw [hcs, List.append_assoc, List.singleton_append])
    rw [List.reverse_append, List.reverse_singleton, List.singleton_append, List.cons_append] at hrest
    rw [lowerWithin, lowerWithin, hhere, hrest, List.append_nil]

lemma eq_or_head?_of_isInfix {needle cs : List Char} {c : Char} (hlength : needle.length = cs.length)
    (h : needle <:+: c :: cs) : needle = cs ∨ needle.head? = some c := by
  rcases List.infix_cons_iff.mp h with hprefix | hrest
  · cases needle with
    | nil => exact .inl (List.eq_nil_of_length_eq_zero hlength.symm).symm
    | cons d needle => exact .inr (congrArg some (List.cons_prefix_cons.mp hprefix).1)
  · exact .inl (hrest.eq_of_length hlength)

lemma eq_or_getLast?_of_isInfix {needle cs : List Char} {c : Char} (hlength : needle.length = cs.length)
    (h : needle <:+: cs ++ [c]) : needle = cs ∨ needle.getLast? = some c := by
  have hreverse : needle.reverse <:+: c :: cs.reverse := by
    rw [← List.reverse_concat, List.reverse_infix]
    exact h
  rcases eq_or_head?_of_isInfix (by simpa using hlength) hreverse with heq | hhead
  · exact .inl (List.reverse_injective heq)
  · rw [List.head?_reverse] at hhead
    exact .inr hhead

/-- A letter that is its own lowercase. -/
structure IsSmallLetter (c : Char) : Prop where
  notIgnorable : isCaseIgnorable c = false
  cased : isCased c = true
  lower : lowerChar c = [c]
  ne : c ≠ 'Σ'

lemma exists_isSmallLetter (o p : Option Char) : ∃ c, IsSmallLetter c ∧ o ≠ some c ∧ p ≠ some c := by
  have ha : IsSmallLetter 'a' := ⟨by decide +kernel, by decide, by decide, by decide⟩
  have hb : IsSmallLetter 'b' := ⟨by decide +kernel, by decide, by decide, by decide⟩
  have hc : IsSmallLetter 'c' := ⟨by decide +kernel, by decide, by decide, by decide⟩
  by_contra hnone
  have htaken {c : Char} (h : IsSmallLetter c) : o = some c ∨ p = some c := by
    by_contra hfree
    exact hnone ⟨c, h, not_or.mp hfree⟩
  -- Two options cannot be three letters.
  rcases htaken ha with ha | ha <;> rcases htaken hb with hb | hb <;> rcases htaken hc with hc | hc <;> simp_all

lemma IsSmallLetter.lowerAt_eq {c : Char} (h : IsSmallLetter c) (before after : List Char) :
    lowerAt before c after = [c] := by
  rw [lowerAt, if_neg h.ne, h.lower]

/-- The lowercase of a text occurs in that of each text that the text occurs in just when the text is steady. -/
theorem lowercase_isInfix_iff {cs : List Char} :
    (∀ text, cs <:+: text → lowercase cs <:+: lowercase text) ↔ IsSteady cs := by
  constructor
  · intro h
    by_contra hsteady
    obtain ⟨x, y, rfl, hsettles⟩ : ∃ x y, cs = x ++ 'Σ' :: y ∧ ¬ Settles x.reverse y := by
      by_contra hnone
      exact hsteady fun x y hcs => by_contra fun hs => hnone ⟨x, y, hcs, hs⟩
    have halone : lowercase (x ++ 'Σ' :: y) = lowerWithin [] [] (x ++ 'Σ' :: y) := lowerFrom_eq _ _
    obtain ⟨c, hc, hhead, hlast⟩ := exists_isSmallLetter (lowercase (x ++ 'Σ' :: y)).head?
      (lowercase (x ++ 'Σ' :: y)).getLast?
    rw [halone] at h hhead hlast
    rcases exists_lowerAt_ne hsettles hc.notIgnorable hc.cased with hne | hne
    · have hlower : lowercase (c :: (x ++ 'Σ' :: y)) = c :: lowerWithin [c] [] (x ++ 'Σ' :: y) := by
        rw [lowercase, lowerFrom_eq, lowerWithin, hc.lowerAt_eq, List.singleton_append]
      have hinfix := h _ (List.suffix_cons c _).isInfix
      rw [hlower] at hinfix
      have hsame := (eq_or_head?_of_isInfix (length_lowerWithin _ _ _ _ _) hinfix).resolve_right hhead
      have hform := lowerAt_eq_of_lowerWithin_eq hsame
      rw [List.append_nil, List.append_nil] at hform
      exact hne hform.symm
    · have hlower : lowercase ((x ++ 'Σ' :: y) ++ [c]) = lowerWithin [] [c] (x ++ 'Σ' :: y) ++ [c] := by
        rw [lowercase, lowerFrom_append, lowerFrom_eq _ [c], lowerWithin, hc.lowerAt_eq, lowerWithin, List.append_nil]
      have hinfix := h _ (List.prefix_append _ [c]).isInfix
      rw [hlower] at hinfix
      have hsame := (eq_or_getLast?_of_isInfix (length_lowerWithin _ _ _ _ _) hinfix).resolve_right hlast
      have hform := lowerAt_eq_of_lowerWithin_eq hsame
      rw [List.append_nil, List.append_nil] at hform
      exact hne hform.symm
  · rintro hsteady text ⟨before, after, rfl⟩
    have hsame := hsteady.lowerWithin_eq (x := []) rfl before.reverse after
    rw [List.reverse_nil, List.nil_append, ← lowerFrom_eq] at hsame
    have htext : lowercase (before ++ cs ++ after) =
        lowerWithin [] (cs ++ after) before ++ (lowercase cs ++ lowerFrom (cs.reverse ++ before.reverse) after) := by
      rw [lowercase, List.append_assoc, lowerFrom_append, List.append_nil, lowerFrom_append, hsame, lowercase]
    exact ⟨_, _, by rw [htext, List.append_assoc]⟩

end Text

namespace Node

/-- A node with a text as its path and its summary. -/
def telling (text : String) : Node where
  id := "FN:1"
  category := .unknown
  path := text
  lineStart := 1
  lineEnd := 1
  tags := .empty
  deps := .empty
  amplitudes := .empty
  summary := text

lemma mem_filter_iff {nodes : List Node} {n : Node} {t : String} (hblank : Text.blank t = false)
    (hid : Target.looksLikeId t = false) : n ∈ filter nodes [t] ↔ n ∈ nodes ∧
      (Text.lowercase t.toList <:+: Text.lowercase n.path.toList ∨
        Text.lowercase t.toList <:+: Text.lowercase n.summary.toList) := by
  have ht : Target.ofString? t = some (.text t) := by simp [Target.ofString?, hblank, hid]
  simp [filter_eq, ht, Target.selects, Target.mentions, Text.occursIn_iff]

/-- Every node that has a free text literally in its path or summary is selected by it just when what is in
the text settles the form of each of its capital sigmas. -/
theorem verbatim_selected_iff {t : String} (hblank : Text.blank t = false) (hid : Target.looksLikeId t = false) :
    (∀ (nodes : List Node) (n : Node), n ∈ nodes → t.toList <:+: n.path.toList ∨ t.toList <:+: n.summary.toList →
      n ∈ filter nodes [t]) ↔ Text.IsSteady t.toList := by
  rw [← Text.lowercase_isInfix_iff]
  constructor
  · intro h text htext
    have hverbatim : t.toList <:+: (telling (String.ofList text)).summary.toList := by
      simpa [telling] using htext
    have hselected := h [telling (String.ofList text)] _ List.mem_cons_self (.inr hverbatim)
    rw [mem_filter_iff hblank hid] at hselected
    simpa [telling] using hselected.2
  · rintro h nodes n hn hverbatim
    rw [mem_filter_iff hblank hid]
    exact ⟨hn, hverbatim.imp (h _) (h _)⟩

/-- The sigma at the beginning of a word is settled by the letter after it. -/
theorem verbatim_selected_of_settled :
    Text.blank "Σίγμα" = false ∧ Target.looksLikeId "Σίγμα" = false ∧
      ∀ (nodes : List Node) (n : Node), n ∈ nodes →
        "Σίγμα".toList <:+: n.path.toList ∨ "Σίγμα".toList <:+: n.summary.toList → n ∈ filter nodes ["Σίγμα"] := by
  have hblank : Text.blank "Σίγμα" = false := by decide
  have hid : Target.looksLikeId "Σίγμα" = false := by decide
  refine ⟨hblank, hid, (verbatim_selected_iff hblank hid).mpr ?_⟩
  have hcased : Text.nextIsCased "ίγμα".toList = true := by decide +kernel
  have hword : "Σίγμα".toList = 'Σ' :: "ίγμα".toList := rfl
  have hone : 'Σ' ∉ "ίγμα".toList := by decide
  intro before after h
  rw [hword] at h
  rcases List.cons_eq_append_iff.mp h with ⟨rfl, hrest⟩ | ⟨more, rfl, hrest⟩
  · obtain ⟨-, rfl⟩ := List.cons.inj hrest
    exact ⟨.inl hcased, .inl rfl⟩
  · rw [hrest] at hone
    exact absurd (List.mem_append_right _ List.mem_cons_self) hone

/-- The sigma at the end of a target is final, but the one in a longer word is not. -/
theorem verbatim_not_selected :
    Text.blank "ΟΔΟΣ" = false ∧ Target.looksLikeId "ΟΔΟΣ" = false ∧
      "ΟΔΟΣ".toList <:+: (telling "ΟΔΟΣΑ").summary.toList ∧ filter [telling "ΟΔΟΣΑ"] ["ΟΔΟΣ"] = [] := by
  refine ⟨by decide, by decide, ⟨[], ['Α'], by decide⟩, ?_⟩
  decide +kernel

end Node

end CodeContext
