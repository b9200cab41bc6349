import CodeContext.Proofs.Extraction
import Mathlib.Data.List.Infix

/-!
# Leaves of trees

The leaves of a tree are those of its children, one after the other. So the leaves of what is at a position
are some of the leaves of the whole, in the same order, and those of an earlier position come before those
of a later one, unless one tree is in the other.
-/

namespace CodeContext.CSharp.Tree

lemma leavesOf_append (ts us : List Tree) : leavesOf (ts ++ us) = leavesOf ts ++ leavesOf us := by
  induction ts with
  | nil => rfl
  | cons t ts ih => rw [List.cons_append, leavesOf, leavesOf, ih, List.append_assoc]

lemma leavesOf_singleton (t : Tree) : leavesOf [t] = t.leaves := by
  rw [leavesOf, leavesOf, List.append_nil]

lemma leaves_isInfix_of_mem {t : Tree} {ts : List Tree} (h : t ∈ ts) : t.leaves <:+: leavesOf ts := by
  obtain ⟨before, after, rfl⟩ := List.append_of_mem h
  rw [leavesOf_append, leavesOf]
  exact ⟨leavesOf before, leavesOf after, by rw [List.append_assoc]⟩

lemma exists_name_of_nameAmong_ne {tokens : Array Token} {children : List Tree} (h : nameAmong tokens children ≠ "") :
    ∃ named, .node .name named ∈ children ∧ nameAmong tokens children = textOf tokens named := by
  fun_induction nameAmong tokens children with
  | case1 => exact absurd rfl h
  | case2 named rest => exact ⟨named, List.mem_cons_self, rfl⟩
  | case3 t rest hname ih =>
    obtain ⟨named, hmem, heq⟩ := ih h
    exact ⟨named, List.mem_cons_of_mem _ hmem, heq⟩

/-! ### Positions -/

variable {t a b : Tree} {p q : List Nat}

lemma exists_at?_of_mem {c : Construct} {children : List Tree} (h : t.at? p = some (.node c children))
    (ha : a ∈ children) : ∃ q, t.at? q = some a := by
  obtain ⟨i, hi⟩ := List.mem_iff_getElem?.mp ha
  refine ⟨p ++ [i], ?_⟩
  induction p generalizing t with
  | nil =>
    obtain rfl : t = .node c children := by simpa [at?] using h
    simp [at?, hi]
  | cons j p ih =>
    cases t with
    | leaf => cases h
    | node c' children' =>
      obtain ⟨child, hchild, hat⟩ := Option.bind_eq_some_iff.mp h
      rw [List.cons_append, at?, hchild, Option.bind_some]
      exact ih hat

lemma leaves_sublist_of_at? (h : t.at? p = some a) : a.leaves.Sublist t.leaves := by
  induction p generalizing t with
  | nil =>
    obtain rfl : t = a := by simpa [at?] using h
    exact List.Sublist.refl _
  | cons i p ih =>
    cases t with
    | leaf => cases h
    | node c children =>
      obtain ⟨child, hchild, hat⟩ := Option.bind_eq_some_iff.mp h
      exact (ih hat).trans (leaves_isInfix_of_mem (List.mem_of_getElem? hchild)).sublist

lemma leaves_append_sublist_leavesOf {children : List Tree} {i j : Nat} (hi : children[i]? = some a)
    (hj : children[j]? = some b) (hij : i < j) : (a.leaves ++ b.leaves).Sublist (leavesOf children) := by
  obtain ⟨hlt, rfl⟩ := List.getElem?_eq_some_iff.mp hi
  obtain ⟨later, rfl⟩ := Nat.exists_eq_add_of_lt hij
  have hmem : b ∈ children.drop (i + 1) := by
    refine List.mem_of_getElem? (i := later) ?_
    rw [List.getElem?_drop, ← hj]
    congr 1
    omega
  have hsplit : leavesOf children =
      leavesOf (children.take i) ++ (children[i].leaves ++ leavesOf (children.drop (i + 1))) := by
    conv_lhs => rw [← List.take_append_drop i children, List.drop_eq_getElem_cons hlt, leavesOf_append, leavesOf]
  rw [hsplit]
  exact ((List.Sublist.refl _).append (leaves_isInfix_of_mem hmem).sublist).trans (List.sublist_append_right _ _)

/-- The leaves of a tree come before those of a tree at a later position that is not in it. -/
theorem leaves_append_sublist (ha : t.at? p = some a) (hb : t.at? q = some b) (hlt : p < q)
    (hout : ¬ p <+: q) : (a.leaves ++ b.leaves).Sublist t.leaves := by
  induction p generalizing t q with
  | nil => exact absurd List.nil_prefix hout
  | cons i p ih =>
    cases q with
    | nil => exact absurd hlt (List.not_lt_nil _)
    | cons j q =>
      cases t with
      | leaf => cases ha
      | node c children =>
        obtain ⟨first, hfirst, ha⟩ := Option.bind_eq_some_iff.mp ha
        obtain ⟨second, hsecond, hb⟩ := Option.bind_eq_some_iff.mp hb
        rcases List.cons_lt_cons_iff.mp hlt with hij | ⟨rfl, hrest⟩
        · exact ((leaves_sublist_of_at? ha).append (leaves_sublist_of_at? hb)).trans
            (leaves_append_sublist_leavesOf hfirst hsecond hij)
        · obtain rfl := Option.some.inj (hfirst.symm.trans hsecond)
          have hbelow : ¬ p <+: q := fun h => hout (List.cons_prefix_cons.mpr ⟨rfl, h⟩)
          exact (ih ha hb hrest hbelow).trans (leaves_isInfix_of_mem (List.mem_of_getElem? hfirst)).sublist

/-- What is at a position is around every position further down. -/
lemma exists_enclosing {c : Construct} {children : List Tree} (h : t.at? p = some (.node c children))
    (hbelow : p <+: q) (hne : p ≠ q) : ∃ e ∈ t.around q, e.construct = c := by
  induction p generalizing t q with
  | nil =>
    obtain rfl : t = .node c children := by simpa [at?] using h
    obtain ⟨j, q, rfl⟩ := List.exists_cons_of_ne_nil hne.symm
    exact ⟨_, List.mem_cons_self, rfl⟩
  | cons i p ih =>
    obtain ⟨rest, rfl⟩ := hbelow
    cases t with
    | leaf => cases h
    | node c' children' =>
      obtain ⟨child, hchild, h⟩ := Option.bind_eq_some_iff.mp h
      obtain ⟨e, he, hconstruct⟩ := ih h (List.prefix_append p rest) fun heq => hne (congrArg (i :: ·) heq)
      refine ⟨e, ?_, hconstruct⟩
      rw [List.cons_append, around, hchild]
      exact List.mem_cons_of_mem _ he

end CodeContext.CSharp.Tree
