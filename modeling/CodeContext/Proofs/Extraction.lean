import CodeContext.CSharp.Extract
import Mathlib.Tactic.Lemma

/-!
# Which methods are found

A position names a child at every level of a tree, from the top down, so that the order of positions
is the order of the source, with a tree before what is in it. The nodes of a source are told by what
stands around each method: some class, no other method, and of every class a name and its body.
-/

namespace CodeContext.CSharp

namespace Tree

/-! ### Positions -/

/-- The tree at a position. -/
def at? : Tree → List Nat → Option Tree
  | t, [] => some t
  | .leaf _, _ :: _ => none
  | .node _ children, i :: p => (children[i]?).bind fun t => t.at? p

/-- A construct around a tree, and the child that the tree is or is in. -/
structure Enclosing where
  construct : Construct
  children : List Tree
  child : Nat

/-- What stands around a position, from the outside in. -/
def around : Tree → List Nat → List Enclosing
  | .node c children, i :: p =>
    ⟨c, children, i⟩ :: match children[i]? with
      | some t => t.around p
      | none => []
  | _, _ => []

def isBody : Tree → Bool
  | .node .body _ => true
  | _ => false

/-- The tree is in the body of the construct, which is the first one. -/
def Enclosing.InBody (e : Enclosing) : Prop :=
  e.children.findIdx? isBody = some e.child

/-- Methods are looked for within the construct: it is no method, and if it is a class, it has a name
and this is its body. -/
structure Enclosing.Opens (tokens : Array Token) (e : Enclosing) : Prop where
  notMethod : e.construct ≠ .methodDeclaration
  named : e.construct = .classDeclaration → nameAmong tokens e.children ≠ ""
  inBody : e.construct = .classDeclaration → e.InBody

/-- The name of the innermost class among some constructs, or else the given one. -/
def innermost (tokens : Array Token) (className : Option String) (es : List Enclosing) : Option String :=
  es.foldl (fun c e => if e.construct = .classDeclaration then some (nameAmong tokens e.children) else c)
    className

/-- The method at a position in a tree, which may itself be in a class. -/
def MethodAt (tokens : Array Token) (className : Option String) (t : Tree) (p : List Nat) (m : Method) : Prop :=
  ∃ children c, t.at? p = some (.node .methodDeclaration children) ∧ nameAmong tokens children ≠ "" ∧
    (∀ e ∈ t.around p, e.Opens tokens) ∧ innermost tokens className (t.around p) = some c ∧
    m ∈ methodOf tokens c children

/-! ### Lists by position -/

/-- A list holds just the methods that a relation gives, in the order of their positions. -/
structure Lists (found : List (List Nat × Method)) (relation : List Nat → Method → Prop) : Prop where
  ordered : (found.map Prod.fst).Pairwise (· < ·)
  mem_iff : ∀ p m, (p, m) ∈ found ↔ relation p m

lemma lists_nil {relation : List Nat → Method → Prop} (h : ∀ p m, ¬ relation p m) : Lists [] relation where
  ordered := List.Pairwise.nil
  mem_iff p m := by simp [h p m]

lemma Lists.congr {found : List (List Nat × Method)} {r r' : List Nat → Method → Prop} (h : Lists found r)
    (hr : ∀ p m, r p m ↔ r' p m) : Lists found r' :=
  ⟨h.ordered, fun p m => (h.mem_iff p m).trans (hr p m)⟩

/-- The positions in a child, as positions in its parent. -/
def inChild (i : Nat) (found : List (List Nat × Method)) : List (List Nat × Method) :=
  found.map fun e => (i :: e.1, e.2)

/-- The position with its first child one further on. -/
def bump : List Nat → List Nat
  | [] => []
  | i :: p => (i + 1) :: p

/-- The relation of a list of children by those of the children. -/
def Among (children : List Tree) (relation : Nat → Tree → List Nat → Method → Prop) (p : List Nat)
    (m : Method) : Prop :=
  ∃ i q t, p = i :: q ∧ children[i]? = some t ∧ relation i t q m

lemma Lists.child {found : List (List Nat × Method)} {r : List Nat → Method → Prop} (h : Lists found r)
    (i : Nat) : Lists (inChild i found) fun p m => ∃ q, p = i :: q ∧ r q m where
  ordered := by
    rw [inChild, List.map_map, List.pairwise_map]
    have hordered := List.pairwise_map.mp h.ordered
    exact hordered.imp fun hlt => List.cons_lt_cons_iff.mpr (.inr ⟨rfl, hlt⟩)
  mem_iff p m := by
    simp only [inChild, List.mem_map, Prod.exists, Prod.mk.injEq]
    constructor
    · rintro ⟨q, m, hmem, rfl, rfl⟩
      exact ⟨q, rfl, (h.mem_iff q m).mp hmem⟩
    · rintro ⟨q, rfl, hr⟩
      exact ⟨q, m, (h.mem_iff q m).mpr hr, rfl, rfl⟩

lemma bump_lt_bump {i j : Nat} {p q : List Nat} (h : i :: p < j :: q) : bump (i :: p) < bump (j :: q) := by
  rcases List.cons_lt_cons_iff.mp h with hlt | ⟨rfl, hlt⟩
  · exact List.cons_lt_cons_iff.mpr (.inl (Nat.succ_lt_succ hlt))
  · exact List.cons_lt_cons_iff.mpr (.inr ⟨rfl, hlt⟩)

lemma Lists.rest {found : List (List Nat × Method)} {children : List Tree}
    {r : Nat → Tree → List Nat → Method → Prop} (h : Lists found (Among children fun i => r (i + 1)))
    (first : Tree) :
    Lists (found.map fun e => (bump e.1, e.2)) fun p m =>
      (∀ q, p ≠ 0 :: q) ∧ Among (first :: children) r p m where
  ordered := by
    rw [List.map_map, List.pairwise_map]
    have hordered := List.pairwise_map.mp h.ordered
    refine hordered.imp_of_mem fun {a b} ha hb hlt => ?_
    obtain ⟨i, p, -, ha, -⟩ := (h.mem_iff a.1 a.2).mp ha
    obtain ⟨j, q, -, hb, -⟩ := (h.mem_iff b.1 b.2).mp hb
    rw [ha, hb] at hlt
    rw [Function.comp_apply, Function.comp_apply, ha, hb]
    exact bump_lt_bump hlt
  mem_iff p m := by
    simp only [List.mem_map, Prod.exists, Prod.mk.injEq]
    constructor
    · rintro ⟨p, m, hmem, rfl, rfl⟩
      obtain ⟨i, q, t, rfl, ht, hr⟩ := (h.mem_iff p m).mp hmem
      refine ⟨fun _ => by simp [bump], i + 1, q, t, rfl, ?_, hr⟩
      rw [List.getElem?_cons_succ, ht]
    · rintro ⟨hp, i, q, t, rfl, ht, hr⟩
      cases i with
      | zero => exact absurd rfl (hp q)
      | succ i =>
        rw [List.getElem?_cons_succ] at ht
        exact ⟨i :: q, m, (h.mem_iff _ m).mpr ⟨i, q, t, rfl, ht, hr⟩, rfl, rfl⟩

lemma Lists.cons {first : Tree} {children : List Tree} {r : Nat → Tree → List Nat → Method → Prop}
    {before after : List (List Nat × Method)} (hbefore : Lists before (r 0 first))
    (hafter : Lists after (Among children fun i => r (i + 1))) :
    Lists (inChild 0 before ++ after.map fun e => (bump e.1, e.2)) (Among (first :: children) r) where
  ordered := by
    rw [List.map_append, List.pairwise_append]
    refine ⟨(hbefore.child 0).ordered, (hafter.rest first).ordered, ?_⟩
    intro p hp q hq
    obtain ⟨⟨_, m⟩, hmem, rfl⟩ := List.mem_map.mp hp
    obtain ⟨⟨_, m'⟩, hmem', rfl⟩ := List.mem_map.mp hq
    obtain ⟨p, rfl, -⟩ := ((hbefore.child 0).mem_iff _ m).mp hmem
    obtain ⟨hne, j, q, t, rfl, -⟩ := ((hafter.rest first).mem_iff _ m').mp hmem'
    have hpos : 0 < j := Nat.pos_of_ne_zero fun hj => hne q (by rw [hj])
    exact List.cons_lt_cons_iff.mpr (.inl hpos)
  mem_iff p m := by
    rw [List.mem_append, (hbefore.child 0).mem_iff, (hafter.rest first).mem_iff]
    constructor
    · -- Only the first child has positions that begin with 0.
      rintro (⟨q, rfl, hr⟩ | ⟨-, hr⟩)
      · exact ⟨0, q, first, rfl, rfl, hr⟩
      · exact hr
    · rintro ⟨i, q, t, rfl, ht, hr⟩
      cases i with
      | zero =>
        obtain rfl : first = t := Option.some.inj ht
        exact .inl ⟨q, rfl, hr⟩
      | succ i => exact .inr ⟨by simp, i + 1, q, t, rfl, ht, hr⟩

/-! ### What the walk finds -/

variable {tokens : Array Token} {className : Option String}

/-- The methods in the body among the children of a class. -/
def InBodyOf (tokens : Array Token) (className : String) (children : List Tree) :
    List Nat → Method → Prop :=
  Among children fun i t q m => children.findIdx? isBody = some i ∧ MethodAt tokens (some className) t q m

/-- Below the top, the position is in a child, and the top has to open. -/
lemma methodAt_cons {c : Construct} {children : List Tree} {i : Nat} {p : List Nat} {m : Method} :
    MethodAt tokens className (.node c children) (i :: p) m ↔
      Enclosing.Opens tokens ⟨c, children, i⟩ ∧ ∃ t, children[i]? = some t ∧
        MethodAt tokens (innermost tokens className [⟨c, children, i⟩]) t p m := by
  unfold MethodAt
  cases hchild : children[i]? with
  | none => simp [at?, hchild]
  | some t =>
    simp only [at?, around, hchild, Option.bind_some, List.forall_mem_cons]
    constructor
    · rintro ⟨below, name, hat, hname, ⟨hopens, hrest⟩, hinner, hm⟩
      exact ⟨hopens, t, rfl, below, name, hat, hname, hrest, hinner, hm⟩
    · rintro ⟨hopens, t, heq, below, name, hat, hname, hrest, hinner, hm⟩
      obtain rfl := Option.some.inj heq
      exact ⟨below, name, hat, hname, ⟨hopens, hrest⟩, hinner, hm⟩

lemma methodAt_nil {t : Tree} {m : Method} :
    MethodAt tokens className t [] m ↔ ∃ children c, t = .node .methodDeclaration children ∧
      className = some c ∧ m ∈ methodOf tokens c children := by
  simp only [MethodAt, at?, around, Option.some.injEq, List.not_mem_nil, false_implies, implies_true,
    true_and, innermost, List.foldl_nil]
  constructor
  · rintro ⟨children, c, rfl, -, rfl, hm⟩
    exact ⟨children, c, rfl, rfl, hm⟩
  · rintro ⟨children, c, rfl, rfl, hm⟩
    refine ⟨children, c, rfl, fun hname => ?_, rfl, hm⟩
    simp [methodOf, hname] at hm

lemma methodAt_through {c : Construct} {children : List Tree} (hclass : c ≠ .classDeclaration)
    (hmethod : c ≠ .methodDeclaration) {p : List Nat} {m : Method} :
    MethodAt tokens className (.node c children) p m ↔
      Among children (fun _ t q m => MethodAt tokens className t q m) p m := by
  cases p with
  | nil => simp [methodAt_nil, Among, hmethod]
  | cons i p =>
    have hopens : Enclosing.Opens tokens ⟨c, children, i⟩ :=
      ⟨hmethod, fun h => absurd h hclass, fun h => absurd h hclass⟩
    simp only [methodAt_cons, hopens, true_and, innermost, List.foldl_cons, List.foldl_nil, if_neg hclass,
      Among]
    constructor
    · rintro ⟨t, ht, hm⟩
      exact ⟨i, p, t, rfl, ht, hm⟩
    · rintro ⟨i, p, t, heq, ht, hm⟩
      obtain ⟨rfl, rfl⟩ := List.cons.inj heq
      exact ⟨t, ht, hm⟩

lemma methodAt_class {children : List Tree} (hname : nameAmong tokens children ≠ "") {p : List Nat}
    {m : Method} :
    MethodAt tokens className (.node .classDeclaration children) p m ↔
      InBodyOf tokens (nameAmong tokens children) children p m := by
  cases p with
  | nil => simp [methodAt_nil, InBodyOf, Among]
  | cons i p =>
    simp only [methodAt_cons, InBodyOf, innermost, List.foldl_cons, List.foldl_nil, if_true, Among]
    constructor
    · rintro ⟨hopens, t, ht, hm⟩
      exact ⟨i, p, t, rfl, ht, hopens.inBody rfl, hm⟩
    · rintro ⟨i, p, t, heq, ht, hbody, hm⟩
      obtain ⟨rfl, rfl⟩ := List.cons.inj heq
      exact ⟨⟨by simp, fun _ => hname, fun _ => hbody⟩, t, ht, hm⟩

lemma not_methodAt_of_unnamed {children : List Tree} (hname : nameAmong tokens children = "") (p : List Nat)
    (m : Method) : ¬ MethodAt tokens className (.node .classDeclaration children) p m := by
  cases p with
  | nil => simp [methodAt_nil]
  | cons i p =>
    rw [methodAt_cons]
    rintro ⟨hopens, -⟩
    exact hopens.named rfl hname

lemma not_methodAt_leaf (i : Nat) (p : List Nat) (m : Method) :
    ¬ MethodAt tokens className (.leaf i) p m := by
  cases p with
  | nil => simp [methodAt_nil]
  | cons j p => simp [MethodAt, at?]

lemma lists_method (children : List Tree) :
    Lists ((methods tokens className (.node .methodDeclaration children)).map ([], ·))
      (MethodAt tokens className (.node .methodDeclaration children)) where
  ordered := by
    cases className with
    | none => simp [methods]
    | some c =>
      by_cases hname : nameAmong tokens children = "" <;> simp [methods, methodOf, hname]
  mem_iff p m := by
    cases p with
    | nil =>
      rw [methodAt_nil]
      cases className <;> simp [methods]
    | cons i p =>
      rw [methodAt_cons]
      constructor
      · intro hmem
        simp at hmem
      · -- What is inside a method is not looked at.
        rintro ⟨hopens, -⟩
        exact absurd rfl hopens.notMethod

lemma lists_through {c : Construct} {children : List Tree} (hclass : c ≠ .classDeclaration)
    (hmethod : c ≠ .methodDeclaration)
    (h : ∃ found, Lists found (Among children fun _ t q m => MethodAt tokens className t q m) ∧
      found.map Prod.snd = methodsOf tokens className children) :
    ∃ found, Lists found (MethodAt tokens className (.node c children)) ∧
      found.map Prod.snd = methods tokens className (.node c children) := by
  obtain ⟨found, hlists, hmap⟩ := h
  refine ⟨found, hlists.congr fun p m => (methodAt_through hclass hmethod).symm, hmap.trans ?_⟩
  cases c with
  | classDeclaration => exact absurd rfl hclass
  | methodDeclaration => exact absurd rfl hmethod
  | name | body | other | error => rw [methods]

lemma methodsOfBody_of_isBody {className : String} {t : Tree} (ht : isBody t = true) {rest : List Tree} :
    methodsOfBody tokens className (t :: rest) = t.methods tokens (some className) := by
  match t with
  | .leaf _ | .node .classDeclaration _ | .node .methodDeclaration _ | .node .name _ | .node .other _
  | .node .error _ => cases ht
  | .node .body children => rw [methodsOfBody, methods]

lemma methodsOfBody_of_not_isBody {className : String} {t : Tree} (ht : isBody t = false) {rest : List Tree} :
    methodsOfBody tokens className (t :: rest) = methodsOfBody tokens className rest := by
  rw [methodsOfBody]
  rintro children rfl
  cases ht

lemma lists_body_first {className : String} {t : Tree} (ht : isBody t = true) (rest : List Tree)
    {found : List (List Nat × Method)} (h : Lists found (MethodAt tokens (some className) t)) :
    Lists (inChild 0 found) (InBodyOf tokens className (t :: rest)) := by
  have hfirst : (t :: rest).findIdx? isBody = some 0 := by rw [List.findIdx?_cons, if_pos ht]
  refine (h.child 0).congr fun p m => ?_
  constructor
  · rintro ⟨q, rfl, hm⟩
    exact ⟨0, q, t, rfl, rfl, hfirst, hm⟩
  · rintro ⟨i, q, t', rfl, ht', hi, hm⟩
    obtain rfl : 0 = i := Option.some.inj (hfirst.symm.trans hi)
    obtain rfl : t = t' := Option.some.inj ht'
    exact ⟨q, rfl, hm⟩

lemma lists_body_later {className : String} {t : Tree} (ht : isBody t = false) {rest : List Tree}
    {found : List (List Nat × Method)} (h : Lists found (InBodyOf tokens className rest)) :
    Lists (found.map fun e => (bump e.1, e.2)) (InBodyOf tokens className (t :: rest)) := by
  have hlater (i : Nat) : (t :: rest).findIdx? isBody = some i ↔ ∃ j, rest.findIdx? isBody = some j ∧ j + 1 = i := by
    rw [List.findIdx?_cons, if_neg (by rw [ht]; decide), Option.map_eq_some_iff]
  have hrest : Lists found (Among rest fun i t' q m =>
      (t :: rest).findIdx? isBody = some (i + 1) ∧ MethodAt tokens (some className) t' q m) :=
    h.congr fun p m => by simp [InBodyOf, hlater]
  refine (hrest.rest (r := fun i t' q m => (t :: rest).findIdx? isBody = some i ∧
    MethodAt tokens (some className) t' q m) t).congr fun p m => ?_
  refine ⟨And.right, fun hm => ⟨?_, hm⟩⟩
  obtain ⟨i, q, t', rfl, -, hi, -⟩ := hm
  obtain ⟨j, -, rfl⟩ := (hlater i).mp hi
  simp

mutual

/-- The walk lists the methods of a tree. -/
theorem lists_methods (tokens : Array Token) (className : Option String) :
    ∀ t : Tree, ∃ found, Lists found (MethodAt tokens className t) ∧
      found.map Prod.snd = t.methods tokens className
  | .leaf i => ⟨[], lists_nil (not_methodAt_leaf i), rfl⟩
  | .node .methodDeclaration children => ⟨_, lists_method children, by simp [Function.comp_def]⟩
  | .node .classDeclaration children => by
    by_cases hname : nameAmong tokens children = ""
    · exact ⟨[], lists_nil (not_methodAt_of_unnamed hname), by simp [methods, hname]⟩
    · obtain ⟨found, hlists, hmap⟩ := lists_methodsOfBody tokens (nameAmong tokens children) children
      refine ⟨found, hlists.congr fun p m => (methodAt_class hname).symm, ?_⟩
      rw [hmap, methods, if_neg hname]
  | .node .name children => lists_through (by decide) (by decide) (lists_methodsOf tokens className children)
  | .node .body children => lists_through (by decide) (by decide) (lists_methodsOf tokens className children)
  | .node .other children => lists_through (by decide) (by decide) (lists_methodsOf tokens className children)
  | .node .error children => lists_through (by decide) (by decide) (lists_methodsOf tokens className children)

theorem lists_methodsOf (tokens : Array Token) (className : Option String) :
    ∀ children : List Tree,
      ∃ found, Lists found (Among children fun _ t q m => MethodAt tokens className t q m) ∧
        found.map Prod.snd = methodsOf tokens className children
  | [] => ⟨[], lists_nil (by simp [Among]), rfl⟩
  | t :: rest => by
    obtain ⟨before, hbefore, hmapBefore⟩ := lists_methods tokens className t
    obtain ⟨after, hafter, hmapAfter⟩ := lists_methodsOf tokens className rest
    refine ⟨_, hbefore.cons (r := fun _ t q m => MethodAt tokens className t q m) hafter, ?_⟩
    rw [methodsOf, ← hmapBefore, ← hmapAfter, inChild, List.map_append, List.map_map, List.map_map]
    rfl

theorem lists_methodsOfBody (tokens : Array Token) (className : String) :
    ∀ children : List Tree, ∃ found, Lists found (InBodyOf tokens className children) ∧
      found.map Prod.snd = methodsOfBody tokens className children
  | [] => ⟨[], lists_nil (by simp [InBodyOf, Among]), rfl⟩
  | t :: rest => by
    cases ht : isBody t with
    | true =>
      obtain ⟨found, hlists, hmap⟩ := lists_methods tokens (some className) t
      refine ⟨_, lists_body_first ht rest hlists, ?_⟩
      rw [methodsOfBody_of_isBody ht, ← hmap, inChild, List.map_map]
      rfl
    | false =>
      obtain ⟨found, hlists, hmap⟩ := lists_methodsOfBody tokens className rest
      refine ⟨_, lists_body_later ht hlists, ?_⟩
      rw [methodsOfBody_of_not_isBody ht, ← hmap, List.map_map]
      rfl

end

/-- A class is the last one among some constructs. -/
def LastClass (es : List Enclosing) (e : Enclosing) : Prop :=
  e.construct = .classDeclaration ∧ ∃ outer inner, es = outer ++ e :: inner ∧
    ∀ e' ∈ inner, e'.construct ≠ .classDeclaration

lemma lastClass_cons {first e : Enclosing} {es : List Enclosing} :
    LastClass (first :: es) e ↔ LastClass es e ∨
      (first = e ∧ e.construct = .classDeclaration ∧ ∀ e' ∈ es, e'.construct ≠ .classDeclaration) := by
  constructor
  · rintro ⟨hclass, outer, inner, heq, hinner⟩
    cases outer with
    | nil =>
      obtain ⟨rfl, rfl⟩ := List.cons.inj heq
      exact .inr ⟨rfl, hclass, hinner⟩
    | cons o outer =>
      obtain ⟨rfl, rfl⟩ := List.cons.inj heq
      exact .inl ⟨hclass, outer, inner, rfl, hinner⟩
  · rintro (⟨hclass, outer, inner, rfl, hinner⟩ | ⟨rfl, hclass, hes⟩)
    · exact ⟨hclass, first :: outer, inner, rfl, hinner⟩
    · exact ⟨hclass, [], es, rfl, hes⟩

lemma innermost_eq_some_iff {es : List Enclosing} {c : String} :
    innermost tokens className es = some c ↔ (∃ e, LastClass es e ∧ nameAmong tokens e.children = c) ∨
      ((∀ e ∈ es, e.construct ≠ .classDeclaration) ∧ className = some c) := by
  induction es generalizing className with
  | nil => simp [innermost, LastClass]
  | cons first es ih =>
    rw [innermost, List.foldl_cons]
    refine ih.trans ?_
    by_cases hfirst : first.construct = .classDeclaration
    · rw [if_pos hfirst]
      constructor
      · rintro (⟨e, hlast, hname⟩ | ⟨hes, hname⟩)
        · exact .inl ⟨e, lastClass_cons.mpr (.inl hlast), hname⟩
        · exact .inl ⟨first, lastClass_cons.mpr (.inr ⟨rfl, hfirst, hes⟩), Option.some.inj hname⟩
      · rintro (⟨e, hlast, rfl⟩ | ⟨hes, -⟩)
        · rcases lastClass_cons.mp hlast with hlast | ⟨rfl, -, hes⟩
          · exact .inl ⟨e, hlast, rfl⟩
          · exact .inr ⟨hes, rfl⟩
        · exact absurd hfirst (hes first List.mem_cons_self)
    · rw [if_neg hfirst]
      simp only [lastClass_cons, List.forall_mem_cons]
      constructor
      · rintro (⟨e, hlast, hname⟩ | ⟨hes, hname⟩)
        · exact .inl ⟨e, .inl hlast, hname⟩
        · exact .inr ⟨⟨hfirst, hes⟩, hname⟩
      · rintro (⟨e, hlast | ⟨rfl, hclass, -⟩, hname⟩ | ⟨⟨-, hes⟩, hname⟩)
        · exact .inl ⟨e, hlast, hname⟩
        · exact absurd hclass hfirst
        · exact .inr ⟨hes, hname⟩

end Tree

namespace Source

open CSharp.Tree

/-- The trees of a source as one tree. -/
def root (s : Source) : Tree :=
  .node .other s.trees

/-- A method with a name is at a position. No other method is around it, and every class around it has a
name and the position in its body. -/
structure ShowsMethod (s : Source) (p : List Nat) (children : List Tree) : Prop where
  at_eq : s.root.at? p = some (.node .methodDeclaration children)
  named : nameAmong s.tokens children ≠ ""
  notInMethod : ∀ e ∈ s.root.around p, e.construct ≠ .methodDeclaration
  classNamed : ∀ e ∈ s.root.around p, e.construct = .classDeclaration → nameAmong s.tokens e.children ≠ ""
  inBody : ∀ e ∈ s.root.around p, e.construct = .classDeclaration → e.InBody

/-- The nodes of any trees, in order, are just those of the named methods in classes, each with the names
of the method and of the nearest class around it. -/
theorem nodes_eq_methods_in_order (s : Source) (path : String) :
    ∃ found : List (List Nat × Node), (found.map Prod.fst).Pairwise (· < ·) ∧
      found.map Prod.snd = s.nodes path ∧
      ∀ p n, (p, n) ∈ found ↔ ∃ children e, s.ShowsMethod p children ∧ LastClass (s.root.around p) e ∧
        n = { id := Node.methodId (nameAmong s.tokens e.children) (nameAmong s.tokens children)
              category := Category.ofTypeName (nameAmong s.tokens e.children)
              path := path
              lineStart := (Tree.node .methodDeclaration children).firstLine s.tokens
              lineEnd := (Tree.node .methodDeclaration children).lastLine s.tokens
              tags := .empty
              deps := .empty
              amplitudes := .empty
              summary := nameAmong s.tokens children } := by
  obtain ⟨found, hlists, hmap⟩ := lists_methods s.tokens none s.root
  refine ⟨found.map fun e => (e.1, e.2.toNode path), ?_, ?_, fun p n => ?_⟩
  · rw [List.map_map]
    exact hlists.ordered
  · have hroot : s.root.methods s.tokens none = methodsOf s.tokens none s.trees := by rw [root, methods]
    rw [List.map_map, nodes, ← hroot, ← hmap, List.map_map]
    rfl
  · simp only [List.mem_map, Prod.exists, Prod.mk.injEq]
    constructor
    · rintro ⟨p, m, hmem, rfl, rfl⟩
      obtain ⟨children, c, hat, hname, hopens, hinner, hm⟩ := (hlists.mem_iff p m).mp hmem
      have hshows : s.ShowsMethod p children :=
        ⟨hat, hname, fun e he => (hopens e he).notMethod, fun e he => (hopens e he).named,
          fun e he => (hopens e he).inBody⟩
      rcases innermost_eq_some_iff.mp hinner with ⟨e, hlast, rfl⟩ | ⟨-, hnone⟩
      · rw [methodOf, if_neg hname, List.mem_singleton] at hm
        exact ⟨children, e, hshows, hlast, by rw [hm]; rfl⟩
      · exact nomatch hnone
    · rintro ⟨children, e, hshows, hlast, rfl⟩
      refine ⟨p, ⟨nameAmong s.tokens e.children, nameAmong s.tokens children, _, _⟩, ?_, rfl, rfl⟩
      have hopens (e : Enclosing) (he : e ∈ s.root.around p) : e.Opens s.tokens :=
        ⟨hshows.notInMethod e he, hshows.classNamed e he, hshows.inBody e he⟩
      have hinner : innermost s.tokens none (s.root.around p) = some (nameAmong s.tokens e.children) :=
        innermost_eq_some_iff.mpr (.inl ⟨e, hlast, rfl⟩)
      refine (hlists.mem_iff _ _).mpr ⟨children, _, hshows.at_eq, hshows.named, hopens, hinner, ?_⟩
      rw [methodOf, if_neg hshows.named]
      exact List.mem_singleton.mpr rfl

end Source

end CodeContext.CSharp
