import CodeContext.Proofs.ScannedFiles

/-!
# Normal paths

The names of a path are its pieces without those that say nothing. Joined by single slashes they make a
normal path, which is its own normal form and the only one with these names. What is joined to a path
leaves its components as they are and adds those of its own names, so the path from there is the normal form
of what was joined.
-/

namespace CodeContext.Path

/-! ### Names -/

lemma not_isIdle_of_mem_names {path n : String} (h : n ∈ names path) : isIdle n = false := by
  rw [names_eq_filter] at h
  simpa using (List.mem_filter.mp h).2

/-- Names that a path can have. -/
def AreNames (ns : List String) : Prop :=
  ∀ n ∈ ns, isIdle n = false ∧ '/' ∉ n.toList

lemma areNames (path : String) : AreNames (names path) := fun _ hn =>
  ⟨not_isIdle_of_mem_names hn, (of_mem_names hn).2⟩

lemma areNames_of_isName {ns : List String} (h : ∀ n ∈ ns, IsName n) : AreNames ns := fun n hn =>
  ⟨FileTree.isIdle_of_isName (h n hn), (h n hn).noSlash⟩

lemma AreNames.ne_empty {ns : List String} (h : AreNames ns) : ∀ n ∈ ns, n ≠ "" ∧ '/' ∉ n.toList := by
  intro n hn
  refine ⟨?_, (h n hn).2⟩
  rintro rfl
  cases (h "" hn).1

lemma filter_of_areNames {ns : List String} (h : AreNames ns) : (ns.filter fun p => !isIdle p) = ns :=
  List.filter_eq_self.mpr fun n hn => by rw [(h n hn).1, Bool.not_false]

lemma filter_pieces_intercalate {ns : List String} (h : AreNames ns) :
    (pieces (String.intercalate "/" ns)).filter (fun p => !isIdle p) = ns := by
  by_cases hnil : ns = []
  · rw [hnil]
    rfl
  · rw [pieces_intercalate hnil fun n hn => (h n hn).2, filter_of_areNames h]

lemma names_intercalate {ns : List String} (h : AreNames ns) : names (String.intercalate "/" ns) = ns := by
  rw [names_eq_filter, filter_pieces_intercalate h]

/-! ### Normal forms -/

/-- A path that leaves nothing out: `.` alone, or names with single slashes between them. -/
def IsNormal (path : String) : Prop :=
  path = "." ∨ ∃ ns, ns ≠ [] ∧ AreNames ns ∧ path = String.intercalate "/" ns

lemma normalize_of_names_eq_nil {path : String} (h : names path = []) : normalize path = "." := by
  have hnames : (components path).filterMap Component.normal = [] := h
  simp [normalize, joinNormal, hnames]

lemma normalize_of_names_ne_nil {path : String} (h : names path ≠ []) :
    normalize path = String.intercalate "/" (names path) := by
  have hnames : (components path).filterMap Component.normal ≠ [] := h
  simp [normalize, joinNormal, hnames, names]

lemma isNormal_normalize (path : String) : IsNormal (normalize path) := by
  by_cases h : names path = []
  · exact .inl (normalize_of_names_eq_nil h)
  · exact .inr ⟨names path, h, areNames path, normalize_of_names_ne_nil h⟩

lemma names_normalize (path : String) : names (normalize path) = names path := by
  by_cases h : names path = []
  · rw [normalize_of_names_eq_nil h, h]
    rfl
  · rw [normalize_of_names_ne_nil h, names_intercalate (areNames path)]

/-- Paths with the same names have one normal form. -/
theorem normalize_eq_iff {a b : String} : normalize a = normalize b ↔ names a = names b := by
  constructor
  · intro h
    rw [← names_normalize a, h, names_normalize]
  · intro h
    by_cases hb : names b = []
    · rw [normalize_of_names_eq_nil hb, normalize_of_names_eq_nil (h.trans hb)]
    · rw [normalize_of_names_ne_nil hb, normalize_of_names_ne_nil (h ▸ hb), h]

/-- The normal paths are those that are their own normal form. -/
theorem normalize_eq_self_iff {path : String} : normalize path = path ↔ IsNormal path := by
  constructor
  · intro h
    rw [← h]
    exact isNormal_normalize path
  · rintro (rfl | ⟨ns, hne, h, rfl⟩)
    · rfl
    · have hnames := names_intercalate h
      rw [normalize_of_names_ne_nil (hnames.symm ▸ hne), hnames]

lemma normalize_intercalate {ns : List String} (hne : ns ≠ []) (h : AreNames ns) :
    normalize (String.intercalate "/" ns) = String.intercalate "/" ns :=
  normalize_eq_self_iff.mpr (.inr ⟨ns, hne, h, rfl⟩)

/-! ### Joined paths -/

lemma components_join {base path : String} (hbase : base ≠ "") (hpath : isAbsolute path = false) :
    components (join base path) = components base ++ (pieces path).filterMap ofPiece := by
  obtain ⟨ps, hne, hps, hjoin⟩ := pieces_join hbase hpath
  -- The first piece stays the first, so both paths start with the same component.
  have hhead : (pieces (join base path)).head? = (pieces base).head? := by
    rw [hjoin, List.head?_append_of_ne_nil _ hne]
    rcases hps with hps | hps
    · rw [hps]
    · rw [hps, List.head?_append_of_ne_nil _ hne]
  have hlead : lead (join base path) = lead base := by
    rw [lead, lead, isAbsolute_join_of_relative hbase hpath, hhead]
  have hpieces : (pieces base).filterMap ofPiece = ps.filterMap ofPiece := by
    rcases hps with hps | hps
    · rw [hps]
    · rw [hps, List.filterMap_append]
      exact List.append_nil _
  rw [components, components, hlead, hpieces, hjoin, List.filterMap_append, List.append_assoc]

lemma after?_append (bs cs : List Component) : after? bs (bs ++ cs) = some cs := by
  induction bs with
  | nil => rfl
  | cons b bs ih => rw [List.cons_append, after?, if_pos rfl, ih]

/-- A component that a path starts with does not show in a normal path. -/
lemma joinNormal_pieces (path : String) : joinNormal ((pieces path).filterMap ofPiece) = normalize path := by
  rw [normalize, joinNormal, joinNormal, components, List.filterMap_append, normal_lead, List.nil_append]

/-- What is joined to a path is found again, in its normal form, as the path from there. -/
theorem relative?_join_eq {path : String} (base : String) (hpath : isAbsolute path = false) :
    relative? base (join base path) = some (normalize path) := by
  by_cases hbase : base = ""
  · have hjoin : join base path = path := by simp [join, hpath, hbase]
    rw [hjoin, hbase]
    rfl
  · rw [relative?, components_join hbase hpath, after?_append, Option.map_some, joinNormal_pieces]

/-- A path has one normal form: no idle piece is in it, all other pieces are, and it is the path from wherever
the path was joined to. -/
theorem normalize_idempotent_and_relative (base path : String) :
    normalize (normalize path) = normalize path ∧ IsNormal (normalize path) ∧
      ((pieces (normalize path)).filter fun p => !isIdle p) = ((pieces path).filter fun p => !isIdle p) ∧
      (isAbsolute path = false → relative? base (join base path) = some (normalize path)) := by
  refine ⟨normalize_eq_iff.mpr (names_normalize path), isNormal_normalize path, ?_, relative?_join_eq base⟩
  rw [← names_eq_filter, ← names_eq_filter, names_normalize]

theorem relative_to_untidy_base :
    isAbsolute ".//b/../c/./" = false ∧ join "./a//./" ".//b/../c/./" = "./a//././/b/../c/./" ∧
      normalize ".//b/../c/./" = "b/../c" ∧ relative? "./a//./" "./a//././/b/../c/./" = some "b/../c" := by
  have hrelative : isAbsolute ".//b/../c/./" = false := by decide
  have hjoin : join "./a//./" ".//b/../c/./" = "./a//././/b/../c/./" := by decide
  have hnormal : normalize ".//b/../c/./" = "b/../c" := by decide
  have h := (normalize_idempotent_and_relative "./a//./" ".//b/../c/./").2.2.2 hrelative
  rw [hjoin, hnormal] at h
  exact ⟨hrelative, hjoin, hnormal, h⟩

end CodeContext.Path
