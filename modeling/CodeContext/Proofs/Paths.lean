import CodeContext.Files.Path
import Mathlib.Tactic.Lemma

/-!
# Pieces and names of paths

A path is taken apart at its slashes, and joining slash-free texts by slashes gives them back as the
pieces. This file says which pieces a path seen from the root has: the names of the path, after one or
two empty pieces for the slashes at the beginning, and before an empty piece for a slash at the end.
-/

namespace CodeContext.Path

/-- A text that can name an entry of a directory. -/
structure IsName (n : String) : Prop where
  ne_empty : n ≠ ""
  ne_current : n ≠ "."
  ne_parent : n ≠ ".."
  noSlash : '/' ∉ n.toList

instance (n : String) : Decidable (IsName n) :=
  decidable_of_iff (n ≠ "" ∧ n ≠ "." ∧ n ≠ ".." ∧ '/' ∉ n.toList)
    ⟨fun h => ⟨h.1, h.2.1, h.2.2.1, h.2.2.2⟩, fun h => ⟨h.ne_empty, h.ne_current, h.ne_parent, h.noSlash⟩⟩

/-- A piece that says nothing about where a path leads. -/
def isIdle (piece : String) : Bool :=
  piece == "" || piece == "."

/-! ### Pieces -/

lemma piecesFrom_ne_nil (acc cs : List Char) : piecesFrom acc cs ≠ [] := by
  induction cs generalizing acc with
  | nil => simp [piecesFrom]
  | cons c cs ih =>
    rw [piecesFrom]
    split
    · simp
    · exact ih _

lemma piecesFrom_append_slash (acc a b : List Char) :
    piecesFrom acc (a ++ '/' :: b) = piecesFrom acc a ++ piecesFrom [] b := by
  induction a generalizing acc with
  | nil => simp [piecesFrom]
  | cons c a ih =>
    by_cases hc : c = '/'
    · simp [piecesFrom, hc, ih]
    · simp [piecesFrom, hc, ih]

lemma piecesFrom_of_noSlash {cs : List Char} (h : '/' ∉ cs) (acc : List Char) :
    piecesFrom acc cs = [String.ofList (acc.reverse ++ cs)] := by
  induction cs generalizing acc with
  | nil => simp [piecesFrom]
  | cons c cs ih =>
    have hc : c ≠ '/' := fun hc => h (by simp [hc])
    have hcs : '/' ∉ cs := fun hcs => h (List.mem_cons_of_mem _ hcs)
    rw [piecesFrom, if_neg hc, ih hcs]
    simp

lemma noSlash_of_mem_piecesFrom {acc cs : List Char} (hacc : '/' ∉ acc) {p : String}
    (hp : p ∈ piecesFrom acc cs) : '/' ∉ p.toList := by
  induction cs generalizing acc with
  | nil =>
    rw [piecesFrom, List.mem_singleton] at hp
    simpa [hp] using hacc
  | cons c cs ih =>
    rw [piecesFrom] at hp
    split at hp
    · rcases List.mem_cons.1 hp with rfl | hp
      · simpa using hacc
      · exact ih List.not_mem_nil hp
    · rename_i hc
      refine ih ?_ hp
      intro hmem
      rcases List.mem_cons.1 hmem with h | h
      · exact hc h.symm
      · exact hacc h

lemma mem_iff_mem_piecesFrom {x : Char} (hx : x ≠ '/') (acc cs : List Char) :
    (x ∈ acc ∨ x ∈ cs) ↔ ∃ p ∈ piecesFrom acc cs, x ∈ p.toList := by
  induction cs generalizing acc with
  | nil => simp [piecesFrom]
  | cons c cs ih =>
    rw [piecesFrom]
    split
    · rename_i hc
      have h := ih []
      simp only [List.not_mem_nil, false_or] at h
      simp [hc, hx, ← h]
    · rw [← ih (c :: acc)]
      simp [or_assoc, or_left_comm]

lemma getLast?_piecesFrom_eq_empty (acc cs : List Char) :
    (piecesFrom acc cs).getLast? = some "" ↔ (acc = [] ∧ cs = []) ∨ cs.getLast? = some '/' := by
  induction cs generalizing acc with
  | nil => simp [piecesFrom]
  | cons c cs ih =>
    rw [piecesFrom]
    split
    · rename_i hc
      rw [List.getLast?_cons_of_ne_nil (piecesFrom_ne_nil [] cs), ih]
      cases cs <;> simp [hc]
    · rename_i hc
      rw [ih]
      cases cs <;> simp [hc]

lemma pieces_ne_nil (path : String) : pieces path ≠ [] :=
  piecesFrom_ne_nil [] path.toList

lemma pieces_append_slash (a b : String) : pieces (a ++ "/" ++ b) = pieces a ++ pieces b := by
  have h : (a ++ "/" ++ b).toList = a.toList ++ '/' :: b.toList := by simp
  unfold pieces
  rw [h, piecesFrom_append_slash]

lemma pieces_of_noSlash {n : String} (h : '/' ∉ n.toList) : pieces n = [n] := by
  unfold pieces
  rw [piecesFrom_of_noSlash h]
  simp

lemma noSlash_of_mem_pieces {path p : String} (hp : p ∈ pieces path) : '/' ∉ p.toList :=
  noSlash_of_mem_piecesFrom List.not_mem_nil hp

lemma mem_toList_iff {x : Char} (hx : x ≠ '/') (path : String) :
    x ∈ path.toList ↔ ∃ p ∈ pieces path, x ∈ p.toList := by
  have h := mem_iff_mem_piecesFrom hx [] path.toList
  rwa [or_iff_right List.not_mem_nil] at h

lemma getLast?_pieces_eq_empty {path : String} (h : path ≠ "") :
    (pieces path).getLast? = some "" ↔ path.toList.getLast? = some '/' := by
  unfold pieces
  rw [getLast?_piecesFrom_eq_empty]
  have hne : path.toList ≠ [] := by simpa using h
  simp [hne]

lemma exists_eq_append_slash {path : String} (h : path.toList.getLast? = some '/') : ∃ start, path = start ++ "/" := by
  obtain ⟨start, hstart⟩ := List.getLast?_eq_some_iff.mp h
  refine ⟨String.ofList start, ?_⟩
  rw [← String.toList_inj, hstart]
  simp

lemma pieces_intercalate {names : List String} (hne : names ≠ []) (h : ∀ n ∈ names, '/' ∉ n.toList) :
    pieces (String.intercalate "/" names) = names := by
  induction names with
  | nil => exact absurd rfl hne
  | cons n rest ih =>
    have hn : pieces n = [n] := pieces_of_noSlash (h n List.mem_cons_self)
    by_cases hr : rest = []
    · rw [hr, String.intercalate_singleton, hn]
    · rw [String.intercalate_cons_of_ne_nil hr, pieces_append_slash, hn,
        ih hr fun m hm => h m (List.mem_cons_of_mem _ hm)]
      rfl

/-! ### Names -/

lemma normal_ofPiece (p : String) :
    (ofPiece p).bind Component.normal = if isIdle p then none else some p := by
  unfold ofPiece isIdle
  by_cases h1 : p = ""
  · simp [h1]
  · by_cases h2 : p = "."
    · simp [h2]
    · by_cases h3 : p = ".."
      · simp [h3, Component.normal]
      · simp [h1, h2, h3, Component.normal]

lemma normal_lead (path : String) : (lead path).filterMap Component.normal = [] := by
  unfold lead
  split
  · rfl
  · split <;> rfl

lemma names_eq_filter (path : String) : names path = (pieces path).filter fun p => !isIdle p := by
  have hf : (fun p => (ofPiece p).bind Component.normal) =
      fun p => if !isIdle p then some p else none := by
    funext p
    rw [normal_ofPiece]
    cases isIdle p <;> rfl
  unfold names components
  rw [List.filterMap_append, normal_lead, List.nil_append, List.filterMap_filterMap, hf,
    ← List.filterMap_eq_filter]
  rfl

lemma ofPiece_of_isName {n : String} (h : IsName n) : ofPiece n = some (.name n) := by
  unfold ofPiece
  simp [h.ne_empty, h.ne_current, h.ne_parent]

lemma filterMap_ofPiece {names : List String} (h : ∀ n ∈ names, IsName n) :
    names.filterMap ofPiece = names.map .name := by
  induction names with
  | nil => rfl
  | cons n rest ih =>
    rw [List.filterMap_cons, ofPiece_of_isName (h n List.mem_cons_self)]
    rw [ih fun m hm => h m (List.mem_cons_of_mem _ hm), List.map_cons]

lemma components_of_isName {names : List String} (h : ∀ n ∈ names, IsName n) :
    components ("/" ++ String.intercalate "/" names) = .root :: names.map .name := by
  have hlead : lead ("/" ++ String.intercalate "/" names) = [.root] := by
    simp [lead, isAbsolute]
  have hpieces : pieces ("/" ++ String.intercalate "/" names) =
      "" :: pieces (String.intercalate "/" names) := pieces_append_slash "" _
  unfold components
  rw [hlead, hpieces, List.filterMap_cons]
  by_cases hne : names = []
  · rw [hne]
    rfl
  · rw [pieces_intercalate hne fun n hn => (h n hn).noSlash, filterMap_ofPiece h]
    rfl

/-! ### Idle pieces -/

/-- A list with some of its idle pieces left out, none of them the last. -/
inductive Thinned : List String → List String → Prop
  | nil : Thinned [] []
  | keep {ps qs : List String} (p : String) (h : Thinned ps qs) : Thinned (p :: ps) (p :: qs)
  | drop {ps qs : List String} {p : String} (idle : isIdle p = true) (hne : qs ≠ [])
      (h : Thinned ps qs) : Thinned (p :: ps) qs

lemma Thinned.refl (ps : List String) : Thinned ps ps := by
  induction ps with
  | nil => exact .nil
  | cons p ps ih => exact .keep p ih

lemma Thinned.append_left (rs : List String) {ps qs : List String} (h : Thinned ps qs) :
    Thinned (rs ++ ps) (rs ++ qs) := by
  induction rs with
  | nil => exact h
  | cons r rs ih => exact .keep r ih

lemma Thinned.eq_nil {ps : List String} (h : Thinned ps []) : ps = [] := by
  cases h with
  | nil => rfl
  | drop idle hne h => exact absurd rfl hne

/-- All idle pieces may be left out but an empty one at the end. -/
lemma thinned_filter {ps : List String} (hne : ps ≠ []) (hlast : ps.getLast? ≠ some ".") :
    Thinned ps ((ps.filter fun p => !isIdle p) ++ if ps.getLast? = some "" then [""] else []) := by
  induction ps with
  | nil => exact absurd rfl hne
  | cons p ps ih =>
    by_cases hps : ps = []
    · subst hps
      by_cases hp : p = ""
      · subst hp
        exact .refl [""]
      · have hidle : isIdle p = false := by
          have : p ≠ "." := by simpa using hlast
          simp [isIdle, hp, this]
        simpa [hidle, hp] using Thinned.refl [p]
    · rw [List.getLast?_cons_of_ne_nil hps] at hlast ⊢
      have h := ih hps hlast
      cases hidle : isIdle p with
      | false =>
        rw [List.filter_cons_of_pos (by simp [hidle])]
        exact .keep p h
      | true =>
        rw [List.filter_cons_of_neg (by simp [hidle])]
        refine .drop hidle ?_ h
        intro hnil
        rw [hnil] at h
        exact hps h.eq_nil

/-! ### Paths seen from the root -/

lemma isAbsolute_of_noSlash {n : String} (hn : '/' ∉ n.toList) : isAbsolute n = false := by
  unfold isAbsolute
  cases hc : n.toList with
  | nil => rfl
  | cons c cs =>
    rw [hc] at hn
    have : c ≠ '/' := fun h => hn (by simp [h])
    simpa using this

lemma isAbsolute_append {base : String} (h : isAbsolute base = true) (rest : String) :
    isAbsolute (base ++ rest) = true := by
  unfold isAbsolute at h ⊢
  rw [String.toList_append]
  cases hb : base.toList with
  | nil => simp [hb] at h
  | cons c cs => simpa [hb] using h

lemma isAbsolute_join {base : String} (h : isAbsolute base = true) (path : String) :
    isAbsolute (join base path) = true := by
  unfold join
  split
  · assumption
  · split
    · exact isAbsolute_append h path
    · rw [String.append_assoc]
      exact isAbsolute_append h _

lemma isAbsolute_foldl_join {base : String} (h : isAbsolute base = true) (names : List String) :
    isAbsolute (names.foldl join base) = true := by
  induction names generalizing base with
  | nil => exact h
  | cons n rest ih => exact ih (isAbsolute_join h n)

lemma isAbsolute_absolute {wd path : String} (hwd : isAbsolute wd = true) (h : path ≠ "") :
    isAbsolute (absolute wd path) = true := by
  unfold absolute
  rw [if_neg h]
  dsimp only
  generalize hs : (if !isAbsolute path then wd else _) = start
  have hstart : isAbsolute start = true := by
    rw [← hs]
    split
    · exact hwd
    · split <;> rfl
  have hfull := isAbsolute_foldl_join hstart (names path)
  split
  · exact isAbsolute_join hfull ""
  · exact hfull

lemma join_of_noSlash {base n : String} (hn : '/' ∉ n.toList) (hne : base ≠ "")
    (hlast : base.toList.getLast? ≠ some '/') : join base n = base ++ "/" ++ n := by
  unfold join
  simp [isAbsolute_of_noSlash hn, hne, hlast]

lemma join_slash {base n : String} (hn : '/' ∉ n.toList) : join (base ++ "/") n = base ++ "/" ++ n := by
  unfold join
  simp [isAbsolute_of_noSlash hn]

lemma getLast?_append_name {n : String} (base : String) (hn : n ≠ "" ∧ '/' ∉ n.toList) :
    (base ++ n).toList.getLast? ≠ some '/' := by
  obtain ⟨c, hc⟩ : ∃ c, n.toList.getLast? = some c := by
    rw [← Option.ne_none_iff_exists']
    simpa using hn.1
  rw [String.toList_append, List.getLast?_append, hc, Option.some_or]
  intro h
  rw [h] at hc
  exact hn.2 (List.mem_of_getLast? hc)

lemma foldl_join {base : String} {names : List String} (hn : ∀ n ∈ names, n ≠ "" ∧ '/' ∉ n.toList)
    (hne : base ≠ "") (hlast : base.toList.getLast? ≠ some '/') :
    names.foldl join base = String.intercalate "/" (base :: names) := by
  induction names generalizing base with
  | nil => rw [List.foldl_nil, String.intercalate_singleton]
  | cons n rest ih =>
    have h := hn n List.mem_cons_self
    rw [List.foldl_cons, join_of_noSlash h.2 hne hlast,
      ih (fun m hm => hn m (List.mem_cons_of_mem _ hm)) (by simp [h.1]) (getLast?_append_name _ h),
      String.intercalate_cons_append, String.intercalate_cons_cons]

lemma getLast?_append_intercalate {names : List String} (hne : names ≠ [])
    (hn : ∀ n ∈ names, n ≠ "" ∧ '/' ∉ n.toList) (base : String) :
    (base ++ String.intercalate "/" names).toList.getLast? ≠ some '/' := by
  induction names generalizing base with
  | nil => exact absurd rfl hne
  | cons n rest ih =>
    by_cases hr : rest = []
    · rw [hr, String.intercalate_singleton]
      exact getLast?_append_name base (hn n List.mem_cons_self)
    · rw [String.intercalate_cons_of_ne_nil hr, ← String.append_assoc]
      exact ih hr (fun m hm => hn m (List.mem_cons_of_mem _ hm)) _

lemma foldl_join_slash {base : String} {names : List String}
    (hn : ∀ n ∈ names, n ≠ "" ∧ '/' ∉ n.toList) :
    names.foldl join (base ++ "/") = base ++ "/" ++ String.intercalate "/" names := by
  cases names with
  | nil => simp
  | cons n rest =>
    have h := hn n List.mem_cons_self
    rw [List.foldl_cons, join_slash h.2,
      foldl_join (fun m hm => hn m (List.mem_cons_of_mem _ hm)) (by simp [h.1])
        (getLast?_append_name _ h), String.intercalate_cons_append]

lemma of_mem_names {path n : String} (h : n ∈ names path) : n ≠ "" ∧ '/' ∉ n.toList := by
  rw [names_eq_filter] at h
  obtain ⟨hmem, hidle⟩ := List.mem_filter.1 h
  refine ⟨?_, noSlash_of_mem_pieces hmem⟩
  rintro rfl
  simp [isIdle] at hidle

/-- The slashes at the beginning of an absolute path that are kept when it is seen from the root, but
for the last of them. -/
def leadSlash (path : String) : String :=
  if path.toList.take 2 == ['/', '/'] && path.toList.take 3 != ['/', '/', '/'] then "/" else ""

lemma start_of_isAbsolute (wd : String) {path : String} (h : isAbsolute path = true) :
    (if !isAbsolute path then wd
      else if path.toList.take 2 == ['/', '/'] && path.toList.take 3 != ['/', '/', '/'] then "//"
      else "/") = leadSlash path ++ "/" := by
  unfold leadSlash
  rw [h]
  cases path.toList.take 2 == ['/', '/'] && path.toList.take 3 != ['/', '/', '/'] <;> rfl

/-- An absolute path seen from the root: its names, after one or two slashes, and a slash at the end
if it has one there. -/
lemma absolute_of_isAbsolute (wd : String) {path : String} (h : isAbsolute path = true) :
    absolute wd path = leadSlash path ++ "/" ++ String.intercalate "/" (names path) ++
      if names path ≠ [] ∧ path.toList.getLast? = some '/' then "/" else "" := by
  have hne : path ≠ "" := by
    rintro rfl
    cases h
  unfold absolute
  rw [if_neg hne]
  simp only [start_of_isAbsolute wd h]
  rw [foldl_join_slash fun n hn => of_mem_names hn]
  by_cases hlast : path.toList.getLast? = some '/'
  · rw [if_pos (by simp [hlast])]
    by_cases hnames : names path = []
    · simp [hnames, join_slash]
    · rw [if_pos ⟨hnames, hlast⟩, join_of_noSlash List.not_mem_nil (by simp)
        (getLast?_append_intercalate hnames (fun n hn => of_mem_names hn) _), String.append_empty]
  · rw [if_neg (by simp [hlast]), if_neg (by simp [hlast]), String.append_empty]

end CodeContext.Path
