import CodeContext.Proofs.FetchedMethods
import CodeContext.Proofs.NormalPaths

/-!
# Spellings of a path

Repeated slashes, a slash at the end and the name `.` change the text of a path but not its names. Two texts
from the root with the same names lead to the same directory, if either of them leads to one. A file is led
to by fewer texts: none with a slash at the end, but always the plainest one.
-/

namespace CodeContext

/-! ### Leaving out pieces that say nothing -/

namespace Path

/-- A list with some of its idle pieces left out. -/
inductive Sparse : List String → List String → Prop
  | nil : Sparse [] []
  | keep {ps qs : List String} (p : String) (h : Sparse ps qs) : Sparse (p :: ps) (p :: qs)
  | drop {ps qs : List String} {p : String} (idle : isIdle p = true) (h : Sparse ps qs) : Sparse (p :: ps) qs

lemma Sparse.append_left (rs : List String) {ps qs : List String} (h : Sparse ps qs) :
    Sparse (rs ++ ps) (rs ++ qs) := by
  induction rs with
  | nil => exact h
  | cons r rs ih => exact .keep r ih

lemma sparse_filter (ps : List String) : Sparse ps (ps.filter fun p => !isIdle p) := by
  induction ps with
  | nil => exact .nil
  | cons p ps ih =>
    cases hidle : isIdle p with
    | false =>
      rw [List.filter_cons_of_pos (by simp [hidle])]
      exact .keep p ih
    | true =>
      rw [List.filter_cons_of_neg (by simp [hidle])]
      exact .drop hidle ih

lemma sparse_names (path : String) : Sparse (pieces path) (names path) := by
  rw [names_eq_filter]
  exact sparse_filter _

end Path

namespace FileTree

variable {root : Entry} {links : Nat} {here ps qs out : List String} {entries : List (String × Entry)}

/-- A walk goes through what is left when idle pieces are left out. -/
theorem Walk.of_sparse (h : Walk root links here ps out) (hs : Path.Sparse ps qs) : Walk root links here qs out := by
  induction h generalizing qs with
  | done links here =>
    cases hs
    exact .done links here
  | stay dir idle next ih =>
    cases hs with
    | keep p hs => exact .stay dir idle (ih hs)
    | drop _ hs => exact ih hs
  | up dir next ih =>
    cases hs with
    | keep p hs => exact .up dir (ih hs)
    | drop idle hs => cases idle
  | follow dir idle parent short entry next ih =>
    cases hs with
    | keep p hs => exact .follow dir idle parent short entry (ih (hs.append_left _))
    | drop idle' hs =>
      rw [idle'] at idle
      cases idle
  | enter dir idle parent short entry solid next ih =>
    cases hs with
    | keep p hs => exact .enter dir idle parent short entry solid (ih hs)
    | drop idle' hs =>
      rw [idle'] at idle
      cases idle

/-- The pieces put in before one that is walked through can be gone through in place. -/
lemma Walk.of_sparse_cons {q : String} (h : Path.Sparse ps (q :: qs)) (dir : root.at? here = some (.directory entries))
    (hstep : ∀ rest, Path.Sparse rest qs → Walk root links here (q :: rest) out) : Walk root links here ps out := by
  generalize hqs : q :: qs = all at h
  induction h with
  | nil => cases hqs
  | keep p h ih =>
    cases hqs
    exact hstep _ h
  | drop idle h ih => exact .stay dir idle (ih hqs)

lemma Walk.of_sparse_nil (h : Path.Sparse ps []) (dir : root.at? here = some (.directory entries)) :
    Walk root links here ps here := by
  generalize hqs : [] = all at h
  induction h with
  | nil => exact .done links here
  | keep p h ih => cases hqs
  | drop idle h ih => exact .stay dir idle (ih hqs)

/-- A walk to a directory goes through idle pieces wherever they are put in. -/
theorem Walk.of_sparse_of_directory (h : Walk root links here qs out) (hs : Path.Sparse ps qs)
    (hout : root.at? out = some (.directory entries)) : Walk root links here ps out := by
  induction h generalizing ps with
  | done links here => exact .of_sparse_nil hs hout
  | stay dir idle next ih => exact .of_sparse_cons hs dir fun rest h => .stay dir idle (ih h hout)
  | up dir next ih => exact .of_sparse_cons hs dir fun rest h => .up dir (ih h hout)
  | follow dir idle parent short entry next ih =>
    exact .of_sparse_cons hs dir fun rest h =>
      .follow dir idle parent short entry (ih (h.append_left _) hout)
  | enter dir idle parent short entry solid next ih =>
    exact .of_sparse_cons hs dir fun rest h => .enter dir idle parent short entry solid (ih h hout)

/-- A walk through two lists of pieces goes through the first and then through the second. -/
theorem Walk.of_append (h : Walk root links here (ps ++ qs) out) :
    ∃ middle left, Walk root links here ps middle ∧ Walk root left middle qs out := by
  generalize hall : ps ++ qs = all at h
  induction h generalizing ps with
  | done links here =>
    obtain ⟨rfl, rfl⟩ := List.append_eq_nil_iff.mp hall
    exact ⟨here, links, .done links here, .done links here⟩
  | @stay links here rest out piece entries dir idle next ih =>
    cases ps with
    | nil =>
      obtain rfl : qs = piece :: rest := hall
      exact ⟨here, links, .done links here, .stay dir idle next⟩
    | cons p ps =>
      obtain ⟨rfl, rfl⟩ := List.cons.inj hall
      obtain ⟨middle, left, hfirst, hsecond⟩ := ih rfl
      exact ⟨middle, left, .stay dir idle hfirst, hsecond⟩
  | @up links here rest out entries dir next ih =>
    cases ps with
    | nil =>
      obtain rfl : qs = ".." :: rest := hall
      exact ⟨here, links, .done links here, .up dir next⟩
    | cons p ps =>
      obtain ⟨rfl, rfl⟩ := List.cons.inj hall
      obtain ⟨middle, left, hfirst, hsecond⟩ := ih rfl
      exact ⟨middle, left, .up dir hfirst, hsecond⟩
  | @follow links here rest out piece target entries dir idle parent short entry next ih =>
    cases ps with
    | nil =>
      obtain rfl : qs = piece :: rest := hall
      exact ⟨here, links + 1, .done (links + 1) here, .follow dir idle parent short entry next⟩
    | cons p ps =>
      obtain ⟨rfl, rfl⟩ := List.cons.inj hall
      obtain ⟨middle, left, hfirst, hsecond⟩ := ih (List.append_assoc (Path.pieces target) ps qs)
      exact ⟨middle, left, .follow dir idle parent short entry hfirst, hsecond⟩
  | @enter links here rest out piece entries e dir idle parent short entry solid next ih =>
    cases ps with
    | nil =>
      obtain rfl : qs = piece :: rest := hall
      exact ⟨here, links, .done links here, .enter dir idle parent short entry solid next⟩
    | cons p ps =>
      obtain ⟨rfl, rfl⟩ := List.cons.inj hall
      obtain ⟨middle, left, hfirst, hsecond⟩ := ih rfl
      exact ⟨middle, left, .enter dir idle parent short entry solid hfirst, hsecond⟩

end FileTree

/-! ### Names and components -/

namespace Path

lemma names_eq_of_components {a b : String} (h : components a = components b) : names a = names b := by
  rw [names, names, h]

lemma ofPiece_of_isIdle {p : String} (h : isIdle p = true) : ofPiece p = none := by
  unfold isIdle at h
  rw [ofPiece, if_pos (by simpa using h)]

lemma components_of_isAbsolute {path : String} (h : isAbsolute path = true) :
    components path = .root :: (names path).filterMap ofPiece := by
  rw [components, lead, if_pos h, List.singleton_append, names_eq_filter]
  congr 1
  induction pieces path with
  | nil => rfl
  | cons p ps ih =>
    cases hp : isIdle p with
    | true => rw [List.filterMap_cons, ofPiece_of_isIdle hp, List.filter_cons_of_neg (by simp [hp]), ih]
    | false => rw [List.filter_cons_of_pos (by simp [hp]), List.filterMap_cons, List.filterMap_cons, ih]

lemma names_of_shape {ns : List String} (h : AreNames ns) {before after : String} (hbefore : before = "" ∨ before = "/")
    (hafter : after = "" ∨ after = "/") : names (before ++ FileTree.textOf ns ++ after) = ns := by
  have hmiddle (end' : String) (hend : (pieces end').filter (fun p => !isIdle p) = []) :
      names (before ++ FileTree.textOf ns ++ "/" ++ end') = ns := by
    rw [names_eq_filter, pieces_append_slash, FileTree.textOf, ← String.append_assoc, pieces_append_slash,
      List.filter_append, List.filter_append, filter_pieces_intercalate h, hend, List.append_nil]
    rcases hbefore with rfl | rfl <;> rfl
  rcases hafter with rfl | rfl
  · rw [String.append_empty, names_eq_filter, FileTree.textOf, ← String.append_assoc, pieces_append_slash,
      List.filter_append, filter_pieces_intercalate h]
    rcases hbefore with rfl | rfl <;> rfl
  · have := hmiddle "" rfl
    rwa [String.append_empty] at this

lemma names_textOf {ns : List String} (h : AreNames ns) : names (FileTree.textOf ns) = ns := by
  simpa using names_of_shape h (.inl rfl : "" = "" ∨ "" = "/") (.inl rfl : "" = "" ∨ "" = "/")

lemma leadSlash_textOf {ns : List String} (h : AreNames ns) (hne : ns ≠ []) (rest : String) :
    leadSlash (FileTree.textOf ns ++ rest) = "" := by
  obtain ⟨n, ns, rfl⟩ := List.exists_cons_of_ne_nil hne
  obtain ⟨hn, hslash⟩ := h.ne_empty n List.mem_cons_self
  obtain ⟨c, cs, hcs⟩ : ∃ c cs, n.toList = c :: cs := List.exists_cons_of_ne_nil (by simpa using hn)
  have hc : c ≠ '/' := by
    rintro rfl
    exact hslash (hcs ▸ List.mem_cons_self)
  have htext : ∃ tail, (FileTree.textOf (n :: ns) ++ rest).toList = '/' :: c :: tail := by
    by_cases hns : ns = []
    · exact ⟨cs ++ rest.toList, by simp [FileTree.textOf, hns, hcs]⟩
    · exact ⟨cs ++ ('/' :: (String.intercalate "/" ns).toList) ++ rest.toList,
        by simp [FileTree.textOf, String.intercalate_cons_of_ne_nil hns, hcs]⟩
  obtain ⟨tail, htail⟩ := htext
  rw [leadSlash, htail]
  simp [hc]

lemma null_mem_iff (path : String) : '\x00' ∈ path.toList ↔ ∃ n ∈ names path, '\x00' ∈ n.toList := by
  rw [mem_toList_iff (by decide)]
  constructor
  · rintro ⟨p, hp, hnull⟩
    refine ⟨p, ?_, hnull⟩
    rw [names_eq_filter, List.mem_filter, Bool.not_eq_true', isIdle, Bool.or_eq_false_iff, beq_eq_false_iff_ne,
      beq_eq_false_iff_ne]
    refine ⟨hp, ?_, ?_⟩ <;> rintro rfl <;> exact absurd hnull (by decide)
  · rintro ⟨n, hn, hnull⟩
    rw [names_eq_filter] at hn
    exact ⟨n, List.mem_of_mem_filter hn, hnull⟩

end Path

namespace FileTree

variable {t : FileTree}

/-! ### Paths seen from the root -/

lemma IsPlaced.exists_root (ht : t.IsPlaced) : ∃ entries, t.root.at? [] = some (.directory entries) := by
  obtain ⟨entries, hdir⟩ := ht.isDirectory
  cases hroot : t.root with
  | directory entries => exact ⟨entries, rfl⟩
  | file | link =>
    rw [hroot] at hdir
    cases hwd : t.workingDirectory with
    | nil =>
      rw [hwd] at hdir
      cases hdir
    | cons n rest =>
      rw [hwd] at hdir
      cases hdir

/-- A text of names from the root, with at most one more slash at either end. -/
structure IsFull (path : String) (ns : List String) : Prop where
  areNames : Path.AreNames ns
  exists_slashes : ∃ before after, (before = "" ∨ before = "/") ∧ (after = "" ∨ after = "/") ∧
    path = before ++ textOf ns ++ after

lemma IsFull.names_eq {path : String} {ns : List String} (h : IsFull path ns) : Path.names path = ns := by
  obtain ⟨before, after, hbefore, hafter, rfl⟩ := h.exists_slashes
  exact Path.names_of_shape h.areNames hbefore hafter

lemma IsFull.isAbsolute {path : String} {ns : List String} (h : IsFull path ns) : Path.isAbsolute path = true := by
  obtain ⟨before, after, hbefore, hafter, rfl⟩ := h.exists_slashes
  rcases hbefore with rfl | rfl
  · rw [String.empty_append]
    exact Path.isAbsolute_append (isAbsolute_textOf ns) after
  · exact Path.isAbsolute_append (Path.isAbsolute_append rfl _) after

lemma IsFull.utf8ByteSize_le {path : String} {ns : List String} (h : IsFull path ns) :
    path.utf8ByteSize ≤ (textOf ns).utf8ByteSize + 2 := by
  have hslash {s : String} (hs : s = "" ∨ s = "/") : s.utf8ByteSize ≤ 1 := by
    rcases hs with rfl | rfl <;> decide
  obtain ⟨before, after, hbefore, hafter, rfl⟩ := h.exists_slashes
  have := hslash hbefore
  have := hslash hafter
  rw [String.utf8ByteSize_append, String.utf8ByteSize_append]
  omega

lemma foldl_join_textOf {wd ns : List String} (hwd : Path.AreNames wd) (hns : Path.AreNames ns) :
    ns.foldl Path.join (textOf wd) = textOf (wd ++ ns) := by
  by_cases hnil : wd = []
  · subst hnil
    have := @Path.foldl_join_slash "" ns hns.ne_empty
    simpa [textOf] using this
  · have hlast : (textOf wd).toList.getLast? ≠ some '/' := Path.getLast?_append_intercalate hnil hwd.ne_empty "/"
    rw [Path.foldl_join hns.ne_empty (by simp [textOf]) hlast]
    by_cases hns : ns = []
    · rw [hns, String.intercalate_singleton, List.append_nil]
    · rw [String.intercalate_cons_of_ne_nil hns, textOf, textOf, String.intercalate_append_of_ne_nil hnil hns]
      simp only [String.append_assoc]

lemma isFull_of_relative {wd : List String} (hwd : Path.AreNames wd) {path : String} (hne : path ≠ "")
    (hrelative : Path.isAbsolute path = false) : IsFull (Path.absolute (textOf wd) path) (wd ++ Path.names path) := by
  have hall : Path.AreNames (wd ++ Path.names path) :=
    List.forall_mem_append.mpr ⟨hwd, Path.areNames path⟩
  refine ⟨hall, ?_⟩
  simp only [Path.absolute, if_neg hne, hrelative, Bool.not_false, if_true, foldl_join_textOf hwd (Path.areNames path)]
  split
  · by_cases hnil : wd ++ Path.names path = []
    · exact ⟨"", "", .inl rfl, .inl rfl, by rw [hnil]; decide⟩
    · have hlast : (textOf (wd ++ Path.names path)).toList.getLast? ≠ some '/' :=
        Path.getLast?_append_intercalate hnil hall.ne_empty "/"
      refine ⟨"", "/", .inl rfl, .inr rfl, ?_⟩
      rw [Path.join_of_noSlash List.not_mem_nil (by simp [textOf]) hlast, String.append_empty, String.empty_append]
  · exact ⟨"", "", .inl rfl, .inl rfl, by simp⟩

lemma isFull_of_isAbsolute (wd : String) {path : String} (h : Path.isAbsolute path = true) :
    IsFull (Path.absolute wd path) (Path.names path) := by
  refine ⟨Path.areNames path, Path.leadSlash path,
    if Path.names path ≠ [] ∧ path.toList.getLast? = some '/' then "/" else "", ?_, ?_, ?_⟩
  · unfold Path.leadSlash
    split
    · exact .inr rfl
    · exact .inl rfl
  · split
    · exact .inr rfl
    · exact .inl rfl
  · rw [Path.absolute_of_isAbsolute wd h, textOf, ← String.append_assoc]

lemma isFull_of_path (ht : t.IsPlaced) {path : String} (hne : path ≠ "") :
    IsFull (Path.absolute t.workingPath path) (t.startOf path ++ Path.names path) := by
  unfold startOf
  cases habsolute : Path.isAbsolute path with
  | false => exact isFull_of_relative (Path.areNames_of_isName ht.isName) hne habsolute
  | true => exact isFull_of_isAbsolute _ habsolute

/-- A path seen from the root is a text of its names, with at most one more slash at either end. -/
theorem isFull_absolute (ht : t.IsPlaced) {path : String} (hne : path ≠ "") :
    IsFull (t.absolute path) (Path.names (t.absolute path)) := by
  suffices h : ∃ ns, IsFull (t.absolute path) ns by
    obtain ⟨ns, h⟩ := h
    rwa [h.names_eq]
  cases hresolve : t.resolve path with
  | ok out =>
    have hout := (isCanonical_of_resolve ht hresolve).isName
    refine ⟨out, Path.areNames_of_isName hout, "", "", .inl rfl, .inl rfl, ?_⟩
    rw [absolute_of_resolve hresolve, String.empty_append, String.append_empty]
  | error e =>
    rw [absolute_of_not_resolve fun out hout => nomatch hresolve.symm.trans hout]
    exact ⟨_, isFull_of_path ht hne⟩

/-! ### Where the texts lead -/

variable {a b path : String} {out : List String}

lemma walk_names (ha : t.resolve a = .ok out) (habsolute : Path.isAbsolute a = true) :
    Walk t.root linkLimit [] (Path.names a) out := by
  have hwalk := (resolve_eq_ok_iff.mp ha).2
  rw [startOf, if_pos habsolute] at hwalk
  exact hwalk.of_sparse (Path.sparse_names a)

/-- A directory is led to by every text from the root with the names of one that leads to it. -/
theorem resolve_of_names_eq (ha : t.resolve a = .ok out) {entries : List (String × Entry)}
    (hout : t.root.at? out = some (.directory entries)) (hnames : Path.names a = Path.names b)
    (habsolute : Path.isAbsolute a = true) (habsolute' : Path.isAbsolute b = true) (hshort : b.utf8ByteSize < 4096) :
    t.resolve b = .ok out := by
  have hwalk := (walk_names ha habsolute).of_sparse_of_directory (hnames ▸ Path.sparse_names b) hout
  refine resolve_eq_ok_iff.mpr ⟨⟨?_, ?_, hshort⟩, ?_⟩
  · rintro rfl
    cases habsolute'
  · rw [Path.null_mem_iff, ← hnames, ← Path.null_mem_iff]
    exact (resolve_eq_ok_iff.mp ha).1.2.1
  · rwa [startOf, if_pos habsolute']

/-- Whatever a text from the root leads to, the plain text of its names leads there as well. -/
theorem resolve_plain (ht : t.IsPlaced) (ha : t.resolve a = .ok out) (habsolute : Path.isAbsolute a = true)
    (hshort : (textOf (Path.names a)).utf8ByteSize < 4096) : t.resolve (textOf (Path.names a)) = .ok out := by
  have hwalk := walk_names ha habsolute
  obtain ⟨entries, hroot⟩ := ht.exists_root
  have hpieces : Path.pieces (textOf (Path.names a)) = "" :: Path.pieces (String.intercalate "/" (Path.names a)) :=
    Path.pieces_append_slash "" _
  refine resolve_eq_ok_iff.mpr ⟨⟨by simp [textOf], ?_, hshort⟩, ?_⟩
  · rw [Path.null_mem_iff, Path.names_textOf (Path.areNames a), ← Path.null_mem_iff]
    exact (resolve_eq_ok_iff.mp ha).1.2.1
  · rw [startOf, if_pos (isAbsolute_textOf _), hpieces]
    refine .stay hroot rfl ?_
    by_cases hnil : Path.names a = []
    · rw [hnil] at hwalk ⊢
      cases hwalk
      exact .stay hroot rfl (.done _ _)
    · rwa [Path.pieces_intercalate hnil fun n hn => (Path.areNames a n hn).2]

/-- Nothing is below a file, not even the file. -/
lemma not_resolve_below_file {content : ByteArray} (ha : t.resolve a = .ok out)
    (hfile : t.root.at? out = some (.file content)) {piece : String} (hslash : '/' ∉ piece.toList)
    (other : List String) : t.resolve (a ++ "/" ++ piece) ≠ .ok other := by
  intro h
  have hwalk := (resolve_eq_ok_iff.mp h).2
  have hstart : t.startOf (a ++ "/" ++ piece) = t.startOf a := by
    have hne := (resolve_eq_ok_iff.mp ha).1.1
    rw [startOf, startOf, String.append_assoc, Path.isAbsolute_append_of_ne hne]
  rw [hstart, Path.pieces_append_slash, Path.pieces_of_noSlash hslash] at hwalk
  obtain ⟨middle, left, hfirst, hsecond⟩ := hwalk.of_append
  obtain rfl : out = middle :=
    Except.ok.inj ((resolveFrom_of_walk (resolve_eq_ok_iff.mp ha).2).symm.trans (resolveFrom_of_walk hfirst))
  obtain ⟨entries, hdir⟩ : ∃ entries, t.root.at? out = some (.directory entries) := by
    cases hsecond <;> exact ⟨_, by assumption⟩
  rw [hfile] at hdir
  cases hdir

/-! ### From the root and back -/

lemma Walk.directory_of_getLast? {root : Entry} {links : Nat} {here ps out : List String} {p : String}
    (h : Walk root links here ps out) (hlast : ps.getLast? = some p) (hidle : Path.isIdle p = true) :
    ∃ entries, root.at? out = some (.directory entries) := by
  obtain ⟨init, rfl⟩ := List.getLast?_eq_some_iff.mp hlast
  obtain ⟨middle, left, -, hend⟩ := h.of_append
  cases hend with
  | stay dir idle next =>
    cases next
    exact ⟨_, dir⟩
  | up dir next => cases hidle
  | follow dir idle parent short entry next =>
    rw [hidle] at idle
    cases idle
  | enter dir idle parent short entry solid next =>
    rw [hidle] at idle
    cases idle

lemma Walk.of_canonical {root : Entry} {links : Nat} {here names rest out : List String}
    (h : Walk root links here (names ++ rest) out) (hc : IsCanonical root (here ++ names))
    (hn : ∀ n ∈ names, Path.IsName n) : Walk root links (here ++ names) rest out := by
  -- A canonical path has no links on its way, so each name is entered.
  induction names generalizing here with
  | nil => rwa [List.append_nil]
  | cons n names ih =>
    rw [List.append_cons] at hc ⊢
    refine ih ?_ hc fun m hm => hn m (List.mem_cons_of_mem _ hm)
    have hname := hn n List.mem_cons_self
    rw [List.append_assoc, List.singleton_append] at hc
    cases h with
    | stay dir idle next =>
      rw [isIdle_of_isName hname] at idle
      cases idle
    | up dir next => exact absurd rfl hname.ne_parent
    | follow dir idle parent short entry next => exact absurd entry (hc.lookup_ne_link dir)
    | enter dir idle parent short entry solid next => exact next

lemma getLast?_absolute {wd : String} (hwd : Path.isAbsolute wd = true) (hne : path ≠ "")
    (hlast : path.toList.getLast? = some '/') : (Path.absolute wd path).toList.getLast? = some '/' := by
  unfold Path.absolute
  rw [if_neg hne]
  simp only [hlast, beq_self_eq_true, if_true]
  generalize hs : (if !Path.isAbsolute path then wd else _) = start
  have hstart : Path.isAbsolute start = true := by
    rw [← hs]
    split
    · exact hwd
    · split <;> rfl
  have hfull := Path.isAbsolute_foldl_join hstart (Path.names path)
  generalize (Path.names path).foldl Path.join start = full at hfull
  have hsome : full ≠ "" := by
    rintro rfl
    cases hfull
  unfold Path.join
  rw [if_neg (by decide)]
  split
  · rename_i hend
    rw [String.append_empty]
    simpa [hsome] using hend
  · rw [String.append_empty, String.toList_append]
    exact List.getLast?_concat

/-- What a path leads to as seen from the root, its own names lead to from where it starts. -/
lemma walk_names_of_absolute (ht : t.IsPlaced) (hne : path ≠ "")
    (h : t.resolve (Path.absolute t.workingPath path) = .ok out) :
    Walk t.root linkLimit (t.startOf path) (Path.names path) out := by
  have hfull := isFull_of_path ht hne
  have hwalk := walk_names h hfull.isAbsolute
  have hstart := ht.isCanonical_startOf path
  rw [hfull.names_eq] at hwalk
  exact hwalk.of_canonical hstart hstart.isName

/-- A path that leads nowhere until it is seen from the root ends in a point, and leads to a file from there. -/
theorem point_of_resolve_absolute (ht : t.IsPlaced) (hshort : path.utf8ByteSize < 4096)
    (hnowhere : ∀ out, t.resolve path ≠ .ok out) (h : t.resolve (Path.absolute t.workingPath path) = .ok out) :
    (Path.pieces path).getLast? = some "." ∧ ¬ ∃ entries, t.root.at? out = some (.directory entries) := by
  have hne : path ≠ "" := by
    rintro rfl
    exact (resolve_eq_ok_iff.mp h).1.1 rfl
  have hnull : '\x00' ∉ path.toList := by
    intro hnull
    obtain ⟨n, hn, hnull⟩ := (Path.null_mem_iff path).mp hnull
    refine (resolve_eq_ok_iff.mp h).1.2.1 ((Path.null_mem_iff _).mpr ⟨n, ?_, hnull⟩)
    rw [(isFull_of_path ht hne).names_eq]
    exact List.mem_append_right _ hn
  have hstuck : ¬ Walk t.root linkLimit (t.startOf path) (Path.pieces path) out := fun hwalk =>
    hnowhere out (resolve_eq_ok_iff.mpr ⟨⟨hne, hnull, hshort⟩, hwalk⟩)
  have hwalk := walk_names_of_absolute ht hne h
  have hfile : ¬ ∃ entries, t.root.at? out = some (.directory entries) := by
    rintro ⟨entries, hdir⟩
    exact hstuck (hwalk.of_sparse_of_directory (Path.sparse_names path) hdir)
  refine ⟨?_, hfile⟩
  by_contra hpoint
  have hthin := Path.thinned_filter (Path.pieces_ne_nil path) hpoint
  split at hthin
  · -- A slash at the end stays there, and only a directory can be before it.
    rename_i hempty
    have hslash := (Path.getLast?_pieces_eq_empty hne).mp hempty
    have hend := getLast?_absolute (isAbsolute_workingPath t) hne hslash
    have hlast := (Path.getLast?_pieces_eq_empty (resolve_eq_ok_iff.mp h).1.1).mpr hend
    exact hfile ((resolve_eq_ok_iff.mp h).2.directory_of_getLast? hlast rfl)
  · rw [List.append_nil, ← Path.names_eq_filter] at hthin
    exact hstuck (hwalk.of_thinned hthin)

end FileTree

end CodeContext
