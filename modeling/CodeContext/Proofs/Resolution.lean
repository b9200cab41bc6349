import CodeContext.Files.Tree
import CodeContext.Proofs.Cuts
import CodeContext.Proofs.Paths

/-!
# Where paths lead

A walk goes through the pieces of a path, one step for each: it stays, goes up, enters an entry, or
follows a link. Resolution finds the walk there is. Where a walk ends, no name is a link, so a
canonical path leads to itself, and pieces that say nothing may be left out before another piece.
-/

namespace CodeContext

namespace Entry

lemma at?_append (e : Entry) (a b : List String) : e.at? (a ++ b) = (e.at? a).bind (·.at? b) := by
  induction a generalizing e with
  | nil => rfl
  | cons n a ih =>
    rw [List.cons_append, at?, at?]
    cases e.child? n with
    | none => rfl
    | some e => exact ih e

lemma at?_concat {e : Entry} {here : List String} {entries : List (String × Entry)}
    (h : e.at? here = some (.directory entries)) (n : String) :
    e.at? (here ++ [n]) = entries.lookup n := by
  rw [at?_append, h, Option.bind_some, at?, child?]
  cases entries.lookup n <;> rfl

lemma at?_dropLast {e f : Entry} {here : List String} (h : e.at? here = some f) (hne : here ≠ []) :
    ∃ entries, e.at? here.dropLast = some (.directory entries) := by
  rw [← List.dropLast_concat_getLast hne, at?_append] at h
  obtain ⟨d, hd, hf⟩ := Option.bind_eq_some_iff.1 h
  cases d with
  | directory entries => exact ⟨entries, hd⟩
  | file content => exact absurd hf (by simp [at?, child?])
  | link target => exact absurd hf (by simp [at?, child?])

end Entry

namespace FileTree

/-- The walk through some pieces from a place, with so many links to follow at most. -/
inductive Walk (root : Entry) : Nat → List String → List String → List String → Prop
  | done (links : Nat) (here : List String) : Walk root links here [] here
  | stay {links : Nat} {here rest out : List String} {piece : String} {entries : List (String × Entry)}
      (dir : root.at? here = some (.directory entries)) (idle : Path.isIdle piece = true)
      (next : Walk root links here rest out) : Walk root links here (piece :: rest) out
  | up {links : Nat} {here rest out : List String} {entries : List (String × Entry)}
      (dir : root.at? here = some (.directory entries))
      (next : Walk root links here.dropLast rest out) : Walk root links here (".." :: rest) out
  | follow {links : Nat} {here rest out : List String} {piece target : String}
      {entries : List (String × Entry)} (dir : root.at? here = some (.directory entries))
      (idle : Path.isIdle piece = false) (parent : piece ≠ "..") (short : piece.utf8ByteSize ≤ 255)
      (entry : entries.lookup piece = some (.link target))
      (next : Walk root links (if Path.isAbsolute target then [] else here) (Path.pieces target ++ rest)
        out) : Walk root (links + 1) here (piece :: rest) out
  | enter {links : Nat} {here rest out : List String} {piece : String} {entries : List (String × Entry)}
      {e : Entry} (dir : root.at? here = some (.directory entries))
      (idle : Path.isIdle piece = false) (parent : piece ≠ "..") (short : piece.utf8ByteSize ≤ 255)
      (entry : entries.lookup piece = some e) (solid : ∀ target, e ≠ .link target)
      (next : Walk root links (here ++ [piece]) rest out) : Walk root links here (piece :: rest) out

lemma walk_of_resolveFrom {root : Entry} {links : Nat} {here pieces out : List String}
    (h : resolveFrom root links here pieces = .ok out) : Walk root links here pieces out := by
  fun_induction resolveFrom root links here pieces with
  | case1 links here =>
    obtain rfl : here = out := by simpa using h
    exact .done links here
  | case5 links here piece rest entries dir idle ih =>
    exact .stay dir (by simpa [Path.isIdle] using idle) (ih h)
  | case6 links here rest entries dir idle ih => exact .up dir (ih h)
  | case10 here piece rest entries dir idle parent short target entry links ih =>
    exact .follow dir (by simpa [Path.isIdle] using idle) parent (Nat.le_of_not_lt short) entry (ih h)
  | case11 links here piece rest entries dir idle parent short e solid entry ih =>
    exact .enter dir (by simpa [Path.isIdle] using idle) parent (Nat.le_of_not_lt short) entry solid (ih h)
  | _ => cases h

lemma resolveFrom_of_walk {root : Entry} {links : Nat} {here pieces out : List String}
    (h : Walk root links here pieces out) : resolveFrom root links here pieces = .ok out := by
  induction h with
  | done links here => rw [resolveFrom]
  | stay dir idle next ih =>
    rw [resolveFrom, dir]
    simp only
    rw [if_pos (by simpa [Path.isIdle] using idle), ih]
  | up dir next ih =>
    rw [resolveFrom, dir]
    simpa using ih
  | follow dir idle parent short entry next ih =>
    rw [resolveFrom, dir]
    simp only
    rw [if_neg (by simpa [Path.isIdle] using idle), if_neg parent, if_neg (Nat.not_lt.2 short), entry]
    exact ih
  | @enter links here rest out piece entries e dir idle parent short entry solid next ih =>
    rw [resolveFrom, dir]
    simp only
    rw [if_neg (by simpa [Path.isIdle] using idle), if_neg parent, if_neg (Nat.not_lt.2 short), entry]
    cases e with
    | link target => exact absurd rfl (solid target)
    | file content => exact ih
    | directory inner => exact ih

/-- Resolution finds exactly the walks. -/
theorem resolveFrom_eq_ok_iff {root : Entry} {links : Nat} {here pieces out : List String} :
    resolveFrom root links here pieces = .ok out ↔ Walk root links here pieces out :=
  ⟨walk_of_resolveFrom, resolveFrom_of_walk⟩

/-! ### Canonical paths -/

/-- Names that lead from a root to something that is no link, with no link followed on the way. -/
structure IsCanonical (root : Entry) (names : List String) : Prop where
  isName : ∀ n ∈ names, Path.IsName n
  leads : ∃ e, root.at? names = some e ∧ ∀ target, e ≠ .link target

lemma IsCanonical.nil_of_directory {root : Entry} {here : List String} {entries : List (String × Entry)}
    (h : root.at? here = some (.directory entries)) : IsCanonical root [] := by
  refine ⟨fun n hn => absurd hn List.not_mem_nil, root, rfl, ?_⟩
  rintro target rfl
  cases here with
  | nil => cases h
  | cons n rest => cases h

lemma IsCanonical.dropLast {root : Entry} {here : List String} (h : IsCanonical root here) :
    IsCanonical root here.dropLast := by
  by_cases hne : here = []
  · rwa [hne, List.dropLast_nil, ← hne]
  · obtain ⟨e, he, -⟩ := h.leads
    obtain ⟨entries, hd⟩ := Entry.at?_dropLast he hne
    exact ⟨fun n hn => h.isName n (List.dropLast_subset _ hn), _, hd, fun target => nofun⟩

lemma IsCanonical.concat {root e : Entry} {here : List String} {n : String}
    {entries : List (String × Entry)} (h : IsCanonical root here)
    (dir : root.at? here = some (.directory entries)) (entry : entries.lookup n = some e)
    (solid : ∀ target, e ≠ .link target) (hn : Path.IsName n) : IsCanonical root (here ++ [n]) := by
  refine ⟨?_, e, ?_, solid⟩
  · intro m hm
    rcases List.mem_append.1 hm with hm | hm
    · exact h.isName m hm
    · rwa [List.mem_singleton.1 hm]
  · rw [Entry.at?_concat dir, entry]

lemma isName_of_not_idle {p : String} (idle : Path.isIdle p = false) (parent : p ≠ "..")
    (h : '/' ∉ p.toList) : Path.IsName p := by
  simp only [Path.isIdle, Bool.or_eq_false_iff, beq_eq_false_iff_ne] at idle
  exact ⟨idle.1, idle.2, parent, h⟩

/-- A walk from a canonical path ends at one. -/
theorem Walk.isCanonical {root : Entry} {links : Nat} {here pieces out : List String}
    (h : Walk root links here pieces out) (hh : IsCanonical root here)
    (hp : ∀ p ∈ pieces, '/' ∉ p.toList) : IsCanonical root out := by
  induction h with
  | done links here => exact hh
  | stay dir idle next ih => exact ih hh fun p h => hp p (List.mem_cons_of_mem _ h)
  | up dir next ih => exact ih hh.dropLast fun p h => hp p (List.mem_cons_of_mem _ h)
  | @follow links here rest out piece target entries dir idle parent short entry next ih =>
    apply ih
    · split
      · exact .nil_of_directory dir
      · exact hh
    · intro p hmem
      rcases List.mem_append.1 hmem with hmem | hmem
      · exact Path.noSlash_of_mem_pieces hmem
      · exact hp p (List.mem_cons_of_mem _ hmem)
  | enter dir idle parent short entry solid next ih =>
    have hn := isName_of_not_idle idle parent (hp _ List.mem_cons_self)
    exact ih (hh.concat dir entry solid hn) fun p h => hp p (List.mem_cons_of_mem _ h)

lemma isIdle_of_isName {n : String} (h : Path.IsName n) : Path.isIdle n = false := by
  simp [Path.isIdle, h.ne_empty, h.ne_current]

lemma IsCanonical.lookup_ne_link {root : Entry} {here rest : List String} {n target : String}
    {entries : List (String × Entry)} (h : IsCanonical root (here ++ n :: rest))
    (dir : root.at? here = some (.directory entries)) : entries.lookup n ≠ some (.link target) := by
  intro hl
  obtain ⟨e, he, solid⟩ := h.leads
  rw [List.append_cons, Entry.at?_append, Entry.at?_concat dir, hl, Option.bind_some] at he
  cases rest with
  | nil => exact solid target (Option.some.inj he).symm
  | cons m rest => exact absurd he (by simp [Entry.at?, Entry.child?])

/-- The pieces left out before the first one kept can be gone through in place. -/
lemma Walk.of_thinned_cons {root : Entry} {links : Nat} {here ps qs out : List String} {q : String}
    {entries : List (String × Entry)} (h : Path.Thinned ps (q :: qs))
    (dir : root.at? here = some (.directory entries))
    (hstep : ∀ rest, Path.Thinned rest qs → Walk root links here (q :: rest) out) :
    Walk root links here ps out := by
  generalize hqs : q :: qs = all at h
  induction h with
  | nil => cases hqs
  | keep p h ih =>
    cases hqs
    exact hstep _ h
  | drop idle hne h ih => exact .stay dir idle (ih hqs)

/-- A walk through thinned pieces leads through all of them. -/
theorem Walk.of_thinned {root : Entry} {links : Nat} {here ps qs out : List String}
    (h : Walk root links here qs out) (ht : Path.Thinned ps qs) : Walk root links here ps out := by
  induction h generalizing ps with
  | done links here =>
    rw [ht.eq_nil]
    exact .done links here
  | stay dir idle next ih => exact .of_thinned_cons ht dir fun rest h => .stay dir idle (ih h)
  | up dir next ih => exact .of_thinned_cons ht dir fun rest h => .up dir (ih h)
  | follow dir idle parent short entry next ih =>
    exact .of_thinned_cons ht dir fun rest h =>
      .follow dir idle parent short entry (ih (h.append_left _))
  | enter dir idle parent short entry solid next ih =>
    exact .of_thinned_cons ht dir fun rest h => .enter dir idle parent short entry solid (ih h)

/-! ### Paths of a tree -/

/-- The directory that a path is seen from. -/
def startOf (t : FileTree) (path : String) : List String :=
  if Path.isAbsolute path then [] else t.workingDirectory

theorem resolve_eq_ok_iff {t : FileTree} {path : String} {out : List String} :
    t.resolve path = .ok out ↔
      (path ≠ "" ∧ '\x00' ∉ path.toList ∧ path.utf8ByteSize < 4096) ∧
        Walk t.root linkLimit (t.startOf path) (Path.pieces path) out := by
  unfold resolve
  rw [← resolveFrom_eq_ok_iff]
  by_cases h1 : path = ""
  · simp [h1]
  · by_cases h2 : '\x00' ∈ path.toList
    · simp [h1, h2]
    · by_cases h3 : 4096 ≤ path.utf8ByteSize
      · simp [h1, h2, h3, Nat.not_lt.2 h3]
      · simp [h1, h2, h3, Nat.lt_of_not_le h3, startOf]

/-- The working directory is a directory, and is known by its canonical path. -/
structure IsPlaced (t : FileTree) : Prop where
  isName : ∀ n ∈ t.workingDirectory, Path.IsName n
  isDirectory : ∃ entries, t.root.at? t.workingDirectory = some (.directory entries)

lemma IsPlaced.isCanonical {t : FileTree} (ht : t.IsPlaced) : IsCanonical t.root t.workingDirectory := by
  obtain ⟨entries, h⟩ := ht.isDirectory
  exact ⟨ht.isName, _, h, fun target => nofun⟩

lemma IsPlaced.isCanonical_startOf {t : FileTree} (ht : t.IsPlaced) (path : String) :
    IsCanonical t.root (t.startOf path) := by
  unfold startOf
  split
  · obtain ⟨entries, h⟩ := ht.isDirectory
    exact .nil_of_directory h
  · exact ht.isCanonical

/-- What a path leads to is known by a canonical path. -/
theorem isCanonical_of_resolve {t : FileTree} (ht : t.IsPlaced) {path : String} {out : List String}
    (h : t.resolve path = .ok out) : IsCanonical t.root out :=
  (resolve_eq_ok_iff.1 h).2.isCanonical (ht.isCanonical_startOf path)
    fun _ hp => Path.noSlash_of_mem_pieces hp

lemma absolute_of_resolve {t : FileTree} {path : String} {out : List String}
    (h : t.resolve path = .ok out) : t.absolute path = textOf out := by
  unfold absolute
  rw [h]

lemma absolute_of_not_resolve {t : FileTree} {path : String} (h : ∀ out, t.resolve path ≠ .ok out) :
    t.absolute path = Path.absolute t.workingPath path := by
  unfold absolute
  cases hr : t.resolve path with
  | ok out => exact absurd hr (h out)
  | error e => rfl

lemma pieces_textOf {names : List String} (h : ∀ n ∈ names, Path.IsName n) :
    Path.pieces (textOf names) = "" :: if names = [] then [""] else names := by
  have hroot : Path.pieces (textOf names) = "" :: Path.pieces (String.intercalate "/" names) :=
    Path.pieces_append_slash "" _
  rw [hroot]
  split
  · rename_i hnil
    rw [hnil]
    rfl
  · rename_i hnil
    rw [Path.pieces_intercalate hnil fun n hn => (h n hn).noSlash]

lemma isSome_after?_iff {bs cs : List Path.Component} : (Path.after? bs cs).isSome ↔ bs <+: cs := by
  induction bs generalizing cs with
  | nil => simp [Path.after?]
  | cons b bs ih =>
    cases cs with
    | nil => simp [Path.after?]
    | cons c cs =>
      rw [Path.after?]
      split
      · rename_i hbc
        rw [ih, hbc, List.prefix_cons_inj]
      · rename_i hbc
        simp [List.cons_prefix_cons, hbc]

/-- Of canonical paths, the one starts with the other just when its names do. -/
theorem startsWith_textOf_iff {names base : List String} (hn : ∀ n ∈ names, Path.IsName n)
    (hb : ∀ n ∈ base, Path.IsName n) :
    Path.startsWith (textOf names) (textOf base) = true ↔ base <+: names := by
  have hinj : Function.Injective Path.Component.name := fun a b h => by cases h; rfl
  unfold Path.startsWith textOf
  rw [isSome_after?_iff, Path.components_of_isName hn, Path.components_of_isName hb,
    List.prefix_cons_inj]
  exact List.prefix_map_iff_of_injective hinj

/-- A text is read from a regular file that the path leads to. -/
theorem readText_eq_ok_iff (t : FileTree) {path text : String} :
    t.readText path = .ok text ↔ ∃ file content, t.resolve path = .ok file ∧
      t.root.at? file = some (.file content) ∧ String.fromUTF8? content = some text := by
  unfold readText
  cases hr : t.resolve path with
  | error e => simp
  | ok file =>
    dsimp only
    cases he : t.root.at? file with
    | none => simp [he]
    | some e =>
      cases e with
      | link target => simp [he]
      | directory entries => simp [he]
      | file content => cases ht : String.fromUTF8? content <;> simp [he, ht]

/-! ### Resolution step by step -/

/-- What is left to resolve after one piece: how many links may be followed, the directory reached, and
the pieces. -/
def resolvePiece (root : Entry) (links : Nat) (here : List String) (piece : String) (rest : List String) :
    Except FileError (Nat × List String × List String) :=
  match root.at? here with
  | none => .error .notFound
  | some (.file _) => .error .notDirectory
  | some (.link _) => .error .notDirectory
  | some (.directory entries) =>
    if piece = "" || piece = "." then .ok (links, here, rest)
    else if piece = ".." then .ok (links, here.dropLast, rest)
    else if 255 < piece.utf8ByteSize then .error .nameTooLong
    else
      match entries.lookup piece with
      | none => .error .notFound
      | some (.link target) =>
        match links with
        | 0 => .error .tooManyLinks
        | links + 1 => .ok (links, if Path.isAbsolute target then [] else here, Path.pieces target ++ rest)
      | some _ => .ok (links, here ++ [piece], rest)

lemma resolveFrom_cons (root : Entry) (links : Nat) (here : List String) (piece : String)
    (rest : List String) :
    resolveFrom root links here (piece :: rest) =
      (resolvePiece root links here piece rest).bind fun s => resolveFrom root s.1 s.2.1 s.2.2 := by
  rw [resolveFrom, resolvePiece]
  cases root.at? here with
  | none => rfl
  | some e =>
    cases e with
    | file content => rfl
    | link target => rfl
    | directory entries =>
      dsimp only
      by_cases hidle : (piece = "" || piece = ".") = true
      · rw [if_pos hidle, if_pos hidle]
        rfl
      · by_cases hparent : piece = ".."
        · rw [if_neg hidle, if_pos hparent, if_neg hidle, if_pos hparent]
          rfl
        · by_cases hlong : 255 < piece.utf8ByteSize
          · rw [if_neg hidle, if_neg hparent, if_pos hlong, if_neg hidle, if_neg hparent, if_pos hlong]
            rfl
          · rw [if_neg hidle, if_neg hparent, if_neg hlong, if_neg hidle, if_neg hparent, if_neg hlong]
            cases entries.lookup piece with
            | none => rfl
            | some e =>
              cases e with
              | link target => cases links <;> rfl
              | file content => rfl
              | directory entries => rfl

/-- Resolution as far as it gets in some steps. -/
def resolveSteps (root : Entry) :
    Nat → Nat → List String → List String → Option (Except FileError (List String))
  | 0, _, _, _ => none
  | _ + 1, _, here, [] => some (.ok here)
  | steps + 1, links, here, piece :: rest =>
    match resolvePiece root links here piece rest with
    | .error e => some (.error e)
    | .ok (links, here, pieces) => resolveSteps root steps links here pieces

lemma resolveFrom_of_steps {root : Entry} {steps links : Nat} {here pieces : List String}
    {found : Except FileError (List String)} (h : resolveSteps root steps links here pieces = some found) :
    resolveFrom root links here pieces = found := by
  induction steps generalizing links here pieces with
  | zero => cases h
  | succ steps ih =>
    cases pieces with
    | nil =>
      rw [resolveFrom]
      exact Option.some.inj h
    | cons piece rest =>
      rw [resolveFrom_cons]
      rw [resolveSteps] at h
      cases hpiece : resolvePiece root links here piece rest with
      | error e =>
        rw [hpiece] at h
        exact Option.some.inj h
      | ok next =>
        rw [hpiece] at h
        exact ih h

/-- A path is resolved as soon as enough steps are gone. -/
theorem resolve_of_steps {t : FileTree} {path : String} {found : Except FileError (List String)} (steps : Nat)
    (hpath : path ≠ "" ∧ '\x00' ∉ path.toList ∧ path.utf8ByteSize < 4096)
    (h : resolveSteps t.root steps linkLimit (t.startOf path) (Path.pieces path) = some found) :
    t.resolve path = found := by
  have hnull : ¬ path.toList.contains '\x00' = true := fun hmem => hpath.2.1 (List.contains_iff_mem.mp hmem)
  rw [resolve, if_neg hpath.1, if_neg hnull, if_neg (Nat.not_le.mpr hpath.2.2)]
  exact resolveFrom_of_steps h

end FileTree

end CodeContext
