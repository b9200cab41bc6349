import CodeContext.CommandLine.Run
import CodeContext.Proofs.CacheTrace
import CodeContext.Proofs.IndexedFiles
import CodeContext.Proofs.ServiceHistory
import CodeContext.Proofs.Spellings

/-!
# Paths indexed through a cache

A cache has an index made for a path as seen from the root, not for the path as it was given. Mostly that
finds the same nodes. It does not if the path leads to a source under another name, if the path is `-`, or if
it leads nowhere until its last point is left out; and a source file shares its result with the paths that
have its names and lead nowhere.
-/

namespace CodeContext

namespace Path

lemma exists_fileName {path : String} (h : isSource path = true) : ∃ name, fileName? path = some name := by
  cases hname : fileName? path with
  | some name => exact ⟨name, rfl⟩
  | none =>
    rw [isSource, extension?, hname] at h
    cases h

lemma isSource_of_fileName?_eq {a b : String} (h : fileName? a = fileName? b) : isSource a = isSource b := by
  rw [isSource, extension?, h]
  rfl

end Path

namespace CSharp

/-- A text has the same methods in whatever file it stands. -/
lemma extract_nodes_ne_nil {text : String} (h : (extract text "").nodes ≠ []) (path : String) :
    (extract text path).nodes ≠ [] := by
  intro hnil
  exact h (List.map_eq_nil_iff.mpr (List.map_eq_nil_iff.mp hnil))

lemma extract_nodes_eq_nil {text : String} (h : (extract text "").nodes = []) (path : String) :
    (extract text path).nodes = [] :=
  List.map_eq_nil_iff.mpr (List.map_eq_nil_iff.mp h)

lemma extract_nodes_inj {text : String} (h : (extract text "").nodes ≠ []) {path other : String}
    (heq : (extract text path).nodes = (extract text other).nodes) : path = other := by
  obtain ⟨n, hn⟩ := List.exists_mem_of_ne_nil _ (extract_nodes_ne_nil h path)
  have hpath := (Source.exists_tellsMethod hn).1
  rw [heq] at hn
  exact hpath.symm.trans (Source.exists_tellsMethod hn).1

/-- A text has the same nodes under two names unless it has methods, the names differ, and one of them is the name
of a source. -/
lemma nodes_under_names_iff (text a b : String) :
    ((if Path.isSource b then (extract text ((Path.fileName? b).getD "")).nodes else []) =
        if Path.isSource a then (extract text ((Path.fileName? a).getD "")).nodes else []) ↔
      ¬ ((extract text "").nodes ≠ [] ∧ Path.fileName? a ≠ Path.fileName? b ∧
        (Path.isSource a = true ∨ Path.isSource b = true)) := by
  by_cases hnil : (extract text "").nodes = []
  · simp [hnil, extract_nodes_eq_nil hnil]
  · have hsome := extract_nodes_ne_nil hnil
    cases ha : Path.isSource a with
    | false =>
      cases hb : Path.isSource b with
      | false => simp
      | true =>
        have hne : Path.fileName? a ≠ Path.fileName? b := by
          intro heq
          rw [Path.isSource_of_fileName?_eq heq, hb] at ha
          cases ha
        simp [hnil, hne, hsome]
    | true =>
      obtain ⟨name, hname⟩ := Path.exists_fileName ha
      cases hb : Path.isSource b with
      | false =>
        have hne : Path.fileName? a ≠ Path.fileName? b := by
          intro heq
          rw [Path.isSource_of_fileName?_eq heq, hb] at ha
          cases ha
        simp [hnil, hne, (hsome _).symm]
      | true =>
        obtain ⟨other, hother⟩ := Path.exists_fileName hb
        rw [hname, hother]
        constructor
        · rintro heq ⟨-, hne, -⟩
          exact hne (congrArg some (extract_nodes_inj hnil heq).symm)
        · intro hagrees
          by_contra hdiffers
          refine hagrees ⟨hnil, fun heq => hdiffers ?_, .inl rfl⟩
          rw [Option.some.inj heq]

end CSharp

namespace FileTree

/-- The nodes that an index of a path has. -/
def nodes (t : FileTree) (respectIgnore : Bool) (path : String) : List Node :=
  (Index.ofPath t respectIgnore path).nodes

variable {t : FileTree} {respectIgnore : Bool} {a b path : String} {here out : List String}
  {entries : List (String × Entry)}

/-! ### Files -/

lemma readText_eq_of_resolve (ha : t.resolve a = .ok out) (hb : t.resolve b = .ok out) :
    t.readText a = t.readText b := by
  rw [readText, readText, ha, hb]

lemma find?_of_resolve (h : t.resolve path = .ok out) : t.find? path = t.root.at? out := by
  rw [find?, h]

lemma isDirectory_of_resolve (h : t.resolve path = .ok out) (hout : t.root.at? out = some (.directory entries)) :
    t.isDirectory path = true := by
  rw [isDirectory, find?_of_resolve h, hout]
  rfl

section

variable {content : ByteArray}

lemma isDirectory_of_file (h : t.resolve path = .ok out) (hfile : t.root.at? out = some (.file content)) :
    t.isDirectory path = false := by
  rw [isDirectory, find?_of_resolve h, hfile]
  rfl

lemma isFile_of_resolve (h : t.resolve path = .ok out) (hfile : t.root.at? out = some (.file content)) :
    t.isFile path = true := by
  rw [isFile, find?_of_resolve h, hfile]
  rfl

end

lemma isDirectory_of_readText {text : String} (h : t.readText path = .ok text) : t.isDirectory path = false := by
  obtain ⟨out, content, hout, hcontent, -⟩ := (readText_eq_ok_iff t).mp h
  exact isDirectory_of_file hout hcontent

/-- A file has the nodes of its text, under the name that it is asked for by, if that is the name of a source. -/
lemma nodes_of_readText {text : String} (h : t.readText path = .ok text) : t.nodes respectIgnore path =
    if Path.isSource path then (CSharp.extract text ((Path.fileName? path).getD "")).nodes else [] := by
  obtain ⟨out, content, hout, hcontent, -⟩ := (readText_eq_ok_iff t).mp h
  rw [nodes, Index.ofPath, Index.ofPathWith, Index.sources, isDirectory_of_file hout hcontent, if_neg (by decide), scanFile?,
    isFile_of_resolve hout hcontent, Bool.true_and]
  split
  · rename_i hsource
    obtain ⟨name, hname⟩ := Path.exists_fileName hsource
    rw [Index.nodes_ofFiles, hname, Option.map_some, Option.toList_some, List.flatMap_singleton, Index.nodesIn, h]
    rfl
  · rfl

lemma nodes_of_unread {e : FileError} (hdir : t.isDirectory path = false) (h : t.readText path = .error e) :
    t.nodes respectIgnore path = [] := by
  rw [nodes, Index.ofPath, Index.ofPathWith, Index.sources, hdir, if_neg (by decide), Index.nodes_ofFiles, List.flatMap_eq_nil_iff]
  intro f hf
  obtain ⟨name, -, rfl⟩ : ∃ name, Path.fileName? path = some name ∧ (⟨name, path⟩ : SourceFile) = f := by
    unfold scanFile? at hf
    split at hf
    · simpa using hf
    · cases hf
  rw [Index.nodesIn, h]

lemma nodes_of_not_resolve (h : ∀ out, t.resolve path ≠ .ok out) : t.nodes respectIgnore path = [] := by
  cases hresolve : t.resolve path with
  | ok out => exact absurd hresolve (h out)
  | error e =>
    have hdir : t.isDirectory path = false := by
      rw [isDirectory, find?, hresolve]
      rfl
    exact nodes_of_unread hdir (by rw [readText, hresolve])

/-! ### Directories -/

lemma nodes_of_isDirectory (hdir : t.isDirectory path = true) :
    t.nodes respectIgnore path = (t.scan respectIgnore path).flatMap (Index.nodesIn t) := by
  rw [nodes, Index.ofPath_of_isDirectory hdir, Index.nodes_ofFiles]

lemma ordered_map_found (root : String) (names : List (List String)) :
    Scan.ordered (names.map (Scan.found root)) =
      (names.mergeSort fun x y => decide (String.intercalate "/" x ≤ String.intercalate "/" y)).map
        (Scan.found root) := by
  symm
  apply List.map_mergeSort
  intro x _ y _
  rfl

/-- A directory is seen the same way by two paths that are short enough for its files. -/
theorem nodes_eq_of_directory (ht : t.root.IsSound) (ha : t.resolve a = .ok here) (hb : t.resolve b = .ok here)
    (hhere : t.root.at? here = some (.directory entries)) (hstdin : Path.same a "-" = false)
    (hstdin' : Path.same b "-" = false)
    (hshort : ∀ names, t.root.at? (here ++ names) ≠ none →
      (Scan.found a names).path.utf8ByteSize < 4096 ∧ (Scan.found b names).path.utf8ByteSize < 4096) :
    t.nodes respectIgnore a = t.nodes respectIgnore b := by
  -- No path that is walked is too long, so the names that are found do not depend on the spelling of the root.
  have hscan {root : String} (hroot : t.resolve root = .ok here) (hstdin : Path.same root "-" = false)
      (hshort : ∀ names, t.root.at? (here ++ names) ≠ none → (Scan.found root names).path.utf8ByteSize < 4096) :
      t.scan respectIgnore root =
        Scan.ordered ((Scan.inEntries t (t.layersOf respectIgnore here) here entries).map (Scan.found root)) := by
    obtain ⟨here', entries', hroot', hentries', hscan⟩ := scan_of_isDirectory (isDirectory_of_resolve hroot hhere)
    obtain rfl : here = here' := Except.ok.inj (hroot.symm.trans hroot')
    obtain rfl : entries = entries' := by
      rw [hhere] at hentries'
      cases hentries'
      rfl
    have hopens : (Scan.inEntries t (t.layersOf respectIgnore here) here entries).filter (Scan.opens root) =
        Scan.inEntries t (t.layersOf respectIgnore here) here entries := by
      refine List.filter_eq_self.mpr fun names hnames => ?_
      obtain ⟨hleads, -, -⟩ := (listsNames_inEntries ht hhere _).2 names hnames
      obtain ⟨content, hcontent⟩ := hleads
      exact Scan.opens_of_short
        (fun n hn => (isEntryName_of_leadsToFile ht ⟨content, hcontent⟩ n (List.mem_append_right _ hn)).isName)
        (hshort names (by simp [hcontent]))
    rw [hscan, hstdin, if_neg (by decide), hopens]
  -- Nor does the file that is read for each of them.
  have hread {root : String} (hroot : t.resolve root = .ok here)
      (hshort : ∀ names, t.root.at? (here ++ names) ≠ none → (Scan.found root names).path.utf8ByteSize < 4096)
      {names : List String} (hnames : names ∈ Scan.inEntries t (t.layersOf respectIgnore here) here entries) :
      t.resolve (Scan.found root names).path = .ok (here ++ names) := by
    obtain ⟨hleads, hne, hends⟩ := (listsNames_inEntries ht hhere _).2 names hnames
    have hfinds : t.FindsSource root (Scan.found root names) here names := ⟨hroot, hleads, hne, hends, rfl⟩
    obtain ⟨content, hcontent⟩ := hleads
    exact hfinds.resolve_path ht (hshort names (by simp [hcontent]))
  have hshort_a := fun names h => (hshort names h).1
  have hshort_b := fun names h => (hshort names h).2
  rw [nodes_of_isDirectory (isDirectory_of_resolve ha hhere), nodes_of_isDirectory (isDirectory_of_resolve hb hhere),
    hscan ha hstdin hshort_a, hscan hb hstdin' hshort_b, ordered_map_found, ordered_map_found, List.flatMap_map,
    List.flatMap_map]
  refine List.flatMap_congr fun names hnames => ?_
  rw [List.mem_mergeSort] at hnames
  have htext := readText_eq_of_resolve (hread ha hshort_a hnames) (hread hb hshort_b hnames)
  rw [Index.nodesIn, Index.nodesIn, htext]
  rfl

end FileTree

namespace FileTree

variable {t : FileTree} {respectIgnore : Bool} {path : String}

/-! ### Paths seen from the root -/

/-- The plain text of the names that a path has from the root. -/
def plain (t : FileTree) (path : String) : String :=
  textOf (Path.names (t.absolute path))

/-- No path of the tree is too long to be read behind the path, as it is given or seen from the root. -/
def Fits (t : FileTree) (path : String) : Prop :=
  ∀ names, t.root.at? names ≠ none →
    path.utf8ByteSize + (t.plain path).utf8ByteSize + (textOf names).utf8ByteSize + 3 < 4096

/-- A path that leads to a file with nodes. -/
def LeadsToMethods (t : FileTree) (respectIgnore : Bool) (path : String) : Prop :=
  t.isFile path = true ∧ t.nodes respectIgnore path ≠ []

/-- How a path can have other nodes than the same path seen from the root. -/
inductive Diverges (t : FileTree) (respectIgnore : Bool) (path : String) : Prop
  /-- The path leads to a file with methods, where it has one name and another from the root, at least one of
  them the name of a source. -/
  | renamed {text : String} {out : List String} (read : t.readText path = .ok text) (resolve : t.resolve path = .ok out)
      (holds : (CSharp.extract text "").nodes ≠ []) (named : Path.fileName? path ≠ out.getLast?)
      (source : Path.isSource path = true ∨ Path.isSource (textOf out) = true)
  /-- The path stands for the standard input, but seen from the root for a directory with nodes. -/
  | hyphen (same : Path.same path "-" = true) (dir : t.isDirectory path = true)
      (found : t.nodes respectIgnore (t.absolute path) ≠ [])
  /-- The path ends in a point, and seen from the root, where the point is left out, leads to a file with nodes. -/
  | stray (point : (Path.pieces path).getLast? = some ".") (found : t.LeadsToMethods respectIgnore (t.absolute path))

lemma same_hyphen_of_isAbsolute (h : Path.isAbsolute path = true) : Path.same path "-" = false := by
  have hhyphen : Path.components "-" = [.name "-"] := by decide
  rw [Path.same, Path.components_of_isAbsolute h, hhyphen]
  rfl

lemma utf8ByteSize_join_le (a b : String) : (Path.join a b).utf8ByteSize ≤ a.utf8ByteSize + b.utf8ByteSize + 1 := by
  have hslash : "/".utf8ByteSize = 1 := rfl
  unfold Path.join
  split
  · omega
  · split
    · rw [String.utf8ByteSize_append]
      omega
    · rw [String.utf8ByteSize_append, String.utf8ByteSize_append, hslash]
      omega

lemma utf8ByteSize_found_le (root : String) (here names : List String) :
    (Scan.found root names).path.utf8ByteSize ≤ root.utf8ByteSize + (textOf (here ++ names)).utf8ByteSize := by
  have hslash : "/".utf8ByteSize = 1 := rfl
  have hbelow : (String.intercalate "/" names).utf8ByteSize ≤
      (String.intercalate "/" (here ++ names)).utf8ByteSize := by
    by_cases hhere : here = []
    · rw [hhere, List.nil_append]
    · by_cases hnames : names = []
      · rw [hnames]
        exact Nat.zero_le _
      · rw [String.intercalate_append_of_ne_nil hhere hnames, String.utf8ByteSize_append]
        exact Nat.le_add_left _ _
  have hjoin := utf8ByteSize_join_le root (String.intercalate "/" names)
  rw [textOf, String.utf8ByteSize_append, hslash, Scan.found]
  dsimp only
  omega

variable {ns out : List String}

lemma names_textOf_of_isCanonical (h : IsCanonical t.root out) : Path.names (textOf out) = out :=
  Path.names_textOf (Path.areNames_of_isName h.isName)

lemma plain_of_resolve (ht : t.IsPlaced) (h : t.resolve path = .ok out) : t.plain path = textOf out := by
  rw [plain, absolute_of_resolve h, names_textOf_of_isCanonical (isCanonical_of_resolve ht h)]

lemma fileName?_textOf (h : IsCanonical t.root out) : Path.fileName? (textOf out) = out.getLast? := by
  have hcomponents : Path.components (textOf out) = .root :: out.map .name := Path.components_of_isName h.isName
  rw [Path.fileName?, hcomponents]
  cases out using List.reverseRecOn with
  | nil => rfl
  | append_singleton init n =>
    rw [List.map_append, List.map_singleton, ← List.cons_append, List.getLast?_concat, List.getLast?_concat]

lemma resolve_slash (ht : t.IsPlaced) : t.resolve "/" = .ok [] := by
  obtain ⟨entries, hroot⟩ := ht.exists_root
  exact resolve_eq_ok_iff.mpr ⟨by decide, .stay hroot rfl (.stay hroot rfl (.done _ _))⟩

lemma resolve_absolute (ht : t.IsPlaced) (hsound : t.root.IsSound) (h : t.resolve path = .ok out)
    (hshort : (textOf out).utf8ByteSize < 4096) : t.resolve (textOf out) = .ok out := by
  have hcanonical := isCanonical_of_resolve ht h
  by_cases hnil : out = []
  · rw [hnil]
    exact resolve_slash ht
  · obtain ⟨e, he, -⟩ := hcanonical.leads
    exact resolve_textOf hcanonical hnil (hsound.of_at? he).2 hshort

lemma Fits.textOf_lt (h : t.Fits path) {names : List String} (hnames : t.root.at? names ≠ none) :
    (textOf names).utf8ByteSize < 4096 := by
  have := h names hnames
  omega

lemma at?_ne_none (ht : t.IsPlaced) (h : t.resolve path = .ok out) : t.root.at? out ≠ none := by
  obtain ⟨e, he, -⟩ := (isCanonical_of_resolve ht h).leads
  simp [he]

/-! ### What is found from the root -/

lemma isDirectory_or_file (ht : t.IsPlaced) (h : t.resolve path = .ok out) :
    (∃ entries, t.root.at? out = some (.directory entries)) ∨ ∃ content, t.root.at? out = some (.file content) := by
  obtain ⟨e, he, solid⟩ := (isCanonical_of_resolve ht h).leads
  cases e with
  | link target => exact absurd rfl (solid target)
  | directory entries => exact .inl ⟨entries, he⟩
  | file content => exact .inr ⟨content, he⟩

lemma exists_of_isFile (h : t.isFile path = true) :
    ∃ out content, t.resolve path = .ok out ∧ t.root.at? out = some (.file content) := by
  unfold isFile find? at h
  split at h
  · rename_i out hout
    obtain ⟨e, he, hfile⟩ := (Option.any_eq_true _ _).mp h
    cases e with
    | link | directory => cases hfile
    | file content => exact ⟨out, content, hout, he⟩
  · cases h

lemma nodes_absolute_of_directory (ht : t.IsPlaced) (hsound : t.root.IsSound) (hfits : t.Fits path)
    (h : t.resolve path = .ok out) {entries : List (String × Entry)}
    (hout : t.root.at? out = some (.directory entries)) (hstdin : Path.same path "-" = false) :
    t.nodes respectIgnore (textOf out) = t.nodes respectIgnore path := by
  refine nodes_eq_of_directory hsound (resolve_absolute ht hsound h (hfits.textOf_lt (at?_ne_none ht h))) h hout
    (same_hyphen_of_isAbsolute (isAbsolute_textOf out)) hstdin fun names hnames => ?_
  have hplain := plain_of_resolve ht h
  have hroom := hfits _ hnames
  rw [hplain] at hroom
  have := utf8ByteSize_found_le (textOf out) out names
  have := utf8ByteSize_found_le path out names
  omega

lemma nodes_of_hyphen (hdir : t.isDirectory path = true) (hstdin : Path.same path "-" = true) :
    t.nodes respectIgnore path = [] := by
  obtain ⟨_, _, _, _, hscan⟩ := scan_of_isDirectory hdir
  rw [nodes_of_isDirectory hdir, hscan, if_pos hstdin, List.flatMap_nil]

lemma nodes_absolute_eq_iff_of_directory (ht : t.IsPlaced) (hsound : t.root.IsSound) (hfits : t.Fits path)
    (h : t.resolve path = .ok out) {entries : List (String × Entry)}
    (hout : t.root.at? out = some (.directory entries)) :
    t.nodes respectIgnore (t.absolute path) = t.nodes respectIgnore path ↔ ¬ t.Diverges respectIgnore path := by
  have hdir := isDirectory_of_resolve h hout
  have honly : t.Diverges respectIgnore path →
      Path.same path "-" = true ∧ t.nodes respectIgnore (t.absolute path) ≠ [] := by
    rintro (⟨read, -, -, -, -⟩ | ⟨same, -, found⟩ | ⟨-, found, -⟩)
    · rw [isDirectory_of_readText read] at hdir
      cases hdir
    · exact ⟨same, found⟩
    · rw [absolute_of_resolve h] at found
      obtain ⟨out', content, hout', hcontent⟩ := exists_of_isFile found
      have habsolute := resolve_absolute ht hsound h (hfits.textOf_lt (at?_ne_none ht h))
      obtain rfl := Except.ok.inj (habsolute.symm.trans hout')
      cases hout.symm.trans hcontent
  cases hstdin : Path.same path "-" with
  | true =>
    rw [nodes_of_hyphen hdir hstdin]
    constructor
    · intro heq hdiverges
      exact (honly hdiverges).2 heq
    · intro hagrees
      by_contra hne
      exact hagrees (.hyphen hstdin hdir hne)
  | false =>
    rw [absolute_of_resolve h]
    refine iff_of_true (nodes_absolute_of_directory ht hsound hfits h hout hstdin) fun hdiverges => ?_
    rw [hstdin] at honly
    cases (honly hdiverges).1

lemma nodes_absolute_eq_iff_of_file (ht : t.IsPlaced) (hsound : t.root.IsSound) (hfits : t.Fits path)
    (h : t.resolve path = .ok out) {content : ByteArray} (hout : t.root.at? out = some (.file content)) :
    t.nodes respectIgnore (t.absolute path) = t.nodes respectIgnore path ↔ ¬ t.Diverges respectIgnore path := by
  have habsolute := resolve_absolute ht hsound h (hfits.textOf_lt (at?_ne_none ht h))
  have hread : t.readText (textOf out) = t.readText path := readText_eq_of_resolve habsolute h
  have hname := fileName?_textOf (isCanonical_of_resolve ht h)
  have hpoint : (Path.pieces path).getLast? ≠ some "." := by
    intro hlast
    obtain ⟨entries, hdir⟩ := (resolve_eq_ok_iff.mp h).2.directory_of_getLast? hlast rfl
    cases hdir.symm.trans hout
  have honly (text : String) (htext : t.readText path = .ok text) : t.Diverges respectIgnore path ↔
      (CSharp.extract text "").nodes ≠ [] ∧ Path.fileName? path ≠ Path.fileName? (textOf out) ∧
        (Path.isSource path = true ∨ Path.isSource (textOf out) = true) := by
    constructor
    · rintro (⟨read, resolve, holds, named, source⟩ | ⟨-, dir, -⟩ | ⟨point, -⟩)
      · obtain rfl := Except.ok.inj (htext.symm.trans read)
        obtain rfl := Except.ok.inj (h.symm.trans resolve)
        exact ⟨holds, hname ▸ named, source⟩
      · rw [isDirectory_of_file h hout] at dir
        cases dir
      · exact absurd point hpoint
    · rintro ⟨holds, named, source⟩
      exact .renamed htext h holds (hname ▸ named) source
  rw [absolute_of_resolve h]
  cases htext : t.readText path with
  | error e =>
    rw [nodes_of_unread (isDirectory_of_file habsolute hout) (hread.trans htext),
      nodes_of_unread (isDirectory_of_file h hout) htext]
    refine iff_of_true rfl ?_
    rintro (⟨read, -, -, -, -⟩ | ⟨-, dir, -⟩ | ⟨point, -⟩)
    · cases htext.symm.trans read
    · rw [isDirectory_of_file h hout] at dir
      cases dir
    · exact hpoint point
  | ok text =>
    rw [honly text htext, nodes_of_readText htext, nodes_of_readText (hread.trans htext)]
    exact CSharp.nodes_under_names_iff text path (textOf out)

lemma nodes_absolute_eq_iff_of_nowhere (ht : t.IsPlaced) (hfits : t.Fits path) (h : ∀ out, t.resolve path ≠ .ok out) :
    t.nodes respectIgnore (t.absolute path) = t.nodes respectIgnore path ↔ ¬ t.Diverges respectIgnore path := by
  rw [nodes_of_not_resolve h]
  constructor
  · rintro heq (⟨-, resolve, -, -, -⟩ | ⟨-, dir, -⟩ | ⟨-, found⟩)
    · exact h _ resolve
    · obtain ⟨here, _, hhere, -, -⟩ := scan_of_isDirectory dir
      exact h here hhere
    · exact found.2 heq
  · intro hagrees
    by_contra hne
    obtain ⟨out, hout⟩ : ∃ out, t.resolve (t.absolute path) = .ok out := by
      by_contra hnone
      exact hne (nodes_of_not_resolve (not_exists.mp hnone))
    have hshort : path.utf8ByteSize < 4096 := by
      have := hfits [] (by simp [Entry.at?])
      omega
    have hpoint := point_of_resolve_absolute ht hshort h (absolute_of_not_resolve h ▸ hout)
    rcases isDirectory_or_file ht hout with hdir | ⟨content, hcontent⟩
    · exact hpoint.2 hdir
    · exact hagrees (.stray hpoint.1 ⟨isFile_of_resolve hout hcontent, hne⟩)

/-- A path has the nodes that are found from the root just when it does not diverge. -/
theorem nodes_absolute_eq_iff (ht : t.IsPlaced) (hsound : t.root.IsSound) (hfits : t.Fits path) :
    t.nodes respectIgnore (t.absolute path) = t.nodes respectIgnore path ↔ ¬ t.Diverges respectIgnore path := by
  by_cases h : ∃ out, t.resolve path = .ok out
  · obtain ⟨out, h⟩ := h
    rcases isDirectory_or_file ht h with ⟨entries, hout⟩ | ⟨content, hout⟩
    · exact nodes_absolute_eq_iff_of_directory ht hsound hfits h hout
    · exact nodes_absolute_eq_iff_of_file ht hsound hfits h hout
  · exact nodes_absolute_eq_iff_of_nowhere ht hfits (not_exists.mp h)

/-! ### Paths with one key -/

lemma nodes_eq_of_fileName?_eq {a b : String} (ha : t.resolve a = .ok out) (hb : t.resolve b = .ok out)
    {content : ByteArray} (hfile : t.root.at? out = some (.file content))
    (hname : Path.fileName? a = Path.fileName? b) : t.nodes respectIgnore a = t.nodes respectIgnore b := by
  have hread := readText_eq_of_resolve ha hb
  cases htext : t.readText b with
  | error e =>
    rw [nodes_of_unread (isDirectory_of_file ha hfile) (hread.trans htext),
      nodes_of_unread (isDirectory_of_file hb hfile) htext]
  | ok text =>
    rw [nodes_of_readText htext, nodes_of_readText (hread.trans htext), hname, Path.isSource_of_fileName?_eq hname]

/-- A text of names from the root has the nodes of the plain text, unless that leads to a file. -/
lemma nodes_of_isFull (ht : t.IsPlaced) (hsound : t.root.IsSound) {ns : List String} {full : String}
    (hfull : IsFull full ns)
    (hroom : ∀ names, t.root.at? names ≠ none → (textOf ns).utf8ByteSize + (textOf names).utf8ByteSize + 3 < 4096)
    (hfile : ¬ t.LeadsToMethods respectIgnore (textOf ns)) :
    t.nodes respectIgnore full = if t.isDirectory (textOf ns) then t.nodes respectIgnore (textOf ns) else [] := by
  have hnames : Path.names (textOf ns) = Path.names full := (Path.names_textOf hfull.areNames).trans hfull.names_eq.symm
  have hlong := hfull.utf8ByteSize_le
  have hspare := hroom [] (by simp [Entry.at?])
  by_cases h : ∃ out, t.resolve full = .ok out
  · obtain ⟨out, h⟩ := h
    have hplain : t.resolve (textOf ns) = .ok out := by
      have hshort : (textOf (Path.names full)).utf8ByteSize < 4096 := by
        rw [hfull.names_eq]
        omega
      have := resolve_plain ht h hfull.isAbsolute hshort
      rwa [hfull.names_eq] at this
    rcases isDirectory_or_file ht h with ⟨entries, hout⟩ | ⟨content, hout⟩
    · rw [if_pos (isDirectory_of_resolve hplain hout)]
      refine nodes_eq_of_directory hsound h hplain hout (same_hyphen_of_isAbsolute hfull.isAbsolute)
        (same_hyphen_of_isAbsolute (isAbsolute_textOf ns)) fun names hbelow => ?_
      have := hroom _ hbelow
      have := utf8ByteSize_found_le full out names
      have := utf8ByteSize_found_le (textOf ns) out names
      omega
    · have hname : Path.fileName? full = Path.fileName? (textOf ns) := by
        rw [Path.fileName?, Path.fileName?, Path.components_of_isAbsolute hfull.isAbsolute,
          Path.components_of_isAbsolute (isAbsolute_textOf ns), hnames]
      have hnone : t.nodes respectIgnore (textOf ns) = [] := by
        by_contra hsome
        exact hfile ⟨isFile_of_resolve hplain hout, hsome⟩
      rw [isDirectory_of_file hplain hout, if_neg (by decide), nodes_eq_of_fileName?_eq h hplain hout hname, hnone]
  · rw [nodes_of_not_resolve (not_exists.mp h)]
    split
    · rename_i hdir
      obtain ⟨here, entries, hhere, hentries, -⟩ := scan_of_isDirectory hdir
      have hfound := resolve_of_names_eq hhere hentries hnames (isAbsolute_textOf ns) hfull.isAbsolute (by omega)
      exact absurd ⟨here, hfound⟩ h
    · rfl

lemma ofPath_empty (t : FileTree) : CacheKey.ofPath t "" = [] := by
  rw [CacheKey.ofPath, absolute_of_not_resolve fun out h => (resolve_eq_ok_iff.mp h).1.1 rfl]
  rfl

lemma ofPath_eq_nil_iff : CacheKey.ofPath t path = [] ↔ path = "" := by
  constructor
  · intro hkey
    by_contra hne
    rw [CacheKey.ofPath, Path.components_of_isAbsolute (isAbsolute_absolute t hne)] at hkey
    cases hkey
  · rintro rfl
    exact ofPath_empty t

lemma Fits.room (h : t.Fits path) : ∀ names, t.root.at? names ≠ none →
    (t.plain path).utf8ByteSize + (textOf names).utf8ByteSize + 3 < 4096 := by
  intro names hnames
  have := h names hnames
  omega

/-- Paths with one key have the same nodes from the root, unless the plain text of their names leads to a file
with nodes. -/
theorem nodes_eq_of_key_eq (ht : t.IsPlaced) (hsound : t.root.IsSound) (hfits : t.Fits path)
    (hfile : ¬ t.LeadsToMethods respectIgnore (t.plain path)) {other : String}
    (hkey : CacheKey.ofPath t other = CacheKey.ofPath t path) :
    t.nodes respectIgnore (t.absolute other) = t.nodes respectIgnore (t.absolute path) := by
  by_cases hempty : path = ""
  · subst hempty
    rw [ofPath_empty, ofPath_eq_nil_iff] at hkey
    rw [hkey]
  · have hother : other ≠ "" := by
      rintro rfl
      rw [ofPath_empty] at hkey
      exact hempty (ofPath_eq_nil_iff.mp hkey.symm)
    have hfull := isFull_absolute ht hother
    rw [Path.names_eq_of_components hkey] at hfull
    rw [nodes_of_isFull ht hsound hfull hfits.room hfile,
      nodes_of_isFull ht hsound (isFull_absolute ht hempty) hfits.room hfile]

/-- A text of names that leads to a file leads nowhere with a slash or a slash and a point after it. From the root,
the former is itself and the latter is the text alone, so both have one key. -/
lemma absolute_below_file (wd : String) {ns : List String} (hns : Path.AreNames ns) (hne : ns ≠ []) :
    Path.absolute wd (textOf ns ++ "/" ++ "") = textOf ns ++ "/" ∧
      Path.absolute wd (textOf ns ++ "/" ++ ".") = textOf ns := by
  have habsolute (rest : String) : Path.isAbsolute (textOf ns ++ "/" ++ rest) = true :=
    Path.isAbsolute_append (Path.isAbsolute_append (isAbsolute_textOf ns) _) _
  have hnames {piece : String} (hpiece : Path.pieces piece = [piece]) (hidle : Path.isIdle piece = true) :
      Path.names (textOf ns ++ "/" ++ piece) = ns := by
    rw [Path.names_eq_filter, Path.pieces_append_slash, List.filter_append, ← Path.names_eq_filter,
      Path.names_textOf hns, hpiece, List.filter_cons_of_neg (by simp [hidle]), List.filter_nil, List.append_nil]
  have hlead (rest : String) : Path.leadSlash (textOf ns ++ "/" ++ rest) = "" := by
    rw [String.append_assoc]
    exact Path.leadSlash_textOf hns hne _
  constructor
  · rw [Path.absolute_of_isAbsolute wd (habsolute _), hnames rfl rfl, hlead,
      if_pos ⟨hne, by rw [String.append_empty, String.toList_append]; exact List.getLast?_concat⟩, String.empty_append]
    rfl
  · rw [Path.absolute_of_isAbsolute wd (habsolute _), hnames rfl rfl, hlead, if_neg fun h => ?_, String.empty_append,
      String.append_empty]
    · rfl
    · have hlast : (textOf ns ++ "/" ++ ".").toList.getLast? = some '.' := by
        rw [String.toList_append]
        exact List.getLast?_concat
      rw [hlast] at h
      exact absurd h.2 (by decide)

/-- If the plain text of the names leads to a file with nodes, not all paths with the key have the same nodes. -/
theorem exists_key_eq_of_leadsToMethods (ht : t.IsPlaced) (hfile : t.LeadsToMethods respectIgnore (t.plain path)) :
    ∃ a b, CacheKey.ofPath t a = CacheKey.ofPath t path ∧ CacheKey.ofPath t b = CacheKey.ofPath t path ∧
      t.nodes respectIgnore (t.absolute a) ≠ t.nodes respectIgnore (t.absolute b) := by
  obtain ⟨hisFile, hnodes⟩ := hfile
  obtain ⟨out, content, hresolve, hcontent⟩ := exists_of_isFile hisFile
  have hns := Path.areNames (t.absolute path)
  have hne : Path.names (t.absolute path) ≠ [] := by
    intro hnil
    have hroot : t.plain path = "/" := by rw [plain, hnil]; rfl
    rw [hroot] at hresolve
    obtain ⟨entries, hentries⟩ := ht.exists_root
    obtain rfl : [] = out := Except.ok.inj ((resolve_slash ht).symm.trans hresolve)
    cases hentries.symm.trans hcontent
  have hpath : path ≠ "" := by
    rintro rfl
    refine hne ?_
    rw [Path.names, ← CacheKey.ofPath, ofPath_empty, List.filterMap_nil]
  have hbelow {piece : String} (hslash : '/' ∉ piece.toList) :=
    not_resolve_below_file hresolve hcontent hslash
  obtain ⟨hslash, hpoint⟩ := absolute_below_file t.workingPath hns hne
  have hkey {full : String} (habsolute : Path.isAbsolute full = true)
      (hnames : Path.names full = Path.names (t.absolute path)) : Path.components full = CacheKey.ofPath t path := by
    rw [CacheKey.ofPath, Path.components_of_isAbsolute habsolute, hnames,
      ← Path.components_of_isAbsolute (isAbsolute_absolute t hpath)]
  have hfirst : t.absolute (t.plain path ++ "/" ++ "") = t.plain path ++ "/" :=
    (absolute_of_not_resolve (hbelow (by decide))).trans hslash
  have hsecond : t.absolute (t.plain path ++ "/" ++ ".") = t.plain path :=
    (absolute_of_not_resolve (hbelow (by decide))).trans hpoint
  -- With a slash behind it, the text leads nowhere; with a point as well, it is indexed as the file itself.
  refine ⟨t.plain path ++ "/" ++ "", t.plain path ++ "/" ++ ".", ?_, ?_, ?_⟩
  · rw [CacheKey.ofPath, hfirst]
    refine hkey (Path.isAbsolute_append (isAbsolute_textOf _) _) ?_
    have := Path.names_of_shape hns (.inl rfl : "" = "" ∨ "" = "/") (.inr rfl : "/" = "" ∨ "/" = "/")
    rwa [String.empty_append] at this
  · rw [CacheKey.ofPath, hsecond]
    exact hkey (isAbsolute_textOf _) (Path.names_textOf hns)
  · have hnone : t.nodes respectIgnore (t.plain path ++ "/") = [] := by
      have := @nodes_of_not_resolve t respectIgnore _ (@hbelow "" (by decide))
      rwa [String.append_empty] at this
    rw [hfirst, hsecond, hnone]
    exact hnodes.symm

end FileTree

namespace Cache

variable {α : Type} {t : FileTree} {make : String → α}

/-! ### Calls on one tree -/

/-- A call that meets a tree and an inner indexer. -/
def Event.Meets (t : FileTree) (make : String → α) : Event α → Prop
  | index t' _ make' _ => t' = t ∧ make' = make
  | invalidate t' _ => t' = t
  | clear | purge _ => True

/-- All that a cache holds was made for some path, as seen from the root. -/
def HoldsMade (t : FileTree) (make : String → α) (c : Cache α) : Prop :=
  ∀ k s, c.get? k = some s → ∃ path, CacheKey.ofPath t path = k ∧ s.value = make (t.absolute path)

lemma HoldsMade.step {c : Cache α} (h : HoldsMade t make c) {e : Event α} (he : e.Meets t make) :
    HoldsMade t make (c.step e).2 := by
  intro k s hs
  cases e with
  | index t' r make' path =>
    obtain ⟨rfl, rfl⟩ := he
    rcases c.fresh_or_stale (CacheKey.ofPath t' path) r.asked with ⟨held, hheld, hfresh⟩ | hstale
    · rw [step_index_of_fresh hheld hfresh] at hs
      exact h k s hs
    · rw [step_index_of_stale hstale] at hs
      rcases get?_refreshed.mp hs with ⟨rfl, rfl⟩ | ⟨-, hs, -⟩
      · exact ⟨path, rfl, rfl⟩
      · exact h k s hs
  | invalidate t' path => exact h k s (get?_erase.mp hs).2
  | clear => exact absurd hs get?_empty_ne
  | purge now => exact h k s (get?_purge.mp hs).1

lemma HoldsMade.run {c : Cache α} (h : HoldsMade t make c) {events : List (Event α)}
    (hevents : ∀ e ∈ events, e.Meets t make) : HoldsMade t make (c.run events).2 := by
  induction events generalizing c with
  | nil => exact h
  | cons e events ih =>
    have hstep := h.step (hevents e List.mem_cons_self)
    exact ih hstep fun e he => hevents e (List.mem_cons_of_mem _ he)

lemma step_index_empty (t : FileTree) (make : String → α) (lifetime : Nat) (r : Readings) (path : String) :
    (empty lifetime).step (.index t r make path) = (.indexed (make (t.absolute path)) [t.absolute path],
      (empty lifetime).refreshed r (CacheKey.ofPath t path) (make (t.absolute path))) :=
  step_index_of_stale (fun _ hs => absurd hs get?_empty_ne) make

/-- After any calls on a tree, a call gives a value for a path just when the inner indexer makes this value for
the path as seen from the root, and for all paths with the key unless nothing stays. -/
theorem forall_run_gives_iff {lifetime : Nat} {path : String} {value : α} :
    (∀ events now r later, InOrder 0 events now → (∀ e ∈ events, e.Meets t make) →
        (Event.index t r make path).Within now later →
        ∃ calls, (((empty lifetime).run events).2.step (.index t r make path)).1 = .indexed value calls) ↔
      make (t.absolute path) = value ∧ (lifetime = 0 ∨
        ∀ other, CacheKey.ofPath t other = CacheKey.ofPath t path → make (t.absolute other) = value) := by
  have hstill (other : String) : (Event.index t (.around 0 0) make other).Within 0 0 :=
    ⟨Nat.le_refl 0, Nat.le_refl 0, Nat.le_refl 0, fun _ => ⟨Nat.le_refl 0, Nat.le_refl 0⟩⟩
  constructor
  · intro h
    constructor
    · obtain ⟨calls, hfirst⟩ := h [] 0 (.around 0 0) 0 (.nil 0) (by simp) (hstill path)
      rw [run, step_index_empty] at hfirst
      cases hfirst
      rfl
    · rcases Nat.eq_zero_or_pos lifetime with hzero | hpos
      · exact .inl hzero
      · -- One earlier call for a path with the key leaves its value, which is still fresh.
        refine .inr fun other hkey => ?_
        obtain ⟨calls, hsecond⟩ := h [.index t (.around 0 0) make other] 0 (.around 0 0) 0
          (.cons (hstill other) (.nil 0)) (by simp [Event.Meets]) (hstill path)
        simp only [run, step_index_empty] at hsecond
        have hheld : ((empty lifetime).refreshed (.around 0 0) (CacheKey.ofPath t other)
            (make (t.absolute other))).get? (CacheKey.ofPath t path) = some ⟨make (t.absolute other), 0⟩ :=
          get?_refreshed.mpr (.inl ⟨hkey.symm, rfl⟩)
        rw [step_index_of_fresh hheld (by rwa [lifetime_refreshed])] at hsecond
        cases hsecond
        rfl
  · rintro ⟨hmade, hkept⟩ events now r later - hevents -
    have hholds := HoldsMade.run (c := empty lifetime) (t := t) (fun _ _ hs => absurd hs get?_empty_ne) hevents
    have hlifetime := lifetime_run (empty lifetime) events
    generalize ((empty lifetime).run events).2 = c at hholds hlifetime
    rcases c.fresh_or_stale (CacheKey.ofPath t path) r.asked with ⟨s, hs, hfresh⟩ | hstale
    · -- What is held was made for some path with the key.
      obtain ⟨other, hkey, hvalue⟩ := hholds _ s hs
      rw [step_index_of_fresh hs hfresh, hvalue]
      rcases hkept with hzero | hkept
      · rw [hlifetime, empty, hzero] at hfresh
        exact absurd hfresh (Nat.not_lt_zero _)
      · exact ⟨[], by rw [hkept other hkey]⟩
    · rw [step_index_of_stale hstale]
      exact ⟨_, by rw [hmade]⟩

/-- A new cache gives the nodes that an index of the path itself has just when the path does not diverge. After any
calls it gives them just when, besides, no result stays or the plain text of the path leads to no file with nodes,
which other paths with its key do not find. The same holds for what a new service reports of a path, beside what the
command prints, which is not cached. -/
theorem gives_direct_nodes_iff (ht : t.IsPlaced) (hsound : t.root.IsSound) (respectIgnore : Bool) {path : String}
    (hfits : t.Fits path) (lifetime : Nat) :
    ((∀ r, ((empty lifetime).step (.index t r (t.nodes respectIgnore) path)).1 =
        .indexed (t.nodes respectIgnore path) [t.absolute path]) ↔ ¬ t.Diverges respectIgnore path) ∧
    ((∀ events now r later, InOrder 0 events now → (∀ e ∈ events, e.Meets t (t.nodes respectIgnore)) →
        (Event.index t r (t.nodes respectIgnore) path).Within now later →
        ∃ calls, (((empty lifetime).run events).2.step (.index t r (t.nodes respectIgnore) path)).1 =
          .indexed (t.nodes respectIgnore path) calls) ↔
      ¬ t.Diverges respectIgnore path ∧ (lifetime = 0 ∨ ¬ t.LeadsToMethods respectIgnore (t.plain path))) ∧
    ∀ config o id, o.files = t → config.respectIgnore = respectIgnore → ∃ reported,
      ((Service.start config).respond o ⟨id, Method.index.name, .object [("path", .string path)]⟩).1 =
          ⟨id, .ok (Service.indexJson reported)⟩ ∧
        (Command.runIndex config o path).output =
          (Json.Value.array ((t.nodes respectIgnore path).map Node.toJson)).pretty ++ "\n" ∧
        (reported = t.nodes respectIgnore path ↔ ¬ t.Diverges respectIgnore path) := by
  have hdirect : t.nodes respectIgnore (t.absolute path) = t.nodes respectIgnore path ↔
      ¬ t.Diverges respectIgnore path := FileTree.nodes_absolute_eq_iff ht hsound hfits
  refine ⟨?new, ?kept, ?service⟩
  case new =>
    rw [← hdirect]
    constructor
    · intro h
      have hfirst := h (.around 0 0)
      rw [step_index_empty] at hfirst
      exact (Outcome.indexed.inj hfirst).1
    · intro heq r
      rw [step_index_empty, heq]
  case kept =>
    rw [forall_run_gives_iff, hdirect]
    refine and_congr_right fun hagrees => or_congr_right ?_
    rw [← hdirect.mpr hagrees]
    constructor
    · intro hsame hfile
      obtain ⟨a, b, ha, hb, hne⟩ := FileTree.exists_key_eq_of_leadsToMethods ht hfile
      exact hne ((hsame a ha).trans (hsame b hb).symm)
    · intro hfile other hkey
      exact FileTree.nodes_eq_of_key_eq ht hsound hfits hfile hkey
  case service =>
    rintro config o id rfl rfl
    refine ⟨o.files.nodes config.respectIgnore (o.files.absolute path), ?_, rfl, hdirect⟩
    rw [Service.respond_of_needs (s := Service.start config) rfl, Service.index_start]
    rfl

/-! ### A link to a source -/

/-- A source with one method and a link to it, both in the working directory. -/
def relinkedTree : FileTree where
  root := .directory [("w", .directory [("link.cs", .link "real.cs"),
    ("real.cs", .file "class A\x7bvoid M()\x7b\x7d\x7d".toUTF8)])]
  workingDirectory := ["w"]

lemma relinkedTree_isPlaced : relinkedTree.IsPlaced where
  isName := by decide
  isDirectory := ⟨_, rfl⟩

lemma relinkedTree_isSound : relinkedTree.root.IsSound := by
  refine .directory (by decide) (by decide) ?_
  simp only [List.forall_mem_singleton]
  refine .directory (by decide) (by decide) ?_
  simpa using ⟨.link _, .file _⟩

lemma relinkedTree_resolve : relinkedTree.resolve "." = .ok ["w"] :=
  FileTree.resolve_of_steps 20 (by decide) rfl

lemma relinkedTree_resolve_link : relinkedTree.resolve "link.cs" = .ok ["w", "real.cs"] :=
  FileTree.resolve_of_steps 20 (by decide) rfl

lemma relinkedTree_resolve_full : relinkedTree.resolve "/w/real.cs" = .ok ["w", "real.cs"] :=
  FileTree.resolve_of_steps 20 (by decide) rfl

lemma relinkedTree_isFile_root : relinkedTree.isFile "/w" = false := by
  have hresolve : relinkedTree.resolve "/w" = .ok ["w"] := FileTree.resolve_of_steps 20 (by decide) rfl
  rw [FileTree.isFile, FileTree.find?_of_resolve hresolve]
  rfl

lemma relinkedTree_plain : relinkedTree.plain "." = "/w" := by
  rw [FileTree.plain_of_resolve relinkedTree_isPlaced relinkedTree_resolve]
  decide

lemma relinkedTree_fits : relinkedTree.Fits "." := by
  intro names hnames
  rw [relinkedTree_plain]
  have hlook {entries : List (String × Entry)} {n : String} {rest : List String}
      (h : (Entry.directory entries).at? (n :: rest) ≠ none) : ∃ e, (n, e) ∈ entries ∧ e.at? rest ≠ none := by
    obtain ⟨found, hfound⟩ := Option.ne_none_iff_exists'.mp h
    obtain ⟨e, hmem, hrest⟩ := Entry.exists_mem_of_at? hfound
    exact ⟨e, hmem, by rw [hrest]; exact Option.some_ne_none found⟩
  have hleaf {e : Entry} (he : ∀ entries, e ≠ .directory entries) {rest : List String} (h : e.at? rest ≠ none) :
      rest = [] := by
    cases rest with
    | nil => rfl
    | cons n rest =>
      cases e with
      | directory entries => exact absurd rfl (he entries)
      | file | link => exact absurd rfl h
  cases names with
  | nil => decide
  | cons n rest =>
    obtain ⟨e, he, hrest⟩ := hlook hnames
    simp only [List.mem_singleton, Prod.mk.injEq] at he
    obtain ⟨rfl, rfl⟩ := he
    cases rest with
    | nil => decide
    | cons n rest =>
      obtain ⟨e, he, hrest⟩ := hlook hrest
      simp only [List.mem_cons, List.not_mem_nil, or_false, Prod.mk.injEq] at he
      rcases he with ⟨rfl, rfl⟩ | ⟨rfl, rfl⟩
      · obtain rfl := hleaf (by intro _ h; cases h) hrest
        decide
      · obtain rfl := hleaf (by intro _ h; cases h) hrest
        decide

lemma relinkedTree_not_diverges : ¬ relinkedTree.Diverges false "." := by
  have hdir : relinkedTree.isDirectory "." = true := FileTree.isDirectory_of_resolve relinkedTree_resolve rfl
  have habsolute : relinkedTree.absolute "." = "/w" :=
    (FileTree.absolute_of_resolve relinkedTree_resolve).trans (by decide)
  rintro (⟨read, -, -, -, -⟩ | ⟨same, -, -⟩ | ⟨-, found, -⟩)
  · rw [FileTree.isDirectory_of_readText read] at hdir
    cases hdir
  · cases same
  · rw [habsolute, relinkedTree_isFile_root] at found
    cases found

/-- Whatever a cache was asked before, it has the nodes of the working directory. -/
theorem gives_nodes_of_working_directory :
    relinkedTree.IsPlaced ∧ relinkedTree.root.IsSound ∧ relinkedTree.Fits "." ∧
      ∀ events now r later, InOrder 0 events now → (∀ e ∈ events, e.Meets relinkedTree (relinkedTree.nodes false)) →
        (Event.index relinkedTree r (relinkedTree.nodes false) ".").Within now later →
        ∃ calls, (((empty 10).run events).2.step (.index relinkedTree r (relinkedTree.nodes false) ".")).1 =
          .indexed (relinkedTree.nodes false ".") calls := by
  have hfile : ¬ relinkedTree.LeadsToMethods false (relinkedTree.plain ".") := by
    rw [relinkedTree_plain]
    rintro ⟨hfile, -⟩
    rw [relinkedTree_isFile_root] at hfile
    cases hfile
  refine ⟨relinkedTree_isPlaced, relinkedTree_isSound, relinkedTree_fits, ?_⟩
  exact (gives_direct_nodes_iff relinkedTree_isPlaced relinkedTree_isSound false relinkedTree_fits 10).2.1.mpr
    ⟨relinkedTree_not_diverges, .inr hfile⟩

lemma relinkedTree_readText {path : String} (h : relinkedTree.resolve path = .ok ["w", "real.cs"]) :
    relinkedTree.readText path = .ok "class A\x7bvoid M()\x7b\x7d\x7d" :=
  (FileTree.readText_eq_ok_iff _).mpr ⟨_, _, h, rfl, Text.fromUTF8?_toUTF8 _⟩

lemma relinkedTree_absolute : relinkedTree.absolute "link.cs" = "/w/real.cs" :=
  (FileTree.absolute_of_resolve relinkedTree_resolve_link).trans (by decide)

lemma relinkedTree_nodes_link : relinkedTree.nodes false "link.cs" =
    (CSharp.extract "class A\x7bvoid M()\x7b\x7d\x7d" "link.cs").nodes :=
  FileTree.nodes_of_readText (relinkedTree_readText relinkedTree_resolve_link)

lemma relinkedTree_nodes_full : relinkedTree.nodes false "/w/real.cs" =
    (CSharp.extract "class A\x7bvoid M()\x7b\x7d\x7d" "real.cs").nodes :=
  FileTree.nodes_of_readText (relinkedTree_readText relinkedTree_resolve_full)

/-- A line that asks for the nodes of the link. -/
def linkLine : String :=
  "\x7b\"id\":1,\"method\":\"index\",\"params\":\x7b\"path\":\"link.cs\"\x7d\x7d"

set_option maxRecDepth 10000 in
lemma parse_linkLine : Request.decoder.parse linkLine = .ok (Service.indexRequest 1 "link.cs") := rfl

set_option maxRecDepth 10000 in
/-- The command reports the method of the link under the name of the link, and the service under that of the file. -/
theorem link_reported_under_other_name :
    (Command.runIndex .standard ⟨relinkedTree, 0, 0⟩ "link.cs").output =
        "[\n  \x7b\n    \"node_id\": \"FN:9973\",\n    \"category\": \"Unknown\",\n    \"path\": \"link.cs\",\n" ++
          "    \"line_start\": 1,\n    \"line_end\": 1,\n    \"summary\": \"M\"\n  \x7d\n]\n" ∧
      ((Service.start .standard).respondToLine ⟨relinkedTree, 0, 0⟩ linkLine).1.line =
        "\x7b\"id\":1,\"result\":\x7b\"count\":1,\"nodes\":[\x7b\"category\":\"Unknown\",\"line_end\":1," ++
          "\"line_start\":1,\"node_id\":\"FN:9973\",\"path\":\"real.cs\",\"summary\":\"M\"\x7d]\x7d\x7d" ∧
      ((empty 30).step (.index relinkedTree (.around 0 0) (relinkedTree.nodes false) "link.cs")).1 ≠
        .indexed (relinkedTree.nodes false "link.cs") ["/w/real.cs"] := by
  refine ⟨?_, ?_, ?_⟩
  · change (Json.Value.array ((relinkedTree.nodes false "link.cs").map Node.toJson)).pretty ++ "\n" = _
    rw [relinkedTree_nodes_link]
    decide +kernel
  · rw [Service.respondToLine, parse_linkLine]
    dsimp only
    rw [Service.respond_of_needs (Service.needs?_indexRequest _ _ _), Service.index_start]
    change (⟨.ofInt 1, .ok (Service.indexJson (relinkedTree.nodes false (relinkedTree.absolute "link.cs")))⟩ :
      Response).line = _
    rw [relinkedTree_absolute, relinkedTree_nodes_full]
    decide +kernel
  · intro heq
    rw [step_index_empty, relinkedTree_absolute, relinkedTree_nodes_full, relinkedTree_nodes_link] at heq
    have hpaths := congrArg (List.map Node.path) (Outcome.indexed.inj heq).1
    exact absurd hpaths (by decide +kernel)

end Cache

end CodeContext
