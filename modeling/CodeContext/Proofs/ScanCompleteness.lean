import CodeContext.Proofs.FetchedMethods
import CodeContext.Proofs.NormalPaths
import Mathlib.Algebra.BigOperators.Group.List.Defs

/-!
# Scans find exactly the sources

A scan that honours no ignore files lists each regular file that is reached from its root without following
a link or passing an entry named `.git`, if the file has the name of a source and its directory can be read
by its path. It lists nothing else and nothing twice, in the order of the bytes of the paths from the root.
The path recorded for a file is the root joined with the file's names one by one, and the path from the root
is what is left of it without the root.
-/

namespace CodeContext

/-! ### The order of bytes -/

namespace Text

lemma utf8EncodeChar_append_lt {c d : Char} (h : c < d) (x y : List UInt8) :
    String.utf8EncodeChar c ++ x < String.utf8EncodeChar d ++ y := by
  have hlt : c.val.toNat < d.val.toNat := UInt32.lt_iff_toNat_lt.mp (Char.lt_def.mp h)
  have hd : d.val.toNat < 1114112 := by
    rcases d.valid with hv | hv
    · exact Nat.lt_trans hv (by decide)
    · exact hv.2
  unfold String.utf8EncodeChar
  generalize c.val.toNat = m at hlt
  generalize d.val.toNat = n at hlt hd
  have hdigits (k : Nat) : k / 4096 = k / 64 / 64 ∧ k / 262144 = k / 64 / 64 / 64 := by omega
  simp only [hdigits]
  -- A character of more bytes has a larger first byte; of as many, the first byte that differs is larger.
  repeat' split
  all_goals
    simp only [List.cons_append, List.cons_lt_cons_iff, UInt8.lt_iff_toNat_lt, ← UInt8.toNat_inj,
      UInt8.toNat_ofNat']
    omega

/-- Texts in the order of their characters are in the order of their UTF-8 bytes. -/
theorem toUTF8_lt_of_lt {s t : String} (h : s < t) : s.toUTF8.data.toList < t.toUTF8.data.toList := by
  rw [toUTF8_eq_flatMap, toUTF8_eq_flatMap]
  rw [String.lt_iff] at h
  generalize s.toList = cs at h
  generalize t.toList = ds at h
  induction cs generalizing ds with
  | nil =>
    cases ds with
    | nil => exact absurd h (List.not_lt_nil [])
    | cons d ds =>
      obtain ⟨b, bs, hd⟩ := List.exists_cons_of_ne_nil (String.utf8EncodeChar_ne_nil (c := d))
      rw [List.flatMap_nil, List.flatMap_cons, hd]
      exact List.nil_lt_cons b _
  | cons c cs ih =>
    cases ds with
    | nil => exact absurd h (List.not_lt_nil _)
    | cons d ds =>
      rw [List.flatMap_cons, List.flatMap_cons]
      rcases List.cons_lt_cons_iff.mp h with hlt | ⟨rfl, hlt⟩
      · exact utf8EncodeChar_append_lt hlt _ _
      · exact List.append_left_lt (ih _ hlt)

end Text

/-! ### Names and paths of sources -/

namespace Path

lemma components_of_name {n : String} (h : IsName n) : components n = [.name n] := by
  have hlead : lead n = [] := by
    rw [lead, isAbsolute_of_noSlash h.noSlash, pieces_of_noSlash h.noSlash]
    simp [h.ne_current]
  rw [components, hlead, pieces_of_noSlash h.noSlash, List.nil_append, List.filterMap_cons, ofPiece_of_isName h]
  rfl

lemma takeWhile_eq_append_iff (back : List Char) :
    (back.takeWhile (· != '.') = ['s', 'c'] ∧ (back.dropWhile (· != '.')).drop 1 ≠ []) ↔
      ∃ stem, stem ≠ [] ∧ back = 's' :: 'c' :: '.' :: stem := by
  constructor
  · rintro ⟨hlast, hstem⟩
    have hback := List.takeWhile_append_dropWhile (p := (· != '.')) (l := back)
    cases hrest : back.dropWhile (· != '.') with
    | nil => simp [hrest] at hstem
    | cons c stem =>
      have hpoint : c = '.' := by
        have hhead := List.head?_dropWhile_not (· != '.') back
        simpa [hrest] using hhead
      rw [hlast, hrest, hpoint] at hback
      exact ⟨stem, by simpa [hrest] using hstem, hback.symm⟩
  · rintro ⟨stem, hstem, rfl⟩
    simpa using hstem

/-- The name of a source is a text that is not empty, with a point and `cs` after it. -/
theorem isSource_iff {n : String} (h : IsName n) : isSource n = true ↔ ∃ stem, stem ≠ "" ∧ n = stem ++ ".cs" := by
  have hname : fileName? n = some n := by rw [fileName?, components_of_name h]; rfl
  have hends : isSource n = true ↔ n.toList.reverse.takeWhile (· != '.') = ['s', 'c'] ∧
      (n.toList.reverse.dropWhile (· != '.')).drop 1 ≠ [] := by
    have hcs (last : List Char) : String.ofList last.reverse = "cs" ↔ last = ['s', 'c'] := by
      rw [← String.toList_inj, String.toList_ofList, List.reverse_eq_iff]
      rfl
    rw [isSource, extension?, hname, Option.bind_some]
    dsimp only
    split
    · rename_i hnil
      simp_all
    · rename_i hstem
      simp_all
  rw [hends, takeWhile_eq_append_iff]
  constructor
  · rintro ⟨stem, hstem, hback⟩
    refine ⟨String.ofList stem.reverse, by simpa using hstem, ?_⟩
    rw [← String.toList_inj, String.toList_append, String.toList_ofList, ← List.reverse_reverse n.toList, hback]
    simp
  · rintro ⟨stem, hstem, rfl⟩
    exact ⟨stem.toList.reverse, by simpa using hstem, by simp⟩

/-- Names joined to a path are found again as the path from there. -/
theorem relative?_join (root : String) {names : List String} (hne : names ≠ []) (h : ∀ n ∈ names, IsName n) :
    relative? root (join root (String.intercalate "/" names)) = some (String.intercalate "/" names) := by
  rw [relative?_join_eq root (isAbsolute_intercalate hne h), normalize_intercalate hne (areNames_of_isName h)]

/-- Names are joined to a path one by one or all at once. -/
theorem foldl_join_eq {root : String} {names : List String} (hroot : root ≠ "") (hne : names ≠ [])
    (h : ∀ n ∈ names, IsName n) : names.foldl join root = join root (String.intercalate "/" names) := by
  have hn (n : String) (hmem : n ∈ names) : n ≠ "" ∧ '/' ∉ n.toList := ⟨(h n hmem).ne_empty, (h n hmem).noSlash⟩
  have hrelative := isAbsolute_intercalate hne h
  by_cases hslash : root.toList.getLast? = some '/'
  · obtain ⟨start, rfl⟩ := exists_eq_append_slash hslash
    rw [join, if_neg (by simp [hrelative]), if_pos (by simp), foldl_join_slash hn]
  · rw [join, if_neg (by simp [hrelative]), if_neg (by simp [hroot, hslash]), foldl_join hn hroot hslash,
      String.intercalate_cons_of_ne_nil hne]

end Path

/-! ### Which sources are reached -/

/-- A source file that is reached from a place without following a link or passing an entry named `.git`. It
is known by its names from there. -/
structure FileTree.HoldsSource (t : FileTree) (here names : List String) : Prop where
  leads : ∃ content, t.root.at? (here ++ names) = some (.file content)
  notGit : ".git" ∉ names
  name : ∃ stem, stem ≠ "" ∧ names.getLast? = some (stem ++ ".cs")

namespace Scan

variable (t : FileTree)

/-- What a scan without ignore files should find in an entry of a directory. -/
def InEntry (name : String) (e : Entry) (names : List String) : Prop :=
  ∃ below, names = name :: below ∧ LeadsToFile e below ∧ ".git" ∉ names ∧ EndsInSource names

lemma leadsToFile_directory_iff {entries : List (String × Entry)} (hnodup : (entries.map Prod.fst).Nodup)
    {names : List String} :
    LeadsToFile (.directory entries) names ↔
      ∃ n e, (n, e) ∈ entries ∧ ∃ below, names = n :: below ∧ LeadsToFile e below := by
  constructor
  · rintro ⟨content, h⟩
    cases names with
    | nil => cases h
    | cons n below =>
      obtain ⟨e, hmem, h⟩ := Entry.exists_mem_of_at? h
      exact ⟨n, e, hmem, below, rfl, content, h⟩
  · rintro ⟨n, e, hmem, below, rfl, hleads⟩
    exact hleads.of_mem hnodup hmem

lemma endsInSource_cons {name : String} {names : List String} (hne : names ≠ []) :
    EndsInSource (name :: names) ↔ EndsInSource names := by
  rw [EndsInSource, EndsInSource, List.getLast?_cons_of_ne_nil hne]

mutual

lemma mem_inEntry_iff (here : List String) (name : String) (names : List String) :
    ∀ e : Entry, e.IsSound → (names ∈ inEntry t none here name e ↔ InEntry name e names)
  | .link target, _ => by
    have hnone : ¬ InEntry name (.link target) names := by
      rintro ⟨below, -, ⟨content, h⟩, -⟩
      cases below <;> cases h
    rw [inEntry]
    exact iff_of_false List.not_mem_nil hnone
  | .file content, _ => by
    have hbelow (below : List String) : LeadsToFile (.file content) below ↔ below = [] := by
      constructor
      · rintro ⟨_, h⟩
        cases below with
        | nil => rfl
        | cons n below => cases h
      · rintro rfl
        exact ⟨content, rfl⟩
    have hentry : InEntry name (.file content) names ↔ names = [name] ∧ name ≠ ".git" ∧ Path.isSource name = true := by
      simp only [InEntry, hbelow]
      constructor
      · rintro ⟨_, rfl, rfl, hgit, last, hlast, hsource⟩
        obtain rfl : name = last := by simpa using hlast
        exact ⟨rfl, by simpa [eq_comm] using hgit, hsource⟩
      · rintro ⟨rfl, hgit, hsource⟩
        exact ⟨[], rfl, rfl, by simpa [eq_comm] using hgit, name, rfl, hsource⟩
    rw [inEntry, hentry]
    by_cases hgit : name = ".git"
    · simp [passesOver, hgit]
    · cases Path.isSource name <;> simp [passesOver, hgit]
  | .directory entries, .directory nodup isEntryName inner => by
    have hinner (below : List String) := mem_inEntries_iff (here ++ [name]) below entries inner
    have hentry : InEntry name (.directory entries) names ↔
        name ≠ ".git" ∧ ∃ below, (∃ n e, (n, e) ∈ entries ∧ InEntry n e below) ∧ name :: below = names := by
      constructor
      · rintro ⟨below, rfl, hleads, hgit, hends⟩
        rw [List.mem_cons, not_or] at hgit
        obtain ⟨n, e, hmem, rest, rfl, hrest⟩ := (leadsToFile_directory_iff nodup).mp hleads
        have hlast := (endsInSource_cons (List.cons_ne_nil n rest)).mp hends
        exact ⟨Ne.symm hgit.1, _, ⟨n, e, hmem, rest, rfl, hrest, hgit.2, hlast⟩, rfl⟩
      · rintro ⟨hname, _, ⟨n, e, hmem, rest, rfl, hrest, hgit, hends⟩, rfl⟩
        refine ⟨_, rfl, (leadsToFile_directory_iff nodup).mpr ⟨n, e, hmem, rest, rfl, hrest⟩, ?_, ?_⟩
        · rw [List.mem_cons, not_or]
          exact ⟨Ne.symm hname, hgit⟩
        · exact (endsInSource_cons (List.cons_ne_nil n rest)).mpr hends
    rw [inEntry, hentry]
    by_cases hgit : name = ".git"
    · simp [passesOver, hgit]
    · rw [if_neg (by simp [passesOver, hgit]), List.mem_map]
      simp only [enter, Option.map_none, hinner, hgit, ne_eq, not_false_eq_true, true_and]

lemma mem_inEntries_iff (here names : List String) :
    ∀ entries : List (String × Entry), (∀ e ∈ entries, e.2.IsSound) →
      (names ∈ inEntries t none here entries ↔ ∃ n e, (n, e) ∈ entries ∧ InEntry n e names)
  | [], _ => by simp [inEntries]
  | (name, e) :: rest, hsound => by
    rw [inEntries, List.mem_append, mem_inEntry_iff here name names e (hsound _ List.mem_cons_self),
      mem_inEntries_iff here names rest fun e he => hsound e (List.mem_cons_of_mem _ he)]
    simp only [List.mem_cons, Prod.mk.injEq]
    constructor
    · rintro (h | ⟨n, e', hmem, h⟩)
      · exact ⟨name, e, .inl ⟨rfl, rfl⟩, h⟩
      · exact ⟨n, e', .inr hmem, h⟩
    · rintro ⟨n, e', ⟨rfl, rfl⟩ | hmem, h⟩
      · exact .inl h
      · exact .inr ⟨n, e', hmem, h⟩

end

end Scan

namespace FileTree

variable {t : FileTree} {here names : List String}

lemma HoldsSource.isEntryName (ht : t.root.IsSound) (h : t.HoldsSource here names) : ∀ n ∈ names, Path.IsEntryName n :=
  fun n hn => isEntryName_of_leadsToFile ht h.leads n (List.mem_append_right _ hn)

lemma HoldsSource.isName (ht : t.root.IsSound) (h : t.HoldsSource here names) : ∀ n ∈ names, Path.IsName n :=
  fun n hn => (h.isEntryName ht n hn).isName

lemma HoldsSource.names_ne (h : t.HoldsSource here names) : names ≠ [] := by
  obtain ⟨stem, -, hlast⟩ := h.name
  rintro rfl
  cases hlast

/-- The sources in a directory are what a scan without ignore files finds in its entries. -/
theorem mem_inEntries_iff_holdsSource (ht : t.root.IsSound) {entries : List (String × Entry)}
    (hentries : t.root.at? here = some (.directory entries)) :
    names ∈ Scan.inEntries t none here entries ↔ t.HoldsSource here names := by
  have hat : t.root.at? (here ++ names) = (Entry.directory entries).at? names := by
    rw [Entry.at?_append, hentries, Option.bind_some]
  cases (ht.of_at? hentries).1 with
  | directory nodup isEntryName inner =>
    rw [Scan.mem_inEntries_iff t here names entries inner]
    constructor
    · rintro ⟨n, e, hmem, below, rfl, hleads, hgit, last, hlast, hsource⟩
      have hleads' : Scan.LeadsToFile t.root (here ++ n :: below) := by
        rw [Scan.LeadsToFile, hat]
        exact (Scan.leadsToFile_directory_iff nodup).mpr ⟨n, e, hmem, below, rfl, hleads⟩
      have hname := isEntryName_of_leadsToFile ht hleads' last (List.mem_append_right _ (List.mem_of_getLast? hlast))
      obtain ⟨stem, hstem, rfl⟩ := (Path.isSource_iff hname.isName).mp hsource
      exact ⟨hleads', hgit, stem, hstem, hlast⟩
    · intro h
      obtain ⟨stem, hstem, hlast⟩ := h.name
      have hname := h.isName ht _ (List.mem_of_getLast? hlast)
      have hleads : Scan.LeadsToFile (.directory entries) names := by
        rw [Scan.LeadsToFile, ← hat]
        exact h.leads
      obtain ⟨n, e, hmem, below, hbelow⟩ := (Scan.leadsToFile_directory_iff nodup).mp hleads
      exact ⟨n, e, hmem, below, hbelow.1, hbelow.2, h.notGit, _, hlast,
        (Path.isSource_iff hname).mpr ⟨stem, hstem, rfl⟩⟩

/-- What the list of files of a scan should be, for the canonical path of the root. -/
structure ListsSources (t : FileTree) (root : String) (here : List String) (files : List SourceFile) : Prop where
  /-- The files are in the order of the bytes of their paths, no two of them the same. -/
  ordered : files.Pairwise fun f g => f.relPath.toUTF8.data.toList < g.relPath.toUTF8.data.toList
  /-- The files are the sources in directories that can be read. -/
  mem_iff : ∀ f, f ∈ files ↔ ∃ names, t.HoldsSource here names ∧ Scan.opens root names = true ∧
    f.relPath = String.intercalate "/" names ∧ f.path = names.foldl Path.join root
  /-- Each source has a path of its own from the root. -/
  distinct : ∀ names names', t.HoldsSource here names → t.HoldsSource here names' →
    String.intercalate "/" names = String.intercalate "/" names' → names = names'
  relative : ∀ f ∈ files, Path.relative? root f.path = some f.relPath
  joined : ∀ f ∈ files, Path.join root f.relPath = f.path
  /-- The paths lead to the source, unless they are too long. -/
  leads : ∀ f ∈ files, ∀ names, t.HoldsSource here names → f.relPath = String.intercalate "/" names →
    f.path.utf8ByteSize < 4096 → t.resolve f.path = .ok (here ++ names)

/-- A scan without ignore files lists exactly the sources that are reached from a directory, unless its path
stands for the standard input. -/
theorem scan_listsSources (ht : t.root.IsSound) {root : String} (hdir : t.isDirectory root = true)
    (hinput : Path.same root "-" = false) :
    ∃ here, t.resolve root = .ok here ∧ t.ListsSources root here (t.scan false root) := by
  obtain ⟨here, entries, hroot, hentries, hscan⟩ := scan_of_isDirectory hdir
  have hne : root ≠ "" := (resolve_eq_ok_iff.mp hroot).1.1
  have hmem (f : SourceFile) : f ∈ t.scan false root ↔
      ∃ names, t.HoldsSource here names ∧ Scan.opens root names = true ∧ f = Scan.found root names := by
    rw [hscan, if_neg (by simp [hinput]), Scan.ordered, List.mem_mergeSort, List.mem_map]
    simp only [List.mem_filter, layersOf, Scan.enter, Bool.false_eq_true, if_false, Option.map_none,
      mem_inEntries_iff_holdsSource ht hentries, and_assoc, eq_comm]
  have hjoin {names : List String} (h : t.HoldsSource here names) :
      names.foldl Path.join root = Path.join root (String.intercalate "/" names) :=
    Path.foldl_join_eq hne h.names_ne (h.isName ht)
  have hdistinct {names names' : List String} (h : t.HoldsSource here names) (h' : t.HoldsSource here names')
      (heq : String.intercalate "/" names = String.intercalate "/" names') : names = names' :=
    Path.intercalate_inj h.names_ne h'.names_ne (fun n hn => (h.isName ht n hn).noSlash)
      (fun n hn => (h'.isName ht n hn).noSlash) heq
  refine ⟨here, hroot, ?_, fun f => ?_, fun _ _ => hdistinct, fun f hf => ?_, fun f hf => ?_, fun f hf => ?_⟩
  · exact (pairwise_scan ht hdir false).imp Text.toUTF8_lt_of_lt
  · rw [hmem]
    refine exists_congr fun names => and_congr_right fun h => and_congr_right fun _ => ?_
    rw [hjoin h, Scan.found, SourceFile.mk.injEq]
  · obtain ⟨names, h, -, rfl⟩ := (hmem f).mp hf
    exact Path.relative?_join root h.names_ne (h.isName ht)
  · obtain ⟨names, h, -, rfl⟩ := (hmem f).mp hf
    rfl
  · intro names' h' heq hshort
    obtain ⟨names, h, -, rfl⟩ := (hmem f).mp hf
    obtain rfl := hdistinct h h' heq
    obtain ⟨stem, hstem, hlast⟩ := h.name
    have hends : Scan.EndsInSource names :=
      ⟨_, hlast, (Path.isSource_iff (h.isName ht _ (List.mem_of_getLast? hlast))).mpr ⟨stem, hstem, rfl⟩⟩
    have hfound : t.FindsSource root (Scan.found root names) here names := ⟨hroot, h.leads, h.names_ne, hends, rfl⟩
    exact hfound.resolve_path ht hshort

/-- A working directory with sources, one of them in a directory with the name of a source, and a link and a
repository beside them. -/
def mixedTree : FileTree where
  root := .directory [("w", .directory [
    ("d.cs", .directory [(".b.cs", .file .empty), (".cs", .file .empty)]), ("a.cs", .file .empty),
    ("l.cs", .link "a.cs"), (".git", .directory [("g.cs", .file .empty)])])]
  workingDirectory := ["w"]

lemma mixedTree_resolve : mixedTree.resolve "." = .ok ["w"] :=
  resolve_of_steps 20 (by decide) rfl

lemma mixedTree_isSound : mixedTree.root.IsSound := by
  have hfile : (Entry.file .empty).IsSound := .file .empty
  have hlink : (Entry.link "a.cs").IsSound := .link "a.cs"
  have hinner : (Entry.directory [(".b.cs", .file .empty), (".cs", .file .empty)]).IsSound :=
    .directory (by simp) (by simp only [List.forall_mem_cons]; decide) (by simp [hfile])
  have hgit : (Entry.directory [("g.cs", .file .empty)]).IsSound :=
    .directory (by simp) (by simp only [List.forall_mem_cons]; decide) (by simp [hfile])
  refine .directory (by simp) (by simp only [List.forall_mem_cons]; decide) ?_
  simp only [List.forall_mem_cons, List.not_mem_nil, false_implies, implies_true, and_true]
  exact .directory (by simp) (by simp only [List.forall_mem_cons]; decide) (by simp [hinner, hfile, hlink, hgit])

/-- A directory with the name of a source is gone through and not listed, nor is a link, what is in a
repository, or a name with nothing before its point. -/
theorem scan_of_mixedTree :
    mixedTree.root.IsSound ∧ mixedTree.isDirectory "." = true ∧ Path.same "." "-" = false ∧
      ⟨"d.cs/.b.cs", "./d.cs/.b.cs"⟩ ∈ mixedTree.scan false "." ∧
      ∀ f ∈ mixedTree.scan false ".", f.relPath ∉ ["l.cs", ".git/g.cs", "d.cs/.cs"] := by
  have hdir : mixedTree.isDirectory "." = true := by
    rw [isDirectory, find?, mixedTree_resolve]
    rfl
  obtain ⟨here, hroot, hlists⟩ := scan_listsSources mixedTree_isSound hdir (by decide)
  obtain rfl := Except.ok.inj (mixedTree_resolve.symm.trans hroot)
  refine ⟨mixedTree_isSound, hdir, by decide, ?_, fun f hf hmem => ?_⟩
  · refine (hlists.mem_iff _).mpr ⟨["d.cs", ".b.cs"], ⟨⟨_, rfl⟩, by decide, ".b", by decide, rfl⟩, ?_⟩
    decide
  · obtain ⟨names, hholds, -, hrel, -⟩ := (hlists.mem_iff f).mp hf
    have hslash (n : String) (hn : n ∈ names) := (hholds.isName mixedTree_isSound n hn).noSlash
    -- The path tells the names, and these are no source.
    have hnot (other : List String) (hne : other ≠ []) (hother : ∀ n ∈ other, '/' ∉ n.toList)
        (hpath : f.relPath = String.intercalate "/" other) : mixedTree.HoldsSource ["w"] other :=
      Path.intercalate_inj hholds.names_ne hne hslash hother (hrel.symm.trans hpath) ▸ hholds
    simp only [List.mem_cons, List.not_mem_nil, or_false] at hmem
    rcases hmem with hpath | hpath | hpath
    · obtain ⟨content, hcontent⟩ := (hnot ["l.cs"] (by decide) (by decide) hpath).leads
      cases hcontent
    · exact absurd (hnot [".git", "g.cs"] (by decide) (by decide) hpath).notGit (by decide)
    · obtain ⟨stem, hstem, hlast⟩ := (hnot ["d.cs", ".cs"] (by decide) (by decide) hpath).name
      have hempty : stem.toList ++ ".cs".toList = [] ++ ".cs".toList := by
        rw [← String.toList_append, ← Option.some.inj hlast]
        rfl
      exact hstem (String.toList_eq_nil_iff.mp (List.append_cancel_right hempty))

/-! ### Sources that are not listed -/

open Index (longName chainTree IsChain)

lemma holdsSource_of_isChain {above below : List String} (h : IsChain above below) (text : String) :
    (chainTree above below text).HoldsSource above below := by
  obtain ⟨last, hlast, hsource⟩ := h.endsInSource
  have hname := (h.isEntryName last (List.mem_append_right _ (List.mem_of_getLast? hlast))).isName
  obtain ⟨stem, hstem, rfl⟩ := (Path.isSource_iff hname).mp hsource
  exact ⟨⟨_, IsChain.at?_file above below text⟩, h.notGit, stem, hstem, hlast⟩

/-- Directories in each other whose path is too long to read the last of them, and a source in it. -/
def deepNames : List String :=
  List.replicate 16 (longName 'a') ++ ["a.cs"]

lemma isChain_deep : IsChain [] deepNames where
  isEntryName := by
    intro n hn
    rw [List.nil_append, deepNames] at hn
    rcases List.mem_append.mp hn with hn | hn
    · rw [List.eq_of_mem_replicate hn]
      exact Index.isEntryName_longName (by decide) (by decide) (by decide)
    · rw [List.mem_singleton.mp hn]
      decide
  notGit := by
    intro hmem
    rcases List.mem_append.mp hmem with hmem | hmem
    · have hsize := congrArg String.utf8ByteSize (List.eq_of_mem_replicate hmem)
      rw [Index.utf8ByteSize_longName (by decide)] at hsize
      exact absurd hsize (by decide)
    · exact absurd (List.mem_singleton.mp hmem) (by decide)
  endsInSource := ⟨"a.cs", by simp [deepNames], by decide⟩

lemma opens_deepNames : Scan.opens "." deepNames = false := by
  have hinit : deepNames.dropLast = List.replicate 16 (longName 'a') := List.dropLast_concat
  have hne : List.replicate 16 (longName 'a') ≠ [] := by simp
  have hsize : (String.intercalate "/" (List.replicate 16 (longName 'a'))).utf8ByteSize + 1 = 4096 := by
    rw [Index.utf8ByteSize_intercalate hne, List.map_replicate, Index.utf8ByteSize_longName (by decide),
      List.sum_replicate]
    rfl
  have hrelative : Path.isAbsolute (String.intercalate "/" (List.replicate 16 (longName 'a'))) = false :=
    Path.isAbsolute_intercalate hne fun n hn =>
      (isChain_deep.isEntryName n (List.mem_append_right [] (List.mem_append_left ["a.cs"] hn))).isName
  have hpath : Path.join "." (String.intercalate "/" (List.replicate 16 (longName 'a'))) =
      "./" ++ String.intercalate "/" (List.replicate 16 (longName 'a')) := by
    rw [Path.join, if_neg (Bool.eq_false_iff.mp hrelative), if_neg (by decide)]
    rfl
  rw [Scan.opens, hinit, Scan.found, hpath, String.utf8ByteSize_append, Bool.or_eq_false_iff]
  have hpoint : "./".utf8ByteSize = 2 := rfl
  exact ⟨by simp, decide_eq_false (by omega)⟩

/-- A directory whose name is a hyphen, with a source in it. -/
def hyphenTree : FileTree where
  root := .directory [("-", .directory [("a.cs", .file .empty)])]
  workingDirectory := []

lemma hyphenTree_isSound : hyphenTree.root.IsSound := by
  have hinner : (Entry.directory [("a.cs", .file .empty)]).IsSound :=
    .directory (by simp) (by simp only [List.forall_mem_cons]; decide) (by simpa using .file .empty)
  exact .directory (by simp) (by simp only [List.forall_mem_cons]; decide) (by simpa using hinner)

/-- A source is not listed if the path of the root stands for the standard input, however it is spelled, or
if its directory is too deep to be read by its path. -/
theorem scan_misses_sources :
    (hyphenTree.root.IsSound ∧ hyphenTree.isDirectory "-/" = true ∧ hyphenTree.resolve "-/" = .ok ["-"] ∧
      hyphenTree.HoldsSource ["-"] ["a.cs"] ∧ hyphenTree.scan false "-/" = []) ∧
    let deep := chainTree [] deepNames ""
    deep.root.IsSound ∧ deep.isDirectory "." = true ∧ deep.resolve "." = .ok [] ∧ deep.HoldsSource [] deepNames ∧
      deep.scan false "." = [] := by
  have hresolve : hyphenTree.resolve "-/" = .ok ["-"] := resolve_of_steps 20 (by decide) rfl
  refine ⟨⟨hyphenTree_isSound, ?_, hresolve, ⟨⟨_, rfl⟩, by decide, "a", by decide, rfl⟩, ?_⟩, isChain_deep.isSound,
    isChain_deep.isDirectory, isChain_deep.resolve_root, holdsSource_of_isChain isChain_deep "", ?_⟩
  · rw [isDirectory, find?, hresolve]
    rfl
  · rw [scan, if_pos (by decide)]
  · rw [isChain_deep.scan_eq, opens_deepNames, if_neg Bool.false_ne_true]

end FileTree

end CodeContext
