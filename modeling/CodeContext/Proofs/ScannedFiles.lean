import CodeContext.Files.Scan
import CodeContext.Proofs.Resolution
import Mathlib.Data.List.Nodup

/-!
# Which files a scan finds

The names by which a scan finds a file lead to a regular file with the name of a source. In a tree in which
no directory gives a name twice, a scan finds each file by one path, and the path joined to the root leads
to the file. So does the canonical path of the root joined to it, unless the whole is too long.
-/

namespace CodeContext

/-! ### Sound trees -/

/-- A text that a file system takes as a name. -/
structure Path.IsEntryName (n : String) : Prop where
  isName : IsName n
  noNull : '\x00' ∉ n.toList
  short : n.utf8ByteSize ≤ 255

instance (n : String) : Decidable (Path.IsEntryName n) :=
  decidable_of_iff (Path.IsName n ∧ '\x00' ∉ n.toList ∧ n.utf8ByteSize ≤ 255)
    ⟨fun h => ⟨h.1, h.2.1, h.2.2⟩, fun h => ⟨h.isName, h.noNull, h.short⟩⟩

namespace Entry

/-- The entries of every directory have names that a file system takes, no two of them the same. -/
inductive IsSound : Entry → Prop
  | file (content : ByteArray) : IsSound (.file content)
  | link (target : String) : IsSound (.link target)
  | directory {entries : List (String × Entry)} (nodup : (entries.map Prod.fst).Nodup)
      (isEntryName : ∀ e ∈ entries, Path.IsEntryName e.1) (inner : ∀ e ∈ entries, IsSound e.2) :
      IsSound (.directory entries)

lemma mem_of_lookup {entries : List (String × Entry)} {n : String} {e : Entry} (h : entries.lookup n = some e) :
    (n, e) ∈ entries := by
  obtain ⟨before, after, rfl, -⟩ := List.lookup_eq_some_iff.mp h
  simp

/-- The first name of a way through a directory is that of an entry, from which the way goes on. -/
lemma exists_mem_of_at? {entries : List (String × Entry)} {n : String} {rest : List String} {e : Entry}
    (h : (directory entries).at? (n :: rest) = some e) : ∃ child, (n, child) ∈ entries ∧ child.at? rest = some e := by
  rw [at?, child?] at h
  split at h
  · cases h
  · rename_i child hchild
    exact ⟨child, mem_of_lookup hchild, h⟩

lemma lookup_of_mem {entries : List (String × Entry)} (hnodup : (entries.map Prod.fst).Nodup) {n : String} {e : Entry}
    (h : (n, e) ∈ entries) : entries.lookup n = some e := by
  obtain ⟨before, after, rfl⟩ := List.append_of_mem h
  refine List.lookup_eq_some_iff.mpr ⟨before, after, rfl, fun p hp => ?_⟩
  rw [List.map_append, List.map_cons, List.nodup_append] at hnodup
  have hne := hnodup.2.2 p.1 (List.mem_map_of_mem hp) n List.mem_cons_self
  simpa using hne.symm

lemma IsSound.of_at? {e f : Entry} {names : List String} (he : e.IsSound) (h : e.at? names = some f) :
    f.IsSound ∧ ∀ n ∈ names, Path.IsEntryName n := by
  induction names generalizing e with
  | nil =>
    obtain rfl : e = f := Option.some.inj h
    exact ⟨he, by simp⟩
  | cons n names ih =>
    cases he with
    | file | link => cases h
    | @directory entries nodup isEntryName inner =>
      obtain ⟨child, hmem, h⟩ := exists_mem_of_at? h
      obtain ⟨hf, hnames⟩ := ih (inner _ hmem) h
      exact ⟨hf, List.forall_mem_cons.mpr ⟨isEntryName _ hmem, hnames⟩⟩

end Entry

/-! ### The names of scanned files -/

namespace Scan

variable (t : FileTree)

/-- Names that lead from an entry to a regular file. -/
def LeadsToFile (e : Entry) (names : List String) : Prop :=
  ∃ content, e.at? names = some (.file content)

/-- Some names end in the name of a source. -/
def EndsInSource (names : List String) : Prop :=
  ∃ name, names.getLast? = some name ∧ Path.isSource name = true

/-- A list holds names from a directory with an entry to sources in it, each one time. -/
structure ListsSources (name : String) (e : Entry) (found : List (List String)) : Prop where
  nodup : found.Nodup
  leads : ∀ names ∈ found, ∃ below, names = name :: below ∧ LeadsToFile e below
  endsInSource : ∀ names ∈ found, EndsInSource names

lemma listsSources_nil (name : String) (e : Entry) : ListsSources name e [] :=
  ⟨.nil, by simp, by simp⟩

lemma LeadsToFile.of_mem {entries : List (String × Entry)} (hnodup : (entries.map Prod.fst).Nodup) {name : String}
    {e : Entry} (hmem : (name, e) ∈ entries) {below : List String} (h : LeadsToFile e below) :
    LeadsToFile (.directory entries) (name :: below) := by
  obtain ⟨content, h⟩ := h
  refine ⟨content, ?_⟩
  rw [Entry.at?, Entry.child?, Entry.lookup_of_mem hnodup hmem]
  exact h

mutual

lemma listsSources_inEntry (layers : Layers) (here : List String) (name : String) :
    ∀ e : Entry, e.IsSound → ListsSources name e (inEntry t layers here name e)
  | .link _, _ => by
    rw [inEntry]
    exact listsSources_nil name _
  | .file content, _ => by
    rw [inEntry]
    split
    · exact listsSources_nil name _
    · rename_i h
      have hsource : Path.isSource name = true := by
        by_contra hnot
        simp [hnot] at h
      exact ⟨by simp, by simpa using ⟨content, rfl⟩, by simpa using ⟨name, rfl, hsource⟩⟩
  | .directory entries, .directory nodup isEntryName inner => by
    rw [inEntry]
    split
    · exact listsSources_nil name _
    · obtain ⟨hnodup, hfound⟩ :=
        nodup_inEntries (enter t layers (here ++ [name])) (here ++ [name]) entries nodup inner
      refine ⟨hnodup.map List.cons_injective, ?_, ?_⟩
      · intro names hnames
        obtain ⟨below, hbelow, rfl⟩ := List.mem_map.mp hnames
        obtain ⟨⟨n, e, hmem, hlists⟩, -⟩ := hfound below hbelow
        obtain ⟨below, rfl, hleads⟩ := hlists
        exact ⟨n :: below, rfl, hleads.of_mem nodup hmem⟩
      · intro names hnames
        obtain ⟨below, hbelow, rfl⟩ := List.mem_map.mp hnames
        obtain ⟨last, hlast, hsource⟩ := (hfound below hbelow).2
        refine ⟨last, ?_, hsource⟩
        rw [List.getLast?_cons, hlast]
        rfl

lemma nodup_inEntries (layers : Layers) (here : List String) :
    ∀ entries : List (String × Entry), (entries.map Prod.fst).Nodup → (∀ e ∈ entries, e.2.IsSound) →
      (inEntries t layers here entries).Nodup ∧ ∀ names ∈ inEntries t layers here entries,
        (∃ n e, (n, e) ∈ entries ∧ ∃ below, names = n :: below ∧ LeadsToFile e below) ∧ EndsInSource names
  | [], _, _ => by simp [inEntries]
  | (name, e) :: rest, hnodup, hsound => by
    rw [List.map_cons, List.nodup_cons] at hnodup
    obtain ⟨hfirst, hleads, hends⟩ := listsSources_inEntry layers here name e (hsound _ List.mem_cons_self)
    obtain ⟨hrest, hfound⟩ :=
      nodup_inEntries layers here rest hnodup.2 fun e he => hsound e (List.mem_cons_of_mem _ he)
    rw [inEntries]
    refine ⟨List.nodup_append.mpr ⟨hfirst, hrest, ?_⟩, ?_⟩
    · -- What is found in different entries begins with different names.
      rintro names hnames _ hnames' rfl
      obtain ⟨below, rfl, -⟩ := hleads names hnames
      obtain ⟨⟨n, e', hmem, below', heq, -⟩, -⟩ := hfound _ hnames'
      obtain ⟨rfl, -⟩ := List.cons.inj heq
      exact hnodup.1 (List.mem_map.mpr ⟨_, hmem, rfl⟩)
    · intro names hnames
      rcases List.mem_append.mp hnames with hnames | hnames
      · exact ⟨⟨name, e, List.mem_cons_self, hleads names hnames⟩, hends names hnames⟩
      · obtain ⟨⟨n, e', hmem, hlists⟩, hends⟩ := hfound names hnames
        exact ⟨⟨n, e', List.mem_cons_of_mem _ hmem, hlists⟩, hends⟩

end

end Scan

/-! ### Files and their paths -/

/-- The pieces of a path seen from another one. If that one ends in a slash, its last piece is empty and
left out. -/
lemma Path.pieces_join {base path : String} (hbase : base ≠ "") (hpath : isAbsolute path = false) :
    ∃ ps, ps ≠ [] ∧ (pieces base = ps ∨ pieces base = ps ++ [""]) ∧ pieces (join base path) = ps ++ pieces path := by
  by_cases hslash : base.toList.getLast? = some '/'
  · obtain ⟨start, rfl⟩ := exists_eq_append_slash hslash
    refine ⟨pieces start, pieces_ne_nil start, .inr ?_, ?_⟩
    · have hempty := pieces_append_slash start ""
      rwa [String.append_empty] at hempty
    · rw [join, if_neg (by simp [hpath]), if_pos (by simp), pieces_append_slash]
  · refine ⟨pieces base, pieces_ne_nil base, .inl rfl, ?_⟩
    rw [join, if_neg (by simp [hpath]), if_neg (by simp [hbase, hslash]), pieces_append_slash]

lemma Path.isAbsolute_append_of_ne {base : String} (hbase : base ≠ "") (rest : String) :
    isAbsolute (base ++ rest) = isAbsolute base := by
  unfold isAbsolute
  rw [String.toList_append, List.head?_append_of_ne_nil _ (by simpa using hbase)]

lemma Path.isAbsolute_join_of_relative {base path : String} (hbase : base ≠ "") (hpath : isAbsolute path = false) :
    isAbsolute (join base path) = isAbsolute base := by
  rw [join, if_neg (by simp [hpath])]
  split
  · exact isAbsolute_append_of_ne hbase path
  · rw [String.append_assoc, isAbsolute_append_of_ne hbase]

lemma Path.join_append {path : String} (hpath : path ≠ "") (base rest : String) :
    join base (path ++ rest) = join base path ++ rest := by
  unfold join
  rw [isAbsolute_append_of_ne hpath]
  split
  · rfl
  · split <;> simp only [String.append_assoc]

lemma Path.intercalate_inj {names names' : List String} (hne : names ≠ []) (hne' : names' ≠ [])
    (h : ∀ n ∈ names, '/' ∉ n.toList) (h' : ∀ n ∈ names', '/' ∉ n.toList)
    (heq : String.intercalate "/" names = String.intercalate "/" names') : names = names' := by
  rw [← pieces_intercalate hne h, heq, pieces_intercalate hne' h']

lemma Path.isAbsolute_intercalate {names : List String} (hne : names ≠ []) (h : ∀ n ∈ names, IsName n) :
    isAbsolute (String.intercalate "/" names) = false := by
  obtain ⟨n, rest, rfl⟩ := List.exists_cons_of_ne_nil hne
  have hn := h n List.mem_cons_self
  by_cases hr : rest = []
  · rw [hr, String.intercalate_singleton, isAbsolute_of_noSlash hn.noSlash]
  · rw [String.intercalate_cons_of_ne_nil hr, String.append_assoc, isAbsolute_append_of_ne hn.ne_empty,
      isAbsolute_of_noSlash hn.noSlash]

lemma Path.intercalate_ne_empty {names : List String} (hne : names ≠ []) (h : ∀ n ∈ names, IsName n) :
    String.intercalate "/" names ≠ "" := by
  obtain ⟨n, rest, rfl⟩ := List.exists_cons_of_ne_nil hne
  have hn := (h n List.mem_cons_self).ne_empty
  by_cases hr : rest = []
  · rwa [hr, String.intercalate_singleton]
  · rw [String.intercalate_cons_of_ne_nil hr]
    simp [hn]

@[simp]
lemma Scan.opens_singleton (root n : String) : opens root [n] = true := by
  simp [opens]

lemma Scan.opens_of_short {root : String} {names : List String} (h : ∀ n ∈ names, Path.IsName n)
    (hshort : (found root names).path.utf8ByteSize < 4096) : opens root names = true := by
  by_cases hinit : names.dropLast = []
  · simp [opens, hinit]
  · have hne : names ≠ [] := fun hnil => hinit (by simp [hnil])
    have hnames : String.intercalate "/" names =
        String.intercalate "/" names.dropLast ++ ("/" ++ names.getLast hne) := by
      conv_lhs => rw [← List.dropLast_concat_getLast hne]
      rw [String.intercalate_append_of_ne_nil hinit (by simp), String.intercalate_singleton, String.append_assoc]
    have hpath : Path.join root (String.intercalate "/" names) =
        Path.join root (String.intercalate "/" names.dropLast) ++ ("/" ++ names.getLast hne) := by
      rw [hnames, Path.join_append]
      exact Path.intercalate_ne_empty hinit fun n hn => h n (List.dropLast_subset _ hn)
    rw [found, hpath, String.utf8ByteSize_append] at hshort
    rw [opens, found, Bool.or_eq_true, decide_eq_true_iff]
    exact .inr (Nat.lt_of_le_of_lt (Nat.le_add_right _ _) hshort)

namespace FileTree

/-- A scanned file is known by names from the canonical path of the root. -/
structure FindsSource (t : FileTree) (root : String) (f : SourceFile) (here names : List String) : Prop where
  resolve_root : t.resolve root = .ok here
  leads : Scan.LeadsToFile t.root (here ++ names)
  names_ne : names ≠ []
  endsInSource : Scan.EndsInSource names
  found : f = Scan.found root names

/-- The layers of ignore rules for what is in the directory where a scan starts. -/
def layersOf (t : FileTree) (respectIgnore : Bool) (here : List String) : Scan.Layers :=
  Scan.enter t (if respectIgnore then some (IgnoreLayer.above t here.length here) else none) here

lemma scan_of_isDirectory {t : FileTree} {root : String} (hdir : t.isDirectory root = true) :
    ∃ here entries, t.resolve root = .ok here ∧ t.root.at? here = some (.directory entries) ∧
      ∀ respectIgnore, t.scan respectIgnore root = if Path.same root "-" then [] else
        Scan.ordered (((Scan.inEntries t (t.layersOf respectIgnore here) here entries).filter (Scan.opens root)).map
          (Scan.found root)) := by
  unfold isDirectory find? at hdir
  split at hdir
  · rename_i here hhere
    obtain ⟨e, he, hdirectory⟩ := (Option.any_eq_true _ _).mp hdir
    cases e with
    | file | link => cases hdirectory
    | directory entries =>
      refine ⟨here, entries, hhere, he, fun respectIgnore => ?_⟩
      simp only [scan, hhere, he]
      rfl
  · cases hdir

lemma listsNames_inEntries {t : FileTree} (ht : t.root.IsSound) {here : List String} {entries : List (String × Entry)}
    (hentries : t.root.at? here = some (.directory entries)) (layers : Scan.Layers) :
    (Scan.inEntries t layers here entries).Nodup ∧ ∀ names ∈ Scan.inEntries t layers here entries,
      Scan.LeadsToFile t.root (here ++ names) ∧ names ≠ [] ∧ Scan.EndsInSource names := by
  cases (ht.of_at? hentries).1 with
  | directory nodup isEntryName inner =>
    obtain ⟨hnodup, hfound⟩ := Scan.nodup_inEntries t layers here entries nodup inner
    refine ⟨hnodup, fun names hnames => ?_⟩
    obtain ⟨⟨n, e, hmem, below, rfl, hleads⟩, hends⟩ := hfound names hnames
    obtain ⟨content, hcontent⟩ := hleads.of_mem nodup hmem
    refine ⟨⟨content, ?_⟩, List.cons_ne_nil _ _, hends⟩
    rw [Entry.at?_append, hentries, Option.bind_some, hcontent]

lemma isEntryName_of_leadsToFile {t : FileTree} (ht : t.root.IsSound) {names : List String}
    (h : Scan.LeadsToFile t.root names) : ∀ n ∈ names, Path.IsEntryName n := by
  obtain ⟨content, hcontent⟩ := h
  exact (ht.of_at? hcontent).2

theorem findsSource_of_mem_scan {t : FileTree} (ht : t.root.IsSound) {root : String}
    (hdir : t.isDirectory root = true) {respectIgnore : Bool} {f : SourceFile} (hf : f ∈ t.scan respectIgnore root) :
    ∃ here names, t.FindsSource root f here names := by
  obtain ⟨here, entries, hroot, hentries, hscan⟩ := scan_of_isDirectory hdir
  rw [hscan] at hf
  split at hf
  · cases hf
  · rw [Scan.ordered, List.mem_mergeSort] at hf
    obtain ⟨names, hnames, rfl⟩ := List.mem_map.mp hf
    obtain ⟨hleads, hne, hends⟩ := (listsNames_inEntries ht hentries _).2 names (List.mem_of_mem_filter hnames)
    exact ⟨here, names, hroot, hleads, hne, hends, rfl⟩

/-- A scan of a directory finds no file two times, and gives the files in the order of their paths. -/
theorem pairwise_scan {t : FileTree} (ht : t.root.IsSound) {root : String} (hdir : t.isDirectory root = true)
    (respectIgnore : Bool) : (t.scan respectIgnore root).Pairwise fun a b => a.relPath < b.relPath := by
  obtain ⟨here, entries, hroot, hentries, hscan⟩ := scan_of_isDirectory hdir
  rw [hscan]
  split
  · exact .nil
  · obtain ⟨hnodup, hnames⟩ := listsNames_inEntries ht hentries (t.layersOf respectIgnore here)
    have hslash (names : List String) (hmem : names ∈ Scan.inEntries t (t.layersOf respectIgnore here) here entries) :
        ∀ n ∈ names, '/' ∉ n.toList := fun n hn =>
      (isEntryName_of_leadsToFile ht (hnames names hmem).1 n (List.mem_append_right _ hn)).isName.noSlash
    have hdistinct := (hnodup.filter (Scan.opens root)).map_on fun a ha b hb heq =>
      Path.intercalate_inj (hnames a (List.mem_of_mem_filter ha)).2.1 (hnames b (List.mem_of_mem_filter hb)).2.1
        (hslash a (List.mem_of_mem_filter ha)) (hslash b (List.mem_of_mem_filter hb)) heq
    generalize (Scan.inEntries t (t.layersOf respectIgnore here) here entries).filter (Scan.opens root) = found
      at hdistinct
    have hordered : (Scan.ordered (found.map (Scan.found root))).Pairwise fun a b => a.relPath ≤ b.relPath :=
      (List.pairwise_mergeSort (by simpa using fun a b c => String.le_trans)
        (by simpa using fun a b => String.le_total _ _) _).imp (by simp)
    have hpaths : ((Scan.ordered (found.map (Scan.found root))).map SourceFile.relPath).Nodup := by
      rw [Scan.ordered, ((List.mergeSort_perm _ _).map _).nodup_iff, List.map_map]
      exact hdistinct
    exact (hordered.and (List.pairwise_map.mp hpaths)).imp fun h => Std.lt_of_le_of_ne h.1 h.2

/-! ### Where the paths lead -/

/-- Pieces may be walked through after others if they can be with any count of links. -/
lemma Walk.append {root : Entry} {links : Nat} {here ps qs middle out : List String}
    (h : Walk root links here ps middle) (hrest : ∀ links, Walk root links middle qs out) :
    Walk root links here (ps ++ qs) out := by
  induction h with
  | done links here => exact hrest links
  | stay dir idle next ih => exact .stay dir idle (ih hrest)
  | up dir next ih => exact .up dir (ih hrest)
  | @follow links here rest out piece target entries dir idle parent short entry next ih =>
    exact .follow dir idle parent short entry (List.append_assoc (Path.pieces target) rest qs ▸ ih hrest)
  | enter dir idle parent short entry solid next ih => exact .enter dir idle parent short entry solid (ih hrest)

lemma Walk.of_concat_idle {root : Entry} {links : Nat} {here ps out : List String} {p : String}
    (h : Walk root links here (ps ++ [p]) out) (hp : Path.isIdle p = true) : Walk root links here ps out := by
  generalize hall : ps ++ [p] = all at h
  induction h generalizing ps with
  | done links here => simp at hall
  | @stay links here rest out piece entries dir idle next ih =>
    cases ps with
    | nil =>
      cases hall
      exact next
    | cons q ps =>
      cases hall
      exact .stay dir idle (ih rfl)
  | @up links here rest out entries dir next ih =>
    cases ps with
    | nil =>
      cases hall
      cases hp
    | cons q ps =>
      cases hall
      exact .up dir (ih rfl)
  | @follow links here rest out piece target entries dir idle parent short entry next ih =>
    cases ps with
    | nil =>
      cases hall
      rw [hp] at idle
      cases idle
    | cons q ps =>
      cases hall
      exact .follow dir idle parent short entry (ih (List.append_assoc _ _ _))
  | @enter links here rest out piece entries e dir idle parent short entry solid next ih =>
    cases ps with
    | nil =>
      cases hall
      rw [hp] at idle
      cases idle
    | cons q ps =>
      cases hall
      exact .enter dir idle parent short entry solid (ih rfl)

lemma IsCanonical.walk {root : Entry} {here names : List String} (hc : IsCanonical root (here ++ names))
    (hn : ∀ n ∈ names, Path.IsEntryName n) (links : Nat) : Walk root links here names (here ++ names) := by
  induction names generalizing here with
  | nil =>
    rw [List.append_nil]
    exact .done links here
  | cons n rest ih =>
    obtain ⟨e, he, solid⟩ := hc.leads
    have hname := hn n List.mem_cons_self
    rw [Entry.at?_append] at he
    obtain ⟨d, hd, hrest⟩ := Option.bind_eq_some_iff.mp he
    cases d with
    | file | link => cases hrest
    | directory entries =>
      cases hlookup : entries.lookup n with
      | none => simp [Entry.at?, Entry.child?, hlookup] at hrest
      | some child =>
        have hsolid : ∀ target, child ≠ .link target := by
          rintro target rfl
          exact hc.lookup_ne_link hd hlookup
        rw [List.append_cons] at hc ⊢
        exact .enter hd (isIdle_of_isName hname.isName) hname.isName.ne_parent hname.short hlookup hsolid
          (ih hc fun m hm => hn m (List.mem_cons_of_mem _ hm))

lemma join_textOf {here names : List String} (hhere : ∀ n ∈ here, Path.IsEntryName n)
    (hnames : ∀ n ∈ names, Path.IsEntryName n) (hne : names ≠ []) :
    Path.join (textOf here) (String.intercalate "/" names) = textOf (here ++ names) := by
  have hrelative := Path.isAbsolute_intercalate hne fun n hn => (hnames n hn).isName
  have hbase : textOf here ≠ "" := by simp [textOf]
  by_cases hnil : here = []
  · subst hnil
    simp [Path.join, hrelative, textOf]
  · have hlast := Path.getLast?_append_intercalate hnil
      (fun n hn => ⟨(hhere n hn).isName.ne_empty, (hhere n hn).isName.noSlash⟩) "/"
    have hslash : ((textOf here).toList.getLast? == some '/') = false := by simpa [textOf] using hlast
    rw [Path.join, if_neg (by simp [hrelative]), if_neg (by simp [hbase, hslash]), textOf, textOf,
      String.intercalate_append_of_ne_nil hnil hne]
    simp only [String.append_assoc]

/-- A canonical path that is not too long leads to what it names. -/
theorem resolve_textOf {t : FileTree} {names : List String} (hc : IsCanonical t.root names) (hne : names ≠ [])
    (hnames : ∀ n ∈ names, Path.IsEntryName n) (hshort : (textOf names).utf8ByteSize < 4096) :
    t.resolve (textOf names) = .ok names := by
  have hstart : t.startOf (textOf names) = [] := by simp [startOf, textOf, Path.isAbsolute]
  have hpieces : Path.pieces (textOf names) = "" :: names := by rw [pieces_textOf hc.isName, if_neg hne]
  obtain ⟨e, he, -⟩ := hc.leads
  have hroot : ∃ entries, t.root.at? [] = some (.directory entries) := by
    obtain ⟨n, rest, rfl⟩ := List.exists_cons_of_ne_nil hne
    rw [Entry.at?] at he
    cases hr : t.root with
    | file | link =>
      rw [hr] at he
      cases he
    | directory entries => exact ⟨entries, rfl⟩
  obtain ⟨entries, hroot⟩ := hroot
  refine resolve_eq_ok_iff.mpr ⟨⟨by simp [textOf], ?_, hshort⟩, ?_⟩
  · intro hmem
    obtain ⟨p, hp, hnull⟩ := (Path.mem_toList_iff (by decide) _).mp hmem
    rw [hpieces] at hp
    rcases List.mem_cons.mp hp with rfl | hp
    · simp at hnull
    · exact (hnames p hp).noNull hnull
  · rw [hstart, hpieces]
    exact .stay hroot rfl (IsCanonical.walk hc hnames linkLimit)

variable {t : FileTree} {root : String} {f : SourceFile} {here names : List String}

lemma FindsSource.isCanonical (ht : t.root.IsSound) (h : t.FindsSource root f here names) :
    IsCanonical t.root (here ++ names) := by
  obtain ⟨content, hcontent⟩ := h.leads
  exact ⟨fun n hn => (isEntryName_of_leadsToFile ht h.leads n hn).isName, _, hcontent, fun target => nofun⟩

lemma FindsSource.relPath_eq (h : t.FindsSource root f here names) : f.relPath = String.intercalate "/" names := by
  rw [h.found, Scan.found]

lemma FindsSource.path_eq (h : t.FindsSource root f here names) : f.path = Path.join root f.relPath := by
  rw [h.found, Scan.found]

/-- The path that a scanned file is read by starts where the root does, and goes on with the file's names. -/
lemma FindsSource.pieces_path (ht : t.root.IsSound) (h : t.FindsSource root f here names) :
    f.path ≠ "" ∧ t.startOf f.path = t.startOf root ∧
      ∃ ps, (Path.pieces root = ps ∨ Path.pieces root = ps ++ [""]) ∧ Path.pieces f.path = ps ++ names := by
  have hnames (n : String) (hn : n ∈ names) : Path.IsEntryName n :=
    isEntryName_of_leadsToFile ht h.leads n (List.mem_append_right _ hn)
  have hroot := (resolve_eq_ok_iff.mp h.resolve_root).1.1
  have hrelative := Path.isAbsolute_intercalate h.names_ne fun n hn => (hnames n hn).isName
  obtain ⟨ps, -, hps, hjoin⟩ := Path.pieces_join hroot hrelative
  rw [Path.pieces_intercalate h.names_ne fun n hn => (hnames n hn).isName.noSlash] at hjoin
  rw [h.path_eq, h.relPath_eq]
  refine ⟨?_, ?_, ps, hps, hjoin⟩
  · rw [Path.join, if_neg (by simp [hrelative])]
    split <;> simp [hroot]
  · rw [startOf, startOf, Path.isAbsolute_join_of_relative hroot hrelative]

lemma FindsSource.walk (ht : t.root.IsSound) (h : t.FindsSource root f here names) :
    Walk t.root linkLimit (t.startOf f.path) (Path.pieces f.path) (here ++ names) := by
  have hwalk := (resolve_eq_ok_iff.mp h.resolve_root).2
  have hrest (links : Nat) := IsCanonical.walk (h.isCanonical ht)
    (fun n hn => isEntryName_of_leadsToFile ht h.leads n (List.mem_append_right _ hn)) links
  obtain ⟨-, hstart, ps, hps, hpieces⟩ := h.pieces_path ht
  rw [hstart, hpieces]
  rcases hps with hps | hps
  · rw [hps] at hwalk
    exact hwalk.append hrest
  · rw [hps] at hwalk
    exact (hwalk.of_concat_idle rfl).append hrest

/-- The path that a scanned file is read by leads to the file, if it leads anywhere. -/
theorem FindsSource.eq_of_resolve (ht : t.root.IsSound) (h : t.FindsSource root f here names) {file : List String}
    (hfile : t.resolve f.path = .ok file) : file = here ++ names := by
  have hfound := resolveFrom_of_walk (resolve_eq_ok_iff.mp hfile).2
  exact Except.ok.inj (hfound.symm.trans (resolveFrom_of_walk (h.walk ht)))

/-- The path that a scanned file is read by leads to the file, if it is not too long. -/
theorem FindsSource.resolve_path (ht : t.root.IsSound) (h : t.FindsSource root f here names)
    (hshort : f.path.utf8ByteSize < 4096) : t.resolve f.path = .ok (here ++ names) := by
  obtain ⟨hne, -, ps, hps, hpieces⟩ := h.pieces_path ht
  refine resolve_eq_ok_iff.mpr ⟨⟨hne, fun hmem => ?_, hshort⟩, h.walk ht⟩
  obtain ⟨p, hp, hnull⟩ := (Path.mem_toList_iff (by decide) f.path).mp hmem
  rw [hpieces] at hp
  rcases List.mem_append.mp hp with hp | hp
  · have hpiece : p ∈ Path.pieces root := by
      rcases hps with hps | hps
      · rwa [hps]
      · rw [hps]
        exact List.mem_append_left _ hp
    exact (resolve_eq_ok_iff.mp h.resolve_root).1.2.1 ((Path.mem_toList_iff (by decide) root).mpr ⟨p, hpiece, hnull⟩)
  · exact (isEntryName_of_leadsToFile ht h.leads p (List.mem_append_right _ hp)).noNull hnull

end FileTree

end CodeContext
