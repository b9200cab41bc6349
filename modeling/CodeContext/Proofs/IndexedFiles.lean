import CodeContext.Proofs.FetchedMethods
import CodeContext.Proofs.RewrittenFiles

/-!
# Files in an index

An index of a directory has the nodes of each file that a scan finds, one file after the other, and a file
that cannot be read adds to the errors and to nothing else. If the contents of a file are replaced, only the
nodes of this file change, unless the contents were rules for the scan.
-/

namespace CodeContext

/-- The tree with other contents in the file at a place. -/
def FileTree.overwrite (t : FileTree) (place : List String) (content : ByteArray) : FileTree :=
  t.rewrite fun here old => if here = place then content else old

namespace Index

/-- The nodes that a file has in an index. One that cannot be read has none. -/
def nodesIn (t : FileTree) (f : SourceFile) : List Node :=
  match t.readText f.path with
  | .ok text => (CSharp.extract text f.relPath).nodes
  | .error _ => []

lemma path_of_mem_nodesIn {t : FileTree} {f : SourceFile} : ∀ n ∈ nodesIn t f, n.path = f.relPath := by
  intro n hn
  unfold nodesIn at hn
  split at hn
  · exact (CSharp.Source.exists_tellsMethod hn).1
  · cases hn

variable (t : FileTree) (files : List SourceFile)

lemma nodes_ofFiles : (ofFiles CSharp.Source.parse t files).nodes = files.flatMap (nodesIn t) := by
  rw [ofFiles_eq]
  refine List.flatMap_congr fun f _ => ?_
  rw [nodesOf?, nodesIn]
  cases t.readText f.path <;> rfl

/-! ### Other contents in one file -/

variable {t : FileTree} {root : String} {f g : SourceFile} {here names : List String}

/-- A file that a scan found beside another one keeps its nodes when the other one is overwritten. -/
lemma nodesIn_overwrite (ht : t.root.IsSound) (hf : t.FindsSource root f here names) {here' names' : List String}
    (hg : t.FindsSource root g here' names') (hne : g.relPath ≠ f.relPath) (content : ByteArray) :
    nodesIn (t.overwrite (here ++ names) content) g = nodesIn t g := by
  obtain rfl : here = here' := Except.ok.inj (hf.resolve_root.symm.trans hg.resolve_root)
  have hread : (t.overwrite (here ++ names) content).readText g.path = t.readText g.path := by
    refine FileTree.readText_rewrite _ t fun file hfile old => if_neg ?_
    rw [hg.eq_of_resolve ht hfile]
    intro heq
    have hnames : names' = names := List.append_cancel_left heq
    exact hne (by rw [hg.relPath_eq, hf.relPath_eq, hnames])
  unfold nodesIn
  rw [hread]

lemma ofPath_of_isDirectory (hroot : t.isDirectory root = true) (respectIgnore : Bool) :
    ofPath t respectIgnore root = ofFiles CSharp.Source.parse t (t.scan respectIgnore root) := by
  rw [ofPath, ofPathWith, sources, if_pos hroot]

/-- Other contents in a file do not change what a scan finds, if it honours no ignore file that leads to the
file. -/
lemma scan_overwrite (hroot : t.isDirectory root = true) (hf : t.FindsSource root f here names) {respectIgnore : Bool}
    (hrules : respectIgnore = true → ∀ directory, directory <+: here ∨ here <+: directory →
      ¬ IgnoreLayer.LeadsTo t directory (here ++ names)) (content : ByteArray) :
    (t.overwrite (here ++ names) content).scan respectIgnore root = t.scan respectIgnore root := by
  refine FileTree.scan_rewrite hroot hf.resolve_root fun hrespect directory hdirectory place hleads old => if_neg ?_
  rintro rfl
  exact hrules hrespect directory hdirectory hleads

/-- If two trees differ in the nodes of one file only, these stand between nodes of other files. -/
lemma exists_block {t t' : FileTree} {files : List SourceFile} (hpairwise : files.Pairwise fun f g => f.relPath < g.relPath)
    (hf : f ∈ files) (hkept : ∀ g ∈ files, g.relPath ≠ f.relPath → nodesIn t' g = nodesIn t g) :
    ∃ before after, files.flatMap (nodesIn t) = before ++ nodesIn t f ++ after ∧
      files.flatMap (nodesIn t') = before ++ nodesIn t' f ++ after ∧ ∀ n ∈ before ++ after, n.path ≠ f.relPath := by
  obtain ⟨pre, post, rfl⟩ := List.append_of_mem hf
  have hother : ∀ g ∈ pre ++ post, g.relPath ≠ f.relPath := by
    rw [List.pairwise_append, List.pairwise_cons] at hpairwise
    refine List.forall_mem_append.mpr ⟨fun g hg heq => ?_, fun g hg heq => ?_⟩
    · exact String.lt_irrefl _ (heq ▸ hpairwise.2.2 g hg f List.mem_cons_self)
    · exact String.lt_irrefl _ (heq ▸ hpairwise.2.1.1 g hg)
  have hsame : ∀ g ∈ pre ++ post, nodesIn t' g = nodesIn t g := by
    intro g hg
    refine hkept g ?_ (hother g hg)
    rw [List.mem_append, List.mem_cons]
    exact (List.mem_append.mp hg).imp_right .inr
  obtain ⟨hpre, hpost⟩ := List.forall_mem_append.mp hsame
  refine ⟨pre.flatMap (nodesIn t), post.flatMap (nodesIn t), ?_, ?_, fun n hn => ?_⟩
  · rw [List.flatMap_append, List.flatMap_cons, List.append_assoc]
  · rw [List.flatMap_append, List.flatMap_cons, List.append_assoc, List.flatMap_congr hpre, List.flatMap_congr hpost]
  · rw [← List.flatMap_append] at hn
    obtain ⟨g, hg, hng⟩ := List.mem_flatMap.mp hn
    rw [path_of_mem_nodesIn n hng]
    exact hother g hg

/-- The index of a directory has the nodes of the files that a scan finds, in the order of their paths, and
counts the files that cannot be read as errors. Other contents in one file change no nodes but those of this
file, which stand together, unless the scan honours an ignore file that leads to it. -/
theorem index_of_overwritten_file (ht : t.root.IsSound) (hroot : t.isDirectory root = true) (respectIgnore : Bool) :
    let files := t.scan respectIgnore root
    let index := ofPath t respectIgnore root
    (files.Pairwise fun f g => f.relPath < g.relPath) ∧ index.nodes = files.flatMap (nodesIn t) ∧
      index.scanned = files.length ∧ index.indexed + index.errors = index.scanned ∧
      index.errors = (files.countP fun f => !(t.readText f.path).isOk) ∧ index.count = index.nodes.length ∧
      ∀ f ∈ files, ∃ here names, t.FindsSource root f here names ∧
        ((respectIgnore = true → ∀ directory, directory <+: here ∨ here <+: directory →
            ¬ IgnoreLayer.LeadsTo t directory (here ++ names)) →
          ∀ content, ∃ before after, index.nodes = before ++ nodesIn t f ++ after ∧
            (ofPath (t.overwrite (here ++ names) content) respectIgnore root).nodes =
              before ++ nodesIn (t.overwrite (here ++ names) content) f ++ after ∧
            (∀ n ∈ before ++ after, n.path ≠ f.relPath) ∧
            (∀ n ∈ nodesIn t f ++ nodesIn (t.overwrite (here ++ names) content) f, n.path = f.relPath)) := by
  intro files index
  have hpairwise := FileTree.pairwise_scan ht hroot respectIgnore
  have hindex : index = ofFiles CSharp.Source.parse t files := ofPath_of_isDirectory hroot respectIgnore
  have herrors : index.errors = files.countP fun f => !(t.readText f.path).isOk := by rw [hindex, ofFiles_eq]
  have hnodes : index.nodes = files.flatMap (nodesIn t) := hindex ▸ nodes_ofFiles t files
  have hscanned : index.scanned = files.length := by rw [hindex, ofFiles_eq]
  have hcount : index.count = index.nodes.length := by rw [hindex, ofFiles_eq]
  have hsum : index.indexed + index.errors = index.scanned := by
    rw [hscanned, hindex]
    exact indexed_add_errors CSharp.Source.parse t files
  refine ⟨hpairwise, hnodes, hscanned, hsum, herrors, hcount, fun f hf => ?_⟩
  obtain ⟨here, names, hfound⟩ := FileTree.findsSource_of_mem_scan ht hroot hf
  refine ⟨here, names, hfound, fun hrules content => ?_⟩
  have hroot' : (t.overwrite (here ++ names) content).isDirectory root = true :=
    (FileTree.isDirectory_rewrite _ t root).trans hroot
  have hnodes' : (ofPath (t.overwrite (here ++ names) content) respectIgnore root).nodes =
      files.flatMap (nodesIn (t.overwrite (here ++ names) content)) := by
    rw [ofPath_of_isDirectory hroot', nodes_ofFiles, scan_overwrite hroot hfound hrules content]
  have hkept : ∀ g ∈ files, g.relPath ≠ f.relPath →
      nodesIn (t.overwrite (here ++ names) content) g = nodesIn t g := by
    intro g hg hne
    obtain ⟨here', names', hfound'⟩ := FileTree.findsSource_of_mem_scan ht hroot hg
    exact nodesIn_overwrite ht hfound hfound' hne content
  obtain ⟨before, after, hbefore, hafter, hothers⟩ := exists_block hpairwise hf hkept
  exact ⟨before, after, hnodes.trans hbefore, hnodes'.trans hafter, hothers,
    List.forall_mem_append.mpr ⟨path_of_mem_nodesIn, path_of_mem_nodesIn⟩⟩

/-! ### A source that is an ignore file as well -/

/-- Two sources, with a link that makes an ignore file of the first. -/
def ruledTree (first second : ByteArray) : FileTree where
  root := .directory [(".ignore", .link "a.cs"), ("a.cs", .file first), ("b.cs", .file second)]
  workingDirectory := []

/-- The rules of a directory with only an ignore file of the first kind. -/
def rulesOf (content : ByteArray) : IgnoreLayer :=
  ⟨0, [IgnoreRule.ofLines (Text.inputLines content), [], []]⟩

section

variable (first second : ByteArray)

lemma ruledTree_isSound : (ruledTree first second).root.IsSound := by
  refine .directory ?_ ?_ ?_
  · simp only [List.map_cons, List.map_nil]
    decide
  · simp only [List.forall_mem_cons]
    decide
  · simpa using ⟨.link _, .file _, .file _⟩

lemma ruledTree_resolve_root : (ruledTree first second).resolve "." = .ok [] :=
  FileTree.resolve_of_steps 20 (by decide) rfl

lemma ruledTree_isDirectory : (ruledTree first second).isDirectory "." = true := by
  rw [FileTree.isDirectory, FileTree.find?, ruledTree_resolve_root]
  rfl

lemma ruledTree_resolveFrom (file : List String) (hfile : file ∈ IgnoreLayer.fileNames) :
    FileTree.resolveFrom (ruledTree first second).root FileTree.linkLimit [] file =
      if file = [".ignore"] then .ok ["a.cs"] else .error .notFound := by
  simp only [IgnoreLayer.fileNames, List.mem_cons, List.not_mem_nil, or_false] at hfile
  rcases hfile with rfl | rfl | rfl <;> exact @FileTree.resolveFrom_of_steps _ 20 _ _ _ _ rfl

lemma ruledTree_leadsTo {directory place : List String}
    (h : IgnoreLayer.LeadsTo (ruledTree first second) directory place) : place = ["a.cs"] := by
  cases directory with
  | nil =>
    obtain ⟨file, hfile, hplace⟩ := h
    rw [ruledTree_resolveFrom first second file hfile] at hplace
    split at hplace
    · exact (Except.ok.inj hplace).symm
    · cases hplace
  | cons n rest =>
    -- The root holds no directories.
    obtain ⟨entries, hentries⟩ := h.exists_entries
    obtain ⟨e, hmem, hentries⟩ := Entry.exists_mem_of_at? hentries
    simp only [List.mem_cons, Prod.mk.injEq, List.not_mem_nil, or_false] at hmem
    rcases hmem with ⟨-, rfl⟩ | ⟨-, rfl⟩ | ⟨-, rfl⟩ <;> cases rest <;> cases hentries

lemma ruledTree_layersOf : (ruledTree first second).layersOf true [] = some [rulesOf first] := by
  have hrules (file : List String) (hfile : file ∈ IgnoreLayer.fileNames) :
      IgnoreLayer.rulesAt (ruledTree first second) [] file =
        if file = [".ignore"] then IgnoreRule.ofLines (Text.inputLines first) else [] := by
    rw [IgnoreLayer.rulesAt, ruledTree_resolveFrom first second file hfile]
    by_cases hname : file = [".ignore"]
    · rw [if_pos hname, if_pos hname]
      rfl
    · rw [if_neg hname, if_neg hname]
  change some [IgnoreLayer.ofDirectory (ruledTree first second) []] = _
  rw [IgnoreLayer.ofDirectory, List.map_congr_left hrules]
  rfl

variable {first}

lemma ruledTree_scan (hfirst : IgnoreLayer.passesOver [rulesOf first] ["a.cs"] false = false) :
    (ruledTree first second).scan true "." = Scan.found "." ["a.cs"] ::
      if IgnoreLayer.passesOver [rulesOf first] ["b.cs"] false then [] else [Scan.found "." ["b.cs"]] := by
  obtain ⟨here, entries, hhere, hentries, hscan⟩ := FileTree.scan_of_isDirectory (ruledTree_isDirectory first second)
  obtain rfl := Except.ok.inj ((ruledTree_resolve_root first second).symm.trans hhere)
  obtain rfl := Entry.directory.inj (Option.some.inj hentries)
  rw [hscan, if_neg (by decide), ruledTree_layersOf]
  have hsources : Path.isSource "a.cs" = true ∧ Path.isSource "b.cs" = true := by decide
  simp only [Scan.inEntries, Scan.inEntry, Scan.passesOver, Option.any_some, List.nil_append, List.append_nil, hfirst,
    hsources]
  cases IgnoreLayer.passesOver [rulesOf first] ["b.cs"] false with
  | true => simp [Scan.ordered]
  | false =>
    rw [Scan.ordered, List.mergeSort_of_pairwise (by simp [Scan.found])]
    simp

lemma ruledTree_scan_both (hkept : IgnoreLayer.passesOver [rulesOf first] ["a.cs"] false = false ∧
    IgnoreLayer.passesOver [rulesOf first] ["b.cs"] false = false) :
    (ruledTree first second).scan true "." = [Scan.found "." ["a.cs"], Scan.found "." ["b.cs"]] := by
  rw [ruledTree_scan second hkept.1, if_neg (Bool.eq_false_iff.mp hkept.2)]

lemma ruledTree_resolve {name : String} (hname : name = "a.cs" ∨ name = "b.cs") :
    (ruledTree first second).resolve (Scan.found "." [name]).path = .ok [name] := by
  rcases hname with rfl | rfl <;> exact FileTree.resolve_of_steps 20 (by decide) rfl

variable {second}

lemma ruledTree_readText {name : String} (hname : name = "a.cs" ∨ name = "b.cs") {content : ByteArray}
    (hcontent : (ruledTree first second).root.at? [name] = some (.file content)) :
    (ruledTree first second).readText (Scan.found "." [name]).path =
      (String.fromUTF8? content).elim (.error .notText) .ok := by
  rw [FileTree.readText, ruledTree_resolve second hname]
  simp only [hcontent]
  cases String.fromUTF8? content <;> rfl

lemma ruledTree_nodesIn {name : String} (hname : name = "a.cs" ∨ name = "b.cs")
    (hcontent : (ruledTree first second).root.at? [name] = some (.file twoLines.toUTF8)) :
    nodesIn (ruledTree first second) (Scan.found "." [name]) = [CSharp.Method.toNode name ⟨"A", "M", 2, 3⟩] := by
  have hpath : (Scan.found "." [name]).relPath = name := by
    rcases hname with rfl | rfl <;> decide
  rw [nodesIn, ruledTree_readText hname hcontent, Text.fromUTF8?_toUTF8, Option.elim_some, hpath]
  simp only [CSharp.extract, CSharp.nodes_extractWith, twoLines_nodes]

end

/-- The nodes of a source stay in the index whatever the unreadable source beside it is replaced by. -/
theorem nodes_beside_unreadable_file :
    let t := ruledTree twoLines.toUTF8 ⟨#[0xff]⟩
    let index := ofPath t true "."
    let n := CSharp.Method.toNode "a.cs" ⟨"A", "M", 2, 3⟩
    t.root.IsSound ∧ t.isDirectory "." = true ∧ index.nodes = [n] ∧
      (index.scanned = 2 ∧ index.indexed = 1 ∧ index.errors = 1 ∧ index.count = 1) ∧
      ∀ content, (ofPath (t.overwrite ["b.cs"] content) true ".").nodes.filter (·.path ≠ "b.cs") = [n] := by
  intro t index n
  have ht : t.root.IsSound := ruledTree_isSound _ _
  have hroot : t.isDirectory "." = true := ruledTree_isDirectory _ _
  have hscan : t.scan true "." = [Scan.found "." ["a.cs"], Scan.found "." ["b.cs"]] :=
    ruledTree_scan_both _ (by decide +kernel)
  have hfirst : t.readText (Scan.found "." ["a.cs"]).path = .ok twoLines := by
    rw [ruledTree_readText (.inl rfl) rfl, Text.fromUTF8?_toUTF8, Option.elim_some]
  have hsecond : t.readText (Scan.found "." ["b.cs"]).path = .error .notText := by
    rw [ruledTree_readText (.inr rfl) rfl, show String.fromUTF8? ⟨#[0xff]⟩ = none by decide, Option.elim_none]
  have hn : nodesIn t (Scan.found "." ["a.cs"]) = [n] := ruledTree_nodesIn (.inl rfl) rfl
  obtain ⟨-, hnodes, hscanned, hsum, herrors, hcount, hrest⟩ := index_of_overwritten_file ht hroot true
  rw [hscan] at hnodes hscanned herrors hrest
  rw [List.flatMap_cons, List.flatMap_singleton, hn, nodesIn, hsecond] at hnodes
  have htwo : index.scanned = 2 := hscanned
  have herror : index.errors = 1 := by
    rw [herrors, List.countP_cons, List.countP_singleton, hfirst, hsecond]
    rfl
  have hindexed : index.indexed = 1 := by
    have hsum : index.indexed + index.errors = index.scanned := hsum
    omega
  have hone : index.count = 1 := by
    rw [hcount, hnodes]
    rfl
  refine ⟨ht, hroot, hnodes, ⟨htwo, hindexed, herror, hone⟩, fun content => ?_⟩
  obtain ⟨here, names, hfound, hchange⟩ := hrest _ (.tail _ (.head _))
  have hplace : here ++ names = ["b.cs"] := (hfound.eq_of_resolve ht (ruledTree_resolve _ (.inr rfl))).symm
  have hrules : true = true → ∀ directory, directory <+: here ∨ here <+: directory →
      ¬ IgnoreLayer.LeadsTo t directory (here ++ names) := fun _ directory _ hleads =>
    absurd (hplace.symm.trans (ruledTree_leadsTo _ _ hleads)) (by decide)
  obtain ⟨before, after, hbefore, hafter, hothers, hown⟩ := hchange hrules content
  have hpath : (Scan.found "." ["b.cs"]).relPath = "b.cs" := by decide
  rw [hpath] at hothers hown
  rw [nodesIn, hsecond, hnodes] at hbefore
  have hdropped :
      (nodesIn (t.overwrite (here ++ names) content) (Scan.found "." ["b.cs"])).filter (·.path ≠ "b.cs") = [] :=
    List.filter_eq_nil_iff.mpr fun m hm => by simpa using hown m (List.mem_append_right _ hm)
  have hkept : (before ++ after).filter (·.path ≠ "b.cs") = before ++ after :=
    List.filter_eq_self.mpr fun m hm => by simpa using hothers m hm
  rw [← hplace, hafter, List.filter_append, List.filter_append, hdropped, List.append_nil, ← List.filter_append, hkept]
  simpa using hbefore.symm

/-- Other contents in a source that is an ignore file as well bring the nodes of another source into the index. -/
theorem nodes_of_other_file_appear :
    let t := ruledTree "b.cs\n".toUTF8 twoLines.toUTF8
    t.root.IsSound ∧ t.isDirectory "." = true ∧ ∃ f ∈ t.scan true ".", t.FindsSource "." f [] ["a.cs"] ∧
      ∃ n ∈ (ofPath (t.overwrite ["a.cs"] .empty) true ".").nodes,
        n.path ≠ f.relPath ∧ n ∉ (ofPath t true ".").nodes := by
  intro t
  have hroot : t.isDirectory "." = true := ruledTree_isDirectory _ _
  have hscan : t.scan true "." = [Scan.found "." ["a.cs"]] := by
    have hrules : IgnoreLayer.passesOver [rulesOf "b.cs\n".toUTF8] ["a.cs"] false = false ∧
        IgnoreLayer.passesOver [rulesOf "b.cs\n".toUTF8] ["b.cs"] false = true := by decide +kernel
    rw [ruledTree_scan _ hrules.1, if_pos hrules.2]
  have hafter : (ruledTree .empty twoLines.toUTF8).scan true "." =
      [Scan.found "." ["a.cs"], Scan.found "." ["b.cs"]] := ruledTree_scan_both _ (by decide +kernel)
  have hoverwrite : t.overwrite ["a.cs"] .empty = ruledTree .empty twoLines.toUTF8 := by
    simp [t, ruledTree, FileTree.overwrite, FileTree.rewrite, Entry.rewrite, Entry.rewriteAll]
  have hfound : t.FindsSource "." (Scan.found "." ["a.cs"]) [] ["a.cs"] :=
    ⟨ruledTree_resolve_root _ _, ⟨_, rfl⟩, List.cons_ne_nil _ _, ⟨"a.cs", rfl, by decide⟩, rfl⟩
  refine ⟨ruledTree_isSound _ _, hroot, Scan.found "." ["a.cs"], hscan ▸ List.mem_singleton_self _, hfound,
    CSharp.Method.toNode "b.cs" ⟨"A", "M", 2, 3⟩, ?_, ?_, ?_⟩
  · rw [hoverwrite, ofPath_of_isDirectory (ruledTree_isDirectory _ _), hafter, nodes_ofFiles, List.mem_flatMap]
    refine ⟨_, .tail _ (.head _), ?_⟩
    exact ruledTree_nodesIn (.inr rfl) rfl ▸ List.mem_singleton_self _
  · decide
  · rw [ofPath_of_isDirectory hroot, hscan, nodes_ofFiles, List.flatMap_singleton]
    intro hmem
    exact absurd (path_of_mem_nodesIn _ hmem) (by decide)

end Index

end CodeContext
