import CodeContext.Proofs.IndexedFiles
import CodeContext.Proofs.ScanCompleteness
import Mathlib.Data.List.Flatten
import Mathlib.Data.List.Sort

/-!
# Scans that honour ignore files

Ignore files only take away from what a scan finds. A rule that keeps a name undoes other rules for it, not the
reasons for which every scan passes it over. With no ignore file around there are no rules, and the scan is the
one that honours none.
-/

namespace CodeContext

/-! ### Directories without ignore files -/

namespace IgnoreLayer

/-- A layer without rules. -/
def IsBlank (layer : IgnoreLayer) : Prop :=
  ∀ rules ∈ layer.kinds, rules = []

variable {t : FileTree} {directory : List String}

lemma rulesAt_eq_nil (h : ∀ place, ¬ LeadsTo t directory place) {file : List String} (hfile : file ∈ fileNames) :
    rulesAt t directory file = [] := by
  unfold rulesAt
  cases hplace : FileTree.resolveFrom t.root FileTree.linkLimit directory file with
  | error e => rfl
  | ok place => exact absurd ⟨file, hfile, hplace⟩ (h place)

lemma isBlank_ofDirectory (h : ∀ place, ¬ LeadsTo t directory place) : (ofDirectory t directory).IsBlank := by
  intro rules hrules
  obtain ⟨file, hfile, rfl⟩ := List.mem_map.mp hrules
  exact rulesAt_eq_nil h hfile

lemma isBlank_of_mem_above (h : ∀ start, start <+: directory → ∀ place, ¬ LeadsTo t start place) (n : Nat) :
    ∀ layer ∈ above t n directory, layer.IsBlank := by
  induction n with
  | zero => exact fun _ hlayer => absurd hlayer List.not_mem_nil
  | succ n ih => exact List.forall_mem_cons.mpr ⟨isBlank_ofDirectory (h _ (List.take_prefix n directory)), ih⟩

lemma IsBlank.verdictOf?_eq {layer : IgnoreLayer} (h : layer.IsBlank) (kind : Nat) (names : List String)
    (isDirectory : Bool) : layer.verdictOf? kind names isDirectory = none := by
  have hrules : layer.kinds.getD kind [] = [] := by
    rw [List.getD_eq_getElem?_getD]
    cases hkind : layer.kinds[kind]? with
    | none => rfl
    | some rules => exact h rules (List.mem_of_getElem? hkind)
  rw [verdictOf?, hrules]
  rfl

/-- Layers without rules pass over nothing. -/
theorem passesOver_of_isBlank {layers : List IgnoreLayer} (h : ∀ layer ∈ layers, layer.IsBlank) (names : List String)
    (isDirectory : Bool) : passesOver layers names isDirectory = false := by
  have hverdict : verdict? layers names isDirectory = none := by
    refine List.findSome?_eq_none_iff.mpr fun kind _ => List.findSome?_eq_none_iff.mpr fun layer hlayer => ?_
    exact (h layer hlayer).verdictOf?_eq kind names isDirectory
  rw [passesOver, hverdict]
  rfl

end IgnoreLayer

namespace Scan

variable {t : FileTree}

/-- There are no rules for what is in a directory or below. -/
structure NoRules (t : FileTree) (layers : Layers) (here : List String) : Prop where
  blank : ∀ ls ∈ layers, ∀ layer ∈ ls, layer.IsBlank
  below : ∀ directory, here <+: directory → ∀ place, ¬ IgnoreLayer.LeadsTo t directory place

variable {layers : Layers} {here : List String}

lemma NoRules.enter (h : NoRules t layers here) (name : String) :
    NoRules t (enter t layers (here ++ [name])) (here ++ [name]) where
  blank ls hls := by
    obtain ⟨outer, houter, rfl⟩ := Option.mem_map.mp hls
    have hname := IgnoreLayer.isBlank_ofDirectory (h.below _ (List.prefix_append here [name]))
    exact List.forall_mem_cons.mpr ⟨hname, h.blank outer houter⟩
  below directory hprefix := h.below directory ((List.prefix_append here [name]).trans hprefix)

lemma NoRules.passesOver_eq (h : NoRules t layers here) (names : List String) (isDirectory : Bool) :
    passesOver layers names isDirectory = false := by
  cases layers with
  | none => rfl
  | some ls => exact IgnoreLayer.passesOver_of_isBlank (h.blank ls rfl) names isDirectory

mutual

lemma NoRules.inEntry_eq {layers : Layers} {here : List String} (h : NoRules t layers here) (name : String) :
    ∀ e : Entry, inEntry t layers here name e = inEntry t none here name e
  | .link _ => by rw [inEntry, inEntry]
  | .file _ => by
    rw [inEntry, inEntry, h.passesOver_eq]
    rfl
  | .directory entries => by
    rw [inEntry, inEntry, h.passesOver_eq, (h.enter name).inEntries_eq entries]
    rfl

lemma NoRules.inEntries_eq {layers : Layers} {here : List String} (h : NoRules t layers here) :
    ∀ entries : List (String × Entry), inEntries t layers here entries = inEntries t none here entries
  | [] => by rw [inEntries, inEntries]
  | (name, e) :: rest => by rw [inEntries, inEntries, h.inEntry_eq name e, h.inEntries_eq rest]

end

/-! ### What rules leave -/

variable (t)

-- More layers come in on the way down, so the induction is on the entries, for whatever layers there are.
mutual

/-- Rules of whatever layers take away from what is in an entry, and add nothing. -/
theorem inEntry_sublist (layers : Layers) (here : List String) (name : String) :
    ∀ e : Entry, (inEntry t layers here name e).Sublist (inEntry t none here name e)
  | .link _ => by
    rw [inEntry, inEntry]
  | .file _ => by
    rw [inEntry, inEntry]
    cases passesOver layers (here ++ [name]) false with
    | true => exact List.nil_sublist _
    | false => exact List.Sublist.refl _
  | .directory entries => by
    rw [inEntry, inEntry]
    cases passesOver layers (here ++ [name]) true with
    | true => exact List.nil_sublist _
    | false =>
      by_cases hgit : name = ".git"
      · simp [hgit]
      · have hbelow := inEntries_sublist (enter t layers (here ++ [name])) (here ++ [name]) entries
        simpa [hgit, passesOver, enter] using hbelow.map (name :: ·)

theorem inEntries_sublist (layers : Layers) (here : List String) :
    ∀ entries : List (String × Entry), (inEntries t layers here entries).Sublist (inEntries t none here entries)
  | [] => by rw [inEntries, inEntries]
  | (name, e) :: rest => by
    rw [inEntries, inEntries]
    exact (inEntry_sublist layers here name e).append (inEntries_sublist layers here rest)

end

lemma mergeSort_sublist {l l' : List String} (h : l.Sublist l') :
    (l.mergeSort fun a b => a ≤ b).Sublist (l'.mergeSort fun a b => a ≤ b) := by
  have hperm : (l.mergeSort fun a b => a ≤ b).Subperm (l'.mergeSort fun a b => a ≤ b) :=
    (List.mergeSort_perm l _).subperm.trans (h.subperm.trans (List.mergeSort_perm l' _).symm.subperm)
  exact List.sublist_of_subperm_of_sortedLE hperm List.sortedLE_mergeSort List.sortedLE_mergeSort

/-- Fewer files come in the same order, since a file is known by its path from the directory. -/
lemma ordered_sublist (directory : String) {names names' : List (List String)} (h : names.Sublist names') :
    (ordered (names.map (found directory))).Sublist (ordered (names'.map (found directory))) := by
  have hpaths (names : List (List String)) : ordered (names.map (found directory)) =
      ((names.map (String.intercalate "/")).mergeSort fun a b => a ≤ b).map fun p => ⟨p, Path.join directory p⟩ := by
    rw [ordered, List.map_mergeSort (s := fun a b : SourceFile => a.relPath ≤ b.relPath) fun _ _ _ _ => rfl,
      List.map_map]
    rfl
  rw [hpaths, hpaths]
  exact (mergeSort_sublist (h.map _)).map _

end Scan

/-! ### Scans and indexes -/

namespace FileTree

variable {t : FileTree} {root : String}

/-- No directory above, at or below the place where a root leads has an ignore file. -/
def HasNoIgnoreFiles (t : FileTree) (root : String) : Prop :=
  ∀ here, t.resolve root = .ok here → ∀ directory, directory <+: here ∨ here <+: directory →
    ∀ place, ¬ IgnoreLayer.LeadsTo t directory place

lemma scan_of_not_isDirectory (hdir : ¬ t.isDirectory root = true) : t.scan true root = t.scan false root := by
  unfold isDirectory find? at hdir
  unfold scan
  cases hhere : t.resolve root with
  | error e => rfl
  | ok here =>
    rw [hhere] at hdir
    dsimp only at hdir ⊢
    cases he : t.root.at? here with
    | none => rfl
    | some e =>
      cases e with
      | file | link => rfl
      | directory entries => exact absurd (by rw [he]; rfl) hdir

theorem scan_sublist (t : FileTree) (root : String) : (t.scan true root).Sublist (t.scan false root) := by
  by_cases hdir : t.isDirectory root = true
  · obtain ⟨here, entries, -, -, hscan⟩ := scan_of_isDirectory hdir
    rw [hscan, hscan]
    split
    · exact List.Sublist.refl _
    · exact Scan.ordered_sublist root ((Scan.inEntries_sublist t _ here entries).filter _)
  · rw [scan_of_not_isDirectory hdir]

theorem HasNoIgnoreFiles.scan_eq (h : t.HasNoIgnoreFiles root) : t.scan true root = t.scan false root := by
  by_cases hdir : t.isDirectory root = true
  · obtain ⟨here, entries, hhere, -, hscan⟩ := scan_of_isDirectory hdir
    have hnone := h here hhere
    have hrules : Scan.NoRules t (t.layersOf true here) here := by
      refine ⟨fun ls hls => ?_, fun directory hprefix => hnone directory (.inr hprefix)⟩
      obtain rfl := Option.some.inj hls
      exact List.forall_mem_cons.mpr ⟨IgnoreLayer.isBlank_ofDirectory (hnone here (.inl (List.prefix_refl here))),
        IgnoreLayer.isBlank_of_mem_above (fun start hstart => hnone start (.inl hstart)) here.length⟩
    rw [hscan, hscan, hrules.inEntries_eq entries]
    rfl
  · exact scan_of_not_isDirectory hdir

end FileTree

lemma Index.sources_sublist (t : FileTree) (root : String) : (sources t true root).Sublist (sources t false root) := by
  unfold sources
  split
  · exact t.scan_sublist root
  · exact List.Sublist.refl _

namespace FileTree

/-- Honouring ignore files leaves fewer files and nodes in the same order, in every tree and whatever is written in
the ignore files. With no ignore file above, at or below the root, it changes nothing. -/
theorem ignore_files_only_remove (t : FileTree) (root : String) :
    (t.scan true root).Sublist (t.scan false root) ∧
      (Index.ofPath t true root).nodes.Sublist (Index.ofPath t false root).nodes ∧
      (t.HasNoIgnoreFiles root → t.scan true root = t.scan false root) := by
  refine ⟨t.scan_sublist root, ?_, HasNoIgnoreFiles.scan_eq⟩
  rw [Index.ofPath, Index.ofPath, Index.ofPathWith, Index.ofPathWith, Index.nodes_ofFiles, Index.nodes_ofFiles]
  exact (Index.sources_sublist t root).flatMap _

/-! ### Trees with and without ignore files -/

/-- A directory without directories leads to none but itself. -/
lemma eq_nil_of_at? {entries : List (String × Entry)} (hentries : ∀ e ∈ entries, e.2.isDirectory = false)
    {place : List String} {inner : List (String × Entry)}
    (h : (Entry.directory entries).at? place = some (.directory inner)) : place = [] := by
  cases place with
  | nil => rfl
  | cons name rest =>
    obtain ⟨child, hmem, h⟩ := Entry.exists_mem_of_at? h
    have hchild := hentries _ hmem
    cases child with
    | directory => cases hchild
    | file | link => cases rest <;> cases h

lemma mixedTree_directories {place : List String} {inner : List (String × Entry)}
    (h : mixedTree.root.at? place = some (.directory inner)) :
    place ∈ [[], ["w"], ["w", "d.cs"], ["w", ".git"]] := by
  cases place with
  | nil => decide
  | cons a place =>
    obtain ⟨child, hmem, h⟩ := Entry.exists_mem_of_at? h
    obtain ⟨rfl, rfl⟩ : a = "w" ∧ child = _ := by simpa using hmem
    cases place with
    | nil => decide
    | cons b place =>
      obtain ⟨child, hmem, h⟩ := Entry.exists_mem_of_at? h
      simp only [List.mem_cons, Prod.mk.injEq, List.not_mem_nil, or_false] at hmem
      obtain ⟨rfl, rfl⟩ | ⟨rfl, rfl⟩ | ⟨rfl, rfl⟩ | ⟨rfl, rfl⟩ := hmem
      · obtain rfl := eq_nil_of_at? (by decide) h
        decide
      · cases place <;> cases h
      · cases place <;> cases h
      · obtain rfl := eq_nil_of_at? (by decide) h
        decide

lemma mixedTree_hasNoIgnoreFiles : mixedTree.HasNoIgnoreFiles "." := by
  rintro here - directory - place hleads
  obtain ⟨inner, hinner⟩ := hleads.exists_entries
  obtain ⟨file, hfile, hplace⟩ := hleads
  have hdirectory := mixedTree_directories hinner
  have hnone : ∀ d ∈ [[], ["w"], ["w", "d.cs"], ["w", ".git"]], ∀ file ∈ IgnoreLayer.fileNames,
      resolveFrom mixedTree.root linkLimit d file = .error .notFound := by
    intro d hd file hfile
    simp only [IgnoreLayer.fileNames, List.mem_cons, List.not_mem_nil, or_false] at hd hfile
    rcases hd with rfl | rfl | rfl | rfl <;> rcases hfile with rfl | rfl | rfl <;>
      exact @resolveFrom_of_steps _ 20 _ _ _ _ rfl
  rw [hnone directory hdirectory file hfile] at hplace
  cases hplace

/-- A repository and hidden sources make no difference to a scan, and a rule that keeps a name only undoes one that
passes it over. -/
theorem scans_with_and_without_ignore_files :
    let t := Index.ruledTree "*.cs\n!a.cs\n".toUTF8 .empty
    (mixedTree.HasNoIgnoreFiles "." ∧ mixedTree.scan true "." = mixedTree.scan false ".") ∧
      t.scan true "." = [Scan.found "." ["a.cs"]] ∧ [Scan.found "." ["a.cs"]].Sublist (t.scan false ".") := by
  intro t
  have hrules : IgnoreLayer.passesOver [Index.rulesOf "*.cs\n!a.cs\n".toUTF8] ["a.cs"] false = false ∧
      IgnoreLayer.passesOver [Index.rulesOf "*.cs\n!a.cs\n".toUTF8] ["b.cs"] false = true := by decide +kernel
  have hscan : t.scan true "." = [Scan.found "." ["a.cs"]] := by
    rw [Index.ruledTree_scan _ hrules.1, if_pos hrules.2]
  exact ⟨⟨mixedTree_hasNoIgnoreFiles, (ignore_files_only_remove mixedTree ".").2.2 mixedTree_hasNoIgnoreFiles⟩, hscan,
    hscan ▸ (ignore_files_only_remove t ".").1⟩

end FileTree

end CodeContext
