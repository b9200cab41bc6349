import CodeContext.Index
import CodeContext.Proofs.ScannedFiles

/-!
# Trees with other contents

The contents of the files of a tree can be replaced. Names, links and directories stay as they are, and so
paths lead where they led before, and other files keep their texts. A scan finds the same files, unless it
honours an ignore file whose contents are replaced.
-/

namespace CodeContext

namespace Entry

mutual

/-- The entry with other contents in its files, by their places and their old contents. `here` is the place
of the entry. -/
def rewrite (contents : List String → ByteArray → ByteArray) (here : List String) : Entry → Entry
  | .file content => .file (contents here content)
  | .link target => .link target
  | .directory entries => .directory (rewriteAll contents here entries)

def rewriteAll (contents : List String → ByteArray → ByteArray) (here : List String) :
    List (String × Entry) → List (String × Entry)
  | [] => []
  | (n, e) :: rest => (n, e.rewrite contents (here ++ [n])) :: rewriteAll contents here rest

end

variable (contents : List String → ByteArray → ByteArray)

lemma lookup_rewriteAll (here : List String) (entries : List (String × Entry)) (n : String) :
    (rewriteAll contents here entries).lookup n = (entries.lookup n).map (rewrite contents (here ++ [n])) := by
  induction entries with
  | nil => rfl
  | cons first rest ih =>
    obtain ⟨m, e⟩ := first
    rw [rewriteAll, List.lookup_cons, List.lookup_cons, ih]
    by_cases hm : n = m
    · simp [hm]
    · simp [beq_eq_false_iff_ne.mpr hm]

/-- What is at a place is rewritten by that place. -/
theorem at?_rewrite (here names : List String) (e : Entry) :
    (e.rewrite contents here).at? names = (e.at? names).map (rewrite contents (here ++ names)) := by
  induction names generalizing e here with
  | nil => rw [at?, at?, List.append_nil, Option.map_some]
  | cons n names ih =>
    cases e with
    | file | link => simp [rewrite, at?, child?]
    | directory entries =>
      rw [rewrite, at?, at?, child?, child?, lookup_rewriteAll]
      cases entries.lookup n with
      | none => rfl
      | some child =>
        rw [Option.map_some]
        dsimp only
        rw [ih, List.append_assoc]
        rfl

lemma isDirectory_rewrite (here : List String) (e : Entry) : (e.rewrite contents here).isDirectory = e.isDirectory := by
  cases e <;> rfl

end Entry

namespace FileTree

/-- The tree with other contents in its files. -/
def rewrite (t : FileTree) (contents : List String → ByteArray → ByteArray) : FileTree :=
  { t with root := t.root.rewrite contents [] }

variable (contents : List String → ByteArray → ByteArray)

lemma resolvePiece_rewrite (root : Entry) (links : Nat) (here : List String) (piece : String) (rest : List String) :
    resolvePiece (root.rewrite contents []) links here piece rest = resolvePiece root links here piece rest := by
  unfold resolvePiece
  rw [Entry.at?_rewrite, List.nil_append]
  cases root.at? here with
  | none => rfl
  | some e =>
    cases e with
    | file | link => rfl
    | directory entries =>
      simp only [Option.map_some, Entry.rewrite]
      rw [Entry.lookup_rewriteAll]
      cases entries.lookup piece with
      | none => rfl
      | some child => cases child <;> rfl

lemma resolvePiece_less {root : Entry} {links : Nat} {here : List String} {piece : String} {rest : List String}
    {next : Nat × List String × List String} (h : resolvePiece root links here piece rest = .ok next) :
    next.1 < links ∨ next.1 = links ∧ next.2.2 = rest := by
  unfold resolvePiece at h
  split at h
  · cases h
  · cases h
  · cases h
  · split at h
    · cases h
      exact .inr ⟨rfl, rfl⟩
    · split at h
      · cases h
        exact .inr ⟨rfl, rfl⟩
      · split at h
        · cases h
        · split at h
          · cases h
          · split at h
            · cases h
            · cases h
              exact .inl (Nat.lt_succ_self _)
          · cases h
            exact .inr ⟨rfl, rfl⟩

/-- A path leads where it leads with other contents. -/
theorem resolveFrom_rewrite (root : Entry) (links : Nat) (here : List String) : ∀ pieces : List String,
    resolveFrom (root.rewrite contents []) links here pieces = resolveFrom root links here pieces
  | [] => by rw [resolveFrom, resolveFrom]
  | piece :: rest => by
    rw [resolveFrom_cons, resolveFrom_cons, resolvePiece_rewrite]
    cases hnext : resolvePiece root links here piece rest with
    | error e => rfl
    | ok next => exact resolveFrom_rewrite root next.1 next.2.1 next.2.2
termination_by pieces => (links, pieces.length)
decreasing_by
  rcases resolvePiece_less hnext with hlinks | ⟨hlinks, hrest⟩
  · exact Prod.Lex.left _ _ hlinks
  · rw [hlinks, hrest]
    exact Prod.Lex.right _ (Nat.lt_succ_self _)

variable (t : FileTree)

lemma resolve_rewrite (path : String) : (t.rewrite contents).resolve path = t.resolve path := by
  unfold resolve rewrite
  rw [resolveFrom_rewrite]

lemma at?_root_rewrite (names : List String) :
    (t.rewrite contents).root.at? names = (t.root.at? names).map (Entry.rewrite contents names) := by
  rw [rewrite, Entry.at?_rewrite, List.nil_append]

lemma isDirectory_rewrite (path : String) : (t.rewrite contents).isDirectory path = t.isDirectory path := by
  unfold isDirectory find?
  rw [resolve_rewrite]
  cases t.resolve path with
  | error e => rfl
  | ok names =>
    dsimp only
    rw [at?_root_rewrite, Option.any_map]
    congr 1
    funext e
    exact Entry.isDirectory_rewrite contents names e

/-- A file keeps its text if its contents are kept. -/
theorem readText_rewrite {path : String}
    (h : ∀ file, t.resolve path = .ok file → ∀ content, contents file content = content) :
    (t.rewrite contents).readText path = t.readText path := by
  unfold readText
  rw [resolve_rewrite]
  cases hfile : t.resolve path with
  | error e => rfl
  | ok file =>
    dsimp only
    rw [at?_root_rewrite]
    cases t.root.at? file with
    | none => rfl
    | some e =>
      cases e with
      | link | directory => rfl
      | file content =>
        rw [Option.map_some, Entry.rewrite, h file hfile]

end FileTree

/-! ### Scans of trees with other contents -/

namespace IgnoreLayer

/-- An ignore file of a directory leads to a place. -/
def LeadsTo (t : FileTree) (directory place : List String) : Prop :=
  ∃ file ∈ fileNames, FileTree.resolveFrom t.root FileTree.linkLimit directory file = .ok place

lemma LeadsTo.exists_entries {t : FileTree} {directory place : List String} (h : LeadsTo t directory place) :
    ∃ entries, t.root.at? directory = some (.directory entries) := by
  obtain ⟨file, hfile, hplace⟩ := h
  cases FileTree.walk_of_resolveFrom hplace with
  | done => exact absurd hfile (by decide)
  | stay dir | up dir | follow dir | enter dir => exact ⟨_, dir⟩

variable (contents : List String → ByteArray → ByteArray)

/-- A directory keeps its rules if the contents of its ignore files are kept. -/
theorem ofDirectory_rewrite (t : FileTree) {directory : List String}
    (h : ∀ place, LeadsTo t directory place → ∀ content, contents place content = content) :
    ofDirectory (t.rewrite contents) directory = ofDirectory t directory := by
  have hrules : fileNames.map (rulesAt (t.rewrite contents) directory) = fileNames.map (rulesAt t directory) := by
    refine List.map_congr_left fun file hfile => ?_
    have hresolve : FileTree.resolveFrom (t.rewrite contents).root FileTree.linkLimit directory file =
        FileTree.resolveFrom t.root FileTree.linkLimit directory file := FileTree.resolveFrom_rewrite _ _ _ _ _
    unfold rulesAt
    rw [hresolve]
    cases hplace : FileTree.resolveFrom t.root FileTree.linkLimit directory file with
    | error e => rfl
    | ok place =>
      dsimp only
      rw [FileTree.at?_root_rewrite]
      cases t.root.at? place with
      | none => rfl
      | some e =>
        cases e with
        | link | directory => rfl
        | file content => rw [Option.map_some, Entry.rewrite, h place ⟨file, hfile, hplace⟩]
  rw [ofDirectory, ofDirectory, hrules]

lemma above_rewrite (t : FileTree) (n : Nat) {directory : List String}
    (h : ∀ start, start <+: directory → ofDirectory (t.rewrite contents) start = ofDirectory t start) :
    above (t.rewrite contents) n directory = above t n directory := by
  induction n with
  | zero => rfl
  | succ n ih => rw [above, above, ih, h _ (List.take_prefix n directory)]

end IgnoreLayer

namespace Scan

variable (contents : List String → ByteArray → ByteArray) (t : FileTree)

/-- What is in a directory has the same rules with other contents, if rules are honoured. -/
def KeepsRules (layers : Layers) (here : List String) : Prop :=
  layers.isSome = true → ∀ directory, here <+: directory →
    IgnoreLayer.ofDirectory (t.rewrite contents) directory = IgnoreLayer.ofDirectory t directory

variable {contents t}

lemma KeepsRules.enter_eq {layers : Layers} {here : List String} (h : KeepsRules contents t layers here) :
    enter (t.rewrite contents) layers here = enter t layers here := by
  cases layers with
  | none => rfl
  | some ls => rw [enter, enter, Option.map_some, Option.map_some, h rfl here (List.prefix_refl here)]

lemma KeepsRules.enter {layers : Layers} {here : List String} (h : KeepsRules contents t layers here) (name : String) :
    KeepsRules contents t (enter t layers (here ++ [name])) (here ++ [name]) := by
  intro hsome directory hprefix
  rw [Scan.enter, Option.isSome_map] at hsome
  exact h hsome directory ((List.prefix_append here [name]).trans hprefix)

mutual

lemma inEntry_rewrite (layers : Layers) (here : List String) (name : String) (h : KeepsRules contents t layers here) :
    ∀ e : Entry, inEntry (t.rewrite contents) layers here name (e.rewrite contents (here ++ [name])) =
      inEntry t layers here name e
  | .link _ => by rw [Entry.rewrite, inEntry, inEntry]
  | .file _ => by rw [Entry.rewrite, inEntry, inEntry]
  | .directory entries => by
    have henter : enter (t.rewrite contents) layers (here ++ [name]) = enter t layers (here ++ [name]) :=
      KeepsRules.enter_eq fun hsome directory hprefix =>
        h hsome directory ((List.prefix_append here [name]).trans hprefix)
    rw [Entry.rewrite, inEntry, inEntry, henter,
      inEntries_rewrite (enter t layers (here ++ [name])) (here ++ [name]) (h.enter name) entries]

lemma inEntries_rewrite (layers : Layers) (here : List String) (h : KeepsRules contents t layers here) :
    ∀ entries : List (String × Entry),
      inEntries (t.rewrite contents) layers here (Entry.rewriteAll contents here entries) =
        inEntries t layers here entries
  | [] => by rw [Entry.rewriteAll, inEntries, inEntries]
  | (name, e) :: rest => by
    rw [Entry.rewriteAll, inEntries, inEntries, inEntry_rewrite layers here name h e,
      inEntries_rewrite layers here h rest]

end

end Scan

namespace FileTree

variable {t : FileTree} {contents : List String → ByteArray → ByteArray} {respectIgnore : Bool} {here : List String}

/-- The ignore files above and in the directory where a scan starts keep their contents, if it honours them. -/
def KeepsIgnoreFiles (t : FileTree) (contents : List String → ByteArray → ByteArray) (respectIgnore : Bool)
    (here : List String) : Prop :=
  respectIgnore = true → ∀ directory, directory <+: here ∨ here <+: directory →
    ∀ place, IgnoreLayer.LeadsTo t directory place → ∀ content, contents place content = content

lemma KeepsIgnoreFiles.layersOf_eq (h : t.KeepsIgnoreFiles contents respectIgnore here) :
    (t.rewrite contents).layersOf respectIgnore here = t.layersOf respectIgnore here := by
  cases respectIgnore with
  | false => rfl
  | true =>
    have hrules (directory : List String) (hd : directory <+: here) :
        IgnoreLayer.ofDirectory (t.rewrite contents) directory = IgnoreLayer.ofDirectory t directory :=
      IgnoreLayer.ofDirectory_rewrite contents t (h rfl directory (.inl hd))
    rw [layersOf, layersOf, if_pos rfl, if_pos rfl, IgnoreLayer.above_rewrite contents t here.length hrules]
    simp only [Scan.enter, Option.map_some, hrules here (List.prefix_refl here)]

lemma KeepsIgnoreFiles.keepsRules (h : t.KeepsIgnoreFiles contents respectIgnore here) :
    Scan.KeepsRules contents t (t.layersOf respectIgnore here) here := by
  intro hsome directory hd
  have hrespect : respectIgnore = true := by
    cases respectIgnore with
    | false => cases hsome
    | true => rfl
  exact IgnoreLayer.ofDirectory_rewrite contents t (h hrespect directory (.inr hd))

/-- A scan that honours no ignore file with other contents finds the same files. -/
theorem scan_rewrite {root : String} (hdir : t.isDirectory root = true) (hroot : t.resolve root = .ok here)
    (h : t.KeepsIgnoreFiles contents respectIgnore here) :
    (t.rewrite contents).scan respectIgnore root = t.scan respectIgnore root := by
  obtain ⟨_, entries, hroot₁, hentries, hscan⟩ := scan_of_isDirectory hdir
  obtain rfl := Except.ok.inj (hroot.symm.trans hroot₁)
  obtain ⟨_, entries', hroot₂, hentries', hscan'⟩ :=
    scan_of_isDirectory ((isDirectory_rewrite contents t root).trans hdir)
  rw [resolve_rewrite] at hroot₂
  obtain rfl := Except.ok.inj (hroot.symm.trans hroot₂)
  rw [at?_root_rewrite, hentries, Option.map_some, Entry.rewrite] at hentries'
  obtain rfl := Entry.directory.inj (Option.some.inj hentries')
  rw [hscan, hscan', h.layersOf_eq, Scan.inEntries_rewrite _ here h.keepsRules]

end FileTree

end CodeContext
