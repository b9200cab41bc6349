import CodeContext.Proofs.FetchConfinement
import CodeContext.Proofs.IndexCounts
import CodeContext.Proofs.ParserFacts
import CodeContext.Proofs.ScannedFiles
import Mathlib.Algebra.GroupWithZero.Nat
import Mathlib.Data.String.Basic

/-!
# Fetching what is indexed

A file that a scan found can be fetched by its path from the directory that was scanned, unless its path
from the root of the tree is too long. So the lines that a node of an index tells can be fetched, and if the
source has no errors, they hold the method.
-/

namespace CodeContext

/-! ### Fetching scanned files -/

lemma Fetched.traverses_eq_false {path : String} (h : ¬ ['.', '.'] <:+: path.toList ∧ '~' ∉ path.toList) :
    traverses path = false := by
  have hpoints : Text.occursIn ['.', '.'] path.toList = false := Bool.eq_false_iff.mpr (Text.occursIn_iff.not.mpr h.1)
  rw [traverses, hpoints, Bool.false_or]
  simpa using h.2

namespace Path

lemma mem_pieces_of_mem_components {path text : String} (h : .name text ∈ components path) : text ∈ pieces path := by
  have hlead : .name text ∉ lead path := by
    unfold lead
    split
    · simp
    · split <;> simp
  obtain ⟨piece, hpiece, htext⟩ := List.mem_filterMap.mp ((List.mem_append.mp h).resolve_left hlead)
  unfold ofPiece at htext
  split at htext
  · cases htext
  · split at htext
    · cases htext
    · cases htext
      exact hpiece

lemma mem_of_isSource {path : String} (h : isSource path = true) : 's' ∈ path.toList := by
  have hext : extension? path = some "cs" := by simpa [isSource] using h
  obtain ⟨name, hname, hstem⟩ := Option.bind_eq_some_iff.mp hext
  have hmem : 's' ∈ name.toList := by
    dsimp only at hstem
    split at hstem
    · cases hstem
    · have hcs := congrArg String.toList (Option.some.inj hstem)
      rw [String.toList_ofList] at hcs
      have hlast : 's' ∈ (name.toList.reverse.takeWhile (· != '.')).reverse := by
        rw [hcs]
        decide
      exact List.mem_reverse.mp (List.takeWhile_subset _ (List.mem_reverse.mp hlast))
  have hcomponent : .name name ∈ components path := by
    unfold fileName? at hname
    split at hname
    · rename_i text hlast
      cases hname
      exact List.mem_of_getLast? hlast
    · cases hname
  exact (mem_toList_iff (by decide) path).mpr ⟨name, mem_pieces_of_mem_components hcomponent, hmem⟩

end Path

namespace FileTree

variable {t : FileTree} {root : String} {f : SourceFile} {here names : List String}

/-- The path of a scanned file below the canonical path of its root is the canonical path of the file. -/
lemma FindsSource.asked_eq (ht : t.root.IsSound) (h : t.FindsSource root f here names) :
    Path.join (t.absolute root) f.relPath = textOf (here ++ names) := by
  have hnames := isEntryName_of_leadsToFile ht h.leads
  rw [absolute_of_resolve h.resolve_root, h.relPath_eq]
  exact join_textOf (fun n hn => hnames n (List.mem_append_left _ hn))
    (fun n hn => hnames n (List.mem_append_right _ hn)) h.names_ne

lemma FindsSource.not_blank (ht : t.root.IsSound) (h : t.FindsSource root f here names) :
    Text.blank f.relPath = false := by
  obtain ⟨name, hlast, hsource⟩ := h.endsInSource
  have hpieces : Path.pieces f.relPath = names := by
    rw [h.relPath_eq]
    exact Path.pieces_intercalate h.names_ne fun n hn =>
      (isEntryName_of_leadsToFile ht h.leads n (List.mem_append_right _ hn)).isName.noSlash
  have hmem : 's' ∈ f.relPath.toList := by
    refine (Path.mem_toList_iff (by decide) _).mpr ⟨name, ?_, Path.mem_of_isSource hsource⟩
    rw [hpieces]
    exact List.mem_of_getLast? hlast
  rw [Text.blank, List.all_eq_false]
  exact ⟨'s', hmem, by decide⟩

lemma absolute_textOf {names : List String} (hnames : ∀ n ∈ names, Path.IsName n) (hne : names ≠ []) (wd : String) :
    Path.absolute wd (textOf names) = textOf names := by
  have hfilter : Path.names (textOf names) = names := by
    rw [Path.names_eq_filter, pieces_textOf hnames, if_neg hne, List.filter_cons_of_neg (by simp [Path.isIdle])]
    exact List.filter_eq_self.mpr fun n hn => by rw [isIdle_of_isName (hnames n hn), Bool.not_false]
  have hlead : Path.leadSlash (textOf names) = "" := by
    have hrelative := Path.isAbsolute_intercalate hne hnames
    have htake : ((textOf names).toList.take 2 == ['/', '/']) = false := by
      unfold Path.isAbsolute at hrelative
      rw [textOf, String.toList_append]
      cases hbelow : (String.intercalate "/" names).toList with
      | nil => rfl
      | cons c rest => simpa [hbelow] using hrelative
    rw [Path.leadSlash, htake, Bool.false_and, if_neg (by decide)]
  have hlast := Path.getLast?_append_intercalate hne (fun n hn => ⟨(hnames n hn).ne_empty, (hnames n hn).noSlash⟩) "/"
  rw [Path.absolute_of_isAbsolute wd (isAbsolute_textOf names), hfilter, hlead, if_neg fun h => hlast h.2]
  simp [textOf]

/-- A file that a scan found is fetched by its path from the root, if its canonical path is not too long. -/
theorem FindsSource.ofFile_eq (ht : t.IsPlaced) (hsound : t.root.IsSound) (h : t.FindsSource root f here names)
    (hpath : Fetched.traverses f.relPath = false) {text : String} (htext : t.readText f.path = .ok text)
    (start stop : Int) :
    Fetched.ofFile t root f.relPath start stop =
      if (Path.join (t.absolute root) f.relPath).utf8ByteSize < 4096 then .ok ⟨f.relPath, Text.slice text start stop⟩
      else .error (.notFound f.relPath) := by
  have hcanonical := h.isCanonical hsound
  have hnames := isEntryName_of_leadsToFile hsound h.leads
  have hne : here ++ names ≠ [] := List.append_ne_nil_of_right_ne_nil _ h.names_ne
  have hbase := (isCanonical_of_resolve ht h.resolve_root).isName
  have hasked := h.asked_eq hsound
  have htest : Path.startsWith (textOf (here ++ names)) (t.absolute root) = true := by
    rw [absolute_of_resolve h.resolve_root]
    exact (startsWith_textOf_iff hcanonical.isName hbase).mpr (List.prefix_append here names)
  split
  · rename_i hshort
    rw [hasked] at hshort
    have hresolve := resolve_textOf hcanonical hne hnames hshort
    have hlocate : Fetched.locate t root f.relPath = textOf (here ++ names) := by
      rw [Fetched.locate, hasked, absolute_of_resolve hresolve]
    obtain ⟨file, content, hfile, hcontent, hutf⟩ := (t.readText_eq_ok_iff).mp htext
    obtain rfl := h.eq_of_resolve hsound hfile
    refine Fetched.ofFile_eq_ok_iff.mpr ⟨⟨hpath, h.not_blank hsound, hlocate ▸ htest⟩, here ++ names, content, text,
      hlocate ▸ hresolve, hcontent, hutf, rfl⟩
  · rename_i hlong
    rw [hasked] at hlong
    have hnone : ∀ out, t.resolve (textOf (here ++ names)) ≠ .ok out := fun out hout =>
      hlong (resolve_eq_ok_iff.mp hout).1.2.2
    have hlocate : Fetched.locate t root f.relPath = textOf (here ++ names) := by
      rw [Fetched.locate, hasked, absolute_of_not_resolve hnone, absolute_textOf hcanonical.isName hne]
    have hfile : t.isFile (textOf (here ++ names)) = false := by
      unfold isFile find?
      split
      · rename_i out hout
        exact absurd hout (hnone out)
      · rfl
    unfold Fetched.ofFile
    simp [hpath, h.not_blank hsound, hlocate, htest, hfile]

end FileTree

/-! ### Fetching indexed methods -/

namespace Index

lemma exists_file_of_mem_nodes {parser : CSharp.Parser} {t : FileTree} {respectIgnore : Bool} {path : String} {n : Node}
    (h : n ∈ (ofPathWith parser t respectIgnore path).nodes) : ∃ f ∈ sources t respectIgnore path, ∃ text,
      t.readText f.path = .ok text ∧ n ∈ (parser text).nodes f.relPath := by
  rw [ofPathWith, ofFiles_eq] at h
  obtain ⟨f, hf, hn⟩ := List.mem_flatMap.mp h
  unfold nodesOf? at hn
  cases htext : t.readText f.path with
  | error e => simp [htext] at hn
  | ok text =>
    simp only [htext, Option.getD_some] at hn
    exact ⟨f, hf, text, htext, hn⟩

/-- Whatever parser gives trees that fit, each node of an index of a directory tells a method of a file below it. If
the file has no errors, the lines of the node hold the method, and they are fetched by the node's path from that
directory just when the canonical path of the file has less than 4096 bytes. -/
theorem fetch_indexed_method {parser : CSharp.Parser} (hparser : parser.FitsTexts) {t : FileTree} (ht : t.IsPlaced)
    (hsound : t.root.IsSound) {root : String} (hroot : t.isDirectory root = true) {respectIgnore : Bool} {n : Node}
    (hn : n ∈ (ofPathWith parser t respectIgnore root).nodes)
    (hclean : ∀ text, t.readText (Path.join root n.path) = .ok text →
      (CSharp.extractWith parser text n.path).hasErrors = false)
    (hpath : ¬ ['.', '.'] <:+: n.path.toList ∧ '~' ∉ n.path.toList) :
    ∃ text p children above shown below, t.readText (Path.join root n.path) = .ok text ∧
      (parser text).TellsMethod n p children ∧
      CSharp.HoldMethod (parser text).tokens text.toList n.summary children above shown below ∧
      n.lineStart = (above.length + 1 : Nat) ∧ n.lineEnd = (above.length + shown.length : Nat) ∧
      Fetched.ofFile t root n.path n.lineStart n.lineEnd =
        if (Path.join (t.absolute root) n.path).utf8ByteSize < 4096 then
          .ok ⟨n.path, String.ofList (List.intercalate ['\n'] (shown.map Text.Line.content))⟩
        else .error (.notFound n.path) := by
  obtain ⟨f, hf, text, htext, hnodes⟩ := exists_file_of_mem_nodes hn
  rw [sources, if_pos hroot] at hf
  obtain ⟨here, names, hfound⟩ := FileTree.findsSource_of_mem_scan hsound hroot hf
  obtain ⟨hrel, p, children, htells⟩ := CSharp.Source.exists_tellsMethod hnodes
  have hread := htext
  rw [hfound.path_eq, ← hrel] at hread
  have hfits := hparser text (hclean text hread)
  obtain ⟨above, shown, below, hholds, hstart, hend⟩ := hfits.exists_holdMethod htells.shows
  rw [← htells.summary] at hholds
  have hlineStart : n.lineStart = (above.length + 1 : Nat) := htells.lineStart.trans (congrArg Int.ofNat hstart)
  have hlineEnd : n.lineEnd = (above.length + shown.length : Nat) := htells.lineEnd.trans (congrArg Int.ofNat hend)
  have htraverses : Fetched.traverses f.relPath = false := hrel ▸ Fetched.traverses_eq_false hpath
  have hfetch := hfound.ofFile_eq ht hsound htraverses htext n.lineStart n.lineEnd
  refine ⟨text, p, children, above, shown, below, hread, htells, hholds, hlineStart, hlineEnd, ?_⟩
  rw [← hrel] at hfetch
  rw [hfetch, hlineStart, hlineEnd, hholds.layout.slice_eq]

/-! ### Files deep in a tree -/

lemma utf8ByteSize_intercalate {names : List String} (hne : names ≠ []) :
    (String.intercalate "/" names).utf8ByteSize + 1 = (names.map (·.utf8ByteSize + 1)).sum := by
  induction names with
  | nil => exact absurd rfl hne
  | cons n rest ih =>
    have hslash : "/".utf8ByteSize = 1 := rfl
    by_cases hr : rest = []
    · simp [hr]
    · rw [String.intercalate_cons_of_ne_nil hr, String.utf8ByteSize_append, String.utf8ByteSize_append, hslash,
        List.map_cons, List.sum_cons, ← ih hr]
      omega

lemma utf8ByteSize_textOf {names : List String} (hne : names ≠ []) :
    (FileTree.textOf names).utf8ByteSize = (names.map (·.utf8ByteSize + 1)).sum := by
  have hslash : "/".utf8ByteSize = 1 := rfl
  rw [FileTree.textOf, String.utf8ByteSize_append, hslash, ← utf8ByteSize_intercalate hne]
  omega

/-- Directories in each other, and an entry in the last of them. -/
def chain : List String → Entry → Entry
  | [], e => e
  | n :: rest, e => .directory [(n, chain rest e)]

/-- A tree with one file. The first names lead to the working directory. -/
def chainTree (above below : List String) (text : String) : FileTree where
  root := chain (above ++ below) (.file text.toUTF8)
  workingDirectory := above

/-- The names of directories and of a source file in them. -/
structure IsChain (above below : List String) : Prop where
  isEntryName : ∀ n ∈ above ++ below, Path.IsEntryName n
  notGit : ".git" ∉ below
  endsInSource : Scan.EndsInSource below

lemma at?_chain (above below : List String) (e : Entry) :
    (chain (above ++ below) e).at? above = some (chain below e) := by
  induction above with
  | nil => rfl
  | cons n above ih => simpa [chain, Entry.at?, Entry.child?] using ih

lemma isSound_chain {names : List String} (h : ∀ n ∈ names, Path.IsEntryName n) {e : Entry} (he : e.IsSound) :
    (chain names e).IsSound := by
  induction names with
  | nil => exact he
  | cons n names ih =>
    obtain ⟨hn, hnames⟩ := List.forall_mem_cons.mp h
    exact .directory (by simp) (by simpa using hn) (by simpa using ih hnames)

lemma inEntry_chain (t : FileTree) (here : List String) {n : String} {names : List String} (hgit : ".git" ∉ n :: names)
    (hends : Scan.EndsInSource (n :: names)) (content : ByteArray) :
    Scan.inEntry t none here n (chain names (.file content)) = [n :: names] := by
  induction names generalizing here n with
  | nil =>
    obtain ⟨last, hlast, hsource⟩ := hends
    obtain rfl : n = last := by simpa using hlast
    have hn : n ≠ ".git" := fun hn => hgit (by simp [hn])
    rw [chain, Scan.inEntry]
    simp [Scan.passesOver, hn, hsource]
  | cons m names ih =>
    have hn : n ≠ ".git" := fun hn => hgit (by simp [hn])
    have hrest := ih (here ++ [n]) (fun hmem => hgit (List.mem_cons_of_mem _ hmem))
      (by simpa [Scan.EndsInSource, List.getLast?_cons_cons] using hends)
    rw [chain, Scan.inEntry]
    simp [Scan.passesOver, hn, Scan.inEntries, Scan.enter, hrest]

section

variable {above below : List String} {text : String}

lemma IsChain.below_ne (h : IsChain above below) : below ≠ [] := by
  obtain ⟨last, hlast, -⟩ := h.endsInSource
  rintro rfl
  cases hlast

lemma IsChain.isSound (h : IsChain above below) : (chainTree above below text).root.IsSound :=
  isSound_chain h.isEntryName (.file _)

lemma IsChain.exists_entries (h : IsChain above below) (text : String) : ∃ n rest, below = n :: rest ∧
    (chainTree above below text).root.at? above = some (.directory [(n, chain rest (.file text.toUTF8))]) := by
  obtain ⟨n, rest, rfl⟩ := List.exists_cons_of_ne_nil h.below_ne
  exact ⟨n, rest, rfl, at?_chain _ _ _⟩

lemma IsChain.isPlaced (h : IsChain above below) : (chainTree above below text).IsPlaced where
  isName n hn := (h.isEntryName n (List.mem_append_left _ hn)).isName
  isDirectory := by
    obtain ⟨n, rest, -, hat⟩ := h.exists_entries text
    exact ⟨_, hat⟩

lemma IsChain.resolve_root (h : IsChain above below) : (chainTree above below text).resolve "." = .ok above := by
  obtain ⟨n, rest, -, hat⟩ := h.exists_entries text
  exact FileTree.resolve_eq_ok_iff.mpr ⟨by decide, .stay hat rfl (.done _ _)⟩

lemma IsChain.isDirectory (h : IsChain above below) : (chainTree above below text).isDirectory "." = true := by
  obtain ⟨n, rest, -, hat⟩ := h.exists_entries text
  rw [FileTree.isDirectory, FileTree.find?, h.resolve_root]
  dsimp only
  rw [hat]
  rfl

lemma IsChain.scan_eq (h : IsChain above below) :
    (chainTree above below text).scan false "." = if Scan.opens "." below then [Scan.found "." below] else [] := by
  obtain ⟨n, rest, rfl, hat⟩ := h.exists_entries text
  have hstdin : ¬ Path.same "." "-" = true := by decide
  rw [FileTree.scan, if_neg hstdin, h.resolve_root]
  simp only [hat]
  rw [if_neg (by decide), Scan.inEntries, Scan.enter, Option.map_none, inEntry_chain _ _ h.notGit h.endsInSource]
  cases hopens : Scan.opens "." (n :: rest) <;> simp [Scan.inEntries, Scan.ordered, hopens]

lemma IsChain.at?_file (above below : List String) (text : String) :
    (chainTree above below text).root.at? (above ++ below) = some (.file text.toUTF8) := by
  have hwhole := at?_chain (above ++ below) [] (.file text.toUTF8)
  rwa [List.append_nil] at hwhole

lemma IsChain.findsSource (h : IsChain above below) :
    (chainTree above below text).FindsSource "." (Scan.found "." below) above below :=
  ⟨h.resolve_root, ⟨_, at?_file above below text⟩, h.below_ne, h.endsInSource, rfl⟩

lemma IsChain.readText_eq (h : IsChain above below) (hshort : (Scan.found "." below).path.utf8ByteSize < 4096) :
    (chainTree above below text).readText (Scan.found "." below).path = .ok text :=
  (FileTree.readText_eq_ok_iff _).mpr
    ⟨_, _, h.findsSource.resolve_path h.isSound hshort, at?_file above below text, Text.fromUTF8?_toUTF8 text⟩

lemma IsChain.nodes_eq (h : IsChain above below) (hshort : (Scan.found "." below).path.utf8ByteSize < 4096) :
    (ofPath (chainTree above below text) false ".").nodes =
      (CSharp.Source.parse text).nodes (Scan.found "." below).relPath := by
  have hopens : Scan.opens "." below = true :=
    Scan.opens_of_short (fun m hm => (h.isEntryName m (List.mem_append_right _ hm)).isName) hshort
  rw [ofPath, ofPathWith, ofFiles_eq, sources, if_pos h.isDirectory, h.scan_eq, if_pos hopens]
  simp [nodesOf?, h.readText_eq hshort, CSharp.nodes_extractWith]

end

/-- A class with a method on two lines, and no line feed at the end. -/
def twoLines : String :=
  "class A \x7b\r\n  void M() \x7b\r\n  \x7d\r\n\x7d"

lemma twoLines_hasErrors : (CSharp.Source.parse twoLines).hasErrors = false := by
  decide +kernel

lemma twoLines_methods :
    CSharp.Tree.methodsOf (CSharp.Source.parse twoLines).tokens none (CSharp.Source.parse twoLines).trees =
      [⟨"A", "M", 2, 3⟩] := by
  decide +kernel

lemma twoLines_nodes (path : String) :
    (CSharp.Source.parse twoLines).nodes path = [CSharp.Method.toNode path ⟨"A", "M", 2, 3⟩] := by
  rw [CSharp.Source.nodes, twoLines_methods, List.map_singleton]

lemma isChain_short : IsChain ["w"] ["d", "a.cs"] where
  isEntryName := by decide
  notGit := by decide
  endsInSource := ⟨"a.cs", rfl, by decide⟩

/-- A method on two lines is fetched without the carriage returns. -/
theorem fetch_method_on_two_lines :
    let t := chainTree ["w"] ["d", "a.cs"] twoLines
    let n := CSharp.Method.toNode "d/a.cs" ⟨"A", "M", 2, 3⟩
    t.IsPlaced ∧ t.root.IsSound ∧ t.isDirectory "." = true ∧ n ∈ (ofPath t false ".").nodes ∧
      (∃ children above shown below, CSharp.HoldMethod (CSharp.Source.parse twoLines).tokens twoLines.toList "M"
        children above shown below) ∧
      Fetched.ofFile t "." n.path n.lineStart n.lineEnd = .ok ⟨"d/a.cs", "  void M() \x7b\n  \x7d"⟩ := by
  intro t n
  have hshort : (Scan.found "." ["d", "a.cs"]).path.utf8ByteSize < 4096 := by decide
  have hfile : (Scan.found "." ["d", "a.cs"]).relPath = "d/a.cs" ∧
      (Scan.found "." ["d", "a.cs"]).path = "./d/a.cs" := by
    decide
  have hread : t.readText (Path.join "." n.path) = .ok twoLines := by
    rw [show Path.join "." n.path = "./d/a.cs" by decide, ← hfile.2]
    exact isChain_short.readText_eq hshort
  have hn : n ∈ (ofPath t false ".").nodes := by
    rw [isChain_short.nodes_eq hshort, twoLines_nodes, hfile.1]
    exact List.mem_singleton.mpr rfl
  have hclean : ∀ text, t.readText (Path.join "." n.path) = .ok text →
      (CSharp.extract text n.path).hasErrors = false := by
    intro text htext
    rw [← Except.ok.inj (hread.symm.trans htext), CSharp.hasErrors_extract, twoLines_hasErrors]
  have hpath : ¬ ['.', '.'] <:+: n.path.toList ∧ '~' ∉ n.path.toList :=
    ⟨Text.occursIn_iff.not.mp (by decide), by decide⟩
  obtain ⟨text, p, children, above, shown, below, htext, htells, hholds, hstart, hend, hfetch⟩ :=
    fetch_indexed_method CSharp.Source.fitsTexts_parse isChain_short.isPlaced isChain_short.isSound
      isChain_short.isDirectory hn hclean hpath
  obtain rfl := Except.ok.inj (hread.symm.trans htext)
  refine ⟨isChain_short.isPlaced, isChain_short.isSound, isChain_short.isDirectory, hn,
    ⟨children, above, shown, below, hholds⟩, ?_⟩
  have hasked : Path.join (t.absolute ".") n.path = FileTree.textOf ["w", "d", "a.cs"] := by
    rw [show n.path = (Scan.found "." ["d", "a.cs"]).relPath from hfile.1.symm]
    exact isChain_short.findsSource.asked_eq isChain_short.isSound
  have hslice : Text.slice twoLines n.lineStart n.lineEnd = "  void M() \x7b\n  \x7d" := by decide
  rw [hstart, hend, hholds.layout.slice_eq] at hslice
  rw [hfetch, hasked, if_pos (by decide), hslice]
  rfl

/-- A name as long as a name can be. -/
def longName (c : Char) : String :=
  String.ofList (List.replicate 255 c)

lemma toList_longName (c : Char) : (longName c).toList = List.replicate 255 c := by
  rw [longName, String.toList_ofList]

lemma utf8ByteSize_longName {c : Char} (hc : c.utf8Size = 1) : (longName c).utf8ByteSize = 255 := by
  have hlength (n : Nat) : String.utf8Len (List.replicate n c) = n := by
    induction n with
    | zero => simp
    | succ n ih => rw [List.replicate_succ, String.utf8Len_cons, ih, hc]
  rw [longName, String.utf8ByteSize_ofList, hlength]

lemma isEntryName_longName {c : Char} (hc : c.utf8Size = 1) (hslash : c ≠ '/') (hnull : c ≠ '\x00') :
    Path.IsEntryName (longName c) := by
  have hne (s : String) (hs : s.utf8ByteSize ≠ 255) : longName c ≠ s := fun heq =>
    hs (heq ▸ utf8ByteSize_longName hc)
  refine ⟨⟨hne _ (by decide), hne _ (by decide), hne _ (by decide), ?_⟩, ?_, (utf8ByteSize_longName hc).le⟩
  · rw [toList_longName]
    exact fun hmem => hslash (List.eq_of_mem_replicate hmem).symm
  · rw [toList_longName]
    exact fun hmem => hnull (List.eq_of_mem_replicate hmem).symm

lemma isChain_long : IsChain (List.replicate 15 (longName 'a')) [longName 'b', "a.cs"] where
  isEntryName := by
    intro n hn
    rcases List.mem_append.mp hn with hn | hn
    · rw [List.eq_of_mem_replicate hn]
      exact isEntryName_longName (by decide) (by decide) (by decide)
    · rcases List.mem_cons.mp hn with rfl | hn
      · exact isEntryName_longName (by decide) (by decide) (by decide)
      · rw [List.mem_singleton.mp hn]
        decide
  notGit := by
    have hne : ".git" ≠ longName 'b' := fun heq => by
      have hsize := congrArg String.utf8ByteSize heq
      rw [utf8ByteSize_longName (by decide)] at hsize
      exact absurd hsize (by decide)
    simp [hne]
  endsInSource := ⟨"a.cs", rfl, by decide⟩

lemma toList_longPath (c : Char) : (String.intercalate "/" [longName c, "a.cs"]).toList =
    List.replicate 255 c ++ ['/', 'a', '.', 'c', 's'] := by
  rw [String.intercalate_cons_of_ne_nil (by simp), String.intercalate_singleton, String.toList_append,
    String.toList_append, toList_longName, List.append_assoc]
  rfl

/-- A method of a file that is indexed cannot be fetched if the canonical path of the file is too long. -/
theorem indexed_method_not_found :
    let t := chainTree (List.replicate 15 (longName 'a')) [longName 'b', "a.cs"] twoLines
    t.IsPlaced ∧ t.root.IsSound ∧ t.isDirectory "." = true ∧ ∃ n ∈ (ofPath t false ".").nodes,
      (∀ text, t.readText (Path.join "." n.path) = .ok text → (CSharp.extract text n.path).hasErrors = false) ∧
      (¬ ['.', '.'] <:+: n.path.toList ∧ '~' ∉ n.path.toList) ∧
      Fetched.ofFile t "." n.path n.lineStart n.lineEnd = .error (.notFound n.path) := by
  intro t
  have hfound : t.FindsSource "." (Scan.found "." [longName 'b', "a.cs"]) _ _ := isChain_long.findsSource
  have ha : (longName 'a').utf8ByteSize = 255 := utf8ByteSize_longName (by decide)
  have hb : (longName 'b').utf8ByteSize = 255 := utf8ByteSize_longName (by decide)
  have hsource : "a.cs".utf8ByteSize = 4 := rfl
  have hrelative : Path.isAbsolute (String.intercalate "/" [longName 'b', "a.cs"]) = false :=
    Path.isAbsolute_intercalate (by simp) fun n hn => (isChain_long.isEntryName n (List.mem_append_right _ hn)).isName
  have hshort : (Scan.found "." [longName 'b', "a.cs"]).path.utf8ByteSize < 4096 := by
    have hsize := utf8ByteSize_intercalate (List.cons_ne_nil (longName 'b') ["a.cs"])
    have hpoint : ".".utf8ByteSize = 1 := rfl
    have hslash : "/".utf8ByteSize = 1 := rfl
    simp only [List.map_cons, List.map_nil, List.sum_cons, List.sum_nil, hb, hsource] at hsize
    rw [Scan.found, Path.join, if_neg (Bool.eq_false_iff.mp hrelative), if_neg (by decide), String.utf8ByteSize_append,
      String.utf8ByteSize_append, hpoint, hslash]
    omega
  have hlong : ¬ (Path.join (t.absolute ".") (Scan.found "." [longName 'b', "a.cs"]).relPath).utf8ByteSize < 4096 := by
    rw [hfound.asked_eq isChain_long.isSound, utf8ByteSize_textOf (by simp)]
    simp [ha, hb, hsource]
  have hpath : ¬ ['.', '.'] <:+: (Scan.found "." [longName 'b', "a.cs"]).relPath.toList ∧
      '~' ∉ (Scan.found "." [longName 'b', "a.cs"]).relPath.toList := by
    rw [Scan.found, toList_longPath]
    have hnone (c : Char) (hc : c ≠ 'b') : c ∉ List.replicate 255 'b' := fun h => hc (List.eq_of_mem_replicate h)
    refine ⟨fun h => ?_, fun h => (List.mem_append.mp h).elim (hnone '~' (by decide)) (by decide)⟩
    have hcount := h.sublist.count_le '.'
    rw [List.count_append, List.count_eq_zero.mpr (hnone '.' (by decide))] at hcount
    exact absurd hcount (by decide)
  refine ⟨isChain_long.isPlaced, isChain_long.isSound, isChain_long.isDirectory,
    CSharp.Method.toNode (Scan.found "." [longName 'b', "a.cs"]).relPath ⟨"A", "M", 2, 3⟩, ?_, ?_, hpath, ?_⟩
  · rw [isChain_long.nodes_eq hshort, twoLines_nodes]
    exact List.mem_singleton_self _
  · intro text htext
    have hread : t.readText (Scan.found "." [longName 'b', "a.cs"]).path = .ok twoLines :=
      isChain_long.readText_eq hshort
    rw [hfound.path_eq] at hread
    rw [← Except.ok.inj (hread.symm.trans htext), CSharp.hasErrors_extract, twoLines_hasErrors]
  · have hfetch := hfound.ofFile_eq isChain_long.isPlaced isChain_long.isSound
      (Fetched.traverses_eq_false hpath) (isChain_long.readText_eq hshort) 2 3
    rw [if_neg hlong] at hfetch
    exact hfetch

end Index

end CodeContext
