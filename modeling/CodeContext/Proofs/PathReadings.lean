import CodeContext.Proofs.CachedPaths
import CodeContext.Proofs.ContextConsistency
import Mathlib.Data.List.TakeWhile

/-!
# What a path names

The method that compiles a context drops blank characters around its path, and the method that lists an index
does not. So the context is that of the nodes at the trimmed path, and the two methods agree for all targets
just when these are the nodes at the path as it is given.
-/

namespace CodeContext

/-! ### Blank paths -/

namespace Text

lemma all_isBlank_of_trimList_eq_nil {cs : List Char} (h : trimList cs = []) : cs.all isBlank = true := by
  have hall : ∀ c ∈ cs.dropWhile isBlank, isBlank c = true := by
    rw [trimList, List.reverse_eq_nil_iff, List.dropWhile_eq_nil_iff] at h
    intro c hc
    exact h c (List.mem_reverse.mpr hc)
  have hnil : cs.dropWhile isBlank = [] := by
    by_contra hne
    have hhead := List.head_dropWhile_not isBlank hne
    rw [hall _ (List.head_mem hne)] at hhead
    cases hhead
  rw [List.all_eq_true]
  exact List.dropWhile_eq_nil_iff.mp hnil

lemma trim_ne_empty {s : String} (h : blank s = false) : trim s ≠ "" := by
  intro hempty
  have hnil : trimList s.toList = [] := by
    have hlist := congrArg String.toList hempty
    rwa [trim, String.toList_ofList] at hlist
  rw [blank, all_isBlank_of_trimList_eq_nil hnil] at h
  cases h

end Text

/-! ### The nodes of an index -/

/-- A node is made of a method with a name on one line. -/
def IsListed (n : Node) : Prop :=
  ∃ (file : String) (m : CSharp.Method), n = m.toNode file ∧ Text.OneLine m.name

lemma Index.isListed_of_mem_nodes {t : FileTree} {respectIgnore : Bool} {path : String} {n : Node}
    (h : n ∈ (ofPath t respectIgnore path).nodes) : IsListed n := by
  obtain ⟨f, -, text, -, hn⟩ := exists_file_of_mem_nodes h
  have hsummary := CSharp.Source.oneLine_summary hn
  obtain ⟨m, -, rfl⟩ := List.mem_map.mp hn
  exact ⟨f.relPath, m, rfl, hsummary⟩

lemma toList_methodId (typeName member : String) :
    ∃ n : Nat, (Node.methodId typeName member).toList = 'F' :: 'N' :: ':' :: (toString n).toList :=
  ⟨_, String.toList_append⟩

lemma looksLikeId_methodId (typeName member : String) :
    Target.looksLikeId (Node.methodId typeName member) = true := by
  obtain ⟨n, hn⟩ := toList_methodId typeName member
  have htag : Text.sameIgnoringCase ['F', 'N', ':'] "FN:".toList = true := by decide
  rw [Target.looksLikeId, List.any_eq_true]
  exact ⟨"FN:", List.mem_cons_self, by rw [hn]; exact htag⟩

lemma blank_methodId (typeName member : String) : Text.blank (Node.methodId typeName member) = false := by
  obtain ⟨n, hn⟩ := toList_methodId typeName member
  have hletter : Text.isBlank 'F' = false := by decide
  rw [Text.blank, hn, List.all_cons, hletter, Bool.false_and]

lemma IsListed.plainNode {n : Node} (h : IsListed n) (hpath : Text.OneLine n.path) : Document.PlainNode n := by
  obtain ⟨file, m, rfl, hname⟩ := h
  obtain ⟨number, hid⟩ := toList_methodId m.className m.name
  have hnotMem {c : Char} (hc : c.isDigit = false) (htag : c ∉ ['F', 'N', ':']) :
      c ∉ (Node.methodId m.className m.name).toList := by
    have hdigits := Text.notMem_natText hc number
    rw [hid]
    simp_all
  exact {
    id := hnotMem (by decide) (by decide)
    spaceless := hnotMem (by decide) (by decide)
    path := hpath
    tags := fun _ h => absurd h List.not_mem_nil
    deps := fun _ h => absurd h List.not_mem_nil
    amplitudes := fun _ h => absurd h List.not_mem_nil
    summary := hname }

/-! ### Contexts tell their nodes -/

namespace Document

/-- A node that looks as it is shown. -/
def NodeView.bare (v : NodeView) : Node where
  id := v.id
  category := v.category
  path := v.path
  lineStart := v.lineStart
  lineEnd := v.lineEnd
  tags := v.tags
  deps := v.deps
  amplitudes := .empty
  summary := v.summary

end Document

lemma IsListed.bare_of {n : Node} (h : IsListed n) : (Document.NodeView.of n).bare = n := by
  obtain ⟨file, m, rfl, -⟩ := h
  rfl

lemma map_bare_of {nodes : List Node} (h : ∀ n ∈ nodes, IsListed n) :
    (nodes.map Document.NodeView.of).map Document.NodeView.bare = nodes := by
  rw [List.map_map]
  exact (List.map_congr_left fun n hn => (h n hn).bare_of).trans (List.map_id' nodes)

namespace Context

lemma select_ids {nodes : List Node} (h : ∀ n ∈ nodes, IsListed n) (cap : Nat) {ids : List String} (hne : ids ≠ [])
    (hids : ∀ n ∈ nodes, n.id ∈ ids) : select cap nodes ids = nodes := by
  rw [select_of_ne_nil hne, Node.filter_eq, List.filter_eq_self]
  intro n hn
  obtain ⟨file, m, rfl, -⟩ := h n hn
  have htarget : Target.ofString? (Node.methodId m.className m.name) =
      some (.id (Node.methodId m.className m.name)) := by
    simp [Target.ofString?, blank_methodId, looksLikeId_methodId]
  rw [List.any_eq_true]
  refine ⟨_, List.mem_filterMap.mpr ⟨_, hids _ hn, htarget⟩, ?_⟩
  simp [Target.selects, CSharp.Method.toNode, Text.sameIgnoringCase]

/-- Contexts for the ids of all nodes tell all nodes, if no path has a line feed. -/
lemma nodes_eq_of_compile_eq {rules : List Rule} (hrules : ∀ r ∈ rules, Document.PlainRule r) {cap : Nat}
    {nodes nodes' : List Node} (h : ∀ n ∈ nodes ++ nodes', IsListed n ∧ Text.OneLine n.path)
    (heq : compile rules cap nodes ((nodes ++ nodes').map Node.id) =
      compile rules cap nodes' ((nodes ++ nodes').map Node.id)) : nodes = nodes' := by
  by_cases hnil : nodes ++ nodes' = []
  · rw [(List.append_eq_nil_iff.mp hnil).1, (List.append_eq_nil_iff.mp hnil).2]
  have hne : (nodes ++ nodes').map Node.id ≠ [] := by simpa using hnil
  obtain ⟨hfirst, hsecond⟩ := List.forall_mem_append.mp h
  have hids : ∀ n ∈ nodes, n.id ∈ (nodes ++ nodes').map Node.id := fun n hn =>
    List.mem_map_of_mem (List.mem_append_left _ hn)
  have hids' : ∀ n ∈ nodes', n.id ∈ (nodes ++ nodes').map Node.id := fun n hn =>
    List.mem_map_of_mem (List.mem_append_right _ hn)
  have htext := congrArg Context.bytecode heq
  rw [compile, compile, select_ids (fun n hn => (hfirst n hn).1) cap hne hids,
    select_ids (fun n hn => (hsecond n hn).1) cap hne hids'] at htext
  have hplain : Document.IsPlain rules nodes [] :=
    ⟨hrules, fun n hn => (hfirst n hn).1.plainNode (hfirst n hn).2, by simp⟩
  have hplain' : Document.IsPlain rules nodes' [] :=
    ⟨hrules, fun n hn => (hsecond n hn).1.plainNode (hsecond n hn).2, by simp⟩
  have hparts := Text.eq_of_join_lines (Document.oneLine_of_mem_parts hplain) (Document.oneLine_of_mem_parts hplain')
    htext
  have hviews := congrArg Document.Outline.nodes (Document.outline_eq_of_parts hplain hplain' hparts)
  rw [← map_bare_of fun n hn => (hfirst n hn).1, ← map_bare_of fun n hn => (hsecond n hn).1]
  exact congrArg (List.map Document.NodeView.bare) hviews

lemma toJson_inj {a b : Context} (h : a.toJson = b.toJson) : a = b := by
  obtain ⟨_, _, _⟩ := a
  obtain ⟨_, _, _⟩ := b
  simp only [toJson, Json.Value.strings, Json.Value.object.injEq, List.cons.injEq, Prod.mk.injEq,
    Json.Value.string.injEq, Json.Value.array.injEq, true_and, and_true] at h
  rw [mk.injEq, ← List.map_inj_right fun _ _ hstring => Json.Value.string.inj hstring]
  exact h

end Context

/-! ### The two methods -/

namespace Service

open Json

def indexParams (path : String) : Value :=
  .object [("path", .string path)]

def contextParams (path : String) (targets : List String) : Value :=
  .object [("path", .string path), ("targets", .strings targets)]

/-- The context of the nodes that the index of a path gives. -/
def contextOf (s : Service) (o : Occasion) (path : String) (targets : List String) : Context :=
  Context.compile Rule.builtIn s.config.nodeCap (s.index o path).1 targets

/-- The one method answers with the nodes at a path, and the other one with the context of just these nodes. -/
structure Agrees (s : Service) (o : Occasion) (path : String) (targets : List String) : Prop where
  index : (s.handle o Method.index.name (indexParams path)).1 = .ok (indexJson (s.index o path).1)
  context : (s.handle o Method.compileContext.name (contextParams path targets)).1 =
    .ok (s.contextOf o path targets).toJson

lemma ofValue_strings (targets : List String) :
    (Decoder.list Decoder.string).ofValue (.strings targets) = .ok targets := by
  have hitems : (targets.map Value.string).mapM Decoder.string.ofValue = .ok targets := by
    induction targets with
    | nil => rfl
    | cons t rest ih =>
      rw [List.map_cons, List.mapM_cons, ih]
      rfl
  exact hitems

lemma paramsOf_contextParams (path : String) (targets : List String) :
    paramsOf ContextParams.decoder (contextParams path targets) = .ok ⟨some path, some targets⟩ := by
  have htargets : (Decoder.option (Decoder.list Decoder.string)).ofValue (.strings targets) = .ok (some targets) :=
    congrArg (Except.map some) (ofValue_strings targets)
  -- The last step of reading the parameters is the one that reads the targets.
  have hlast : paramsOf ContextParams.decoder (contextParams path targets) =
      (((((Decoder.option (Decoder.list Decoder.string)).ofValue (.strings targets)).map
        fun x => (⟨some (some path), some x⟩ : ContextParams.Draft)) >>= fun draft => .ok draft) >>=
          ContextParams.shape.finish).mapError .invalidParams := rfl
  rw [hlast, htargets]
  rfl

lemma handle_index (s : Service) (o : Occasion) (path : String) :
    (s.handle o Method.index.name (indexParams path)).1 = .ok (indexJson (s.index o path).1) := by
  have hparams : paramsOf IndexParams.decoder (indexParams path) = .ok ⟨path⟩ := rfl
  rw [handle, Method.ofName?_name]
  simp only [perform, indexPath, hparams]

/-- A path that is not blank is read without the blank characters around it. -/
lemma handle_compileContext (s : Service) (o : Occasion) {path : String} (hpath : Text.blank path = false)
    (targets : List String) :
    (s.handle o Method.compileContext.name (contextParams path targets)).1 =
      .ok (s.contextOf o (Text.trim path) targets).toJson := by
  have hrequired : requiredPath (some path) = .ok (Text.trim path) := if_neg (Text.trim_ne_empty hpath)
  rw [handle, Method.ofName?_name]
  simp only [perform, compileContext, paramsOf_contextParams, hrequired]
  rfl

lemma agrees_iff {s : Service} {o : Occasion} {path : String} (hpath : Text.blank path = false)
    {targets : List String} :
    s.Agrees o path targets ↔ s.contextOf o (Text.trim path) targets = s.contextOf o path targets := by
  constructor
  · intro h
    have hcontext := h.context
    rw [handle_compileContext s o hpath] at hcontext
    exact Context.toJson_inj (Except.ok.inj hcontext)
  · intro h
    refine ⟨handle_index s o path, ?_⟩
    rw [handle_compileContext s o hpath, h]

/-- All that a service remembers are the nodes at some path with the key that they are remembered under. -/
def IsConsistent (s : Service) (t : FileTree) : Prop :=
  ∀ k e, s.results.get? k = some e →
    ∃ path, CacheKey.ofPath t path = k ∧ e.value = nodesAt s.config t path

lemma isConsistent_start (config : Config) (t : FileTree) : (start config).IsConsistent t :=
  fun _ _ h => absurd h Cache.get?_empty_ne

lemma IsConsistent.isListed {s : Service} {o : Occasion} (hs : s.IsConsistent o.files) {path : String} {n : Node}
    (hn : n ∈ (s.index o path).1) : IsListed n := by
  rcases s.results.fresh_or_stale (CacheKey.ofPath o.files path) o.asked with ⟨e, he, hfresh⟩ | hstale
  · obtain ⟨other, -, hvalue⟩ := hs _ e he
    rw [index_of_fresh he hfresh, hvalue] at hn
    exact Index.isListed_of_mem_nodes hn
  · rw [index_of_stale hstale] at hn
    exact Index.isListed_of_mem_nodes hn

/-- The two methods agree on a path and some targets just when the contexts of the path and of the trimmed path
are the same. They agree for all targets just when the nodes at both are the same, if no path of these has a
line feed. -/
theorem agrees_on_path_iff {s : Service} {o : Occasion} {path : String} (hpath : Text.blank path = false) :
    (∀ targets, s.Agrees o path targets ↔ s.contextOf o (Text.trim path) targets = s.contextOf o path targets) ∧
      (s.IsConsistent o.files →
        (∀ n ∈ (s.index o (Text.trim path)).1 ++ (s.index o path).1, Text.OneLine n.path) →
          ((∀ targets, s.Agrees o path targets) ↔ (s.index o (Text.trim path)).1 = (s.index o path).1)) := by
  refine ⟨fun targets => agrees_iff hpath, fun hs hlines => ?_⟩
  constructor
  · intro h
    have hnodes : ∀ n ∈ (s.index o (Text.trim path)).1 ++ (s.index o path).1,
        IsListed n ∧ Text.OneLine n.path := by
      intro n hn
      exact ⟨(List.mem_append.mp hn).elim hs.isListed hs.isListed, hlines n hn⟩
    exact Context.nodes_eq_of_compile_eq Document.plainRule_of_mem_builtIn hnodes ((agrees_iff hpath).mp (h _))
  · intro h targets
    rw [agrees_iff hpath, contextOf, contextOf, h]

/-- The methods agree on a path that nothing is trimmed from. -/
theorem agrees_on_trimmed_path :
    Text.blank "a.cs" = false ∧ (start .standard).IsConsistent sourceTree ∧
      ∀ targets, (start .standard).Agrees ⟨sourceTree, 0, 0⟩ "a.cs" targets := by
  have hblank : Text.blank "a.cs" = false := by decide
  have htrim : Text.trim "a.cs" = "a.cs" := by decide
  have hs := isConsistent_start .standard sourceTree
  refine ⟨hblank, hs, ?_⟩
  refine ((agrees_on_path_iff (o := ⟨sourceTree, 0, 0⟩) hblank).2 hs ?_).mpr ?_
  · intro n hn
    rw [htrim, index_start, nodesAt_file, List.mem_append, or_self, CSharp.nodes_extract] at hn
    rw [(CSharp.Source.exists_tellsMethod hn).1]
    decide
  · rw [htrim]

/-- A working directory with a source file whose name begins with a blank. -/
def spacedTree : FileTree :=
  ⟨.directory [("w", .directory [(" a.cs", .file "class A\x7bvoid M()\x7b\x7d\x7d".toUTF8)])], ["w"]⟩

lemma spacedTree_nodes (config : Config) :
    nodesAt config spacedTree " a.cs" = [CSharp.Method.toNode " a.cs" ⟨"A", "M", 1, 1⟩] := by
  have hresolve : spacedTree.resolve " a.cs" = .ok ["w", " a.cs"] :=
    FileTree.resolve_of_steps 20 (by decide) rfl
  have hfull : spacedTree.resolve "/w/ a.cs" = .ok ["w", " a.cs"] :=
    FileTree.resolve_of_steps 20 (by decide) rfl
  have habsolute : spacedTree.absolute " a.cs" = "/w/ a.cs" :=
    (FileTree.absolute_of_resolve hresolve).trans (by decide)
  have hread : spacedTree.readText "/w/ a.cs" = .ok "class A\x7bvoid M()\x7b\x7d\x7d" :=
    (FileTree.readText_eq_ok_iff _).mpr ⟨_, _, hfull, rfl, Text.fromUTF8?_toUTF8 _⟩
  have hmethods : CSharp.Tree.methodsOf (CSharp.Source.parse "class A\x7bvoid M()\x7b\x7d\x7d").tokens none
      (CSharp.Source.parse "class A\x7bvoid M()\x7b\x7d\x7d").trees = [⟨"A", "M", 1, 1⟩] := by
    decide +kernel
  have hname : (Path.fileName? "/w/ a.cs").getD "" = " a.cs" := by decide
  have hsource : Path.isSource "/w/ a.cs" = true := by decide
  have hnodes : spacedTree.nodes config.respectIgnore "/w/ a.cs" = _ := FileTree.nodes_of_readText hread
  rw [if_pos hsource, hname, CSharp.nodes_extract, CSharp.Source.nodes, hmethods, List.map_singleton] at hnodes
  rw [nodesAt, habsolute]
  exact hnodes

lemma spacedTree_nodes_trimmed (config : Config) : nodesAt config spacedTree "a.cs" = [] := by
  have hresolve : spacedTree.resolve "a.cs" = .error .notFound :=
    FileTree.resolve_of_steps 20 (by decide) rfl
  have hfull : spacedTree.resolve "/w/a.cs" = .error .notFound :=
    FileTree.resolve_of_steps 20 (by decide) rfl
  have habsolute : spacedTree.absolute "a.cs" = "/w/a.cs" := by
    rw [FileTree.absolute, hresolve]
    decide
  rw [nodesAt, habsolute]
  exact FileTree.nodes_of_not_resolve fun out hout => by
    rw [hfull] at hout
    cases hout

/-- The index of a file gives its method, and the context of the same path has no node. -/
theorem context_misses_indexed_file :
    Text.blank " a.cs" = false ∧
      ((start .standard).handle ⟨spacedTree, 0, 0⟩ Method.index.name (indexParams " a.cs")).1 =
        .ok (indexJson [CSharp.Method.toNode " a.cs" ⟨"A", "M", 1, 1⟩]) ∧
      ((start .standard).handle ⟨spacedTree, 0, 0⟩ Method.compileContext.name (contextParams " a.cs" [])).1 =
        .ok (Context.compile Rule.builtIn Config.standard.nodeCap [] []).toJson ∧
      ¬ (start .standard).Agrees ⟨spacedTree, 0, 0⟩ " a.cs" [] := by
  have hblank : Text.blank " a.cs" = false := by decide
  have htrim : Text.trim " a.cs" = "a.cs" := by decide
  have hempty : (start .standard).contextOf ⟨spacedTree, 0, 0⟩ "a.cs" [] =
      Context.compile Rule.builtIn Config.standard.nodeCap [] [] := by
    rw [contextOf, index_start, spacedTree_nodes_trimmed]
    rfl
  have hone : (start .standard).contextOf ⟨spacedTree, 0, 0⟩ " a.cs" [] =
      Context.compile Rule.builtIn Config.standard.nodeCap [CSharp.Method.toNode " a.cs" ⟨"A", "M", 1, 1⟩] [] := by
    rw [contextOf, index_start, spacedTree_nodes]
    rfl
  refine ⟨hblank, ?_, ?_, fun hagrees => ?_⟩
  · rw [handle_index, index_start, spacedTree_nodes]
  · rw [handle_compileContext _ _ hblank, htrim, hempty]
  · rw [agrees_iff hblank, htrim, hempty, hone] at hagrees
    have hcounts := congrArg (fun c : Context => c.targets.length) hagrees
    exact absurd hcounts (by decide)

end Service

end CodeContext
