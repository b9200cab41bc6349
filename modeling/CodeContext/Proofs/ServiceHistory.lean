import CodeContext.Proofs.CacheMap
import CodeContext.Proofs.Resolution
import CodeContext.Service.Job

/-!
# Requests after other requests

As long as the files stay, a service that remembers results answers like one that does not, unless two
paths clash: they share a key, since their components agree, but one ends in a slash, say, and the files
found by their texts differ. Then whichever of them was indexed first answers for both. Paths that lead
somewhere as they are spelled never clash.
-/

namespace CodeContext.Service

open Json

/-! ### What a request needs -/

/-- The nodes at a path for a service that remembers nothing. -/
def nodesAt (config : Config) (t : FileTree) (path : String) : List Node :=
  (Index.ofPath t config.respectIgnore (t.absolute path)).nodes

lemma respond_of_needs {s : Service} {r : Request} {path : String} {result : List Node → Value}
    (h : needs? s.config r = some (path, result)) (o : Occasion) :
    s.respond o r = (⟨r.id, .ok (result (s.index o path).1)⟩, (s.index o path).2) := by
  unfold needs? at h
  split at h
  · rename_i hmethod
    split at h
    · cases h
    · rename_i p hp
      cases h
      simp only [respond, handle, hmethod, perform, indexPath, hp]
      rfl
  · rename_i hmethod
    split at h
    · cases h
    · rename_i p hp
      split at h
      · cases h
      · rename_i path hpath
        cases h
        simp only [respond, handle, hmethod, perform, compileContext, hp, hpath]
        rfl
  · cases h

lemma respond_of_needs_none {s : Service} {r : Request} (h : needs? s.config r = none)
    (hclear : r.method ≠ Method.clearCache.name) (o : Occasion) (c : Cache (List Node)) (asked made : Nat) :
    (s.respond o r).2 = s ∧
      (s.respond o r).1 = ((⟨s.config, c⟩ : Service).respond ⟨o.files, asked, made⟩ r).1 := by
  unfold needs? at h
  cases hmethod : Method.ofName? r.method with
  | none => simp only [respond, handle, hmethod, and_self]
  | some m =>
    rw [hmethod] at h
    cases m with
    | compileContext =>
      cases hp : paramsOf ContextParams.decoder r.params with
      | error e => simp only [respond, handle, hmethod, perform, compileContext, hp, and_self]
      | ok p =>
        cases hpath : requiredPath p.path with
        | error e => simp only [respond, handle, hmethod, perform, compileContext, hp, hpath, and_self]
        | ok path => simp [hp, hpath] at h
    | index =>
      cases hp : paramsOf IndexParams.decoder r.params with
      | error e => simp only [respond, handle, hmethod, perform, indexPath, hp, and_self]
      | ok p => simp [hp] at h
    | listRules => simp only [respond, handle, hmethod, perform, and_self]
    | fetchCode =>
      simp only [respond, handle, hmethod, perform, true_and]
      rfl
    | clearCache =>
      have hname := List.find?_some hmethod
      exact absurd (beq_iff_eq.mp hname).symm hclear
    | listMethods => simp only [respond, handle, hmethod, perform, and_self]

lemma respond_clear {s : Service} {r : Request} (h : r.method = Method.clearCache.name) (o : Occasion) :
    (s.respond o r).2 = { s with results := s.results.clear } := by
  simp only [respond, handle, h, Method.ofName?_name]
  rfl

lemma index_of_fresh {s : Service} {o : Occasion} {path : String} {e : Stored (List Node)}
    (h : s.results.get? (CacheKey.ofPath o.files path) = some e)
    (hfresh : o.asked - e.time < s.results.lifetime) : s.index o path = (e.value, s) := by
  unfold index
  dsimp only
  rw [Cache.index_of_fresh h hfresh]

lemma index_of_stale {s : Service} {o : Occasion} {path : String}
    (h : ∀ e, s.results.get? (CacheKey.ofPath o.files path) = some e →
      s.results.lifetime ≤ o.asked - e.time) :
    s.index o path =
      (nodesAt s.config o.files path,
        ⟨s.config, s.results.refreshed (.around o.asked o.made) (CacheKey.ofPath o.files path)
          (nodesAt s.config o.files path)⟩) := by
  unfold index
  dsimp only
  rw [Cache.index_of_stale h]
  rfl

lemma index_start (config : Config) (o : Occasion) (path : String) :
    ((start config).index o path).1 = nodesAt config o.files path := by
  rw [index_of_stale fun e h => absurd h Cache.get?_empty_ne]
  rfl

/-! ### Histories -/

/-- A line that the service was asked with, and the clock before and after the files were indexed. -/
structure Arrival where
  line : String
  asked : Nat
  made : Nat

def Arrival.occasion (a : Arrival) (t : FileTree) : Occasion :=
  ⟨t, a.asked, a.made⟩

/-- The service after it answered some lines, while the files stayed. -/
def after (s : Service) (t : FileTree) : List Arrival → Service
  | [] => s
  | a :: rest => ((s.respondToLine (a.occasion t) a.line).2).after t rest

/-- A line asks for the nodes at a path. -/
def AsksFor (config : Config) (line path : String) : Prop :=
  ∃ r result, Request.decoder.parse line = .ok r ∧ needs? config r = some (path, result)

/-- All that the service remembers are nodes at paths that some lines asked for. -/
structure Remembers (config : Config) (t : FileTree) (lines : String → Prop) (s : Service) : Prop where
  config_eq : s.config = config
  lifetime_eq : s.results.lifetime = seconds config.cacheLifetime
  nodes : ∀ k e, s.results.get? k = some e → ∃ line path, lines line ∧ AsksFor config line path ∧
    CacheKey.ofPath t path = k ∧ e.value = nodesAt config t path

lemma remembers_start (config : Config) (t : FileTree) (lines : String → Prop) :
    Remembers config t lines (start config) where
  config_eq := rfl
  lifetime_eq := rfl
  nodes _ _ h := absurd h Cache.get?_empty_ne

lemma Remembers.index {config : Config} {t : FileTree} {lines : String → Prop} {s : Service}
    (h : Remembers config t lines s) {line path : String} (hline : lines line)
    (hasks : AsksFor config line path) (asked made : Nat) :
    Remembers config t lines (s.index ⟨t, asked, made⟩ path).2 := by
  rcases s.results.fresh_or_stale (CacheKey.ofPath t path) asked with ⟨e, he, hfresh⟩ | hstale
  · rw [index_of_fresh (o := ⟨t, asked, made⟩) he hfresh]
    exact h
  · rw [index_of_stale (o := ⟨t, asked, made⟩) hstale]
    refine ⟨h.config_eq, (Cache.lifetime_refreshed _ _ _ _).trans h.lifetime_eq, fun k e he => ?_⟩
    rcases Cache.get?_refreshed.mp he with ⟨rfl, rfl⟩ | ⟨-, he, -⟩
    · exact ⟨line, path, hline, hasks, rfl, by rw [h.config_eq]⟩
    · exact h.nodes k e he

/-- Every answer keeps to what the lines asked for. -/
theorem Remembers.respondToLine {config : Config} {t : FileTree} {lines : String → Prop} {s : Service}
    (h : Remembers config t lines s) {a : Arrival} (ha : lines a.line) :
    Remembers config t lines (s.respondToLine (a.occasion t) a.line).2 := by
  unfold Service.respondToLine
  cases hparse : Request.decoder.parse a.line with
  | error e => exact h
  | ok r =>
    dsimp only
    cases hneeds : needs? s.config r with
    | some need =>
      rw [respond_of_needs hneeds]
      exact h.index ha ⟨r, need.2, hparse, h.config_eq ▸ hneeds⟩ a.asked a.made
    | none =>
      by_cases hclear : r.method = Method.clearCache.name
      · rw [respond_clear hclear]
        exact ⟨h.config_eq, h.lifetime_eq, fun _ _ he => absurd he Cache.get?_empty_ne⟩
      · rw [(respond_of_needs_none hneeds hclear _ s.results 0 0).1]
        exact h

lemma Remembers.after {config : Config} {t : FileTree} {lines : String → Prop} {s : Service}
    (h : Remembers config t lines s) {history : List Arrival} (hlines : ∀ a ∈ history, lines a.line) :
    Remembers config t lines (s.after t history) := by
  induction history generalizing s with
  | nil => exact h
  | cons a rest ih =>
    have hstep := h.respondToLine (hlines a List.mem_cons_self)
    exact ih hstep fun b hb => hlines b (List.mem_cons_of_mem _ hb)

/-! ### Clashes -/

/-- A request's path shares its key with another path, and its answer would be another with the nodes
there. -/
def Clash (config : Config) (t : FileTree) (r : Request) (other : String) : Prop :=
  ∃ path result, needs? config r = some (path, result) ∧
    CacheKey.ofPath t other = CacheKey.ofPath t path ∧
    (⟨r.id, .ok (result (nodesAt config t other))⟩ : Response).line ≠
      (⟨r.id, .ok (result (nodesAt config t path))⟩ : Response).line

/-- Paths that lead somewhere do not clash. -/
theorem not_clash_of_resolve {t : FileTree} (ht : t.IsPlaced) {config : Config} {r : Request} {other : String}
    {names : List String} (hother : t.resolve other = .ok names)
    (hpath : ∀ path result, needs? config r = some (path, result) → ∃ names, t.resolve path = .ok names) :
    ¬ Clash config t r other := by
  rintro ⟨path, result, hneeds, hkey, hdiffers⟩
  obtain ⟨names', hpath⟩ := hpath path result hneeds
  have hnames := (FileTree.isCanonical_of_resolve ht hother).isName
  have hnames' := (FileTree.isCanonical_of_resolve ht hpath).isName
  rw [CacheKey.ofPath, CacheKey.ofPath, FileTree.absolute_of_resolve hother,
    FileTree.absolute_of_resolve hpath, FileTree.textOf, FileTree.textOf,
    Path.components_of_isName hnames, Path.components_of_isName hnames', List.cons.injEq, List.map_inj_right fun a b h => Path.Component.name.inj h] at hkey
  have hnodes : nodesAt config t other = nodesAt config t path := by
    rw [nodesAt, nodesAt, FileTree.absolute_of_resolve hother, FileTree.absolute_of_resolve hpath, hkey.2]
  exact hdiffers (by rw [hnodes])

lemma call_eq {config : Config} {o : Occasion} {r : Request} {params id : String}
    (hparams : Value.parse params = .ok r.params) (hid : Request.idOfText id = r.id) :
    call config o r.method params id = .ok ((start config).respond o r).1.line := by
  rw [call, Request.ofTexts, hparams, hid]
  rfl

/-- What is remembered answers like what is there, if nothing stays fresh or no path clashes. -/
lemma Remembers.respond_eq {config : Config} {t : FileTree} {lines : String → Prop} {s : Service}
    (h : Remembers config t lines s) {r : Request} (hclear : r.method ≠ Method.clearCache.name)
    (hclash : config.cacheLifetime = 0 ∨
      ∀ line path, lines line → AsksFor config line path → ¬ Clash config t r path)
    (asked made : Nat) (o : Occasion) (ho : o.files = t) :
    (s.respond ⟨t, asked, made⟩ r).1.line = ((start config).respond o r).1.line := by
  subst ho
  cases hneeds : needs? config r with
  | none =>
    have hs := h.config_eq ▸ hneeds
    rw [(respond_of_needs_none hs hclear _ (start config).results o.asked o.made).2, h.config_eq]
    rfl
  | some need =>
    obtain ⟨path, result⟩ := need
    have hs := h.config_eq ▸ hneeds
    rw [respond_of_needs hs, respond_of_needs (s := start config) hneeds, index_start]
    rcases s.results.fresh_or_stale (CacheKey.ofPath o.files path) asked with ⟨e, he, hfresh⟩ | hstale
    · obtain ⟨line, other, hline, hasks, hkey, hvalue⟩ := h.nodes _ e he
      rw [index_of_fresh (o := ⟨o.files, asked, made⟩) he hfresh, hvalue]
      rcases hclash with hzero | hclash
      · rw [h.lifetime_eq, seconds, hzero, Nat.zero_mul] at hfresh
        exact absurd hfresh (Nat.not_lt_zero _)
      · by_cases hsame : (⟨r.id, .ok (result (nodesAt config o.files other))⟩ : Response).line =
            (⟨r.id, .ok (result (nodesAt config o.files path))⟩ : Response).line
        · exact hsame
        · exact absurd ⟨path, result, hneeds, hkey, hsame⟩ (hclash line other hline hasks)
    · rw [index_of_stale (o := ⟨o.files, asked, made⟩) hstale, h.config_eq]

lemma after_one_line {config : Config} {t : FileTree} {line path : String}
    (hasks : AsksFor config line path) :
    (start config).after t [⟨line, 0, 0⟩] =
      ⟨config, (start config).results.refreshed (.around 0 0) (CacheKey.ofPath t path)
        (nodesAt config t path)⟩ := by
  obtain ⟨r, result, hparse, hneeds⟩ := hasks
  have hindex : (start config).index ⟨t, 0, 0⟩ path = _ :=
    index_of_stale fun e he => absurd he Cache.get?_empty_ne
  rw [after, after, respondToLine, hparse]
  exact (congrArg Prod.snd (respond_of_needs (s := start config) hneeds _)).trans (congrArg Prod.snd hindex)

/-- Right after a line that asks for another path with the same key, a request is answered with the nodes
there. -/
lemma respond_after_other {config : Config} {t : FileTree} {r : Request} {path other line : String}
    {result : List Node → Value} (hneeds : needs? config r = some (path, result))
    (hkey : CacheKey.ofPath t other = CacheKey.ofPath t path) (hasks : AsksFor config line other)
    (hlifetime : 0 < config.cacheLifetime) :
    (((start config).after t [⟨line, 0, 0⟩]).respond ⟨t, 0, 0⟩ r).1 =
      ⟨r.id, .ok (result (nodesAt config t other))⟩ := by
  rw [after_one_line hasks]
  generalize hc : (start config).results.refreshed (.around 0 0) (CacheKey.ofPath t other)
    (nodesAt config t other) = c
  have hheld : c.get? (CacheKey.ofPath t path) = some ⟨nodesAt config t other, 0⟩ := by
    rw [← hc]
    exact Cache.get?_refreshed.mpr (.inl ⟨hkey.symm, rfl⟩)
  have hfresh : 0 < c.lifetime := by
    rw [← hc, Cache.lifetime_refreshed]
    exact Nat.mul_pos hlifetime (by decide)
  have hindex := index_of_fresh (s := ⟨config, c⟩) (o := ⟨t, 0, 0⟩) hheld hfresh
  rw [respond_of_needs (s := ⟨config, c⟩) hneeds, hindex]

/-- Whatever some lines made a service remember, it answers a request like a service that is started for
it, just when results do not stay or no path clashes that the lines ask for. -/
theorem response_eq_call_iff {config : Config} {t : FileTree} (lines : String → Prop)
    {line params id : String} {r : Request} (hline : Request.decoder.parse line = .ok r)
    (hclear : r.method ≠ Method.clearCache.name) (hparams : Value.parse params = .ok r.params)
    (hid : Request.idOfText id = r.id) :
    (∀ history : List Arrival, (∀ a ∈ history, lines a.line) → ∀ asked made askedAlone madeAlone,
        .ok (((start config).after t history).respondToLine ⟨t, asked, made⟩ line).1.line =
          call config ⟨t, askedAlone, madeAlone⟩ r.method params id) ↔
      config.cacheLifetime = 0 ∨
        ∀ earlier path, lines earlier → AsksFor config earlier path → ¬ Clash config t r path := by
  have hrespond (s : Service) (o : Occasion) : s.respondToLine o line = s.respond o r := by
    unfold respondToLine
    rw [hline]
  constructor
  · intro hsame
    rcases Nat.eq_zero_or_pos config.cacheLifetime with hzero | hpos
    · exact .inl hzero
    · refine .inr fun earlier other hearlier hasks hclash => ?_
      obtain ⟨path, result, hneeds, hkey, hdiffers⟩ := hclash
      have heq := hsame [⟨earlier, 0, 0⟩] (by simpa using hearlier) 0 0 0 0
      rw [call_eq hparams hid, hrespond, respond_after_other hneeds hkey hasks hpos,
        respond_of_needs (s := start config) hneeds, index_start] at heq
      exact hdiffers (Except.ok.inj heq)
  · intro hclash history hhistory asked made askedAlone madeAlone
    have hs := (remembers_start config t lines).after hhistory
    rw [call_eq hparams hid, hrespond, hs.respond_eq hclear hclash asked made ⟨t, askedAlone, madeAlone⟩ rfl]

/-! ### A file with a slash after it -/

/-- A working directory with one source file. -/
def sourceTree : FileTree :=
  ⟨.directory [("w", .directory [("a.cs", .file "class A\x7bvoid M()\x7b\x7d\x7d".toUTF8)])], ["w"]⟩

lemma sourceTree_isPlaced : sourceTree.IsPlaced where
  isName := by decide
  isDirectory := ⟨_, rfl⟩

lemma sourceTree_resolve : sourceTree.resolve "a.cs" = .ok ["w", "a.cs"] :=
  FileTree.resolve_of_steps 20 (by decide) rfl

lemma sourceTree_resolve_full : sourceTree.resolve "/w/a.cs" = .ok ["w", "a.cs"] :=
  FileTree.resolve_of_steps 20 (by decide) rfl

lemma sourceTree_resolve_slash : sourceTree.resolve "a.cs/" = .error .notDirectory :=
  FileTree.resolve_of_steps 20 (by decide) rfl

lemma sourceTree_resolve_full_slash : sourceTree.resolve "/w/a.cs/" = .error .notDirectory :=
  FileTree.resolve_of_steps 20 (by decide) rfl

lemma sourceTree_absolute : sourceTree.absolute "a.cs" = "/w/a.cs" :=
  (FileTree.absolute_of_resolve sourceTree_resolve).trans (by decide)

lemma sourceTree_absolute_slash : sourceTree.absolute "a.cs/" = "/w/a.cs/" := by
  rw [FileTree.absolute, sourceTree_resolve_slash]
  decide

lemma nodesAt_slash (config : Config) : nodesAt config sourceTree "a.cs/" = [] := by
  have hnone : Index.sources sourceTree config.respectIgnore "/w/a.cs/" = [] := by
    simp [Index.sources, FileTree.isDirectory, FileTree.scanFile?, FileTree.isFile, FileTree.find?,
      sourceTree_resolve_full_slash]
  rw [nodesAt, sourceTree_absolute_slash, Index.ofPath, Index.ofPathWith, hnone]
  rfl

lemma nodesAt_file (config : Config) :
    nodesAt config sourceTree "a.cs" = (CSharp.extract "class A\x7bvoid M()\x7b\x7d\x7d" "a.cs").nodes := by
  have hat : sourceTree.root.at? ["w", "a.cs"] = some (.file "class A\x7bvoid M()\x7b\x7d\x7d".toUTF8) := rfl
  have hsources : Index.sources sourceTree config.respectIgnore "/w/a.cs" = [⟨"a.cs", "/w/a.cs"⟩] := by
    have hname : Path.isSource "/w/a.cs" = true := by decide
    have hfile : Path.fileName? "/w/a.cs" = some "a.cs" := by decide
    simp [Index.sources, FileTree.isDirectory, FileTree.scanFile?, FileTree.isFile, FileTree.find?,
      sourceTree_resolve_full, hat, Entry.isDirectory, Entry.isFile, hname, hfile]
  have htext : sourceTree.readText "/w/a.cs" = .ok "class A\x7bvoid M()\x7b\x7d\x7d" :=
    (FileTree.readText_eq_ok_iff _).mpr ⟨_, _, sourceTree_resolve_full, hat, Text.fromUTF8?_toUTF8 _⟩
  rw [nodesAt, sourceTree_absolute, Index.ofPath, Index.ofPathWith, hsources]
  simp [Index.ofFiles, Index.add, Index.nodesOf?, htext, CSharp.extract]

/-- A request for the nodes at a path. -/
def indexRequest (id : Int) (path : String) : Request :=
  ⟨.ofInt id, Method.index.name, .object [("path", .string path)]⟩

lemma needs?_indexRequest (config : Config) (id : Int) (path : String) :
    needs? config (indexRequest id path) = some (path, indexJson) :=
  rfl

def fileLine : String :=
  "\x7b\"id\":2,\"method\":\"index\",\"params\":\x7b\"path\":\"a.cs\"\x7d\x7d"

def slashLine : String :=
  "\x7b\"id\":1,\"method\":\"index\",\"params\":\x7b\"path\":\"a.cs/\"\x7d\x7d"

def pointLine : String :=
  "\x7b\"id\":1,\"method\":\"index\",\"params\":\x7b\"path\":\"./a.cs\"\x7d\x7d"

set_option maxRecDepth 10000 in
lemma parse_fileLine : Request.decoder.parse fileLine = .ok (indexRequest 2 "a.cs") := rfl

set_option maxRecDepth 10000 in
lemma parse_slashLine : Request.decoder.parse slashLine = .ok (indexRequest 1 "a.cs/") := rfl

set_option maxRecDepth 10000 in
lemma parse_pointLine : Request.decoder.parse pointLine = .ok (indexRequest 1 "./a.cs") := rfl

lemma parse_fileParams :
    Value.parse "\x7b\"path\":\"a.cs\"\x7d" = .ok (.object [("path", .string "a.cs")]) := rfl

def emptyAnswer : String :=
  "\x7b\"id\":2,\"result\":\x7b\"count\":0,\"nodes\":[]\x7d\x7d"

set_option maxRecDepth 10000 in
/-- A file with a slash after it has no nodes, and answers for the file from then on. -/
theorem response_after_slash_ne_call :
    (((start .standard).after sourceTree [⟨slashLine, 0, 0⟩]).respondToLine
        ⟨sourceTree, 0, 0⟩ fileLine).1.line = emptyAnswer ∧
      call .standard ⟨sourceTree, 0, 0⟩ Method.index.name "\x7b\"path\":\"a.cs\"\x7d" "2" =
        .ok ("\x7b\"id\":2,\"result\":\x7b\"count\":1,\"nodes\":[\x7b\"category\":\"Unknown\"," ++
          "\"line_end\":1,\"line_start\":1,\"node_id\":\"FN:9973\",\"path\":\"a.cs\"," ++
          "\"summary\":\"M\"\x7d]\x7d\x7d") := by
  have hkey : CacheKey.ofPath sourceTree "a.cs/" = CacheKey.ofPath sourceTree "a.cs" := by
    rw [CacheKey.ofPath, CacheKey.ofPath, sourceTree_absolute, sourceTree_absolute_slash]
    decide
  constructor
  · have hrespond (s : Service) (o : Occasion) :
        s.respondToLine o fileLine = s.respond o (indexRequest 2 "a.cs") := by
      rw [respondToLine, parse_fileLine]
    have hafter := respond_after_other (needs?_indexRequest .standard 2 "a.cs") hkey
      ⟨_, _, parse_slashLine, needs?_indexRequest _ _ _⟩ (by decide)
    rw [hrespond, hafter, nodesAt_slash]
    decide +kernel
  · have hcall : call .standard ⟨sourceTree, 0, 0⟩ (indexRequest 2 "a.cs").method
        "\x7b\"path\":\"a.cs\"\x7d" "2" = _ := call_eq parse_fileParams rfl
    rw [respond_of_needs (s := start .standard) (needs?_indexRequest _ _ _), index_start,
      nodesAt_file] at hcall
    refine hcall.trans (congrArg Except.ok ?_)
    decide +kernel

lemma asksFor_pointLine {path : String} (h : AsksFor .standard pointLine path) : path = "./a.cs" := by
  obtain ⟨r, result, hparse, hneeds⟩ := h
  rw [parse_pointLine] at hparse
  obtain rfl := Except.ok.inj hparse
  rw [needs?_indexRequest] at hneeds
  exact (Prod.mk.inj (Option.some.inj hneeds)).1.symm

/-- Another spelling that leads to the file changes no answer. -/
theorem response_after_other_spelling :
    Request.decoder.parse fileLine = .ok (indexRequest 2 "a.cs") ∧
      .ok (((start .standard).after sourceTree [⟨pointLine, 0, 1⟩, ⟨pointLine, 3, 4⟩]).respondToLine
        ⟨sourceTree, 5, 6⟩ fileLine).1.line =
        call .standard ⟨sourceTree, 0, 1⟩ Method.index.name "\x7b\"path\":\"a.cs\"\x7d" "2" := by
  have hpoint : sourceTree.resolve "./a.cs" = .ok ["w", "a.cs"] :=
    FileTree.resolve_of_steps 20 (by decide) rfl
  have hclash (earlier path : String) (hearlier : earlier = pointLine)
      (hasks : AsksFor .standard earlier path) :
      ¬ Clash .standard sourceTree (indexRequest 2 "a.cs") path := by
    subst hearlier
    rw [asksFor_pointLine hasks]
    refine not_clash_of_resolve sourceTree_isPlaced hpoint fun path result hneeds => ?_
    rw [needs?_indexRequest] at hneeds
    obtain rfl := (Prod.mk.inj (Option.some.inj hneeds)).1
    exact ⟨_, sourceTree_resolve⟩
  have hid : Request.idOfText "2" = (indexRequest 2 "a.cs").id := rfl
  have hsame := (response_eq_call_iff (· = pointLine) parse_fileLine (by decide) parse_fileParams hid).mpr
    (.inr hclash)
  exact ⟨parse_fileLine, hsame [⟨pointLine, 0, 1⟩, ⟨pointLine, 3, 4⟩] (by simp) 5 6 0 1⟩

end CodeContext.Service
