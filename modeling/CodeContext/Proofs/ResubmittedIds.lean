import CodeContext.Proofs.PathReadings
import CodeContext.Proofs.TargetPlaces

/-!
# Ids given back as targets

The ids in a context can be given back as targets. If all ids of an index start like ids, the context for them
shows at least the nodes of the first one, and beside them only nodes that share an id with one of these up to the
case of ASCII letters. From then on nothing changes.
-/

namespace CodeContext

namespace Target

variable {s t : String} {n : Node} {nodes : List Node} {ids : List String}

lemma startsLikeId_methodId (typeName member : String) : StartsLikeId (Node.methodId typeName member) :=
  looksLikeId_iff.mp (looksLikeId_methodId typeName member)

/-- No beginning of ids, and no variant of it, begins with a blank character. -/
lemma StartsLikeId.notBlank (h : StartsLikeId s) : ∃ c ∈ s.toList, Text.isBlank c = false := by
  obtain ⟨p, hp, head, rest, rfl, hsame⟩ := h
  have hcapital : ∀ p ∈ idPrefixes, ∃ d more, p.toList = d :: more ∧ 65 ≤ d.toNat ∧ d.toNat ≤ 90 := by
    simp only [idPrefixes, List.forall_mem_cons]
    exact ⟨⟨_, _, rfl, by decide⟩, ⟨_, _, rfl, by decide⟩, ⟨_, _, rfl, by decide⟩, ⟨_, _, rfl, by decide⟩,
      ⟨_, _, rfl, by decide⟩, ⟨_, _, rfl, by decide⟩, ⟨_, _, rfl, by decide⟩, ⟨_, _, rfl, by decide⟩,
      ⟨_, _, rfl, by decide⟩, ⟨_, _, rfl, by decide⟩, by simp⟩
  obtain ⟨d, more, hd, hbounds⟩ := hcapital p hp
  rw [Text.SameLetters, hd, List.forall₂_cons_right_iff] at hsame
  obtain ⟨c, cs, hc, -, hcs⟩ := hsame
  refine ⟨c, by rw [String.toList_append, hcs]; exact List.mem_cons_self, ?_⟩
  rw [Text.SameCode] at hc
  simp only [Text.isBlank, Bool.or_eq_false_iff, Bool.and_eq_false_iff, decide_eq_false_iff_not, beq_eq_false_iff_ne]
  omega

lemma StartsLikeId.standsFor_iff (h : StartsLikeId t) : StandsFor t n ↔ Text.SameLetters n.id t :=
  ⟨fun hstands => hstands.id h, fun hsame => ⟨h.notBlank, fun _ => hsame, fun hnot => absurd h hnot⟩⟩

lemma mem_places_iff (hids : ∀ id ∈ ids, StartsLikeId id) {i : ℕ} :
    i ∈ places nodes ids ↔ ∃ n, nodes[i]? = some n ∧ ∃ id ∈ ids, Text.SameLetters n.id id := by
  refine exists_congr fun n => and_congr_right fun _ => exists_congr fun id => and_congr_right fun hid => ?_
  exact (hids id hid).standsFor_iff

end Target

namespace Node

variable {nodes : List Node} {ids : List String}

lemma mem_filter_ids_iff (hids : ∀ id ∈ ids, Target.StartsLikeId id) {n : Node} :
    n ∈ filter nodes ids ↔ n ∈ nodes ∧ ∃ id ∈ ids, Text.SameLetters n.id id := by
  rw [mem_filter_iff_standsFor]
  refine and_congr_right fun _ => exists_congr fun id => and_congr_right fun hid => ?_
  exact (hids id hid).standsFor_iff

/-- The ids of the nodes that some ids select do not select any other node. -/
lemma filter_ids_of_filter (hnodes : ∀ n ∈ nodes, Target.StartsLikeId n.id)
    (hids : ∀ id ∈ ids, Target.StartsLikeId id) :
    filter nodes ((filter nodes ids).map Node.id) = filter nodes ids := by
  refine filter_congr fun n hn => ?_
  constructor
  · rintro ⟨_, hid, hstands⟩
    obtain ⟨m, hm, rfl⟩ := List.mem_map.mp hid
    obtain ⟨hmem, id, hid, hsame⟩ := (mem_filter_ids_iff hids).mp hm
    have hshared := (hnodes m hmem).standsFor_iff.mp hstands
    exact ⟨id, hid, (hids id hid).standsFor_iff.mpr (hshared.trans hsame)⟩
  · rintro ⟨id, hid, hstands⟩
    have hmem : n ∈ filter nodes ids := mem_filter_iff_standsFor.mpr ⟨hn, id, hid, hstands⟩
    exact ⟨n.id, List.mem_map_of_mem hmem, (hnodes n hn).standsFor_iff.mpr (Text.SameLetters.refl _)⟩

lemma holdsPlaces_take (nodes : List Node) (cap : ℕ) :
    HoldsPlaces nodes (nodes.take cap) {i | i < min cap nodes.length} := by
  refine ⟨nodes.zipIdx.take cap, List.take_sublist _ _, ?_, fun n i => ?_⟩
  · rw [List.map_take, List.zipIdx_map_fst]
  · rw [List.mem_iff_getElem?, Set.mem_ofPred_eq]
    simp only [List.getElem?_take, List.getElem?_zipIdx]
    constructor
    · rintro ⟨j, hj⟩
      split at hj
      · rename_i hlt
        obtain ⟨m, hm, hpair⟩ := Option.map_eq_some_iff.mp hj
        obtain ⟨rfl, rfl⟩ := Prod.mk.inj hpair
        have hlength := (List.getElem?_eq_some_iff.mp hm).1
        rw [Nat.zero_add]
        exact ⟨hm, lt_min hlt hlength⟩
      · cases hj
    · rintro ⟨hn, hlt⟩
      refine ⟨i, ?_⟩
      rw [if_pos (lt_min_iff.mp hlt).1, hn, Option.map_some, Nat.zero_add]

end Node

namespace Context

/-- The places of the nodes that a context shows: without a target those of the first nodes up to the cap, and
else those that some target stands for. -/
def places (cap : ℕ) (nodes : List Node) (targets : List String) : Set ℕ :=
  if targets = [] then {i | i < min cap nodes.length} else Target.places nodes targets

/-- A context shows the nodes at some places of a list, with the rules. -/
def Shows (c : Context) (rules : List Rule) (nodes : List Node) (places : Set ℕ) : Prop :=
  ∃ chosen, Node.HoldsPlaces nodes chosen places ∧ c.bytecode = Document.render rules chosen [] ∧
    c.summary = "Compiled context for " ++ toString chosen.length ++ " nodes." ∧ c.targets = chosen.map Node.id

variable {cap : ℕ} {nodes : List Node} {targets ids : List String}

lemma places_of_ne_nil (h : targets ≠ []) : places cap nodes targets = Target.places nodes targets :=
  if_neg h

lemma holdsPlaces_select (cap : ℕ) (nodes : List Node) (targets : List String) :
    Node.HoldsPlaces nodes (select cap nodes targets) (places cap nodes targets) := by
  by_cases hnone : targets = []
  · subst hnone
    rw [select_eq, if_pos rfl]
    exact Node.holdsPlaces_take nodes cap
  · rw [select_of_ne_nil hnone, places_of_ne_nil hnone]
    exact Node.holdsPlaces_filter_targets nodes targets

lemma shows_compile (rules : List Rule) (cap : ℕ) (nodes : List Node) (targets : List String) :
    (compile rules cap nodes targets).Shows rules nodes (places cap nodes targets) :=
  ⟨select cap nodes targets, holdsPlaces_select cap nodes targets, rfl, rfl, rfl⟩

lemma exists_of_mem_places {i : ℕ} (h : i ∈ places cap nodes targets) :
    ∃ n, nodes[i]? = some n ∧ n ∈ select cap nodes targets := by
  have hnode : ∃ n, nodes[i]? = some n := by
    unfold places at h
    split at h
    · have hlt : i < nodes.length := (lt_min_iff.mp h).2
      exact ⟨_, List.getElem?_eq_getElem hlt⟩
    · obtain ⟨n, hn, -⟩ := h
      exact ⟨n, hn⟩
  obtain ⟨n, hn⟩ := hnode
  obtain ⟨entries, -, hselected, hmem⟩ := holdsPlaces_select cap nodes targets
  exact ⟨n, hn, hselected ▸ List.mem_map_of_mem ((hmem n i).mpr ⟨hn, h⟩)⟩

/-- The ids of what is selected, if there are any, select it again and stay the same from then on. -/
lemma select_resubmitted (hids : ∀ n ∈ nodes, Target.StartsLikeId n.id)
    (hselected : ids = (select cap nodes targets).map Node.id)
    (hne : ids ≠ []) : select cap nodes ((select cap nodes ids).map Node.id) = select cap nodes ids := by
  have hstarts : ∀ id ∈ ids, Target.StartsLikeId id := by
    rw [hselected, List.forall_mem_map]
    exact fun n hn => hids n (mem_of_mem_select hn)
  have hagain : (select cap nodes ids).map Node.id ≠ [] := by
    obtain ⟨id, hid⟩ := List.exists_mem_of_ne_nil _ hne
    obtain ⟨n, hn, rfl⟩ := List.mem_map.mp (hselected ▸ hid)
    have hmem : n ∈ Node.filter nodes ids :=
      (Node.mem_filter_ids_iff hstarts).mpr ⟨mem_of_mem_select hn, n.id, hid, Text.SameLetters.refl _⟩
    rw [select_of_ne_nil hne]
    exact List.ne_nil_of_mem (List.mem_map_of_mem hmem)
  rw [select_of_ne_nil hagain, select_of_ne_nil hne]
  exact Node.filter_ids_of_filter hids hstarts

/-- The ids in a context, given back as targets, give a context that shows the same nodes and those that share an
id with one of them. The ids in this context give it again. -/
theorem compile_resubmitted (rules : List Rule) (cap : ℕ) {nodes : List Node} (targets : List String)
    (hids : ∀ n ∈ nodes, Target.StartsLikeId n.id) (hne : (compile rules cap nodes targets).targets ≠ []) :
    let first := compile rules cap nodes targets
    let second := compile rules cap nodes first.targets
    first.Shows rules nodes (places cap nodes targets) ∧
      second.Shows rules nodes (places cap nodes first.targets) ∧
      places cap nodes targets ⊆ places cap nodes first.targets ∧
      (∀ i, i ∈ places cap nodes first.targets ↔
        ∃ n, nodes[i]? = some n ∧ ∃ id ∈ first.targets, Text.SameLetters n.id id) ∧
      compile rules cap nodes second.targets = second ∧
      ∀ typeName member, Target.StartsLikeId (Node.methodId typeName member) := by
  intro first second
  have hstarts : ∀ id ∈ first.targets, Target.StartsLikeId id := by
    intro id hid
    obtain ⟨n, hn, rfl⟩ := List.mem_map.mp hid
    exact hids n (mem_of_mem_select hn)
  have hshared (i : ℕ) : i ∈ places cap nodes first.targets ↔
      ∃ n, nodes[i]? = some n ∧ ∃ id ∈ first.targets, Text.SameLetters n.id id := by
    rw [places_of_ne_nil hne, Target.mem_places_iff hstarts]
  refine ⟨shows_compile rules cap nodes targets, shows_compile rules cap nodes first.targets, fun i hi => ?_, hshared,
    ?_, Target.startsLikeId_methodId⟩
  · obtain ⟨n, hn, hselected⟩ := exists_of_mem_places hi
    exact (hshared i).mpr ⟨n, hn, n.id, List.mem_map_of_mem hselected, Text.SameLetters.refl _⟩
  · have hselect : select cap nodes second.targets = select cap nodes first.targets := select_resubmitted hids rfl hne
    change compile rules cap nodes second.targets = compile rules cap nodes first.targets
    rw [compile, compile, hselect]

/-- A summary selects the first of three nodes. Its id brings in the second one, which differs from it in the case
of its id, and the ids of both bring in nothing else. -/
theorem compile_resubmitted_in_other_case :
    let nodes : List Node := [{ Node.telling "Place" with id := "FN:7" }, { Node.telling "Drop" with id := "fn:7" },
      { Node.telling "Drop" with id := "FN:8" }]
    (∀ n ∈ nodes, Target.StartsLikeId n.id) ∧ (compile Rule.builtIn 20 nodes ["place"]).targets = ["FN:7"] ∧
      (compile Rule.builtIn 20 nodes ["FN:7"]).targets = ["FN:7", "fn:7"] ∧
      compile Rule.builtIn 20 nodes ["FN:7", "fn:7"] = compile Rule.builtIn 20 nodes ["FN:7"] := by
  intro nodes
  have hids : ∀ n ∈ nodes, Target.StartsLikeId n.id := by
    have hlooks : ∀ n ∈ nodes, Target.looksLikeId n.id = true := by decide
    exact fun n hn => Target.looksLikeId_iff.mp (hlooks n hn)
  have hfirst : (compile Rule.builtIn 20 nodes ["place"]).targets = ["FN:7"] := by decide +kernel
  have hsecond : (compile Rule.builtIn 20 nodes ["FN:7"]).targets = ["FN:7", "fn:7"] := by decide +kernel
  obtain ⟨-, -, -, -, hsettled, -⟩ := compile_resubmitted Rule.builtIn 20 ["place"] hids (by rw [hfirst]; decide)
  rw [hfirst, hsecond] at hsettled
  exact ⟨hids, hfirst, hsecond, hsettled⟩

end Context

end CodeContext
