import CodeContext.Proofs.InputLines
import CodeContext.Proofs.VerbatimTargets
import Mathlib.Data.List.Forall2
import Mathlib.Data.Set.Basic

/-!
# The places that targets select

A target that starts like a node id stands for the nodes whose whole id is the whole target, up to the case of
ASCII letters, and any other target that is not blank stands for the nodes that mention it. A filter takes the
nodes at the places where some target stands for the node, each place once and in order. Whether a target starts
like an id is told by its first bytes just as by its first characters, although these may be cut apart.
-/

namespace CodeContext

namespace Text

/-! ### Letters of either case -/

/-- The codes of one character, or of the capital and the small form of one ASCII letter. -/
def SameCode (m n : ℕ) : Prop :=
  m = n ∨ (65 ≤ m ∧ m ≤ 90) ∧ n = m + 32 ∨ (65 ≤ n ∧ n ≤ 90) ∧ m = n + 32

/-- Texts that are the same up to the case of ASCII letters. -/
def SameLetters (s t : String) : Prop :=
  List.Forall₂ (fun c d => SameCode c.toNat d.toNat) s.toList t.toList

/-- Bytes that are the same up to the case of ASCII letters. -/
def SameBytes (a b : List UInt8) : Prop :=
  List.Forall₂ (fun c d => SameCode c.toNat d.toNat) a b

lemma toNat_lowerAscii (c : Char) :
    (lowerAscii c).toNat = if 65 ≤ c.toNat ∧ c.toNat ≤ 90 then c.toNat + 32 else c.toNat := by
  have hcapital : ('A' ≤ c && c ≤ 'Z') = true ↔ 65 ≤ c.toNat ∧ c.toNat ≤ 90 := by
    rw [Bool.and_eq_true, decide_eq_true_eq, decide_eq_true_eq]
    exact Iff.rfl
  simp only [lowerAscii, hcapital]
  split
  · have hvalid : (c.toNat + 32).isValidChar := .inl (by omega)
    rw [Char.ofNat, dif_pos hvalid]
    exact UInt32.toNat_ofNatLT
  · rfl

lemma lowerAscii_eq_iff {c d : Char} : lowerAscii c = lowerAscii d ↔ SameCode c.toNat d.toNat := by
  rw [← Char.toNat_inj, toNat_lowerAscii, toNat_lowerAscii, SameCode]
  split <;> split <;> omega

lemma sameIgnoringCase_iff {a b : List Char} :
    sameIgnoringCase a b = true ↔ List.Forall₂ (fun c d => SameCode c.toNat d.toNat) a b := by
  rw [sameIgnoringCase, beq_iff_eq, ← List.forall₂_eq_eq_eq, List.forall₂_map_left_iff, List.forall₂_map_right_iff]
  simp only [lowerAscii_eq_iff]

lemma SameLetters.refl (s : String) : SameLetters s s :=
  sameIgnoringCase_iff.mp (beq_self_eq_true _)

lemma SameLetters.trans {s t u : String} (h : SameLetters s t) (h' : SameLetters t u) : SameLetters s u := by
  rw [SameLetters, ← sameIgnoringCase_iff, sameIgnoringCase, beq_iff_eq] at h h' ⊢
  exact h.trans h'

/-! ### Letters in bytes -/

/-- The first bytes of a text are those of some ASCII letters, up to their case, just when its first characters are
these letters up to their case. -/
lemma sameBytes_take_iff {letters : List Char} (hletters : ∀ c ∈ letters, c.toNat < 128) (cs : List Char) :
    SameBytes ((cs.flatMap String.utf8EncodeChar).take letters.length) (letters.flatMap String.utf8EncodeChar) ↔
      List.Forall₂ (fun c d => SameCode c.toNat d.toNat) (cs.take letters.length) letters := by
  induction letters generalizing cs with
  | nil => simp [SameBytes]
  | cons d letters ih =>
    obtain ⟨hd, hrest⟩ := List.forall_mem_cons.mp hletters
    rw [List.flatMap_cons, utf8EncodeChar_of_lt hd, List.singleton_append, List.length_cons]
    cases cs with
    | nil => simp [SameBytes]
    | cons c cs =>
      have hbyte {n : ℕ} (hn : n < 128) : (UInt8.ofNat n).toNat = n := by
        rw [UInt8.toNat_ofNat']
        omega
      rw [List.take_succ_cons, List.forall₂_cons, List.flatMap_cons, ← ih hrest]
      by_cases hc : c.toNat < 128
      · rw [utf8EncodeChar_of_lt hc, List.singleton_append, List.take_succ_cons, SameBytes, List.forall₂_cons,
          hbyte hc, hbyte hd]
        exact Iff.rfl
      · -- Neither the first byte of the character nor the character itself is a letter.
        obtain ⟨b, rest, hb⟩ := List.exists_cons_of_ne_nil (String.utf8EncodeChar_ne_nil (c := c))
        have hlarge : 128 ≤ b.toNat :=
          le_of_mem_utf8EncodeChar (Nat.le_of_not_lt hc) (hb ▸ List.mem_cons_self)
        rw [hb, List.cons_append, List.take_succ_cons, SameBytes, List.forall₂_cons, hbyte hd]
        refine iff_of_false (fun h => ?_) fun h => ?_
        · have hsame := h.1
          rw [SameCode] at hsame
          omega
        · have hsame := h.1
          rw [SameCode] at hsame
          omega

end Text

/-! ### What targets stand for -/

namespace Target

/-- A text starts like a node id: it begins with one of the ten beginnings of ids, up to the case of ASCII
letters. -/
def StartsLikeId (s : String) : Prop :=
  ∃ p ∈ idPrefixes, ∃ head rest, s = head ++ rest ∧ Text.SameLetters head p

/-- A target stands for a node: the node's id is the target, if that starts like an id, and otherwise the node
mentions it. -/
structure StandsFor (t : String) (n : Node) : Prop where
  notBlank : ∃ c ∈ t.toList, Text.isBlank c = false
  id : StartsLikeId t → Text.SameLetters n.id t
  text : ¬ StartsLikeId t → Text.lowercase t.toList <:+: Text.lowercase n.path.toList ∨
    Text.lowercase t.toList <:+: Text.lowercase n.summary.toList

lemma lt_of_mem_idPrefixes : ∀ p ∈ idPrefixes, ∀ c ∈ p.toList, c.toNat < 128 := by
  have hall : (idPrefixes.all fun p => p.toList.all fun c => c.toNat < 128) = true := by decide
  simpa only [List.all_eq_true, decide_eq_true_eq] using hall

lemma startsLikeId_iff {s : String} : StartsLikeId s ↔ ∃ p ∈ idPrefixes,
    List.Forall₂ (fun c d => Text.SameCode c.toNat d.toNat) (s.toList.take p.toList.length) p.toList := by
  refine exists_congr fun p => and_congr_right fun _ => ?_
  constructor
  · rintro ⟨head, rest, rfl, hsame⟩
    rw [String.toList_append, List.take_left' hsame.length_eq]
    exact hsame
  · intro h
    refine ⟨String.ofList (s.toList.take p.toList.length), String.ofList (s.toList.drop p.toList.length), ?_, ?_⟩
    · rw [← String.ofList_append, List.take_append_drop, String.ofList_toList]
    · rw [Text.SameLetters, String.toList_ofList]
      exact h

lemma looksLikeId_iff {s : String} : looksLikeId s = true ↔ StartsLikeId s := by
  rw [startsLikeId_iff, looksLikeId, List.any_eq_true]
  simp only [Text.sameIgnoringCase_iff, String.length_toList]

lemma startsLikeId_iff_bytes {s : String} : StartsLikeId s ↔
    ∃ p ∈ idPrefixes, Text.SameBytes ((Text.bytesOf s).take p.length) (Text.bytesOf p) := by
  rw [startsLikeId_iff]
  refine exists_congr fun p => and_congr_right fun hp => ?_
  rw [Text.bytesOf, Text.bytesOf, Text.toUTF8_eq_flatMap, Text.toUTF8_eq_flatMap,
    ← Text.sameBytes_take_iff (lt_of_mem_idPrefixes p hp), String.length_toList]

lemma blank_eq_false_iff {t : String} : Text.blank t = false ↔ ∃ c ∈ t.toList, Text.isBlank c = false := by
  simp [Text.blank]

lemma standsFor_iff {t : String} {n : Node} : StandsFor t n ↔ ∃ target ∈ ofString? t, target.selects n = true := by
  by_cases hblank : Text.blank t = false
  · have hshown := blank_eq_false_iff.mp hblank
    by_cases hid : StartsLikeId t
    · have htarget : ofString? t = some (.id t) := by simp [ofString?, hblank, looksLikeId_iff.mpr hid]
      simp only [htarget, Option.mem_some_iff, exists_eq_left', selects, Text.sameIgnoringCase_iff]
      exact ⟨fun h => h.id hid, fun h => ⟨hshown, fun _ => h, fun hnot => absurd hid hnot⟩⟩
    · have hlooks : looksLikeId t = false := Bool.eq_false_iff.mpr fun h => hid (looksLikeId_iff.mp h)
      have htarget : ofString? t = some (.text t) := by simp [ofString?, hblank, hlooks]
      simp only [htarget, Option.mem_some_iff, exists_eq_left', selects, mentions, Bool.or_eq_true, Text.occursIn_iff]
      exact ⟨fun h => h.text hid, fun h => ⟨hshown, fun h => absurd h hid, fun _ => h⟩⟩
  · have htarget : ofString? t = none := by simp [ofString?, Bool.not_eq_false _ ▸ hblank]
    rw [htarget]
    exact iff_of_false (fun h => hblank (blank_eq_false_iff.mpr h.notBlank)) (by simp)

/-- The places of a list where some target stands for the node. -/
def places (nodes : List Node) (targets : List String) : Set ℕ :=
  {i | ∃ n, nodes[i]? = some n ∧ ∃ t ∈ targets, StandsFor t n}

end Target

namespace Node

/-- Some nodes are those at some places of a list, each place once and in the order of the list. -/
def HoldsPlaces (nodes chosen : List Node) (places : Set ℕ) : Prop :=
  ∃ entries : List (Node × ℕ), entries.Sublist nodes.zipIdx ∧ entries.map Prod.fst = chosen ∧
    ∀ n i, (n, i) ∈ entries ↔ nodes[i]? = some n ∧ i ∈ places

variable {nodes : List Node} {targets others : List String}

lemma holdsPlaces_filter (nodes : List Node) (p : Node → Bool) :
    HoldsPlaces nodes (nodes.filter p) {i | ∃ n, nodes[i]? = some n ∧ p n = true} := by
  refine ⟨nodes.zipIdx.filter fun e => p e.1, List.filter_sublist, ?_, fun n i => ?_⟩
  · have hcomp : (fun e : Node × ℕ => p e.1) = p ∘ Prod.fst := rfl
    rw [hcomp, ← List.filter_map, List.zipIdx_map_fst]
  · rw [List.mem_filter, List.mk_mem_zipIdx_iff_getElem?, Set.mem_ofPred_eq]
    refine and_congr_right fun hn => ⟨fun h => ⟨n, hn, h⟩, ?_⟩
    rintro ⟨m, hm, h⟩
    obtain rfl : n = m := Option.some.inj (hn.symm.trans hm)
    exact h

lemma any_selects_iff {n : Node} :
    (targets.filterMap Target.ofString?).any (·.selects n) = true ↔ ∃ t ∈ targets, Target.StandsFor t n := by
  simp only [List.any_eq_true, List.mem_filterMap, Target.standsFor_iff, Option.mem_def]
  constructor
  · rintro ⟨target, ⟨t, ht, htarget⟩, hselects⟩
    exact ⟨t, ht, target, htarget, hselects⟩
  · rintro ⟨t, ht, target, htarget, hselects⟩
    exact ⟨target, ⟨t, ht, htarget⟩, hselects⟩

lemma mem_filter_iff_standsFor {n : Node} :
    n ∈ filter nodes targets ↔ n ∈ nodes ∧ ∃ t ∈ targets, Target.StandsFor t n := by
  rw [filter_eq, List.mem_filter, any_selects_iff]

lemma filter_congr
    (h : ∀ n ∈ nodes, (∃ t ∈ others, Target.StandsFor t n) ↔ ∃ t ∈ targets, Target.StandsFor t n) :
    filter nodes others = filter nodes targets := by
  rw [filter_eq, filter_eq]
  refine List.filter_congr fun n hn => Bool.eq_iff_iff.mpr ?_
  rw [any_selects_iff, any_selects_iff]
  exact h n hn

lemma holdsPlaces_filter_targets (nodes : List Node) (targets : List String) :
    HoldsPlaces nodes (filter nodes targets) (Target.places nodes targets) := by
  have hplaces := holdsPlaces_filter nodes fun n => (targets.filterMap Target.ofString?).any (·.selects n)
  simp only [any_selects_iff] at hplaces
  rw [filter_eq]
  exact hplaces

lemma places_append (nodes : List Node) (targets others : List String) :
    Target.places nodes (targets ++ others) = Target.places nodes targets ∪ Target.places nodes others := by
  ext i
  simp only [Target.places, Set.mem_ofPred_eq, Set.mem_union, List.mem_append, or_and_right, exists_or, and_or_left]

/-- A filter takes the nodes at the places where some target stands for the node. So it makes no difference in
which order, how often and beside which blank ones the targets are given, and the targets of two lists select
what either list selects. The bytes of a target tell whether it starts like an id. -/
theorem filter_holds_target_places (nodes : List Node) (targets : List String) :
    HoldsPlaces nodes (filter nodes targets) (Target.places nodes targets) ∧
      (∀ others, (∀ t, (∃ c ∈ t.toList, Text.isBlank c = false) → (t ∈ others ↔ t ∈ targets)) →
        filter nodes others = filter nodes targets) ∧
      (∀ others, HoldsPlaces nodes (filter nodes (targets ++ others))
        (Target.places nodes targets ∪ Target.places nodes others)) ∧
      ∀ t, Target.StartsLikeId t ↔
        ∃ p ∈ Target.idPrefixes, Text.SameBytes ((Text.bytesOf t).take p.length) (Text.bytesOf p) := by
  refine ⟨holdsPlaces_filter_targets nodes targets, fun others h => ?_, fun others => ?_, fun t =>
    Target.startsLikeId_iff_bytes⟩
  · refine filter_congr fun n _ => exists_congr fun t => ?_
    exact ⟨fun ht => ⟨(h t ht.2.notBlank).mp ht.1, ht.2⟩, fun ht => ⟨(h t ht.2.notBlank).mpr ht.1, ht.2⟩⟩
  · rw [← places_append]
    exact holdsPlaces_filter_targets nodes (targets ++ others)

/-- A repeated target, a blank one and the order make no difference. The target whose third byte is inside of a
character is no id. -/
theorem filter_of_repeated_targets :
    (∀ t, (∃ c ∈ t.toList, Text.isBlank c = false) →
        (t ∈ ["fn:1", "\u2003", "FNé:1", "fn:1"] ↔ t ∈ ["FNé:1", "fn:1"])) ∧
      ¬ Target.StartsLikeId "FNé:1" ∧
      filter [telling "Place"] ["fn:1", "\u2003", "FNé:1", "fn:1"] = filter [telling "Place"] ["FNé:1", "fn:1"] ∧
      filter [telling "Place"] ["FNé:1", "fn:1"] = [telling "Place"] := by
  have hsame : ∀ t, (∃ c ∈ t.toList, Text.isBlank c = false) →
      (t ∈ ["fn:1", "\u2003", "FNé:1", "fn:1"] ↔ t ∈ ["FNé:1", "fn:1"]) := by
    intro t hshown
    have hblank : t ≠ "\u2003" := by
      rintro rfl
      exact absurd (Target.blank_eq_false_iff.mpr hshown) (by decide)
    simp only [List.mem_cons, List.not_mem_nil, or_false, hblank]
    tauto
  have hid : Target.looksLikeId "FNé:1" = false := by decide
  refine ⟨hsame, fun h => ?_, (filter_holds_target_places _ _).2.1 _ hsame, ?_⟩
  · rw [← Target.looksLikeId_iff, hid] at h
    cases h
  · have hfirst : Node.telling "Place" ∈ filter [telling "Place"] ["FNé:1", "fn:1"] := by
      refine mem_filter_iff_standsFor.mpr ⟨List.mem_cons_self, "fn:1", .tail _ (.head _), ?_⟩
      rw [Target.standsFor_iff]
      exact ⟨.id "fn:1", rfl, rfl⟩
    rw [filter_eq] at hfirst ⊢
    exact List.filter_eq_self.mpr (by simpa using hfirst)

end Node

end CodeContext
