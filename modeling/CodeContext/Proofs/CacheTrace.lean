import CodeContext.Proofs.CacheMap
import CodeContext.Proofs.Resolution

/-!
# What a cache answers over time

A run of a cache is a list of calls, each with the files it meets, what the inner indexer would make, and
its readings of the clock. What a call to `index` gives is told by the calls before it: the latest call
that made a result for its path still counts, unless the result was forgotten since or is too old. The
cache holds a result for a path only if it counts, and all that count and are fresh.
-/

namespace CodeContext.Cache

variable {α : Type}

/-! ### Runs -/

/-- A call to a cache, with the files it meets, its readings of the clock and what the inner indexer would
make of a path just then. -/
inductive Event (α : Type) where
  | index (t : FileTree) (r : Readings) (make : String → α) (path : String)
  | invalidate (t : FileTree) (path : String)
  | clear
  | purge (now : CacheKey → Nat)

/-- What a call gives. A call to `index` also tells the paths that the inner indexer was called with. -/
inductive Outcome (α : Type) where
  | indexed (value : α) (calls : List String)
  | invalidated (held : Bool)
  | cleared
  | purged (count : Nat)

/-- An inner indexer that notes the paths it is called with. -/
def noting (make : String → α) (path : String) : StateM (List String) α := do
  modify (· ++ [path])
  pure (make path)

def step (c : Cache α) : Event α → Outcome α × Cache α
  | .index t r make path =>
    let ((value, c), calls) := (c.indexWith t r (noting make) path).run []
    (.indexed value calls, c)
  | .invalidate t path =>
    let (held, c) := c.invalidate t path
    (.invalidated held, c)
  | .clear => (.cleared, c.clear)
  | .purge now =>
    let (count, c) := c.purgeStale now
    (.purged count, c)

/-- A call that was made and what it gave. -/
structure Record (α : Type) where
  event : Event α
  outcome : Outcome α

/-- The records of calls made one after the other, and the cache after them. -/
def run (c : Cache α) : List (Event α) → List (Record α) × Cache α
  | [] => ([], c)
  | e :: es =>
    let (o, c) := c.step e
    let (h, c) := c.run es
    (⟨e, o⟩ :: h, c)

/-- The readings of a call are in order, between two times. -/
def Event.Within (start finish : Nat) : Event α → Prop
  | index _ r _ _ =>
    start ≤ r.asked ∧ r.asked ≤ r.dropped ∧ r.dropped ≤ r.made ∧
      ∀ k, r.made ≤ r.purged k ∧ r.purged k ≤ finish
  | invalidate _ _ | clear => start ≤ finish
  | purge now => ∀ k, start ≤ now k ∧ now k ≤ finish

/-- The clock does not go back from one call to the next. -/
inductive InOrder : Nat → List (Event α) → Nat → Prop
  | nil (now : Nat) : InOrder now [] now
  | cons {start mid finish : Nat} {e : Event α} {es : List (Event α)} (he : e.Within start mid)
      (hes : InOrder mid es finish) : InOrder start (e :: es) finish

lemma Event.Within.le {start finish : Nat} {e : Event α} (h : e.Within start finish) : start ≤ finish := by
  cases e with
  | index t r make path =>
    obtain ⟨hasked, hdropped, hmade, hpurged⟩ := h
    have hlast := hpurged (CacheKey.ofPath t path)
    omega
  | invalidate t path => exact h
  | clear => exact h
  | purge now =>
    have hnow := h []
    omega

/-! ### What counts -/

/-- The result that a call made for a key, if the call missed. -/
def Record.miss? : Record α → Option (CacheKey × Stored α)
  | ⟨.index t r _ path, .indexed value (_ :: _)⟩ => some (CacheKey.ofPath t path, ⟨value, r.made⟩)
  | _ => none

/-- The call forgets the result for a key. -/
def Event.Forgets (k : CacheKey) : Event α → Prop
  | clear => True
  | invalidate t path => CacheKey.ofPath t path = k
  | _ => False

/-- The call does not change which result counts for a key. -/
def Record.Spares (k : CacheKey) (r : Record α) : Prop :=
  (∀ s, r.miss? ≠ some (k, s)) ∧ ¬ r.event.Forgets k

/-- The result counts for a key: the latest miss on the key made it, and it was not forgotten since. -/
def Standing (h : List (Record α)) (k : CacheKey) (s : Stored α) : Prop :=
  ∃ before miss after, h = before ++ miss :: after ∧ miss.miss? = some (k, s) ∧ ∀ r ∈ after, r.Spares k

lemma not_standing_nil (k : CacheKey) (s : Stored α) : ¬ Standing [] k s := by
  rintro ⟨before, miss, after, h, -⟩
  simp at h

lemma standing_concat {h : List (Record α)} {r : Record α} {k : CacheKey} {s : Stored α} :
    Standing (h ++ [r]) k s ↔ r.miss? = some (k, s) ∨ (r.Spares k ∧ Standing h k s) := by
  constructor
  · rintro ⟨before, miss, after, heq, hmiss, hafter⟩
    rcases List.eq_nil_or_concat after with rfl | ⟨after, last, rfl⟩
    · obtain ⟨-, hlast⟩ := List.append_inj' heq rfl
      left
      rw [List.cons.inj hlast |>.1]
      exact hmiss
    · right
      rw [List.concat_eq_append, ← List.cons_append, ← List.append_assoc] at heq
      obtain ⟨rfl, hlast⟩ := List.append_inj' heq rfl
      rw [(List.cons.inj hlast).1]
      exact ⟨hafter last (by simp), before, miss, after, rfl, hmiss, fun r hr => hafter r (by simp [hr])⟩
  · rintro (hmiss | ⟨hspares, before, miss, after, rfl, hmiss, hafter⟩)
    · exact ⟨h, r, [], rfl, hmiss, by simp⟩
    · refine ⟨before, miss, after ++ [r], by simp, hmiss, fun q hq => ?_⟩
      rcases List.mem_append.mp hq with hq | hq
      · exact hafter q hq
      · rw [List.mem_singleton.mp hq]
        exact hspares

/-! ### One call -/

lemma step_index_of_fresh {c : Cache α} {t : FileTree} {r : Readings} {path : String} {s : Stored α}
    (h : c.get? (CacheKey.ofPath t path) = some s) (hfresh : r.asked - s.time < c.lifetime)
    (make : String → α) : c.step (.index t r make path) = (.indexed s.value [], c) := by
  unfold step
  dsimp only
  rw [indexWith_of_fresh h hfresh]
  rfl

lemma step_index_of_stale {c : Cache α} {t : FileTree} {r : Readings} {path : String}
    (h : ∀ s, c.get? (CacheKey.ofPath t path) = some s → c.lifetime ≤ r.asked - s.time) (make : String → α) :
    c.step (.index t r make path) =
      (.indexed (make (t.absolute path)) [t.absolute path],
        c.refreshed r (CacheKey.ofPath t path) (make (t.absolute path))) := by
  unfold step
  dsimp only
  rw [indexWith_of_stale h]
  rfl

lemma lifetime_step (c : Cache α) (e : Event α) : (c.step e).2.lifetime = c.lifetime := by
  cases e with
  | index t r make path =>
    rcases c.fresh_or_stale (CacheKey.ofPath t path) r.asked with ⟨s, hs, hfresh⟩ | hstale
    · rw [step_index_of_fresh hs hfresh]
    · rw [step_index_of_stale hstale]
      exact lifetime_refreshed c r _ _
  | invalidate t path => rfl
  | clear => rfl
  | purge now => rfl

/-- What a cache holds fits to the calls before: all that it holds counts, and all that counts and is fresh
it holds. -/
structure Agrees (h : List (Record α)) (now : Nat) (c : Cache α) : Prop where
  counts : ∀ k s, c.get? k = some s → Standing h k s
  holds : ∀ k s, Standing h k s → now - s.time < c.lifetime → c.get? k = some s

lemma agrees_empty (lifetime now : Nat) : Agrees ([] : List (Record α)) now (empty lifetime) where
  counts _ _ hs := absurd hs get?_empty_ne
  holds k s hs := absurd hs (not_standing_nil k s)

lemma Agrees.holds_of_le {h : List (Record α)} {now later : Nat} {c : Cache α} (hc : Agrees h now c)
    (hle : now ≤ later) {k : CacheKey} {s : Stored α} (hs : Standing h k s)
    (hfresh : later - s.time < c.lifetime) : c.get? k = some s :=
  hc.holds k s hs (Nat.lt_of_le_of_lt (Nat.sub_le_sub_right hle _) hfresh)

lemma Agrees.step_index {h : List (Record α)} {now later : Nat} {c : Cache α} (hc : Agrees h now c)
    {t : FileTree} {r : Readings} {make : String → α} {path : String}
    (hin : (Event.index t r make path).Within now later) :
    Agrees (h ++ [⟨.index t r make path, (c.step (.index t r make path)).1⟩]) later
      (c.step (.index t r make path)).2 := by
  have hle := hin.le
  obtain ⟨-, -, -, hpurged⟩ := hin
  rcases c.fresh_or_stale (CacheKey.ofPath t path) r.asked with ⟨s, hs, hfresh⟩ | hstale
  · rw [step_index_of_fresh hs hfresh]
    have hspares (k : CacheKey) : Record.Spares k ⟨.index t r make path, .indexed s.value []⟩ :=
      ⟨fun _ => nofun, id⟩
    refine ⟨fun k s' hs' => standing_concat.mpr (.inr ⟨hspares k, hc.counts k s' hs'⟩), ?_⟩
    intro k s' hs' hlater
    rcases standing_concat.mp hs' with hmiss | ⟨-, hs'⟩
    · exact nomatch hmiss
    · exact hc.holds_of_le hle hs' hlater
  · rw [step_index_of_stale hstale]
    constructor
    · intro k s hs
      rw [standing_concat]
      rcases get?_refreshed.mp hs with ⟨rfl, rfl⟩ | ⟨hk, hs, -⟩
      · exact .inl rfl
      · refine .inr ⟨⟨fun s' hmiss => ?_, id⟩, hc.counts k s hs⟩
        exact hk (Prod.mk.inj (Option.some.inj hmiss)).1.symm
    · intro k s hs hlater
      rw [lifetime_refreshed] at hlater
      rw [get?_refreshed]
      rcases standing_concat.mp hs with hmiss | ⟨hspares, hs⟩
      · obtain ⟨hk, hs⟩ := Prod.mk.inj (Option.some.inj hmiss)
        exact .inl ⟨hk.symm, hs.symm⟩
      · have hk : k ≠ CacheKey.ofPath t path := by
          rintro rfl
          exact hspares.1 _ rfl
        have hpurgedFresh : r.purged k - s.time < c.lifetime :=
          Nat.lt_of_le_of_lt (Nat.sub_le_sub_right (hpurged k).2 _) hlater
        exact .inr ⟨hk, hc.holds_of_le hle hs hlater, hpurgedFresh⟩

/-- Every call keeps what the cache holds fitting to the calls. -/
theorem Agrees.step {h : List (Record α)} {now later : Nat} {c : Cache α} (hc : Agrees h now c) {e : Event α}
    (hin : e.Within now later) : Agrees (h ++ [⟨e, (c.step e).1⟩]) later (c.step e).2 := by
  have hle := hin.le
  cases e with
  | index t r make path => exact hc.step_index hin
  | invalidate t path =>
    constructor
    · intro k s hs
      obtain ⟨hk, hs⟩ := get?_erase.mp hs
      exact standing_concat.mpr (.inr ⟨⟨fun _ => nofun, fun hkey => hk hkey.symm⟩, hc.counts k s hs⟩)
    · intro k s hs hlater
      rcases standing_concat.mp hs with hmiss | ⟨hspares, hs⟩
      · exact nomatch hmiss
      · exact get?_erase.mpr ⟨fun hkey => hspares.2 hkey.symm, hc.holds_of_le hle hs hlater⟩
  | clear =>
    constructor
    · intro k s hs
      exact absurd hs get?_empty_ne
    · intro k s hs
      rcases standing_concat.mp hs with hmiss | ⟨hspares, -⟩
      · exact nomatch hmiss
      · exact absurd trivial hspares.2
  | purge now' =>
    constructor
    · intro k s hs
      have hs := (get?_purge.mp hs).1
      exact standing_concat.mpr (.inr ⟨⟨fun _ => nofun, id⟩, hc.counts k s hs⟩)
    · intro k s hs hlater
      rcases standing_concat.mp hs with hmiss | ⟨-, hs⟩
      · exact nomatch hmiss
      · have hfresh : now' k - s.time < c.lifetime :=
          Nat.lt_of_le_of_lt (Nat.sub_le_sub_right (hin k).2 _) hlater
        exact get?_purge.mpr ⟨hc.holds_of_le hle hs hlater, hfresh⟩

lemma Agrees.run {h : List (Record α)} {now later : Nat} {c : Cache α} (hc : Agrees h now c)
    {events : List (Event α)} (horder : InOrder now events later) :
    Agrees (h ++ (c.run events).1) later (c.run events).2 := by
  induction horder generalizing h c with
  | nil => simpa [Cache.run] using hc
  | cons he hes ih =>
    have hrest := ih (hc.step he)
    rw [List.append_assoc] at hrest
    exact hrest

lemma lifetime_run (c : Cache α) (events : List (Event α)) : (c.run events).2.lifetime = c.lifetime := by
  induction events generalizing c with
  | nil => rfl
  | cons e es ih => exact (ih (c.step e).2).trans (lifetime_step c e)

/-! ### The law of a run -/

/-- What the next call gives, by the calls before it and what the cache holds. -/
structure Lawful (lifetime : Nat) (h : List (Record α)) (now : Nat) (c : Cache α) : Prop where
  /-- The result that counts is given as long as it is fresh, and the inner indexer is not called. -/
  kept : ∀ {t r make path later s}, (Event.index t r make path).Within now later →
    Standing h (CacheKey.ofPath t path) s → r.asked - s.time < lifetime →
    c.step (.index t r make path) = (.indexed s.value [], c)
  /-- Else the inner indexer is called once, with the path whose components are the key. Then the cache
  holds the new result and the results of other keys that were fresh when they were purged. -/
  made : ∀ {t r make path later}, (Event.index t r make path).Within now later →
    (∀ s, Standing h (CacheKey.ofPath t path) s → lifetime ≤ r.asked - s.time) →
    ∃ call value c', Path.components call = CacheKey.ofPath t path ∧ value = make call ∧
      c.step (.index t r make path) = (.indexed value [call], c') ∧
      ∀ k s, c'.get? k = some s ↔ (k = CacheKey.ofPath t path ∧ s = ⟨value, r.made⟩) ∨
        (k ≠ CacheKey.ofPath t path ∧ c.get? k = some s ∧ r.purged k - s.time < lifetime)
  /-- A result is forgotten if one was held, fresh or not. -/
  invalidated : ∀ t path, ∃ held c', c.step (.invalidate t path) = (.invalidated held, c') ∧
    (held = true ↔ ∃ s, c.get? (CacheKey.ofPath t path) = some s) ∧
    ∀ k s, c'.get? k = some s ↔ k ≠ CacheKey.ofPath t path ∧ c.get? k = some s
  cleared : ∃ c', c.step .clear = (.cleared, c') ∧ ∀ k s, c'.get? k ≠ some s
  /-- The stale results are counted and the fresh ones are kept. -/
  purged : ∀ now, ∃ count c', c.step (.purge now) = (.purged count, c') ∧
    count = c.entries.countP (fun e => decide (lifetime ≤ now e.1 - e.2.time)) ∧
    ∀ k s, c'.get? k = some s ↔ c.get? k = some s ∧ now k - s.time < lifetime

lemma count_purgeStale (c : Cache α) (now : CacheKey → Nat) :
    (c.purgeStale now).1 = c.entries.countP fun e => decide (c.lifetime ≤ now e.1 - e.2.time) := by
  have hlength := List.length_eq_countP_add_countP (fun e : CacheKey × Stored α => c.isFresh (now e.1) e.2)
    (l := c.entries)
  have hstale : (fun e : CacheKey × Stored α => decide (¬ c.isFresh (now e.1) e.2 = true)) =
      fun e => decide (c.lifetime ≤ now e.1 - e.2.time) := by
    funext e
    simp only [isFresh, decide_eq_true_eq, Nat.not_lt]
  rw [hstale] at hlength
  change c.entries.length - (c.entries.filter fun e => c.isFresh (now e.1) e.2).length = _
  rw [← List.countP_eq_length_filter]
  omega

lemma Agrees.lawful {h : List (Record α)} {now : Nat} {c : Cache α} (hc : Agrees h now c) :
    Lawful c.lifetime h now c where
  kept hin hs hfresh := step_index_of_fresh (hc.holds_of_le hin.1 hs hfresh) hfresh _
  made := by
    intro t r make path later _ hstale
    have hheld : ∀ s, c.get? (CacheKey.ofPath t path) = some s → c.lifetime ≤ r.asked - s.time :=
      fun s hs => hstale s (hc.counts _ s hs)
    exact ⟨t.absolute path, _, _, rfl, rfl, step_index_of_stale hheld make, fun k s => get?_refreshed⟩
  invalidated t path := ⟨_, _, rfl, Option.isSome_iff_exists, fun _ _ => get?_erase⟩
  cleared := ⟨_, rfl, fun _ _ => get?_empty_ne⟩
  purged now := ⟨_, _, rfl, count_purgeStale c now, fun _ _ => get?_purge⟩

/-- After any run of calls, with any files, inner results and lifetime, the next call obeys the law. -/
theorem run_lawful (lifetime : Nat) {events : List (Event α)} {now : Nat} (horder : InOrder 0 events now) :
    Lawful lifetime ((empty lifetime).run events).1 now ((empty lifetime).run events).2 := by
  have hagrees := (agrees_empty lifetime 0).run horder
  have hlawful := hagrees.lawful
  rw [lifetime_run] at hlawful
  exact hlawful

/-- A tree with an empty working directory. -/
def bareTree : FileTree :=
  ⟨.directory [("w", .directory [])], ["w"]⟩

/-- The same tree with a file. -/
def filledTree : FileTree :=
  ⟨.directory [("w", .directory [("a.cs", .file ByteArray.empty)])], ["w"]⟩

lemma bareTree_absolute : bareTree.absolute "a.cs" = "/w/a.cs" := by
  have hresolve : bareTree.resolve "a.cs" = .error .notFound :=
    FileTree.resolve_of_steps 20 (by decide) rfl
  rw [FileTree.absolute, hresolve]
  decide

lemma filledTree_absolute : filledTree.absolute "./a.cs" = "/w/a.cs" := by
  have hresolve : filledTree.resolve "./a.cs" = .ok ["w", "a.cs"] :=
    FileTree.resolve_of_steps 20 (by decide) rfl
  rw [FileTree.absolute, hresolve]
  decide

/-- A path is indexed before its file is there, and what is stale is purged. -/
def beforeFile : List (Event Nat) :=
  [.index bareTree (.around 0 2) (fun _ => 0) "a.cs", .purge fun _ => 5]

lemma inOrder_beforeFile : InOrder 0 beforeFile 5 := by
  have hindex : (Event.index bareTree (.around 0 2) (fun _ => 0) "a.cs").Within 0 2 := by
    simp [Event.Within, Readings.around]
  have hpurge : (Event.purge fun _ => 5 : Event Nat).Within 2 5 := by
    simp [Event.Within]
  exact .cons hindex (.cons hpurge (.nil 5))

lemma run_beforeFile : ((empty 10).run beforeFile).1 =
    [⟨.index bareTree (.around 0 2) (fun _ => 0) "a.cs", .indexed 0 ["/w/a.cs"]⟩,
      ⟨.purge fun _ => 5, .purged 0⟩] := by
  have hstep : (empty 10).step (.index bareTree (.around 0 2) (fun _ => 0) "a.cs") = _ :=
    step_index_of_stale (fun s hs => absurd hs get?_empty_ne) _
  rw [bareTree_absolute] at hstep
  simp only [beforeFile, run, hstep]
  rfl

lemma standing_beforeFile {s : Stored Nat} :
    Standing ((empty 10).run beforeFile).1 (CacheKey.ofPath filledTree "./a.cs") s ↔ s = ⟨0, 2⟩ := by
  have hkey : CacheKey.ofPath bareTree "a.cs" = CacheKey.ofPath filledTree "./a.cs" := by
    rw [CacheKey.ofPath, CacheKey.ofPath, bareTree_absolute, filledTree_absolute]
  rw [run_beforeFile, ← hkey]
  constructor
  · intro hs
    rcases standing_concat (h := [_]).mp hs with hmiss | ⟨-, hs⟩
    · exact nomatch hmiss
    · rcases standing_concat (h := []).mp hs with hmiss | ⟨-, hs⟩
      · exact (Prod.mk.inj (Option.some.inj hmiss)).2.symm
      · exact absurd hs (not_standing_nil _ _)
  · rintro rfl
    refine ⟨[], _, [_], rfl, rfl, fun r hr => ?_⟩
    rw [List.mem_singleton.mp hr]
    exact ⟨fun _ => nofun, id⟩

/-- A file that is new is not noticed as long as the result from before is fresh. -/
theorem kept_past_new_file :
    InOrder 0 beforeFile 5 ∧
      (((empty 10).run beforeFile).2.step (.index filledTree (.around 11 11) (fun _ => 1) "./a.cs")).1 =
        .indexed 0 [] ∧
      ∃ call, Path.components call = Path.components "/w/a.cs" ∧
        (((empty 10).run beforeFile).2.step (.index filledTree (.around 12 12) (fun _ => 1) "./a.cs")).1 =
          .indexed 1 [call] := by
  have hlawful := run_lawful 10 inOrder_beforeFile
  have hin (now : Nat) (h : 5 ≤ now) :
      (Event.index filledTree (.around now now) (fun _ => 1) "./a.cs").Within 5 now := by
    simp [Event.Within, Readings.around, h]
  refine ⟨inOrder_beforeFile, ?_, ?_⟩
  · rw [hlawful.kept (hin 11 (by decide)) (standing_beforeFile.mpr rfl) (by decide)]
  · obtain ⟨call, value, c', hcall, rfl, hstep, -⟩ :=
      hlawful.made (hin 12 (by decide)) (fun s hs => by rw [standing_beforeFile.mp hs]; decide)
    rw [hstep]
    exact ⟨call, by rw [hcall, CacheKey.ofPath, filledTree_absolute], rfl⟩

end CodeContext.Cache
