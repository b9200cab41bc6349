import CodeContext.Cache
import Mathlib.Tactic.Lemma

/-!
# A cache as a map

What a cache holds under each key after each of its operations, and what a call to `index` does in
either of its two cases: the result there is is fresh, or a new one is made.
-/

namespace CodeContext.Cache

variable {α : Type}

/-! ### Operations -/

lemma get?_eq_some_iff {c : Cache α} {k : CacheKey} {s : Stored α} :
    c.get? k = some s ↔ (k, s) ∈ c.entries := by
  rw [get?, List.lookup_eq_some_iff]
  constructor
  · rintro ⟨before, after, hentries, -⟩
    rw [hentries]
    simp
  · intro hmem
    obtain ⟨before, after, hentries⟩ := List.append_of_mem hmem
    refine ⟨before, after, hentries, fun e he => ?_⟩
    have hdistinct := hentries ▸ c.distinct
    have hne := (List.pairwise_append.mp hdistinct).2.2 e he (k, s) List.mem_cons_self
    simpa [bne_iff_ne] using hne.symm

lemma get?_retain {c : Cache α} {keep : CacheKey → Stored α → Bool} {k : CacheKey} {s : Stored α} :
    (c.retain keep).get? k = some s ↔ c.get? k = some s ∧ keep k s = true := by
  rw [get?_eq_some_iff, get?_eq_some_iff, retain, List.mem_filter]

lemma get?_erase {c : Cache α} {key k : CacheKey} {s : Stored α} :
    (c.erase key).get? k = some s ↔ k ≠ key ∧ c.get? k = some s := by
  rw [erase, get?_retain, bne_iff_ne, and_comm]

lemma get?_purge {c : Cache α} {now : CacheKey → Nat} {k : CacheKey} {s : Stored α} :
    (c.purge now).get? k = some s ↔ c.get? k = some s ∧ now k - s.time < c.lifetime := by
  rw [purge, get?_retain, isFresh, decide_eq_true_iff]

lemma get?_insert {c : Cache α} {key k : CacheKey} {new s : Stored α} :
    (c.insert key new).get? k = some s ↔ (k = key ∧ s = new) ∨ (k ≠ key ∧ c.get? k = some s) := by
  rw [← get?_erase, get?_eq_some_iff, get?_eq_some_iff, insert, List.mem_cons, Prod.mk.injEq]

lemma get?_empty_ne {lifetime : Nat} {k : CacheKey} {s : Stored α} : (empty lifetime).get? k ≠ some s :=
  fun hs => List.not_mem_nil (get?_eq_some_iff.mp hs)

/-! ### Looking up -/

lemma fresh_or_stale (c : Cache α) (key : CacheKey) (now : Nat) :
    (∃ s, c.get? key = some s ∧ now - s.time < c.lifetime) ∨
      ∀ s, c.get? key = some s → c.lifetime ≤ now - s.time := by
  by_cases h : ∃ s, c.get? key = some s ∧ now - s.time < c.lifetime
  · exact .inl h
  · exact .inr fun s hs => Nat.not_lt.mp fun hfresh => h ⟨s, hs, hfresh⟩

lemma lookup_of_fresh {c : Cache α} {asked dropped : Nat} {key : CacheKey} {s : Stored α}
    (h : c.get? key = some s) (hfresh : asked - s.time < c.lifetime) :
    c.lookup asked dropped key = (some s.value, c) := by
  have htest : c.isFresh asked s = true := decide_eq_true hfresh
  rw [lookup, h]
  exact if_pos htest

lemma lookup_of_stale {c : Cache α} {asked dropped : Nat} {key : CacheKey}
    (h : ∀ s, c.get? key = some s → c.lifetime ≤ asked - s.time) :
    (c.lookup asked dropped key).1 = none := by
  unfold lookup
  cases hs : c.get? key with
  | none => rfl
  | some s =>
    have htest : ¬ c.isFresh asked s = true := by
      rw [isFresh, decide_eq_true_iff, Nat.not_lt]
      exact h s hs
    dsimp only
    rw [if_neg htest]

lemma get?_lookup {c : Cache α} {asked dropped : Nat} {key k : CacheKey} (hk : k ≠ key) (s : Stored α) :
    (c.lookup asked dropped key).2.get? k = some s ↔ c.get? k = some s := by
  unfold lookup
  split
  · rfl
  · split
    · rfl
    · rw [dropStale, get?_retain]
      simp [hk]

lemma lifetime_lookup (c : Cache α) (asked dropped : Nat) (key : CacheKey) :
    (c.lookup asked dropped key).2.lifetime = c.lifetime := by
  unfold lookup
  split
  · rfl
  · split <;> rfl

/-- The cache after a new result was made. -/
def refreshed (c : Cache α) (r : Readings) (key : CacheKey) (value : α) : Cache α :=
  ((c.lookup r.asked r.dropped key).2.purge r.purged).insert key ⟨value, r.made⟩

lemma lifetime_refreshed (c : Cache α) (r : Readings) (key : CacheKey) (value : α) :
    (c.refreshed r key value).lifetime = c.lifetime :=
  lifetime_lookup c r.asked r.dropped key

lemma get?_refreshed {c : Cache α} {r : Readings} {key k : CacheKey} {value : α} {s : Stored α} :
    (c.refreshed r key value).get? k = some s ↔
      (k = key ∧ s = ⟨value, r.made⟩) ∨
        (k ≠ key ∧ c.get? k = some s ∧ r.purged k - s.time < c.lifetime) := by
  rw [refreshed, get?_insert, get?_purge, lifetime_lookup]
  by_cases hk : k = key
  · simp [hk]
  · rw [get?_lookup hk]

/-! ### Indexing -/

lemma indexWith_of_fresh {m : Type → Type} [Monad m] {c : Cache α} {t : FileTree} {r : Readings}
    {path : String} {s : Stored α} (h : c.get? (CacheKey.ofPath t path) = some s)
    (hfresh : r.asked - s.time < c.lifetime) (make : String → m α) :
    c.indexWith t r make path = pure (s.value, c) := by
  unfold indexWith
  dsimp only
  rw [lookup_of_fresh h hfresh]

lemma indexWith_of_stale {m : Type → Type} [Monad m] {c : Cache α} {t : FileTree} {r : Readings}
    {path : String} (h : ∀ s, c.get? (CacheKey.ofPath t path) = some s → c.lifetime ≤ r.asked - s.time)
    (make : String → m α) :
    c.indexWith t r make path =
      make (t.absolute path) >>= fun value => pure (value, c.refreshed r (CacheKey.ofPath t path) value) := by
  have hnone : (c.lookup r.asked r.dropped (CacheKey.ofPath t path)).1 = none := lookup_of_stale h
  unfold indexWith refreshed
  dsimp only
  generalize c.lookup r.asked r.dropped (CacheKey.ofPath t path) = found at hnone ⊢
  obtain ⟨value, kept⟩ := found
  obtain rfl : value = none := hnone
  rfl

lemma index_of_fresh {c : Cache α} {t : FileTree} {asked : Nat} {path : String} {s : Stored α}
    (h : c.get? (CacheKey.ofPath t path) = some s) (hfresh : asked - s.time < c.lifetime) (made : Nat)
    (make : String → α) : c.index t asked made make path = (s.value, c) := by
  rw [index, indexWith_of_fresh h hfresh]
  rfl

lemma index_of_stale {c : Cache α} {t : FileTree} {asked : Nat} {path : String}
    (h : ∀ s, c.get? (CacheKey.ofPath t path) = some s → c.lifetime ≤ asked - s.time) (made : Nat)
    (make : String → α) :
    c.index t asked made make path =
      (make (t.absolute path),
        c.refreshed (.around asked made) (CacheKey.ofPath t path) (make (t.absolute path))) := by
  rw [index, indexWith_of_stale h]
  rfl

end CodeContext.Cache
