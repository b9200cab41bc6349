import CodeContext.Cache.Overlap
import CodeContext.Proofs.CacheMap

/-!
# What overlapping calls leave in a cache

However the steps of any number of calls overlap, each result that is held or given was made whole by one
call of the inner indexer for its key, a result that was found was fresh when it was looked at, and a
result that is fresh goes only when it is forgotten or replaced by one for the same key.
-/

namespace CodeContext

variable {α : Type}

/-! ### One step of a call -/

namespace Indexing

/-- What a step of a call to `index` can do. -/
inductive Move (m : Moment α) (c : Cache α) : Indexing α → Indexing α → Prop where
  | miss {path} (h : c.get? (Path.components path) = none) : Move m c (asking path) (missing path)
  | find {path s} (h : c.get? (Path.components path) = some s) : Move m c (asking path) (testing path s)
  | take {path s} (h : m.now - s.time < c.lifetime) : Move m c (testing path s) (done path s.value)
  | refuse {path s} (h : c.lifetime ≤ m.now - s.time) : Move m c (testing path s) (dropping path)
  | drop {path} : Move m c (dropping path) (missing path)
  | leave {path} : Move m c (missing path) (making path)
  | come {path} : Move m c (making path) (made path (m.make path))
  | note {path value} : Move m c (made path value) (purging path ⟨value, m.now⟩ m.keys)
  | purge {path new key keys} : Move m c (purging path new (key :: keys)) (purging path new keys)
  | insert {path new} : Move m c (purging path new []) (done path new.value)
  | rest {path value} : Move m c (done path value) (done path value)

variable {m : Moment α} {c : Cache α} {i j : Indexing α} {path : String}

lemma step_asking (path : String) : ((asking path).step m c).1 =
    match c.get? (Path.components path) with
    | none => missing path
    | some s => testing path s :=
  rfl

lemma move_step (m : Moment α) (c : Cache α) (i : Indexing α) : Move m c i (i.step m c).1 := by
  cases i with
  | asking path =>
    rw [step_asking]
    split
    · exact .miss ‹_›
    · exact .find ‹_›
  | testing path s =>
    rw [step]
    cases hfresh : c.isFresh m.now s with
    | true => exact .take (of_decide_eq_true hfresh)
    | false => exact .refuse (Nat.not_lt.mp (of_decide_eq_false hfresh))
  | dropping path => exact .drop
  | missing path => exact .leave
  | making path => exact .come
  | made path value => exact .note
  | purging path new keys =>
    cases keys with
    | nil => exact .insert
    | cons key keys => exact .purge
  | done path value => exact .rest

lemma Move.path_eq (h : Move m c i j) : j.path = i.path := by
  cases h <;> rfl

lemma Move.key_eq (h : Move m c i j) : j.key = i.key := by
  rw [key, key, h.path_eq]

end Indexing

namespace Call

/-- What a step of a call can do to the cache. -/
inductive Effect (m : Moment α) (c : Cache α) : Call α → Cache α → Prop where
  | none {call} : Effect m c call c
  | drop {call} (key : CacheKey) : Effect m c call (c.dropStale m.now key)
  | forget {key} : Effect m c (.invalidate key) (c.erase key)
  | clear : Effect m c .clear c.clear
  | insert {path new} : Effect m c (.index (.purging path new [])) (c.insert (Path.components path) new)

lemma effect_step (m : Moment α) (c : Cache α) (call : Call α) : Effect m c call (call.step m c).2 := by
  cases call with
  | index i =>
    cases i with
    | dropping path => exact .drop _
    | purging path new keys =>
      cases keys with
      | nil => exact .insert
      | cons key keys => exact .drop key
    | asking | testing | missing | making | made | done => exact .none
  | invalidate key => exact .forget
  | clear => exact .clear
  | purge size keys =>
    cases keys with
    | nil => exact .none
    | cons key keys => exact .drop key
  | invalidated | cleared | count | purged => exact .none

variable {m : Moment α} {c c' : Cache α} {call : Call α} {k : CacheKey} {s : Stored α}

lemma Effect.lifetime_eq (h : Effect m c call c') : c'.lifetime = c.lifetime := by
  cases h <;> rfl

/-- A result is new only if a call inserts it. -/
lemma Effect.held_or_inserted (h : Effect m c call c') (hget : c'.get? k = some s) :
    c.get? k = some s ∨ ∃ path, call = .index (.purging path s []) ∧ Path.components path = k := by
  cases h with
  | none => exact .inl hget
  | drop => exact .inl (Cache.get?_retain.mp hget).1
  | forget => exact .inl (Cache.get?_erase.mp hget).2
  | clear => exact absurd hget Cache.get?_empty_ne
  | insert =>
    rcases Cache.get?_insert.mp hget with ⟨rfl, rfl⟩ | ⟨-, hget⟩
    · exact .inr ⟨_, rfl, rfl⟩
    · exact .inl hget

/-- A fresh result goes only if it is forgotten or another is inserted for its key. -/
lemma Effect.kept_or_superseded (h : Effect m c call c') (hget : c.get? k = some s)
    (hfresh : m.now - s.time < c.lifetime) :
    c'.get? k = some s ∨ call = .clear ∨ call = .invalidate k ∨
      ∃ path new, call = .index (.purging path new []) ∧ Path.components path = k ∧ c'.get? k = some new := by
  cases h with
  | none => exact .inl hget
  | drop key =>
    refine .inl (Cache.get?_retain.mpr ⟨hget, ?_⟩)
    rw [Bool.or_eq_true, Cache.isFresh, decide_eq_true_iff]
    exact .inr hfresh
  | @forget key =>
    by_cases hk : k = key
    · exact .inr (.inr (.inl (by rw [hk])))
    · exact .inl (Cache.get?_erase.mpr ⟨hk, hget⟩)
  | clear => exact .inr (.inl rfl)
  | @insert path new =>
    by_cases hk : Path.components path = k
    · exact .inr (.inr (.inr ⟨path, new, rfl, hk, Cache.get?_insert.mpr (.inl ⟨hk.symm, rfl⟩)⟩))
    · exact .inl (Cache.get?_insert.mpr (.inr ⟨fun heq => hk heq.symm, hget⟩))

end Call

/-! ### One event -/

namespace Overlap

lemma after_append (s : Overlap α) (es es' : List (Event α)) : s.after (es ++ es') = (s.after es).after es' :=
  List.foldl_append

lemma after_concat (s : Overlap α) (es : List (Event α)) (e : Event α) :
    s.after (es ++ [e]) = (s.after es).next e :=
  after_append s es [e]

lemma next_step {s : Overlap α} {n : Nat} {call : Call (Snapshot α)} (h : s.calls[n]? = some call) (elapsed : Nat)
    (make : String → α) (keys : List CacheKey) :
    s.next (.step n elapsed make keys) =
      ⟨(call.step (s.moment n elapsed make keys) s.cache).2, s.clock + elapsed,
        s.calls.set n (call.step (s.moment n elapsed make keys) s.cache).1⟩ := by
  simp only [next, h]

/-- What happens in an event: a call begins, or one takes a step, or only time passes. -/
lemma next_cases (s : Overlap α) (e : Event α) :
    (∃ t op, e = .begin t op ∧ (s.next e).cache = s.cache ∧ (s.next e).clock = s.clock ∧
      (s.next e).calls = s.calls ++ [op.call t]) ∨
    (∃ n elapsed make keys call, e = .step n elapsed make keys ∧ s.calls[n]? = some call ∧
      (s.next e).cache = (call.step (s.moment n elapsed make keys) s.cache).2 ∧
      (s.next e).clock = s.clock + elapsed ∧
      (s.next e).calls = s.calls.set n (call.step (s.moment n elapsed make keys) s.cache).1) ∨
    (∃ n elapsed make keys, e = .step n elapsed make keys ∧ s.calls[n]? = none ∧ (s.next e).cache = s.cache ∧
      (s.next e).clock = s.clock + elapsed ∧ (s.next e).calls = s.calls) := by
  cases e with
  | begin t op => exact .inl ⟨t, op, rfl, rfl, rfl, rfl⟩
  | step n elapsed make keys =>
    cases h : s.calls[n]? with
    | none => exact .inr (.inr ⟨n, elapsed, make, keys, rfl, h, by simp [next, h]⟩)
    | some call =>
      refine .inr (.inl ⟨n, elapsed, make, keys, call, rfl, h, ?_⟩)
      rw [next_step h]
      exact ⟨rfl, rfl, rfl⟩

lemma clock_next_le (s : Overlap α) (e : Event α) : s.clock ≤ (s.next e).clock := by
  rcases s.next_cases e with ⟨t, op, -, -, hclock, -⟩ | ⟨n, elapsed, make, keys, call, -, -, -, hclock, -⟩ |
    ⟨n, elapsed, make, keys, -, -, -, hclock, -⟩ <;> omega

lemma lifetime_next (s : Overlap α) (e : Event α) : (s.next e).cache.lifetime = s.cache.lifetime := by
  rcases s.next_cases e with ⟨t, op, -, hcache, -⟩ | ⟨n, elapsed, make, keys, call, -, -, hcache, -⟩ |
    ⟨n, elapsed, make, keys, -, -, hcache, -⟩
  · rw [hcache]
  · rw [hcache, (Call.effect_step _ _ call).lifetime_eq]
  · rw [hcache]

lemma lifetime_after (s : Overlap α) (events : List (Event α)) :
    (s.after events).cache.lifetime = s.cache.lifetime := by
  induction events generalizing s with
  | nil => rfl
  | cons e es ih => exact (ih (s.next e)).trans (s.lifetime_next e)

lemma index_of_call_eq_index {t : FileTree} {op : Operation} {i : Indexing (Snapshot α)}
    (h : op.call t = .index i) : ∃ path, i = .asking path := by
  cases op with
  | index path =>
    cases h
    exact ⟨_, rfl⟩
  | invalidate | clear | purge => cases h

lemma move_of_step_eq_index {m : Moment α} {c : Cache α} {call : Call α} {j : Indexing α}
    (h : (call.step m c).1 = .index j) : ∃ i, call = .index i ∧ Indexing.Move m c i j := by
  cases call with
  | index i =>
    cases h
    exact ⟨i, rfl, i.move_step m c⟩
  | purge size keys => cases keys <;> cases h
  | invalidate | invalidated | clear | cleared | count | purged => cases h

lemma index_next {s : Overlap α} {e : Event α} {n : Nat} {j : Indexing (Snapshot α)}
    (h : (s.next e).calls[n]? = some (.index j)) :
    s.calls[n]? = some (.index j) ∨ (n = s.calls.length ∧ ∃ path, j = .asking path) ∨
      ∃ elapsed make keys i, e = .step n elapsed make keys ∧ s.calls[n]? = some (.index i) ∧
        i.Move (s.moment n elapsed make keys) s.cache j := by
  rcases s.next_cases e with ⟨t, op, -, -, -, hcalls⟩ | ⟨n', elapsed, make, keys, call, rfl, hcall, -, -, hcalls⟩ |
    ⟨n', elapsed, make, keys, -, -, -, -, hcalls⟩
  · rw [hcalls, List.getElem?_append] at h
    split at h
    · exact .inl h
    · rename_i hn
      obtain ⟨hlt, hnew⟩ := List.getElem?_eq_some_iff.mp h
      rw [List.length_singleton] at hlt
      rw [List.getElem_singleton] at hnew
      exact .inr (.inl ⟨by omega, index_of_call_eq_index hnew⟩)
  · rw [hcalls] at h
    by_cases hn : n' = n
    · subst hn
      rw [List.getElem?_set_self (List.getElem?_eq_some_iff.mp hcall).1] at h
      obtain ⟨i, rfl, hmove⟩ := move_of_step_eq_index (Option.some.inj h)
      exact .inr (.inr ⟨elapsed, make, keys, i, rfl, hcall, hmove⟩)
    · rw [List.getElem?_set_ne hn] at h
      exact .inl h
  · rw [hcalls] at h
    exact .inl h

lemma next_index {s : Overlap α} {n : Nat} {i : Indexing (Snapshot α)} (h : s.calls[n]? = some (.index i))
    (e : Event α) :
    ∃ j, (s.next e).calls[n]? = some (.index j) ∧ (j = i ∨ ∃ m, i.Move m s.cache j) := by
  have hlt := (List.getElem?_eq_some_iff.mp h).1
  rcases s.next_cases e with ⟨t, op, -, -, -, hcalls⟩ | ⟨n', elapsed, make, keys, call, -, hcall, -, -, hcalls⟩ |
    ⟨n', elapsed, make, keys, -, -, -, -, hcalls⟩
  · exact ⟨i, by rw [hcalls, List.getElem?_append_left hlt, h], .inl rfl⟩
  · by_cases hn : n' = n
    · subst hn
      obtain rfl : .index i = call := Option.some.inj (h.symm.trans hcall)
      exact ⟨_, by rw [hcalls, List.getElem?_set_self hlt]; rfl, .inr ⟨_, i.move_step _ _⟩⟩
    · exact ⟨i, by rw [hcalls, List.getElem?_set_ne hn, h], .inl rfl⟩
  · exact ⟨i, by rw [hcalls, h], .inl rfl⟩

/-- What holds of a call to `index` and is kept by its steps holds of it from then on. -/
lemma index_after {P : Indexing (Snapshot α) → Prop} (hmove : ∀ m c i j, Indexing.Move m c i j → P i → P j)
    {s : Overlap α} {n : Nat} {i : Indexing (Snapshot α)} (h : s.calls[n]? = some (.index i)) (hP : P i)
    (events : List (Event α)) : ∃ j, (s.after events).calls[n]? = some (.index j) ∧ P j := by
  induction events generalizing s i with
  | nil => exact ⟨i, h, hP⟩
  | cons e es ih =>
    obtain ⟨j, h', rfl | ⟨m, hij⟩⟩ := next_index h e
    · exact ih h' hP
    · exact ih h' (hmove m _ i j hij hP)

lemma done_next {s : Overlap α} {n : Nat} {path : String} {snap : Snapshot α}
    (h : s.calls[n]? = some (.index (.done path snap))) (e : Event α) :
    (s.next e).calls[n]? = some (.index (.done path snap)) := by
  obtain ⟨j, hj, rfl | ⟨m, hmove⟩⟩ := next_index h e
  · exact hj
  · cases hmove
    exact hj

lemma get?_next {s : Overlap α} {e : Event α} {k : CacheKey} {r : Stored (Snapshot α)}
    (h : (s.next e).cache.get? k = some r) :
    s.cache.get? k = some r ∨ ∃ n elapsed make keys path, e = .step n elapsed make keys ∧
      s.calls[n]? = some (.index (.purging path r [])) ∧ Path.components path = k := by
  rcases s.next_cases e with ⟨t, op, -, hcache, -⟩ | ⟨n, elapsed, make, keys, call, he, hcall, hcache, -⟩ |
    ⟨n, elapsed, make, keys, -, -, hcache, -⟩
  · exact .inl (by rwa [hcache] at h)
  · rw [hcache] at h
    rcases (Call.effect_step _ _ call).held_or_inserted h with h | ⟨path, rfl, hk⟩
    · exact .inl h
    · exact .inr ⟨n, elapsed, make, keys, path, he, hcall, hk⟩
  · exact .inl (by rwa [hcache] at h)

/-! ### Where results come from -/

/-- The state after some events, from an empty cache on. -/
abbrev run (lifetime : Nat) (events : List (Event α)) : Overlap α :=
  (empty lifetime).after events

/-- The inner indexer of a call was at work on a path with the key, and came back with the snapshot. -/
def Made (lifetime : Nat) (events : List (Event α)) (k : CacheKey) (snap : Snapshot α) : Prop :=
  ∃ before elapsed make keys later path, events = before ++ .step snap.call elapsed make keys :: later ∧
    (run lifetime before).calls[snap.call]? = some (.index (.making path)) ∧ Path.components path = k ∧
    snap.value = make path

/-- A call found a snapshot that the cache held for its key at some time, and saw that it was fresh. -/
def FoundFresh (lifetime : Nat) (events : List (Event α)) (n : Nat) (path : String) (snap : Snapshot α) : Prop :=
  ∃ earlier between elapsed make keys later s,
    events = (earlier ++ between) ++ .step n elapsed make keys :: later ∧
    (run lifetime earlier).cache.get? (Path.components path) = some s ∧
    (run lifetime (earlier ++ between)).calls[n]? = some (.index (.testing path s)) ∧
    (run lifetime (earlier ++ between)).clock + elapsed - s.time < lifetime ∧ s.value = snap

lemma Made.append {lifetime : Nat} {events : List (Event α)} {k : CacheKey} {snap : Snapshot α}
    (h : Made lifetime events k snap) (more : List (Event α)) : Made lifetime (events ++ more) k snap := by
  obtain ⟨before, elapsed, make, keys, later, path, rfl, hrest⟩ := h
  exact ⟨before, elapsed, make, keys, later ++ more, path, by simp, hrest⟩

lemma FoundFresh.append {lifetime : Nat} {events : List (Event α)} {n : Nat} {path : String} {snap : Snapshot α}
    (h : FoundFresh lifetime events n path snap) (more : List (Event α)) :
    FoundFresh lifetime (events ++ more) n path snap := by
  obtain ⟨earlier, between, elapsed, make, keys, later, s, rfl, hrest⟩ := h
  exact ⟨earlier, between, elapsed, make, keys, later ++ more, s, by simp, hrest⟩

/-- What is known of a call to `index` with a number, by how far it has come. -/
def Known (lifetime : Nat) (events : List (Event α)) (n : Nat) : Indexing (Snapshot α) → Prop
  | .testing path s => Made lifetime events (Path.components path) s.value ∧
      ∃ earlier between, events = earlier ++ between ∧
        (run lifetime earlier).cache.get? (Path.components path) = some s
  | .made path snap => snap.call = n ∧ Made lifetime events (Path.components path) snap
  | .purging path new _ => new.value.call = n ∧ Made lifetime events (Path.components path) new.value
  | .done path snap => Made lifetime events (Path.components path) snap ∧
      (snap.call ≠ n → FoundFresh lifetime events n path snap)
  | _ => True

lemma Known.append {lifetime : Nat} {events : List (Event α)} {n : Nat} {i : Indexing (Snapshot α)}
    (h : Known lifetime events n i) (more : List (Event α)) : Known lifetime (events ++ more) n i := by
  cases i with
  | testing path s =>
    obtain ⟨hmade, earlier, between, rfl, hget⟩ := h
    exact ⟨hmade.append more, earlier, between ++ more, by simp, hget⟩
  | made path snap => exact ⟨h.1, h.2.append more⟩
  | purging path new keys => exact ⟨h.1, h.2.append more⟩
  | done path snap => exact ⟨h.1.append more, fun hcall => (h.2 hcall).append more⟩
  | asking | dropping | missing | making => trivial

/-- All that the cache holds was made for its key, and what the calls carry is known. -/
structure Accounted (lifetime : Nat) (events : List (Event α)) : Prop where
  held : ∀ k s, (run lifetime events).cache.get? k = some s → Made lifetime events k s.value
  given : ∀ k s, (run lifetime events).cache.get? k = some s →
    ∃ path, (run lifetime events).calls[s.value.call]? = some (.index (.done path s.value))
  carried : ∀ n i, (run lifetime events).calls[n]? = some (.index i) → Known lifetime events n i

lemma accounted_nil (lifetime : Nat) : Accounted lifetime ([] : List (Event α)) where
  held _ _ h := absurd h Cache.get?_empty_ne
  given _ _ h := absurd h Cache.get?_empty_ne
  carried n i h := by simp [run, after, empty] at h

lemma Accounted.known_of_move {lifetime : Nat} {events : List (Event α)} (h : Accounted lifetime events) {n : Nat}
    {i j : Indexing (Snapshot α)} (hi : (run lifetime events).calls[n]? = some (.index i)) {elapsed : Nat}
    {make : String → α} {keys : List CacheKey}
    (hmove : i.Move ((run lifetime events).moment n elapsed make keys) (run lifetime events).cache j) :
    Known lifetime (events ++ [.step n elapsed make keys]) n j := by
  have hknown := h.carried n i hi
  have hlifetime : (run lifetime events).cache.lifetime = lifetime := lifetime_after _ _
  cases hmove with
  | miss | refuse | drop | leave => trivial
  | find hget => exact ⟨(h.held _ _ hget).append _, events, [_], rfl, hget⟩
  | take hfresh =>
    -- The result stood in the cache when it was found, and not now: another may have taken its place.
    obtain ⟨hmade, earlier, between, rfl, hget⟩ := hknown
    rw [hlifetime] at hfresh
    exact ⟨hmade.append _, fun _ => ⟨earlier, between, elapsed, make, keys, [], _, rfl, hget, hi, hfresh, rfl⟩⟩
  | come => exact ⟨rfl, events, elapsed, make, keys, [], _, rfl, hi, rfl, rfl⟩
  | note | purge => exact ⟨hknown.1, hknown.2.append _⟩
  | insert => exact ⟨hknown.2.append _, fun hcall => absurd hknown.1 hcall⟩
  | rest => exact Known.append hknown _

theorem Accounted.next {lifetime : Nat} {events : List (Event α)} (h : Accounted lifetime events) (e : Event α) :
    Accounted lifetime (events ++ [e]) where
  held k s hget := by
    rw [run, after_concat] at hget
    rcases get?_next hget with hget | ⟨n, elapsed, make, keys, path, rfl, hcall, rfl⟩
    · exact (h.held k s hget).append _
    · exact (h.carried n _ hcall).2.append _
  given k s hget := by
    rw [run, after_concat] at hget ⊢
    rcases get?_next hget with hget | ⟨n, elapsed, make, keys, path, rfl, hcall, rfl⟩
    · obtain ⟨path, hdone⟩ := h.given k s hget
      exact ⟨path, done_next hdone e⟩
    · obtain ⟨rfl, -⟩ := h.carried n _ hcall
      refine ⟨path, ?_⟩
      rw [next_step hcall, List.getElem?_set_self (List.getElem?_eq_some_iff.mp hcall).1]
      rfl
  carried n i hi := by
    rw [run, after_concat] at hi
    rcases index_next hi with hi | ⟨-, path, rfl⟩ | ⟨elapsed, make, keys, old, rfl, hold, hmove⟩
    · exact (h.carried n i hi).append _
    · trivial
    · exact h.known_of_move hold hmove

lemma Accounted.append {lifetime : Nat} {events : List (Event α)} (h : Accounted lifetime events)
    (more : List (Event α)) : Accounted lifetime (events ++ more) := by
  induction more generalizing events with
  | nil => rwa [List.append_nil]
  | cons e more ih => simpa using ih (h.next e)

lemma accounted (lifetime : Nat) (events : List (Event α)) : Accounted lifetime events :=
  (accounted_nil lifetime).append events

/-! ### Safety -/

/-- The call has been to the inner indexer and back, or needs it no more. -/
def IsPastMaking : Indexing (Snapshot α) → Prop
  | .made _ _ | .purging _ _ _ | .done _ _ => True
  | _ => False

lemma isPastMaking_of_move (m : Moment (Snapshot α)) (c : Cache (Snapshot α)) (i j : Indexing (Snapshot α))
    (hmove : i.Move m c j) (h : IsPastMaking i) : IsPastMaking j := by
  cases hmove with
  | note | purge | insert | rest => trivial
  | miss | find | take | refuse | drop | leave | come => exact h.elim

lemma return_once {lifetime : Nat} {before between later later' : List (Event α)} {n elapsed elapsed' : Nat}
    {make make' : String → α} {keys keys' : List CacheKey} {path path' : String}
    (h : (run lifetime before).calls[n]? = some (.index (.making path)))
    (h' : (run lifetime (before ++ between)).calls[n]? = some (.index (.making path')))
    (hevents : .step n elapsed make keys :: later = between ++ .step n elapsed' make' keys' :: later') :
    path = path' ∧ make = make' := by
  cases between with
  | nil =>
    rw [List.append_nil, h] at h'
    cases h'
    cases hevents
    exact ⟨rfl, rfl⟩
  | cons e between =>
    -- The first return takes the call past making, where it stays.
    obtain ⟨rfl, -⟩ := List.cons.inj hevents
    have hmade : ((run lifetime before).next (.step n elapsed make keys)).calls[n]? =
        some (.index (.made path ⟨n, make path⟩)) := by
      rw [next_step h, List.getElem?_set_self (List.getElem?_eq_some_iff.mp h).1]
      rfl
    obtain ⟨j, hj, hpast⟩ := index_after isPastMaking_of_move hmade trivial between
    rw [run, after_append] at h'
    cases hj.symm.trans h'
    exact hpast.elim

lemma Made.unique {lifetime : Nat} {events : List (Event α)} {k k' : CacheKey} {a b : Snapshot α}
    (ha : Made lifetime events k a) (hb : Made lifetime events k' b) (h : a.call = b.call) : k = k' ∧ a = b := by
  obtain ⟨n, a⟩ := a
  obtain ⟨n', b⟩ := b
  obtain rfl : n = n' := h
  obtain ⟨before, elapsed, make, keys, later, path, rfl, hmaking, rfl, rfl⟩ := ha
  obtain ⟨before', elapsed', make', keys', later', path', heq, hmaking', rfl, rfl⟩ := hb
  dsimp only at heq hmaking hmaking'
  rcases List.append_eq_append_iff.mp heq with ⟨between, rfl, htail⟩ | ⟨between, rfl, htail⟩
  · obtain ⟨rfl, rfl⟩ := return_once hmaking hmaking' htail
    exact ⟨rfl, rfl⟩
  · obtain ⟨rfl, rfl⟩ := return_once hmaking' hmaking htail
    exact ⟨rfl, rfl⟩

/-- A call's next step takes a result for a key away: it forgets it, or it inserts what its own inner
indexer, and not that of the result, made for the key. -/
def Supersedes (lifetime : Nat) (events : List (Event α)) (n : Nat) (k : CacheKey) (old : Snapshot α)
    (after : Cache (Snapshot α)) : Prop :=
  (run lifetime events).calls[n]? = some .clear ∨ (run lifetime events).calls[n]? = some (.invalidate k) ∨
    ∃ path new, (run lifetime events).calls[n]? = some (.index (.purging path new [])) ∧
      Path.components path = k ∧ after.get? k = some new ∧ new.value.call = n ∧
      n ≠ old.call ∧ Made lifetime events k new.value

/-- What holds after some events, and of the next one. -/
structure Safe (lifetime : Nat) (events : List (Event α)) : Prop where
  /-- What is held was made whole for its key. -/
  held : ∀ k s, (run lifetime events).cache.get? k = some s → Made lifetime events k s.value
  /-- So was what is given. -/
  given : ∀ (n : Nat) path (snap : Snapshot α), (run lifetime events).calls[n]? = some (.index (.done path snap)) →
    Made lifetime events (Path.components path) snap
  /-- The inner indexer of a call made one result, for one key. -/
  single : ∀ k k' a b, Made lifetime events k a → Made lifetime events k' b → a.call = b.call → k = k' ∧ a = b
  /-- What is given and was made by another call was found in the cache, and was fresh when it was looked
  at. -/
  fresh : ∀ (n : Nat) path (snap : Snapshot α), (run lifetime events).calls[n]? = some (.index (.done path snap)) → snap.call ≠ n →
    FoundFresh lifetime events n path snap
  /-- What is fresh stays unless it is forgotten or replaced. -/
  kept : ∀ e k s, (run lifetime events).cache.get? k = some s →
    (run lifetime (events ++ [e])).clock - s.time < lifetime →
    (run lifetime (events ++ [e])).cache.get? k = some s ∨
      ∃ n elapsed make keys, e = .step n elapsed make keys ∧
        Supersedes lifetime events n k s.value (run lifetime (events ++ [e])).cache

/-- However calls overlap, the cache is safe. -/
theorem run_safe (lifetime : Nat) (events : List (Event α)) : Safe lifetime events where
  held := (accounted lifetime events).held
  given n path snap h := ((accounted lifetime events).carried n _ h).1
  single _ _ _ _ ha hb h := ha.unique hb h
  fresh n path snap h hcall := ((accounted lifetime events).carried n _ h).2 hcall
  kept e k s hget hfresh := by
    have hlifetime : (run lifetime events).cache.lifetime = lifetime := lifetime_after _ _
    rw [run, after_concat] at hfresh
    rw [run, after_concat]
    rcases (run lifetime events).next_cases e with ⟨t, op, -, hcache, -⟩ |
      ⟨n, elapsed, make, keys, call, rfl, hcall, hcache, hclock, -⟩ | ⟨n, elapsed, make, keys, -, -, hcache, -⟩
    · exact .inl (by rw [hcache, hget])
    · rw [hclock] at hfresh
      rw [hcache]
      have hfresh' : ((run lifetime events).moment n elapsed make keys).now - s.time <
          (run lifetime events).cache.lifetime := by rwa [hlifetime]
      rcases (Call.effect_step _ _ call).kept_or_superseded hget hfresh' with hkept | rfl | rfl | ⟨path, new, rfl, hk, hnew⟩
      · exact .inl hkept
      · exact .inr ⟨n, elapsed, make, keys, rfl, .inl hcall⟩
      · exact .inr ⟨n, elapsed, make, keys, rfl, .inr (.inl hcall)⟩
      · -- The call whose result is held is done, so this is another.
        obtain ⟨hown, hmade⟩ := (accounted lifetime events).carried n _ hcall
        have hother : n ≠ s.value.call := by
          rintro rfl
          obtain ⟨path', hdone⟩ := (accounted lifetime events).given k s hget
          cases hcall.symm.trans hdone
        exact .inr ⟨n, elapsed, make, keys, rfl,
          .inr (.inr ⟨path, new, hcall, hk, hnew, hown, hother, hk ▸ hmade⟩)⟩
    · exact .inl (by rw [hcache, hget])

end Overlap

end CodeContext
