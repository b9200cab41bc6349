import CodeContext.Proofs.CacheOverlap
import CodeContext.Proofs.CacheTrace

/-!
# Results that outlive being forgotten

A call to `clear` or `invalidate` takes one step, and what the cache holds for a key is gone. A call to
`index` whose inner indexer is at work meanwhile knows nothing of that and inserts what it has made. So an
old result comes back just when such a call is still under way.
-/

namespace CodeContext

variable {α : Type}

/-- A call is to forget the result for a key in its next step. -/
def Call.Forgets (k : CacheKey) : Call α → Prop
  | .clear => True
  | .invalidate key => key = k
  | _ => False

/-- A call has ended that was to forget a result. -/
def Call.HasForgotten : Call α → Prop
  | .cleared | .invalidated _ => True
  | _ => False

namespace Call

variable {k : CacheKey} {call : Call α}

lemma step_index (m : Moment α) (c : Cache α) (i : Indexing α) :
    (index i).step m c = (index (i.step m c).1, (i.step m c).2) :=
  rfl

lemma Forgets.get?_step_eq_none (h : call.Forgets k) (m : Moment α) (c : Cache α) :
    (call.step m c).2.get? k = none := by
  rw [Option.eq_none_iff_forall_ne_some]
  intro s hs
  cases call with
  | clear => exact Cache.get?_empty_ne hs
  | invalidate key => exact (Cache.get?_erase.mp hs).1 h.symm
  | index | invalidated | cleared | count | purge | purged => exact h.elim

end Call

namespace Indexing

variable {m : Moment α} {c : Cache α} {i j : Indexing α}

/-- The inner indexer has been called, or a result was found. -/
def IsPastLooking : Indexing α → Prop
  | making _ | made _ _ | purging _ _ _ | done _ _ => True
  | _ => False

/-- The call will insert a result that can be fresh then. -/
def IsPending (clock lifetime : Nat) : Indexing α → Prop
  | making _ | made _ _ => 0 < lifetime
  | purging _ new _ => clock - new.time < lifetime
  | _ => False

lemma IsPastLooking.of_move (hmove : i.Move m c j) (h : i.IsPastLooking) : j.IsPastLooking := by
  cases hmove with
  | come | note | purge | insert | rest => trivial
  | miss | find | take | refuse | drop | leave => exact h.elim

lemma IsPending.of_le {clock clock' lifetime : Nat} (h : i.IsPending clock' lifetime) (hle : clock ≤ clock') :
    i.IsPending clock lifetime := by
  cases i with
  | purging path new keys => exact Nat.lt_of_le_of_lt (Nat.sub_le_sub_right hle _) h
  | making | made => exact h
  | asking | testing | dropping | missing | done => exact h.elim

/-- A call past looking does not come to have a fresh result to insert. -/
lemma isPending_of_move {lifetime : Nat} (hmove : i.Move m c j) (hpast : i.IsPastLooking)
    (h : j.IsPending m.now lifetime) : i.IsPending m.now lifetime := by
  cases hmove with
  | come | purge => exact h
  | note => exact Nat.lt_of_le_of_lt (Nat.zero_le _) h
  | insert | rest => exact h.elim
  | miss | find | take | refuse | drop | leave => exact hpast.elim

end Indexing

namespace Overlap

lemma run_append (lifetime : Nat) (past more : List (Event α)) :
    run lifetime (past ++ more) = (run lifetime past).after more :=
  after_append _ _ _

/-- A call's inner indexer has been called. -/
def Began (s : Overlap α) (n : Nat) : Prop :=
  ∃ i, s.calls[n]? = some (.index i) ∧ i.IsPastLooking ∧ ∀ path snap, i = .done path snap → snap.call = n

/-- No refresh is undone: a call that begins after the results for its key were forgotten gives no result
of an inner indexer that was called before the call to forget them began. -/
def RefreshesHold (α : Type) (lifetime : Nat) : Prop :=
  ∀ (before : List (Event α)) t op middle t' path rest full snap forgetting,
    (op.call t : Call (Snapshot α)).Forgets (CacheKey.ofPath t' path) →
    (run lifetime (before ++ .begin t op :: middle)).calls[(run lifetime before).calls.length]? = some forgetting →
    forgetting.HasForgotten →
    (run lifetime (before ++ .begin t op :: middle ++ .begin t' (.index path) :: rest)).calls[
      (run lifetime (before ++ .begin t op :: middle)).calls.length]? = some (.index (.done full snap)) →
    ¬ (run lifetime before).Began snap.call

/-- After some events, a call that begins for a path can come to give a result of an old call. -/
def CanGive (lifetime : Nat) (past : List (Event α)) (old : Nat → Prop) (t : FileTree) (path : String) : Prop :=
  ∃ between rest full snap,
    (run lifetime (past ++ between ++ .begin t (.index path) :: rest)).calls[
      (run lifetime (past ++ between)).calls.length]? = some (.index (.done full snap)) ∧ old snap.call

/-- An old call for a key has a result to insert that can be fresh then. -/
def IsPending (lifetime : Nat) (past : List (Event α)) (old : Nat → Prop) (k : CacheKey) : Prop :=
  ∃ u i, old u ∧ (run lifetime past).calls[u]? = some (.index i) ∧ i.key = k ∧
    i.IsPending (run lifetime past).clock lifetime

/-! ### Nothing old comes back -/

/-- What holds once the results for a key were forgotten, if no old call for the key has a fresh one to
insert. Calls from the first on have begun since then. -/
structure Refreshed (lifetime : Nat) (old : Nat → Prop) (first : Nat) (k : CacheKey) (events : List (Event α)) :
    Prop where
  spent : ∀ u i, old u → (run lifetime events).calls[u]? = some (.index i) → i.key = k →
    i.IsPastLooking ∧ ¬ i.IsPending (run lifetime events).clock lifetime
  held : ∀ e, (run lifetime events).cache.get? k = some e → old e.value.call →
    lifetime ≤ (run lifetime events).clock - e.time
  found : ∀ n path e, first ≤ n → (run lifetime events).calls[n]? = some (.index (.testing path e)) →
    Path.components path = k → old e.value.call → lifetime ≤ (run lifetime events).clock - e.time
  given : ∀ n path (snap : Snapshot α), first ≤ n →
    (run lifetime events).calls[n]? = some (.index (.done path snap)) → Path.components path = k → ¬ old snap.call

section

variable {lifetime first : Nat} {old : Nat → Prop} {k : CacheKey} {events : List (Event α)}

lemma Refreshed.spent_next (h : Refreshed lifetime old first k events) (hold : ∀ u, old u → u < first)
    (hfirst : first ≤ (run lifetime events).calls.length) (e : Event α) {u : Nat} {i : Indexing (Snapshot α)}
    (hu : old u) (hi : (run lifetime (events ++ [e])).calls[u]? = some (.index i)) (hkey : i.key = k) :
    i.IsPastLooking ∧ ¬ i.IsPending (run lifetime (events ++ [e])).clock lifetime := by
  have hclock : (run lifetime events).clock ≤ (run lifetime (events ++ [e])).clock := by
    rw [run, run, after_concat]
    exact clock_next_le _ e
  rw [run, after_concat] at hi
  rcases index_next hi with hi | ⟨rfl, -⟩ | ⟨elapsed, make, keys, before, rfl, hbefore, hmove⟩
  · obtain ⟨hpast, hspent⟩ := h.spent u i hu hi hkey
    exact ⟨hpast, fun hp => hspent (hp.of_le hclock)⟩
  · exact absurd (hold _ hu) (Nat.not_lt.mpr hfirst)
  · obtain ⟨hpast, hspent⟩ := h.spent u before hu hbefore (hmove.key_eq.symm.trans hkey)
    refine ⟨hpast.of_move hmove, fun hp => hspent (Indexing.IsPending.of_le ?_ hclock)⟩
    rw [run, after_concat, next_step hbefore] at hp ⊢
    exact Indexing.isPending_of_move hmove hpast hp

theorem Refreshed.next (h : Refreshed lifetime old first k events) (hold : ∀ u, old u → u < first)
    (hfirst : first ≤ (run lifetime events).calls.length) (e : Event α) :
    Refreshed lifetime old first k (events ++ [e]) where
  spent u i hu hi hkey := h.spent_next hold hfirst e hu hi hkey
  held r hget hr := by
    rw [run, after_concat] at hget ⊢
    have hclock := clock_next_le (run lifetime events) e
    rcases get?_next hget with hget | ⟨n, elapsed, make, keys, path, rfl, hcall, hkey⟩
    · exact Nat.le_trans (h.held r hget hr) (Nat.sub_le_sub_right hclock _)
    · obtain ⟨rfl, -⟩ := (accounted lifetime events).carried n _ hcall
      have hspent := (h.spent _ _ hr hcall hkey).2
      exact Nat.le_trans (Nat.not_lt.mp hspent) (Nat.sub_le_sub_right hclock _)
  found n path r hn hi hkey hr := by
    rw [run, after_concat] at hi ⊢
    have hclock := clock_next_le (run lifetime events) e
    rcases index_next hi with hi | ⟨-, path', hnew⟩ | ⟨elapsed, make, keys, before, rfl, -, hmove⟩
    · exact Nat.le_trans (h.found n path r hn hi hkey hr) (Nat.sub_le_sub_right hclock _)
    · cases hnew
    · cases hmove with
      | find hget => exact Nat.le_trans (h.held r (hkey ▸ hget) hr) (Nat.sub_le_sub_right hclock _)
  given n path snap hn hi hkey := by
    rw [run, after_concat] at hi
    rcases index_next hi with hi | ⟨-, path', hnew⟩ | ⟨elapsed, make, keys, before, rfl, hbefore, hmove⟩
    · exact h.given n path snap hn hi hkey
    · cases hnew
    · cases hmove with
      | @take _ r hfresh =>
        -- What was found fresh now was fresh when it was found, so it is not old.
        intro hr
        have hstale := h.found n path r hn hbefore hkey hr
        have hlifetime : (run lifetime events).cache.lifetime = lifetime := lifetime_after _ _
        rw [hlifetime] at hfresh
        have hnow : (run lifetime events).clock + elapsed - r.time < lifetime := hfresh
        omega
      | insert =>
        obtain ⟨hown, -⟩ := (accounted lifetime events).carried n _ hbefore
        intro hr
        have := hold _ hr
        omega
      | rest => exact h.given n path snap hn hbefore hkey

lemma length_calls_next_le (s : Overlap α) (e : Event α) : s.calls.length ≤ (s.next e).calls.length := by
  rcases s.next_cases e with ⟨t, op, -, -, -, hcalls⟩ | ⟨n, elapsed, make, keys, call, -, -, -, -, hcalls⟩ |
    ⟨n, elapsed, make, keys, -, -, -, -, hcalls⟩ <;> simp [hcalls]

lemma Refreshed.append (h : Refreshed lifetime old first k events) (hold : ∀ u, old u → u < first)
    (hfirst : first ≤ (run lifetime events).calls.length) (more : List (Event α)) :
    Refreshed lifetime old first k (events ++ more) := by
  induction more generalizing events with
  | nil => rwa [List.append_nil]
  | cons e more ih =>
    have hlength : first ≤ (run lifetime (events ++ [e])).calls.length := by
      rw [run, after_concat]
      exact Nat.le_trans hfirst (length_calls_next_le _ e)
    simpa using ih (h.next hold hfirst e) hlength

end

/-! ### The step that forgets -/

/-- A call that is to forget the results for a key begins after some events, and is still to do so after
some more. -/
structure Forgetting (lifetime : Nat) (before : List (Event α)) (t : FileTree) (op : Operation)
    (middle : List (Event α)) (k : CacheKey) : Prop where
  forgets : (op.call t : Call (Snapshot α)).Forgets k
  waits : (run lifetime (before ++ .begin t op :: middle)).calls[(run lifetime before).calls.length]? =
    some (op.call t)

/-- The events up to the step that forgets. -/
def upToForgetting (lifetime : Nat) (before : List (Event α)) (t : FileTree) (op : Operation)
    (middle : List (Event α)) (elapsed : Nat) (make : String → α) (keys : List CacheKey) : List (Event α) :=
  before ++ .begin t op :: middle ++ [.step (run lifetime before).calls.length elapsed make keys]

section

variable {lifetime : Nat} {before middle : List (Event α)} {t t' : FileTree} {op : Operation} {k : CacheKey}

lemma Forgetting.get?_eq_none (h : Forgetting lifetime before t op middle k) (elapsed : Nat) (make : String → α)
    (keys : List CacheKey) :
    (run lifetime (upToForgetting lifetime before t op middle elapsed make keys)).cache.get? k = none := by
  rw [upToForgetting, run, after_concat, next_step h.waits]
  exact h.forgets.get?_step_eq_none _ _

lemma Began.isPastLooking {u : Nat} (h : (run lifetime before).Began u) (more : List (Event α)) :
    ∃ i, (run lifetime (before ++ more)).calls[u]? = some (.index i) ∧ i.IsPastLooking := by
  obtain ⟨i, hi, hpast, -⟩ := h
  rw [run, after_append]
  exact index_after (fun _ _ _ _ hmove => Indexing.IsPastLooking.of_move hmove) hi hpast more

lemma Began.lt_length {u : Nat} (h : (run lifetime before).Began u) (more : List (Event α)) :
    u < (run lifetime (before ++ more)).calls.length := by
  obtain ⟨i, hi, -⟩ := h.isPastLooking more
  exact (List.getElem?_eq_some_iff.mp hi).1

/-- Right after the results for a key were forgotten they are refreshed, unless an old one is pending. -/
lemma Forgetting.refreshed (h : Forgetting lifetime before t op middle k) {elapsed : Nat} {make : String → α}
    {keys : List CacheKey} {past : List (Event α)}
    (hpast : past = upToForgetting lifetime before t op middle elapsed make keys)
    (hpending : ¬ IsPending lifetime past (run lifetime before).Began k) :
    Refreshed lifetime (run lifetime before).Began (run lifetime past).calls.length k past where
  spent u i hu hi hkey := by
    refine ⟨?_, fun hp => hpending ⟨u, i, hu, hi, hkey, hp⟩⟩
    obtain ⟨i', hi', hlooking⟩ :=
      hu.isPastLooking (.begin t op :: middle ++ [.step (run lifetime before).calls.length elapsed make keys])
    rw [hpast, upToForgetting, List.append_assoc, hi'] at hi
    obtain rfl := Call.index.inj (Option.some.inj hi)
    exact hlooking
  held e he := by
    rw [hpast, h.get?_eq_none] at he
    cases he
  found n path e hn hi := absurd (List.getElem?_eq_some_iff.mp hi).1 (Nat.not_lt.mpr hn)
  given n path snap hn hi := absurd (List.getElem?_eq_some_iff.mp hi).1 (Nat.not_lt.mpr hn)

lemma length_calls_le_after (past more : List (Event α)) :
    (run lifetime past).calls.length ≤ (run lifetime (past ++ more)).calls.length := by
  rw [run, run, after_append]
  generalize (empty lifetime).after past = s
  induction more generalizing s with
  | nil => exact Nat.le_refl _
  | cons e more ih => exact Nat.le_trans (length_calls_next_le s e) (ih (s.next e))

lemma calls_begin (past : List (Event α)) (t : FileTree) (op : Operation) :
    (run lifetime (past ++ [.begin t op])).calls[(run lifetime past).calls.length]? = some (op.call t) := by
  rw [run, after_concat]
  exact List.getElem?_concat_length

lemma key_of_begin {past rest : List (Event α)} {path : String} {i : Indexing (Snapshot α)}
    (h : (run lifetime (past ++ .begin t (.index path) :: rest)).calls[(run lifetime past).calls.length]? =
      some (.index i)) : i.key = CacheKey.ofPath t path := by
  have hbegun : (run lifetime (past ++ [.begin t (.index path)])).calls[(run lifetime past).calls.length]? =
      some (.index (.asking (t.absolute path))) := calls_begin past t (.index path)
  obtain ⟨j, hj, hkey⟩ := index_after (P := fun j => j.key = CacheKey.ofPath t path)
    (fun _ _ _ _ hmove hkey => hmove.key_eq.trans hkey) hbegun rfl rest
  rw [← List.singleton_append, ← List.append_assoc, run, after_append, hj] at h
  obtain rfl := Call.index.inj (Option.some.inj h)
  exact hkey

/-! ### What is pending comes back -/

lemma run_step {past : List (Event α)} {n : Nat} {call : Call (Snapshot α)}
    (h : (run lifetime past).calls[n]? = some call) (make : String → α) :
    (run lifetime (past ++ [.step n 0 make []])).calls[n]? =
        some (call.step ((run lifetime past).moment n 0 make []) (run lifetime past).cache).1 ∧
      (run lifetime (past ++ [.step n 0 make []])).cache =
        (call.step ((run lifetime past).moment n 0 make []) (run lifetime past).cache).2 ∧
      (run lifetime (past ++ [.step n 0 make []])).clock = (run lifetime past).clock := by
  have hnext : run lifetime (past ++ [.step n 0 make []]) = _ := (after_concat _ _ _).trans (next_step h 0 make [])
  rw [hnext]
  exact ⟨List.getElem?_set_self (List.getElem?_eq_some_iff.mp h).1, rfl, rfl⟩

/-- After some events from the past on, the cache holds a fresh result of a call for a key. -/
def Returns (lifetime : Nat) (past : List (Event α)) (u : Nat) (k : CacheKey) : Prop :=
  ∃ more new, (run lifetime (past ++ more)).cache.get? k = some new ∧ new.value.call = u ∧
    (run lifetime (past ++ more)).clock - new.time < lifetime

lemma Returns.of_step {past : List (Event α)} {u : Nat} {e : Event α} (h : Returns lifetime (past ++ [e]) u k) :
    Returns lifetime past u k := by
  obtain ⟨more, new, hnew⟩ := h
  exact ⟨e :: more, new, by simpa using hnew⟩

lemma returns_of_purging {past : List (Event α)} {u : Nat} {path : String} {new : Stored (Snapshot α)}
    {keys : List CacheKey} (hu : (run lifetime past).calls[u]? = some (.index (.purging path new keys)))
    (hfresh : (run lifetime past).clock - new.time < lifetime) (make : String → α) :
    Returns lifetime past u (Path.components path) := by
  induction keys generalizing past with
  | nil =>
    obtain ⟨-, hcache, hclock⟩ := run_step hu make
    obtain ⟨hown, -⟩ := (accounted lifetime past).carried u _ hu
    refine ⟨_, new, ?_, hown, by rwa [hclock]⟩
    rw [hcache]
    exact Cache.get?_insert.mpr (.inl ⟨rfl, rfl⟩)
  | cons key keys ih =>
    obtain ⟨hcalls, -, hclock⟩ := run_step hu make
    exact .of_step (ih hcalls (by rwa [hclock]))

lemma returns_of_made {past : List (Event α)} {u : Nat} {path : String} {snap : Snapshot α}
    (hu : (run lifetime past).calls[u]? = some (.index (.made path snap))) (hlifetime : 0 < lifetime)
    (make : String → α) : Returns lifetime past u (Path.components path) := by
  obtain ⟨hcalls, -, hclock⟩ := run_step hu make
  refine .of_step (returns_of_purging hcalls ?_ make)
  have hnow : (run lifetime past).clock - ((run lifetime past).clock + 0) < lifetime := by omega
  rwa [hclock]

lemma returns_of_isPending {past : List (Event α)} {u : Nat} {i : Indexing (Snapshot α)}
    (hu : (run lifetime past).calls[u]? = some (.index i))
    (hpending : i.IsPending (run lifetime past).clock lifetime) (make : String → α) :
    Returns lifetime past u i.key := by
  cases i with
  | making path =>
    obtain ⟨hcalls, -⟩ := run_step hu make
    exact .of_step (returns_of_made hcalls hpending make)
  | made path snap => exact returns_of_made hu hpending make
  | purging path new keys => exact returns_of_purging hu hpending make
  | asking | testing | dropping | missing | done => exact hpending.elim

lemma done_of_asking {past : List (Event α)} {n : Nat} {path : String} {new : Stored (Snapshot α)}
    (hn : (run lifetime past).calls[n]? = some (.index (.asking path)))
    (hget : (run lifetime past).cache.get? (Path.components path) = some new)
    (hfresh : (run lifetime past).clock - new.time < lifetime) (make : String → α) :
    (run lifetime (past ++ [.step n 0 make []] ++ [.step n 0 make []])).calls[n]? =
      some (.index (.done path new.value)) := by
  obtain ⟨hasked, hcache, hclock⟩ := run_step hn make
  have htesting : ((Indexing.asking path).step ((run lifetime past).moment n 0 make [])
      (run lifetime past).cache).1 = .testing path new := by
    rw [Indexing.step_asking, hget]
  obtain ⟨htested, -⟩ := run_step hasked make
  have hlifetime : (run lifetime past).cache.lifetime = lifetime := lifetime_after _ _
  have hnow : ((run lifetime past).cache.isFresh (run lifetime past).clock new) = true := by
    rw [Cache.isFresh, hlifetime, decide_eq_true_iff]
    exact hfresh
  rw [htested, Call.step_index, htesting, hcache]
  simp [Indexing.step, moment, hclock, Call.step_index, hnow]

lemma done_of_fresh {past : List (Event α)} {path : String} {new : Stored (Snapshot α)}
    (hget : (run lifetime past).cache.get? (CacheKey.ofPath t path) = some new)
    (hfresh : (run lifetime past).clock - new.time < lifetime) (make : String → α) :
    ∃ rest full, (run lifetime (past ++ .begin t (.index path) :: rest)).calls[(run lifetime past).calls.length]? =
      some (.index (.done full new.value)) := by
  have hsame : (run lifetime (past ++ [.begin t (.index path)])).cache = (run lifetime past).cache ∧
      (run lifetime (past ++ [.begin t (.index path)])).clock = (run lifetime past).clock := by
    rw [run, after_concat]
    exact ⟨rfl, rfl⟩
  have hdone := done_of_asking (calls_begin past t (.index path)) (hsame.1 ▸ hget) (hsame.2 ▸ hfresh) make
  exact ⟨_, _, by simpa using hdone⟩

/-- After the results for a key were forgotten, a call for the key can give an old one just when an old
call for the key has still one to insert that can be fresh then. -/
theorem canGive_iff_isPending {path : String}
    (h : Forgetting lifetime before t op middle (CacheKey.ofPath t' path)) (elapsed : Nat) (make : String → α)
    (keys : List CacheKey) :
    CanGive lifetime (upToForgetting lifetime before t op middle elapsed make keys) (run lifetime before).Began
        t' path ↔
      IsPending lifetime (upToForgetting lifetime before t op middle elapsed make keys)
        (run lifetime before).Began (CacheKey.ofPath t' path) := by
  generalize hpast : upToForgetting lifetime before t op middle elapsed make keys = past
  constructor
  · -- With no old call pending, the results for the key stay refreshed up to the end of the new call.
    rintro ⟨between, rest, full, snap, hdone, hold⟩
    refine Classical.byContradiction fun hpending => ?_
    have hbegan (u : Nat) (hu : (run lifetime before).Began u) : u < (run lifetime past).calls.length := by
      rw [← hpast, upToForgetting, List.append_assoc]
      exact hu.lt_length _
    have hrefreshed := (h.refreshed hpast.symm hpending).append hbegan (Nat.le_refl _)
      (between ++ .begin t' (.index path) :: rest)
    rw [← List.append_assoc] at hrefreshed
    have hkey := key_of_begin hdone
    exact hrefreshed.given _ full snap (length_calls_le_after past between) hdone hkey hold
  · -- The pending call goes on to its end, and then the new one begins and finds what it inserted.
    rintro ⟨u, i, hu, hi, hkey, hpending⟩
    obtain ⟨more, new, hget, rfl, hfresh⟩ := returns_of_isPending hi hpending make
    rw [hkey] at hget
    obtain ⟨rest, full, hdone⟩ := done_of_fresh hget hfresh make
    exact ⟨more, rest, full, new.value, hdone, hu⟩

end

/-! ### A clear while the inner indexer is at work -/

open Cache (bareTree bareTree_absolute)

def atWork : List (Event Nat) :=
  [.begin bareTree (.index "a.cs"), .step 0 0 (fun _ => 0) [], .step 0 0 (fun _ => 0) []]

def clearedMeanwhile : List (Event Nat) :=
  [.step 1 0 (fun _ => 0) [], .step 0 0 (fun _ => 0) [], .step 0 0 (fun _ => 0) [], .step 0 0 (fun _ => 0) []]

lemma run_atWork : run 1 atWork = ⟨.empty 1, 0, [.index (.making "/w/a.cs")]⟩ := by
  simp only [run, after, atWork, List.foldl_cons, List.foldl_nil, next, Operation.call, bareTree_absolute]
  rfl

lemma began_atWork : (run 1 atWork).Began 0 := by
  rw [run_atWork]
  exact ⟨_, rfl, trivial, nofun⟩

lemma run_clearedMeanwhile : run 1 (atWork ++ .begin bareTree .clear :: clearedMeanwhile) =
    ⟨(Cache.empty 1).insert (Path.components "/w/a.cs") ⟨⟨0, 0⟩, 0⟩, 0,
      [.index (.done "/w/a.cs" ⟨0, 0⟩), .cleared]⟩ := by
  rw [run_append, run_atWork]
  rfl

/-- A call that begins after the cache was cleared gives a result from before. -/
theorem cleared_result_returns : ¬ RefreshesHold Nat 1 := by
  intro hholds
  have hlater := hholds atWork bareTree .clear clearedMeanwhile bareTree "a.cs"
    [.step 2 0 (fun _ => 1) [], .step 2 0 (fun _ => 1) []] "/w/a.cs" ⟨0, 0⟩ .cleared trivial
  rw [run_append 1 (atWork ++ _), run_clearedMeanwhile, run_atWork] at hlater
  refine hlater rfl trivial ?_ (run_atWork ▸ began_atWork)
  simp only [after, List.foldl_cons, List.foldl_nil, next, Operation.call, bareTree_absolute]
  rfl

/-- When the cache is cleared, the call at work is pending, and so its result can come back. -/
theorem canGive_atWork : Forgetting 1 atWork bareTree .clear [] (CacheKey.ofPath bareTree "a.cs") ∧
    CanGive 1 (upToForgetting 1 atWork bareTree .clear [] 0 (fun _ => 0) []) (run 1 atWork).Began bareTree
      "a.cs" := by
  have hforgetting : Forgetting 1 atWork bareTree .clear [] (CacheKey.ofPath bareTree "a.cs") := by
    refine ⟨trivial, ?_⟩
    rw [run_append, run_atWork]
    rfl
  have hpast : run 1 (upToForgetting 1 atWork bareTree .clear [] 0 (fun _ => 0) []) =
      ⟨.empty 1, 0, [.index (.making "/w/a.cs"), .cleared]⟩ := by
    rw [upToForgetting, List.append_assoc, run_append, run_atWork]
    rfl
  refine ⟨hforgetting, (canGive_iff_isPending hforgetting 0 _ []).mpr ?_⟩
  rw [IsPending, hpast]
  refine ⟨0, _, began_atWork, rfl, ?_, Nat.one_pos⟩
  rw [CacheKey.ofPath, bareTree_absolute]
  rfl

end Overlap

end CodeContext
