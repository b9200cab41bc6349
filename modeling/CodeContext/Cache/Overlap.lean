import CodeContext.Cache

/-!
# Calls that overlap

Calls to a cache that go on at the same time are taken apart into steps, each of which uses the cache
once at most. Steps of other calls may come between any two steps of a call. A purge looks at one key in
each step, and what keys it comes by is open: results may come and go while it goes on.
-/

namespace CodeContext

/-- What a step of a call meets: the time, what the inner indexer makes of a path, and the keys that a
purge comes by if it begins. -/
structure Moment (α : Type) where
  now : Nat
  make : String → α
  keys : List CacheKey

/-- A call to `index` for a path seen from the root, by what its next step is to do. -/
inductive Indexing (α : Type) where
  /-- To look up the key. -/
  | asking (path : String)
  /-- To see whether the result that was found is fresh. -/
  | testing (path : String) (found : Stored α)
  /-- To drop the result that is there now, unless it is fresh. -/
  | dropping (path : String)
  /-- To call the inner indexer. -/
  | missing (path : String)
  /-- To come back from the inner indexer. -/
  | making (path : String)
  /-- To note the time. -/
  | made (path : String) (value : α)
  /-- To purge the next key, or to insert if none is left. -/
  | purging (path : String) (new : Stored α) (keys : List CacheKey)
  | done (path : String) (value : α)

namespace Indexing

variable {α : Type}

def path : Indexing α → String
  | asking path | testing path _ | dropping path | missing path | making path | made path _
  | purging path _ _ | done path _ => path

def key (i : Indexing α) : CacheKey :=
  Path.components i.path

/-- The next step of a call. -/
def step (m : Moment α) (c : Cache α) : Indexing α → Indexing α × Cache α
  | asking path =>
    let next :=
      match c.get? (Path.components path) with
      | none => missing path
      | some s => testing path s
    (next, c)
  | testing path s => (if c.isFresh m.now s then done path s.value else dropping path, c)
  | dropping path => (missing path, c.dropStale m.now (Path.components path))
  | missing path => (making path, c)
  | making path => (made path (m.make path), c)
  | made path value => (purging path ⟨value, m.now⟩ m.keys, c)
  | purging path new (key :: keys) => (purging path new keys, c.dropStale m.now key)
  | purging path new [] => (done path new.value, c.insert (Path.components path) new)
  | done path value => (done path value, c)

end Indexing

/-- A call to a cache, by what its next step is to do, or with what it gave. -/
inductive Call (α : Type) where
  | index (i : Indexing α)
  | invalidate (key : CacheKey)
  | invalidated (held : Bool)
  | clear
  | cleared
  /-- To count the results before a purge. -/
  | count
  /-- To purge the next key, or to count again if none is left. -/
  | purge (size : Nat) (keys : List CacheKey)
  | purged (count : Nat)

/-- The next step of a call. -/
def Call.step {α : Type} (m : Moment α) (c : Cache α) : Call α → Call α × Cache α
  | index i =>
    let (i, c) := i.step m c
    (index i, c)
  | invalidate key => (invalidated (c.get? key).isSome, c.erase key)
  | clear => (cleared, c.clear)
  | count => (purge c.size m.keys, c)
  | purge size (key :: keys) => (purge size keys, c.dropStale m.now key)
  | purge size [] => (purged (size - c.size), c)
  | ended => (ended, c)

/-- What a cache can be called for. -/
inductive Operation where
  | index (path : String)
  | invalidate (path : String)
  | clear
  | purge

/-- The call for an operation, at its beginning. -/
def Operation.call {α : Type} (t : FileTree) : Operation → Call α
  | index path => .index (.asking (t.absolute path))
  | invalidate path => .invalidate (.ofPath t path)
  | clear => .clear
  | purge => .count

/-- A result, with the number of the call whose inner indexer gave it. -/
structure Snapshot (α : Type) where
  call : Nat
  value : α

/-- A cache with the time and all calls to it, by their numbers. -/
structure Overlap (α : Type) where
  cache : Cache (Snapshot α)
  clock : Nat
  calls : List (Call (Snapshot α))

namespace Overlap

variable {α : Type}

/-- What happens next: a call begins, or the call with a number takes a step after some time. -/
inductive Event (α : Type) where
  | begin (t : FileTree) (op : Operation)
  | step (n : Nat) (elapsed : Nat) (make : String → α) (keys : List CacheKey)

def empty (lifetime : Nat) : Overlap α :=
  ⟨.empty lifetime, 0, []⟩

/-- What the steps of a call meet. The inner indexer's result bears the number of the call. -/
def moment (s : Overlap α) (n : Nat) (elapsed : Nat) (make : String → α) (keys : List CacheKey) :
    Moment (Snapshot α) :=
  ⟨s.clock + elapsed, fun path => ⟨n, make path⟩, keys⟩

def next (s : Overlap α) : Event α → Overlap α
  | .begin t op => { s with calls := s.calls ++ [op.call t] }
  | .step n elapsed make keys =>
    let clock := s.clock + elapsed
    match s.calls[n]? with
    | none => { s with clock }
    | some call =>
      let (call, cache) := call.step (s.moment n elapsed make keys) s.cache
      ⟨cache, clock, s.calls.set n call⟩

/-- The state after some events. The calls that take a step each time, and so how they overlap, are
open. -/
def after (s : Overlap α) (events : List (Event α)) : Overlap α :=
  events.foldl next s

end Overlap

end CodeContext
