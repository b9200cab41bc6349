import CodeContext.Files.Tree

/-!
# A cache of index results

Results are kept by the path that they are for, seen from the root with links resolved where the path
leads somewhere. Paths with the same components share a result. A result is fresh until its lifetime
has passed since it was stored. Of a call to `index`, looking up, dropping what is stale, purging and
inserting are steps of their own, so that calls that overlap can be taken apart into them.
-/

namespace CodeContext

/-- A result and the time when it was stored. -/
structure Stored (α : Type) where
  value : α
  time : Nat

/-- What a result is kept by. -/
abbrev CacheKey := List Path.Component

/-- The times that a call to `index` reads from the clock: when the result there is was looked at, when a
stale one was looked at again to drop it, when a new one was there, and when each result was looked at
to purge it. -/
structure Readings where
  asked : Nat
  dropped : Nat
  made : Nat
  purged : CacheKey → Nat

/-- The readings of a clock that stands still but while a result is made. -/
def Readings.around (asked made : Nat) : Readings :=
  ⟨asked, asked, made, fun _ => made⟩

/-- Results that are kept, with their lifetime. Each key has at most one. -/
structure Cache (α : Type) where
  lifetime : Nat
  entries : List (CacheKey × Stored α)
  distinct : entries.Pairwise fun a b => a.1 ≠ b.1

namespace CacheKey

/-- The key of a path. -/
def ofPath (t : FileTree) (path : String) : CacheKey :=
  Path.components (t.absolute path)

end CacheKey

namespace Cache

variable {α : Type}

def empty (lifetime : Nat) : Cache α :=
  ⟨lifetime, [], List.Pairwise.nil⟩

def size (c : Cache α) : Nat :=
  c.entries.length

def isEmpty (c : Cache α) : Bool :=
  c.entries.isEmpty

def get? (c : Cache α) (key : CacheKey) : Option (Stored α) :=
  c.entries.lookup key

/-- Whether a result is within its lifetime. -/
def isFresh (c : Cache α) (now : Nat) (s : Stored α) : Bool :=
  now - s.time < c.lifetime

/-- The cache with the results that pass a test. -/
def retain (c : Cache α) (keep : CacheKey → Stored α → Bool) : Cache α where
  lifetime := c.lifetime
  entries := c.entries.filter fun e => keep e.1 e.2
  distinct := c.distinct.filter _

/-- The cache without the result for a key. -/
def erase (c : Cache α) (key : CacheKey) : Cache α :=
  c.retain fun k _ => k != key

/-- The cache without the result for a key, unless it is fresh. -/
def dropStale (c : Cache α) (now : Nat) (key : CacheKey) : Cache α :=
  c.retain fun k s => k != key || c.isFresh now s

/-- The cache with its fresh results, each looked at in its time. -/
def purge (c : Cache α) (now : CacheKey → Nat) : Cache α :=
  c.retain fun k s => c.isFresh (now k) s

def clear (c : Cache α) : Cache α :=
  empty c.lifetime

/-- The cache with a result for a key, in place of the one there was. -/
def insert (c : Cache α) (key : CacheKey) (s : Stored α) : Cache α where
  lifetime := c.lifetime
  entries := (key, s) :: (c.erase key).entries
  distinct := by
    refine List.pairwise_cons.2 ⟨fun e he => ?_, (c.erase key).distinct⟩
    have h := (List.mem_filter.1 he).2
    intro hk
    simp [← hk] at h

/-- The fresh result for a key. A stale one is dropped if it still is when it is looked at again. -/
def lookup (c : Cache α) (asked dropped : Nat) (key : CacheKey) : Option α × Cache α :=
  match c.get? key with
  | none => (none, c)
  | some s => if c.isFresh asked s then (some s.value, c) else (none, c.dropStale dropped key)

/-- The result for a path, kept or newly made, with all that making it does. A new one is made from the
path seen from the root. -/
def indexWith {m : Type → Type} [Monad m] (c : Cache α) (t : FileTree) (r : Readings)
    (make : String → m α) (path : String) : m (α × Cache α) :=
  let key := CacheKey.ofPath t path
  match c.lookup r.asked r.dropped key with
  | (some value, c) => pure (value, c)
  | (none, c) => do
    let value ← make (t.absolute path)
    pure (value, (c.purge r.purged).insert key ⟨value, r.made⟩)

/-- The result for a path, kept or newly made by a function. `asked` is the time of the look-up and
`made` the time when a new result is there. -/
def index (c : Cache α) (t : FileTree) (asked made : Nat) (make : String → α) (path : String) :
    α × Cache α :=
  Id.run (c.indexWith t (.around asked made) (fun p => pure (make p)) path)

/-- The cache without the result for a path, and whether there was one. -/
def invalidate (c : Cache α) (t : FileTree) (path : String) : Bool × Cache α :=
  let key := CacheKey.ofPath t path
  ((c.get? key).isSome, c.erase key)

/-- How many results are stale, each looked at in its time, and the cache without them. -/
def purgeStale (c : Cache α) (now : CacheKey → Nat) : Nat × Cache α :=
  let kept := c.purge now
  (c.size - kept.size, kept)

/-- How many results are stale at a time, and the cache without them. -/
def purgeExpired (c : Cache α) (now : Nat) : Nat × Cache α :=
  c.purgeStale fun _ => now

end Cache

end CodeContext
