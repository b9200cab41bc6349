/-!
# Sets and maps of texts

A set of texts lists its members, and a map from texts lists its entries, in the order of the texts,
each once. Texts are ordered by their characters, which is the order of their UTF-8 bytes.
-/

namespace CodeContext

/-- Puts an entry at its place by key. An entry that has the key already is replaced. -/
def putEntry {α : Type} (key : String) (value : α) : List (String × α) → List (String × α)
  | [] => [(key, value)]
  | (k, v) :: rest =>
    if key < k then (key, value) :: (k, v) :: rest
    else if key = k then (key, value) :: rest
    else (k, v) :: putEntry key value rest

theorem mem_putEntry {α : Type} {key : String} {value : α} {entries : List (String × α)} {e : String × α}
    (h : e ∈ putEntry key value entries) : e = (key, value) ∨ e ∈ entries := by
  induction entries with
  | nil => simpa [putEntry] using h
  | cons head rest ih =>
    obtain ⟨k, v⟩ := head
    rw [putEntry] at h
    split at h
    · simpa using h
    · split at h
      · rcases List.mem_cons.1 h with h | h
        · exact .inl h
        · exact .inr (List.mem_cons_of_mem _ h)
      · rcases List.mem_cons.1 h with h | h
        · exact .inr (h ▸ List.mem_cons_self)
        · exact (ih h).imp_right (List.mem_cons_of_mem _)

theorem sorted_putEntry {α : Type} (key : String) (value : α) {entries : List (String × α)}
    (h : entries.Pairwise fun a b => a.1 < b.1) :
    (putEntry key value entries).Pairwise fun a b => a.1 < b.1 := by
  induction entries with
  | nil => simp [putEntry]
  | cons head rest ih =>
    obtain ⟨k, v⟩ := head
    obtain ⟨hk, hrest⟩ := List.pairwise_cons.1 h
    rw [putEntry]
    split
    · rename_i hlt
      refine List.pairwise_cons.2 ⟨fun e he => ?_, h⟩
      rcases List.mem_cons.1 he with he | he
      · exact he ▸ hlt
      · exact String.lt_trans hlt (hk e he)
    · split
      · rename_i heq
        exact List.pairwise_cons.2 ⟨heq ▸ hk, hrest⟩
      · rename_i hlt hne
        refine List.pairwise_cons.2 ⟨fun e he => ?_, ih hrest⟩
        rcases mem_putEntry he with he | he
        · subst he
          rcases Std.lt_trichotomy key k with h | h | h
          · exact absurd h hlt
          · exact absurd h hne
          · exact h
        · exact hk e he

/-- A map from texts, its entries in the order of their keys. -/
structure TextMap (α : Type) where
  entries : List (String × α)
  sorted : entries.Pairwise fun a b => a.1 < b.1

namespace TextMap

variable {α : Type}

def empty : TextMap α :=
  ⟨[], List.Pairwise.nil⟩

def insert (key : String) (value : α) (m : TextMap α) : TextMap α :=
  ⟨putEntry key value m.entries, sorted_putEntry key value m.sorted⟩

/-- The map with the given entries. Of entries with one key, the last counts. -/
def ofList (entries : List (String × α)) : TextMap α :=
  entries.foldl (fun m e => m.insert e.1 e.2) empty

def isEmpty (m : TextMap α) : Bool :=
  m.entries.isEmpty

def keys (m : TextMap α) : List String :=
  m.entries.map Prod.fst

end TextMap

/-- A set of texts: a map that holds nothing beside its keys. -/
structure TextSet where
  map : TextMap Unit

namespace TextSet

def empty : TextSet :=
  ⟨.empty⟩

def insert (item : String) (s : TextSet) : TextSet :=
  ⟨s.map.insert item ()⟩

def ofList (items : List String) : TextSet :=
  items.foldl (fun s item => s.insert item) empty

/-- The members in order. -/
def toList (s : TextSet) : List String :=
  s.map.keys

def isEmpty (s : TextSet) : Bool :=
  s.map.isEmpty

end TextSet

end CodeContext
