/-!
# Catalogs

A catalog files texts under keys and remembers the order in which the keys came in. Filing a text
under a key that is already there replaces the text and keeps the key's place.
-/

namespace TextHarvest

/-- Replaces the text of a key that is present, or adds the entry at the end. -/
def fileEntry (key text : String) : List (String × String) → List (String × String)
  | [] => [(key, text)]
  | e :: es => if e.1 = key then (key, text) :: es else e :: fileEntry key text es

theorem mem_keys_fileEntry {key text k : String} {es : List (String × String)} :
    k ∈ (fileEntry key text es).map Prod.fst ↔ k = key ∨ k ∈ es.map Prod.fst := by
  induction es with
  | nil => simp [fileEntry]
  | cons e es ih =>
    by_cases h : e.1 = key
    · subst h; simp [fileEntry]
    · simp only [fileEntry, if_neg h, List.map_cons, List.mem_cons, ih]
      constructor
      · rintro (h1 | h1 | h1) <;> simp [h1]
      · rintro (h1 | h1 | h1) <;> simp [h1]

theorem nodup_keys_fileEntry {key text : String} {es : List (String × String)}
    (h : (es.map Prod.fst).Nodup) : ((fileEntry key text es).map Prod.fst).Nodup := by
  induction es with
  | nil => simp [fileEntry]
  | cons e es ih =>
    rw [List.map_cons, List.nodup_cons] at h
    by_cases he : e.1 = key
    · subst he; simpa [fileEntry] using h
    · rw [fileEntry, if_neg he, List.map_cons, List.nodup_cons]
      refine ⟨?_, ih h.2⟩
      rw [mem_keys_fileEntry]
      rintro (h1 | h1)
      · exact he h1
      · exact h.1 h1

/-- Texts under distinct keys, in order of arrival. -/
structure Catalog where
  entries : List (String × String)
  nodup_keys : (entries.map Prod.fst).Nodup

namespace Catalog

/-- The catalog with no entries. -/
def empty : Catalog :=
  ⟨[], List.nodup_nil⟩

instance : Inhabited Catalog := ⟨empty⟩

/-- The keys in order. -/
def keys (c : Catalog) : List String :=
  c.entries.map Prod.fst

/-- Files a text under a key. -/
def insert (c : Catalog) (key text : String) : Catalog :=
  ⟨fileEntry key text c.entries, nodup_keys_fileEntry c.nodup_keys⟩

/-- The text of a key. -/
def get? (c : Catalog) (key : String) : Option String :=
  c.entries.lookup key

/-- Whether a key is present. -/
def contains (c : Catalog) (key : String) : Bool :=
  (c.get? key).isSome

def isEmpty (c : Catalog) : Bool :=
  c.entries.isEmpty

def size (c : Catalog) : Nat :=
  c.entries.length

/-- Files a list of entries in order. -/
def insertAll (c : Catalog) (es : List (String × String)) : Catalog :=
  es.foldl (fun c e => c.insert e.1 e.2) c

/-- The catalog of a list of entries: a repeated key keeps its first place and takes its last
text. -/
def ofList (es : List (String × String)) : Catalog :=
  empty.insertAll es

/-- Files all entries of another catalog. -/
def merge (c d : Catalog) : Catalog :=
  c.insertAll d.entries

/-- Keeps the entries whose key and text pass a test. -/
def filter (c : Catalog) (p : String → String → Bool) : Catalog where
  entries := c.entries.filter fun e => p e.1 e.2
  nodup_keys := (List.filter_sublist.map Prod.fst).nodup c.nodup_keys

/-- Whether two catalogs give the same text to every key, whatever their order. -/
def sameTexts (c d : Catalog) : Bool :=
  c.size == d.size && c.entries.all fun e => d.get? e.1 == some e.2

theorem ext_entries {c d : Catalog} (h : c.entries = d.entries) : c = d := by
  cases c; cases d; cases h; rfl

end Catalog

end TextHarvest
