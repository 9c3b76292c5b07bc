import Mathlib.Data.List.Perm.Subperm
import TextHarvest.Catalog

/-!
# Looking texts up in catalogs

What each operation on a catalog does to the text of a key. A catalog is seen through `get?`
throughout; that its keys are distinct makes an entry and its text under `get?` the same thing
(`get?_eq_some_iff_mem`).

Main results:

* `get?_insertAll_of_agree` — entries that agree on the text of a key file that text.
* `get?_merge` — the text of a key after a merge is that of the merged catalog, if it has one.
* `get?_ofList` — the text of a key is the one that was filed last.
* `keys_insertAll` — filing entries puts the keys that are new behind the others.
* `sameTexts_iff` — catalogs have the same texts just when they answer alike.
-/

namespace TextHarvest

/-- A look-up passes over an entry of another key. -/
theorem lookup_cons_of_ne {α β : Type} [BEq α] [LawfulBEq α] {k : α} {e : α × β}
    (es : List (α × β)) (h : k ≠ e.1) : (e :: es).lookup k = es.lookup k := by
  rw [List.lookup_cons, beq_false_of_ne h]

/-- A key that is filed has its text, and the others keep theirs. -/
theorem lookup_fileEntry (key text k : String) (es : List (String × String)) :
    (fileEntry key text es).lookup k = if k = key then some text else es.lookup k := by
  induction es with
  | nil =>
    by_cases hk : k = key
    · simp [fileEntry, hk]
    · rw [fileEntry, lookup_cons_of_ne [] hk, if_neg hk]
  | cons e es ih =>
    -- either the first entry is the one that is replaced, or the entry is filed behind it
    by_cases he : e.1 = key
    · rw [fileEntry, if_pos he]
      by_cases hk : k = key
      · simp [hk]
      · rw [lookup_cons_of_ne es hk, if_neg hk, lookup_cons_of_ne es (he ▸ hk)]
    · rw [fileEntry, if_neg he]
      by_cases hke : k = e.1
      · rw [if_neg (hke ▸ he), hke, List.lookup_cons_self, List.lookup_cons_self]
      · rw [lookup_cons_of_ne _ hke, ih, lookup_cons_of_ne es hke]

/-- In a list with distinct keys an entry is what a look-up finds. -/
theorem lookup_eq_some_of_mem {α β : Type} [BEq α] [LawfulBEq α] {k : α} {v : β}
    {es : List (α × β)} (hnodup : (es.map Prod.fst).Nodup) (h : (k, v) ∈ es) :
    es.lookup k = some v := by
  induction es with
  | nil => simp at h
  | cons e es ih =>
    rw [List.map_cons, List.nodup_cons] at hnodup
    rcases List.mem_cons.mp h with h | h
    · simp [← h]
    · have hne : k ≠ e.1 := by
        rintro rfl
        exact hnodup.1 (List.mem_map.mpr ⟨_, h, rfl⟩)
      rw [lookup_cons_of_ne es hne, ih hnodup.2 h]

/-- What is looked up is an entry. -/
theorem mem_of_lookup_eq_some {k v : String} {es : List (String × String)}
    (h : es.lookup k = some v) : (k, v) ∈ es := by
  induction es with
  | nil => simp at h
  | cons e es ih =>
    by_cases hk : k = e.1
    · subst hk
      rw [List.lookup_cons_self, Option.some.injEq] at h
      exact List.mem_cons.mpr (Or.inl (by rw [← h]))
    · rw [lookup_cons_of_ne es hk] at h
      exact List.mem_cons_of_mem _ (ih h)

/-- A new key goes to the end. -/
theorem fileEntry_of_not_mem {key text : String} {es : List (String × String)}
    (h : key ∉ es.map Prod.fst) : fileEntry key text es = es ++ [(key, text)] := by
  induction es with
  | nil => rfl
  | cons e es ih =>
    rw [List.map_cons, List.mem_cons, not_or] at h
    rw [fileEntry, if_neg (Ne.symm h.1), ih h.2, List.cons_append]

/-- An entry that is filed keeps the place of its key, or it is the last one. -/
theorem keys_fileEntry (key text : String) (es : List (String × String)) :
    (fileEntry key text es).map Prod.fst =
      if key ∈ es.map Prod.fst then es.map Prod.fst else es.map Prod.fst ++ [key] := by
  induction es with
  | nil => simp [fileEntry]
  | cons e es ih =>
    by_cases he : e.1 = key
    · simp [fileEntry, he]
    · simp only [fileEntry, if_neg he, List.map_cons, ih, List.mem_cons, Ne.symm he, false_or]
      split
      · rfl
      · rw [List.cons_append]

namespace Catalog

@[simp] theorem get?_empty (k : String) : empty.get? k = none := rfl

/-- An insertion changes the text of its key only. -/
theorem get?_insert (c : Catalog) (key text k : String) :
    (c.insert key text).get? k = if k = key then some text else c.get? k :=
  lookup_fileEntry key text k c.entries

/-- A key has a text just when the two are an entry. -/
theorem get?_eq_some_iff_mem {c : Catalog} {k v : String} :
    c.get? k = some v ↔ (k, v) ∈ c.entries :=
  ⟨mem_of_lookup_eq_some, lookup_eq_some_of_mem c.nodup_keys⟩

@[simp] theorem insertAll_nil (c : Catalog) : c.insertAll [] = c := rfl

@[simp] theorem insertAll_cons (c : Catalog) (e : String × String) (es : List (String × String)) :
    c.insertAll (e :: es) = (c.insert e.1 e.2).insertAll es := rfl

/-- Insertions one after the other. -/
theorem insertAll_append (c : Catalog) (es fs : List (String × String)) :
    c.insertAll (es ++ fs) = (c.insertAll es).insertAll fs :=
  List.foldl_append

/-- Filing entries leaves the texts of all other keys alone. -/
theorem get?_insertAll_of_not_mem {c : Catalog} {es : List (String × String)} {k : String}
    (h : k ∉ es.map Prod.fst) : (c.insertAll es).get? k = c.get? k := by
  induction es generalizing c with
  | nil => rfl
  | cons e es ih =>
    rw [List.map_cons, List.mem_cons, not_or] at h
    rw [insertAll_cons, ih h.2, get?_insert, if_neg h.1]

/-- A key for which all filed entries agree has their text afterwards. -/
theorem get?_insertAll_of_agree {c : Catalog} {es : List (String × String)} {k v : String}
    (hmem : (k, v) ∈ es) (hagree : ∀ w, (k, w) ∈ es → w = v) :
    (c.insertAll es).get? k = some v := by
  induction es generalizing c with
  | nil => simp at hmem
  | cons e es ih =>
    rw [insertAll_cons]
    -- a later entry of the same key decides; when there is none, this entry is the one
    by_cases hlater : k ∈ es.map Prod.fst
    · obtain ⟨f, hf, rfl⟩ := List.mem_map.mp hlater
      have hv : f.2 = v := hagree f.2 (List.mem_cons_of_mem _ hf)
      exact ih (hv ▸ hf) fun w hw => hagree w (List.mem_cons_of_mem _ hw)
    · have he : e = (k, v) := by
        rcases List.mem_cons.mp hmem with h | h
        · exact h.symm
        · exact absurd (List.mem_map.mpr ⟨_, h, rfl⟩) hlater
      rw [get?_insertAll_of_not_mem hlater, he, get?_insert, if_pos rfl]

/-- Filing entries with new and distinct keys puts them behind those that are there. -/
theorem entries_insertAll_of_nodup {c : Catalog} {es : List (String × String)}
    (h : ((c.entries ++ es).map Prod.fst).Nodup) :
    (c.insertAll es).entries = c.entries ++ es := by
  induction es generalizing c with
  | nil => simp
  | cons e es ih =>
    have hfresh : e.1 ∉ c.entries.map Prod.fst := by
      rw [List.map_append, List.nodup_append] at h
      exact fun hmem => h.2.2 e.1 hmem e.1 (by simp) rfl
    have hentries : (c.insert e.1 e.2).entries = c.entries ++ [e] := fileEntry_of_not_mem hfresh
    rw [insertAll_cons, ih (by rw [hentries]; simpa using h), hentries]
    simp

/-- The entries of a catalog make up the catalog. -/
theorem ofList_entries (c : Catalog) : ofList c.entries = c := by
  apply ext_entries
  exact entries_insertAll_of_nodup c.nodup_keys

/-- What is filed last counts: the entries of a list come before what was there. -/
theorem get?_insertAll (c : Catalog) (es : List (String × String)) (k : String) :
    (c.insertAll es).get? k = ((ofList es).get? k).or (c.get? k) := by
  induction es generalizing c with
  | nil => simp [ofList]
  | cons e es ih =>
    rw [ofList, insertAll_cons, insertAll_cons, ih, ih (empty.insert e.1 e.2), get?_insert,
      get?_insert, Option.or_assoc]
    by_cases hk : k = e.1
    · simp [hk]
    · simp [hk]

/-- A key that was filed has a text. -/
theorem exists_get?_ofList {es : List (String × String)} {k v : String} (h : (k, v) ∈ es) :
    ∃ w, (ofList es).get? k = some w := by
  induction es with
  | nil => cases h
  | cons e es ih =>
    rw [ofList, insertAll_cons, get?_insertAll, get?_insert]
    rcases List.mem_cons.mp h with rfl | h
    · cases (ofList es).get? k with
      | none => exact ⟨v, by simp⟩
      | some w => exact ⟨w, rfl⟩
    · obtain ⟨w, hw⟩ := ih h
      exact ⟨w, by rw [hw, Option.some_or]⟩

/-- The second catalog comes first. -/
theorem get?_merge (c d : Catalog) (k : String) :
    (c.merge d).get? k = (d.get? k).or (c.get? k) := by
  rw [merge, get?_insertAll, ofList_entries]

/-- Catalogs with the same texts answer alike for the keys of the first. -/
theorem get?_eq_some_of_sameTexts {c d : Catalog} {k v : String} (hsame : c.sameTexts d = true)
    (h : c.get? k = some v) : d.get? k = some v := by
  rw [sameTexts, Bool.and_eq_true, List.all_eq_true] at hsame
  have hentry := hsame.2 (k, v) (get?_eq_some_iff_mem.mp h)
  exact beq_iff_eq.mp hentry

/-- What is left of a catalog are the entries that pass. -/
theorem get?_filter (c : Catalog) (p : String → String → Bool) {k v : String} :
    (c.filter p).get? k = some v ↔ c.get? k = some v ∧ p k v = true := by
  rw [get?_eq_some_iff_mem, get?_eq_some_iff_mem, filter, List.mem_filter]

/-! ## Catalogs of lists of entries -/

/-- A catalog answers as some entries do when they are filed in order. -/
def Answers (c : Catalog) (es : List (String × String)) : Prop :=
  ∀ k, c.get? k = (ofList es).get? k

/-- A catalog answers as the list that it was made of. -/
theorem answers_ofList (es : List (String × String)) : (ofList es).Answers es :=
  fun _ => rfl

/-- An empty catalog answers as no entries. -/
theorem answers_empty : empty.Answers [] :=
  fun _ => rfl

/-- Entries further behind come first. -/
theorem get?_ofList_append (es fs : List (String × String)) (k : String) :
    (ofList (es ++ fs)).get? k = ((ofList fs).get? k).or ((ofList es).get? k) := by
  rw [ofList, insertAll_append, get?_insertAll, ← ofList]

/-- A merge answers as the entries of both parts. -/
theorem Answers.merge {c d : Catalog} {es fs : List (String × String)} (hc : c.Answers es)
    (hd : d.Answers fs) : (c.merge d).Answers (es ++ fs) := by
  intro k
  rw [get?_merge, hc k, hd k, get?_ofList_append]

/-- Entries may be filed group by group: what a group comes to stands for the group. -/
theorem answers_ofList_flatMap {α : Type} (f : α → List (String × String)) (l : List α) :
    (ofList (l.flatMap fun a => (ofList (f a)).entries)).Answers (l.flatMap f) := by
  induction l with
  | nil => exact answers_empty
  | cons a l ih =>
    intro k
    rw [List.flatMap_cons, List.flatMap_cons, get?_ofList_append, get?_ofList_append, ih k,
      ofList_entries]

/-- When the filed texts of a key agree, a catalog that answers as they do has that text. -/
theorem Answers.get?_eq_some {c : Catalog} {es : List (String × String)} {k v : String}
    (hc : c.Answers es) (hmem : (k, v) ∈ es) (hagree : ∀ w, (k, w) ∈ es → w = v) :
    c.get? k = some v := by
  rw [hc k]
  exact get?_insertAll_of_agree hmem hagree

/-- A catalog that is not empty has an entry. -/
theorem isEmpty_eq_false_iff {c : Catalog} :
    c.isEmpty = false ↔ ∃ k v, c.get? k = some v := by
  simp only [isEmpty, get?_eq_some_iff_mem, List.isEmpty_eq_false_iff]
  constructor
  · intro hne
    obtain ⟨e, hmem⟩ := List.exists_mem_of_ne_nil _ hne
    exact ⟨e.1, e.2, hmem⟩
  · rintro ⟨k, v, hmem⟩
    exact List.ne_nil_of_mem hmem

/-- A catalog is empty just when it answers as no entries do. -/
theorem Answers.isEmpty_eq {c : Catalog} {es : List (String × String)} (hc : c.Answers es) :
    c.isEmpty = es.isEmpty := by
  cases es with
  | nil =>
    rw [List.isEmpty_nil, ← Bool.not_eq_false, isEmpty_eq_false_iff]
    rintro ⟨k, v, hget⟩
    rw [hc k] at hget
    cases hget
  | cons e es =>
    have hmem : (e.1, e.2) ∈ e :: es := List.mem_cons_self
    obtain ⟨w, hget⟩ := exists_get?_ofList hmem
    rw [List.isEmpty_cons, isEmpty_eq_false_iff]
    exact ⟨e.1, w, by rw [hc, hget]⟩

/-- The text of a key is the one that was filed last. -/
theorem get?_ofList (es : List (String × String)) (k : String) :
    (ofList es).get? k = es.reverse.lookup k := by
  induction es with
  | nil => rfl
  | cons e es ih =>
    rw [List.reverse_cons, List.lookup_append, ← ih, ← List.singleton_append, get?_ofList_append]
    congr 1

/-- What a catalog of one entry has for its keys. -/
theorem Answers.get?_eq_some_iff {c : Catalog} {key text : String} (hc : c.Answers [(key, text)])
    {k v : String} : c.get? k = some v ↔ k = key ∧ v = text := by
  rw [hc k, get?_ofList, List.reverse_singleton]
  by_cases hk : k = key
  · subst hk
    simp [List.lookup_cons_self, eq_comm]
  · have hne : (k == key) = false := beq_eq_false_iff_ne.mpr hk
    simp [List.lookup_cons, hne, hk]

/-! ## Keys -/

/-- A key is one that has a text. -/
theorem mem_keys_iff {c : Catalog} {k : String} : k ∈ c.keys ↔ ∃ v, c.get? k = some v := by
  simp only [get?_eq_some_iff_mem]
  constructor
  · intro hmem
    obtain ⟨e, he, rfl⟩ := List.mem_map.mp hmem
    exact ⟨e.2, he⟩
  · rintro ⟨v, hmem⟩
    exact List.mem_map.mpr ⟨(k, v), hmem, rfl⟩

/-- A catalog contains its keys. -/
theorem contains_iff {c : Catalog} {k : String} : c.contains k = true ↔ k ∈ c.keys := by
  rw [contains, Option.isSome_iff_exists, mem_keys_iff]

/-- A new key goes to the end, a known one stays where it is. -/
theorem keys_insert (c : Catalog) (key text : String) :
    (c.insert key text).keys = if key ∈ c.keys then c.keys else c.keys ++ [key] :=
  keys_fileEntry key text c.entries

/-- Filing entries with distinct keys leaves the keys that are there in their places and puts the
others behind them in order. -/
theorem keys_insertAll {c : Catalog} {es : List (String × String)}
    (h : (es.map Prod.fst).Nodup) :
    (c.insertAll es).keys = c.keys ++ (es.map Prod.fst).filter (· ∉ c.keys) := by
  induction es generalizing c with
  | nil => simp
  | cons e es ih =>
    rw [List.map_cons, List.nodup_cons] at h
    rw [insertAll_cons, ih h.2, keys_insert, List.map_cons]
    by_cases hkey : e.1 ∈ c.keys
    · rw [if_pos hkey, List.filter_cons_of_neg (by simpa using hkey)]
    · rw [if_neg hkey, List.filter_cons_of_pos (by simpa using hkey), List.append_assoc,
        List.singleton_append]
      -- the key that was just added does not come again
      have hlater : (es.map Prod.fst).filter (· ∉ c.keys ++ [e.1]) =
          (es.map Prod.fst).filter (· ∉ c.keys) := by
        apply List.filter_congr
        intro k hk
        have hne : k ≠ e.1 := by
          rintro rfl
          exact h.1 hk
        simp [hne]
      rw [hlater]

/-! ## Equal catalogs -/

/-- No key comes twice. -/
theorem keys_nodup (c : Catalog) : c.keys.Nodup :=
  c.nodup_keys

/-- A catalog is its keys in order and their texts. -/
theorem entries_eq_map_keys (c : Catalog) :
    c.entries = c.keys.map fun k => (k, (c.get? k).getD "") := by
  have hentry : ∀ e ∈ c.entries, ((fun k => (k, (c.get? k).getD "")) ∘ Prod.fst) e = e := by
    intro e he
    have hget : c.get? e.1 = some e.2 := get?_eq_some_iff_mem.mpr he
    simp [hget]
  rw [keys, List.map_map, List.map_congr_left hentry, List.map_id']

/-- Catalogs with the same keys in the same order and the same texts are equal. -/
theorem eq_of_keys_eq {c d : Catalog} (hkeys : c.keys = d.keys)
    (hget : ∀ k, c.get? k = d.get? k) : c = d := by
  apply ext_entries
  rw [entries_eq_map_keys, entries_eq_map_keys d, hkeys]
  simp only [hget]

/-- A key without a text is none. -/
theorem get?_eq_none_iff {c : Catalog} {k : String} : c.get? k = none ↔ k ∉ c.keys := by
  rw [mem_keys_iff, Option.eq_none_iff_forall_ne_some, not_exists]

/-- Catalogs with the same texts have the same keys. -/
theorem mem_keys_iff_of_get?_eq {c d : Catalog} (hget : ∀ k, c.get? k = d.get? k) (k : String) :
    k ∈ c.keys ↔ k ∈ d.keys := by
  rw [mem_keys_iff, mem_keys_iff, hget]

/-- A catalog has as many entries as keys. -/
theorem size_eq_length_keys (c : Catalog) : c.size = c.keys.length := by
  rw [keys, List.length_map, size]

/-- Two catalogs have the same texts just when they answer alike. -/
theorem sameTexts_iff {c d : Catalog} : c.sameTexts d = true ↔ ∀ k, c.get? k = d.get? k := by
  constructor
  · intro hsame k
    cases hc : c.get? k with
    | some v => exact (get?_eq_some_of_sameTexts hsame hc).symm
    | none =>
      -- the keys of the first are as many as those of the second, and among them
      have hsub : c.keys ⊆ d.keys := by
        intro k' hk'
        obtain ⟨v, hv⟩ := mem_keys_iff.mp hk'
        exact mem_keys_iff.mpr ⟨v, get?_eq_some_of_sameTexts hsame hv⟩
      have hsize : d.keys.length ≤ c.keys.length := by
        rw [sameTexts, Bool.and_eq_true, beq_iff_eq, size_eq_length_keys,
          size_eq_length_keys] at hsame
        exact Nat.le_of_eq hsame.1.symm
      have hperm := (List.subperm_of_subset c.keys_nodup hsub).perm_of_length_le hsize
      symm
      rw [get?_eq_none_iff, ← hperm.mem_iff, ← get?_eq_none_iff]
      exact hc
  · intro hget
    have hperm : c.keys.Perm d.keys :=
      (List.perm_ext_iff_of_nodup c.keys_nodup d.keys_nodup).mpr (mem_keys_iff_of_get?_eq hget)
    rw [sameTexts, Bool.and_eq_true, List.all_eq_true, beq_iff_eq, size_eq_length_keys,
      size_eq_length_keys, hperm.length_eq]
    refine ⟨rfl, ?_⟩
    intro e he
    rw [beq_iff_eq, ← hget]
    exact get?_eq_some_iff_mem.mpr he

end Catalog

end TextHarvest
