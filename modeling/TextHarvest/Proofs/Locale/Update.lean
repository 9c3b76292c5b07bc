import TextHarvest.Proofs.Except
import TextHarvest.Proofs.Locale.Spelled

/-!
# The record of the sources is brought up to date

The record of the sources takes in what was found. Its keys stay in their order and new keys come
behind them in theirs; what was found replaces the texts that were there. Where the record only
grows all its other entries stay, otherwise they go. The file is written when its texts change or
when there is none, and left alone otherwise. In either case it reads back as the new record, in
order, so that bringing it up to date once more changes nothing.

* `keys_updated`, `get?_updated` — the keys of the new record in order, and its texts.
* `updated_eq_of_sameTexts` — where the texts do not change, neither does the order.
* `updated_updated` — once is enough.

Main result: `writeSource_upToDate`.
-/

namespace TextHarvest

namespace Locale

variable {old found : Catalog} {additive : Bool}

/-! ## The new record -/

/-- Pruning keeps the entries whose key is in the source. -/
theorem entries_prune (source target : Catalog) :
    (prune source target).entries = target.entries.filter (·.1 ∈ source.keys) := by
  apply List.filter_congr
  intro e _
  rw [Bool.eq_iff_iff, Catalog.contains_iff, decide_eq_true_eq]

/-- And their keys in the same order. -/
theorem keys_prune (source target : Catalog) :
    (prune source target).keys = target.keys.filter (· ∈ source.keys) := by
  have hkeys : target.keys.filter (· ∈ source.keys) =
      (target.entries.filter (·.1 ∈ source.keys)).map Prod.fst := List.filter_map
  rw [hkeys, ← entries_prune, Catalog.keys]

/-- The keys of the new record: those of the old one that stay, and those that were found and are
new. -/
theorem keys_updated (old found : Catalog) (additive : Bool) :
    (updated old found additive).keys =
      (if additive then old.keys else old.keys.filter (· ∈ found.keys)) ++
        found.keys.filter (· ∉ old.keys) := by
  rw [updated, Catalog.merge, Catalog.keys_insertAll found.nodup_keys]
  cases additive with
  | true => rfl
  | false =>
    simp only [Bool.false_eq_true, if_false, keys_prune]
    congr 1
    -- a key that was found is in the pruned record when it is in the old one
    apply List.filter_congr
    intro k hk
    have hfound : k ∈ found.keys := hk
    simp [hfound]

theorem get?_prune_of_get?_eq_none {source target : Catalog} {k : String}
    (h : source.get? k = none) : (prune source target).get? k = none := by
  rw [Catalog.get?_eq_none_iff, keys_prune]
  intro hmem
  exact Catalog.get?_eq_none_iff.mp h (by simpa using (List.mem_filter.mp hmem).2)

/-- What was found counts, and where nothing was found what was there, if it stays. -/
theorem get?_updated (old found : Catalog) (additive : Bool) (k : String) :
    (updated old found additive).get? k =
      (found.get? k).or (if additive then old.get? k else none) := by
  rw [updated, Catalog.get?_merge]
  cases hfound : found.get? k with
  | some v => rfl
  | none =>
    cases additive with
    | true => rfl
    | false => simp [get?_prune_of_get?_eq_none hfound]

/-- Where the texts stay the same, nothing was found that is new, and all that was there stays. -/
theorem updated_eq_of_sameTexts (h : (updated old found additive).sameTexts old = true) :
    updated old found additive = old := by
  have hget := Catalog.sameTexts_iff.mp h
  have hkeys := keys_updated old found additive
  have hmem := Catalog.mem_keys_iff_of_get?_eq hget
  -- no key is new, for every found key has a text in the update
  have hnew : found.keys.filter (· ∉ old.keys) = [] := by
    rw [List.filter_eq_nil_iff]
    intro k hk
    have hin : k ∈ (updated old found additive).keys := by
      obtain ⟨v, hv⟩ := Catalog.mem_keys_iff.mp hk
      exact Catalog.mem_keys_iff.mpr ⟨v, by rw [get?_updated, hv, Option.some_or]⟩
    simpa using (hmem k).mp hin
  refine Catalog.eq_of_keys_eq ?_ hget
  rw [hnew, List.append_nil] at hkeys
  cases additive with
  | true => simpa using hkeys
  | false =>
    rw [if_neg Bool.false_ne_true] at hkeys
    rw [hkeys, List.filter_eq_self]
    intro k hk
    have hin := (hmem k).mpr hk
    rw [hkeys] at hin
    exact (List.mem_filter.mp hin).2

/-- A record that is up to date stays so. -/
theorem updated_updated (old found : Catalog) (additive : Bool) :
    updated (updated old found additive) found additive = updated old found additive := by
  apply updated_eq_of_sameTexts
  rw [Catalog.sameTexts_iff]
  intro k
  simp only [get?_updated]
  cases found.get? k with
  | some v => rfl
  | none => cases additive <;> rfl

/-! ## The file -/

variable {t u : FileTree} {path : String} {w : Written}

/-- What bringing a record up to date does: it is written, or it is left alone. -/
theorem writeSource_cases (hold : readOrEmpty t path = old)
    (h : writeSource t path found additive = (u, .ok w)) :
    w.data = updated old found additive ∧ w.hasDiff = !(updated old found additive).sameTexts old ∧
      ((w.hasDiff = true ∨ t.pathExists path = false) ∧ write t path w.data = (u, none) ∨
        (w.hasDiff = false ∧ t.pathExists path = true) ∧ u = t) := by
  simp only [writeSource, hold] at h
  split at h
  · rename_i hwrites
    split at h
    · rename_i hwrite
      cases h
      exact ⟨rfl, rfl, Or.inl ⟨by simpa using hwrites, hwrite⟩⟩
    · cases h
  · rename_i hleft
    cases h
    exact ⟨rfl, rfl, Or.inr ⟨by simpa using hleft, rfl⟩⟩

/-- A record that is there and up to date is left alone. -/
theorem writeSource_of_upToDate (hread : read t path = .ok old)
    (hexists : t.pathExists path = true) (hsame : updated old found additive = old) :
    writeSource t path found additive = (t, .ok ⟨false, old⟩) := by
  have hold : readOrEmpty t path = old := by
    rw [readOrEmpty, hread]
  have htexts : old.sameTexts old = true := Catalog.sameTexts_iff.mpr fun _ => rfl
  simp [writeSource, hold, hsame, htexts, hexists]

/-- What bringing a record up to date comes to: the entries of the new record, what became of its
file, and that it is up to date from then on. -/
structure BroughtUpToDate (t u : FileTree) (path : String) (old found : Catalog) (additive : Bool)
    (w : Written) : Prop where
  mem_keys_iff : ∀ k, k ∈ w.data.keys ↔ k ∈ found.keys ∨ additive = true ∧ k ∈ old.keys
  /-- Old keys that stay come first in their order, then the new ones in theirs. -/
  keys_eq : w.data.keys = old.keys.filter (· ∈ w.data.keys) ++ found.keys.filter (· ∉ old.keys)
  texts_found : ∀ k ∈ found.keys, w.data.get? k = found.get? k
  texts_old : ∀ k ∈ w.data.keys, k ∉ found.keys → w.data.get? k = old.get? k
  hasDiff_iff : w.hasDiff = true ↔ ∃ k, w.data.get? k ≠ old.get? k
  written : w.hasDiff = true ∨ t.pathExists path = false → write t path w.data = (u, none)
  left : ¬(w.hasDiff = true ∨ t.pathExists path = false) → u = t
  /-- The file that is left alone reads as the new record too. -/
  reads_back : ∃ c, read u path = .ok c ∧ c.entries = w.data.entries
  again : ∃ w', writeSource u path found additive = (u, .ok w') ∧ w'.hasDiff = false

/-- A file that spells a catalog is read as it. -/
theorem read_of_spells {c : Catalog} (hspells : Spells (t.lookup? path) c)
    (hexists : t.pathExists path = true) : read t path = .ok c := by
  rw [FileTree.pathExists] at hexists
  generalize hentry : t.lookup? path = entry at hspells hexists
  cases hspells with
  | missing => cases hexists
  | object hparse hfields =>
    simp [read, FileTree.readText?, hentry, decode_object hparse hfields path]

/-- However the new record came to be in the file, the file is there and reads back as it. -/
theorem read_of_writeSource (hspells : Spells (t.lookup? path) old)
    (h : writeSource t path found additive = (u, .ok w)) :
    read u path = .ok w.data ∧ u.pathExists path = true := by
  obtain ⟨hdata, hdiff, ⟨-, hwrite⟩ | ⟨⟨hsame, hexists⟩, rfl⟩⟩ :=
    writeSource_cases hspells.readOrEmpty_eq h
  · refine ⟨read_of_write hwrite, ?_⟩
    rw [FileTree.pathExists, (lookup?_of_write hwrite).1]
    rfl
  · -- the texts are those that the file had, and so is their order
    have htexts : (updated old found additive).sameTexts old = true := by
      simpa [hsame] using hdiff
    rw [hdata, updated_eq_of_sameTexts htexts]
    exact ⟨read_of_spells hspells hexists, hexists⟩

/-- The record of the sources, missing or an object of texts, is brought up to date by what was
found. -/
theorem writeSource_upToDate (hspells : Spells (t.lookup? path) old)
    (h : writeSource t path found additive = (u, .ok w)) :
    BroughtUpToDate t u path old found additive w := by
  obtain ⟨hdata, hdiff, hfile⟩ := writeSource_cases hspells.readOrEmpty_eq h
  obtain ⟨hread, hexists⟩ := read_of_writeSource hspells h
  -- which keys are on record now: nearly all else follows from it
  have hmem : ∀ k, k ∈ w.data.keys ↔ k ∈ found.keys ∨ additive = true ∧ k ∈ old.keys := by
    intro k
    rw [hdata, keys_updated]
    by_cases hfound : k ∈ found.keys <;> cases additive <;> simp [hfound, em]
  constructor
  case mem_keys_iff => exact hmem
  case keys_eq =>
    have hstay : old.keys.filter (· ∈ w.data.keys) =
        if additive then old.keys else old.keys.filter (· ∈ found.keys) := by
      cases additive with
      | true =>
        rw [if_pos rfl, List.filter_eq_self]
        intro k hk
        simp [hmem, hk]
      | false => simp [hmem]
    rw [hstay, hdata, keys_updated]
  case texts_found =>
    intro k hk
    obtain ⟨v, hv⟩ := Catalog.mem_keys_iff.mp hk
    rw [hdata, get?_updated, hv, Option.some_or]
  case texts_old =>
    intro k hk hfound
    have hstays : additive = true := by
      rcases (hmem k).mp hk with h | ⟨h, -⟩
      · exact absurd h hfound
      · exact h
    rw [hdata, get?_updated, Catalog.get?_eq_none_iff.mpr hfound, Option.none_or, if_pos hstays]
  case hasDiff_iff =>
    rw [hdiff, hdata, Bool.not_eq_true', ← Bool.not_eq_true, Catalog.sameTexts_iff, not_forall]
  case written =>
    intro hchanged
    rcases hfile with ⟨-, hwrite⟩ | ⟨⟨hsame, hthere⟩, -⟩
    · exact hwrite
    · simp [hsame, hthere] at hchanged
  case left =>
    intro hsame
    rcases hfile with ⟨hchanged, -⟩ | ⟨-, hleft⟩
    · exact absurd hchanged hsame
    · exact hleft
  case reads_back => exact ⟨w.data, hread, rfl⟩
  case again =>
    refine ⟨⟨false, w.data⟩, writeSource_of_upToDate hread hexists ?_, rfl⟩
    rw [hdata, updated_updated]

/-- A record with an entry that is found again, one that is not, and one with another text. -/
def staleRecord : Catalog :=
  ⟨[("b", "乙"), ("c", "旧"), ("a", "甲")], by decide⟩

/-- What is found: a new entry in front of the others. -/
def foundTexts : Catalog :=
  ⟨[("d", "丁"), ("a", "甲"), ("c", "丙")], by decide⟩

def recordTree : FileTree :=
  ⟨[(["i18n"], .directory), (["i18n", "zh.json"], .file (.text (encode staleRecord)))]⟩

theorem writeSource_upToDate_stale :
    ∃ w, BroughtUpToDate recordTree (writeSource recordTree "/i18n/zh.json" foundTexts false).1
        "/i18n/zh.json" staleRecord foundTexts false w ∧
      w.hasDiff = true ∧ w.data.entries = [("c", "丙"), ("a", "甲"), ("d", "丁")] := by
  have hspells : Spells (recordTree.lookup? "/i18n/zh.json") staleRecord := by
    have hentry : recordTree.lookup? "/i18n/zh.json" =
        some (.file (.text (encode staleRecord))) := by
      decide +kernel
    rw [hentry]
    exact spells_encode staleRecord
  have hdone :
      (writeSource recordTree "/i18n/zh.json" foundTexts false).2.toOption.isSome = true := by
    decide +kernel
  obtain ⟨w, hw⟩ := Option.isSome_iff_exists.mp hdone
  have hwritten := eq_mk_ok_of_toOption hw
  obtain ⟨hdata, hdiff, -⟩ := writeSource_cases hspells.readOrEmpty_eq hwritten
  -- the stale record is changed, so there is a difference and the new data is what was found
  refine ⟨w, writeSource_upToDate hspells hwritten, ?_, ?_⟩
  · rw [hdiff]
    decide +kernel
  · rw [hdata]
    decide +kernel

end Locale

end TextHarvest
