import TextHarvest.Proofs.Translator.Packing
import TextHarvest.Translator.Locales

/-!
# Answers stay with their texts

Texts are packed into batches, each batch is answered or fails on its own, and the answers are cut
and put back in the places of the texts. Nothing that a translator says can move a text of another
batch: a batch always gives as many texts as it was given, whatever its answer looks like.

* **Packing.** The batches are those of consecutive, non-empty groups of the texts
  (`Batch.pack_groups`).
* **Sending.** Batches are answered in order, paced or not (`answers_sendAll`).
* **Settling.** A batch comes to one text for each of its own (`length_settle`).

Main result: `Orchestra.translate_aligned`.
-/

namespace TextHarvest

namespace Batch

/-- The number of texts before a group. -/
def start (groups : List (List String)) (i : Nat) : Nat :=
  (groups.take i).flatten.length

end Batch

/-! ## Requests are answered in order -/

namespace Dispatch

variable {tr : Translator}

/-- A way to send one request: it is answered as the next one of the translator. -/
def SendsNext (tr : Translator) (send : Dispatch → Request → Dispatch × Except String String) :
    Prop :=
  ∀ d r, (send d r).2 = tr.answer d.calls.length r ∧
    (send d r).1.calls.length = d.calls.length + 1

/-- Sending at once sends the next request. -/
theorem sendsNext_sendNow : SendsNext tr (sendNow tr) := by
  intro d r
  exact ⟨rfl, by simp [sendNow]⟩

/-- So does sending at a pace. -/
theorem sendsNext_sendPaced : SendsNext tr (sendPaced tr) := by
  intro d r
  exact ⟨rfl, by simp [sendPaced, sendNow, wait]⟩

/-- Requests are answered in the order they are sent in. -/
theorem answers_sendEach {send : Dispatch → Request → Dispatch × Except String String}
    (hsend : SendsNext tr send) (d : Dispatch) (rs : List Request) :
    (sendEach send d rs).2 = rs.mapIdx fun i r => tr.answer (d.calls.length + i) r := by
  -- the answers so far stay in front of those that are still to come
  suffices hgen : ∀ (rs : List Request) (d : Dispatch) (out : List (Except String String)),
      (rs.foldl (fun (x : Dispatch × List (Except String String)) r =>
        ((send x.1 r).1, x.2 ++ [(send x.1 r).2])) (d, out)).2 =
        out ++ rs.mapIdx fun i r => tr.answer (d.calls.length + i) r by
    rw [← List.nil_append (rs.mapIdx _)]
    exact hgen rs d []
  intro rs
  induction rs with
  | nil =>
    intro d out
    simp
  | cons r rs ih =>
    intro d out
    obtain ⟨hanswer, hcalls⟩ := hsend d r
    rw [List.foldl_cons, ih, hanswer, hcalls, List.mapIdx_cons, List.append_assoc]
    simp [Nat.add_assoc, Nat.add_comm 1]

/-- Requests that are sent together are answered in order, with or without a pause. -/
theorem answers_sendAll (tr : Translator) (d : Dispatch) (rs : List Request) :
    (sendAll tr d rs).2 = rs.mapIdx fun i r => tr.answer (d.calls.length + i) r := by
  unfold sendAll
  split
  · exact answers_sendEach sendsNext_sendNow d rs
  · exact answers_sendEach sendsNext_sendPaced d rs

end Dispatch

namespace Orchestra

/-! ## What a reply comes to -/

section Replies

variable (o : Orchestra)

/-- The reply to the batch of a number. A translator may answer every request as it likes, so the
batches can have any replies and failures. -/
def reply (d : Dispatch) (fromLang toLang : String) (i : Nat) (group : List String) :
    Except String String :=
  o.translator.answer (d.calls.length + i) ⟨(Batch.ofTexts group).text, fromLang, toLang⟩

/-- The texts that an answer is cut into. -/
def pieces (lang answer : String) : List String :=
  Batch.unpack answer (o.post · lang)

/-- The text that a reply has for the text of a number in its batch: none after a failure, and none
where an answer is too short. -/
def textFor (lang : String) : Except String String → Nat → String
  | .error _, _ => ""
  | .ok answer, j => ((o.pieces lang answer)[j]?).getD ""

/-- The issues of a reply to a number of texts: one for a failure, and one for an answer with
another number of texts. -/
def issuesFor (lang : String) (count : Nat) : Except String String → List Issue
  | .error e => [.translator o.translator.name lang e]
  | .ok answer =>
    let found := (o.pieces lang answer).length
    if found = count then [] else [.mismatch lang count found]

/-- The calls of the error handler for a reply. -/
def callsFor (lang : String) : Except String String → List FailedRequest
  | .error e => [⟨o.translator.name, lang, e⟩]
  | .ok _ => []

end Replies

variable {o : Orchestra}

/-- A settled batch has a text for each of its own. -/
theorem length_settle (lang : String) (batch : Batch) (reply : Except String String) :
    (o.settle lang batch reply).texts.length = batch.count := by
  cases reply with
  | ok answer => exact Batch.length_align _ _
  | error e => exact List.length_replicate

/-- Aligned texts are the given ones, then empty ones. -/
theorem getElem?_align {texts : List String} {count j : Nat} (hj : j < count) :
    (Batch.align texts count)[j]? = some ((texts[j]?).getD "") := by
  unfold Batch.align
  by_cases hpiece : j < texts.length
  · rw [List.getElem?_append_left (by simp; omega), List.getElem?_take_of_lt hj,
      List.getElem?_eq_getElem hpiece, Option.getD_some]
  · rw [List.getElem?_append_right (by simp; omega), List.getElem?_replicate,
      List.getElem?_eq_none (by omega), if_pos (by simp; omega), Option.getD_none]

/-- Each of them comes from the reply to this batch. -/
theorem getElem?_settle {lang : String} {batch : Batch} {reply : Except String String} {j : Nat}
    (hj : j < batch.count) :
    (o.settle lang batch reply).texts[j]? = some (o.textFor lang reply j) := by
  cases reply with
  | ok answer => exact getElem?_align hj
  | error e => simp [settle, textFor, hj]

theorem issues_settle (lang : String) (batch : Batch) (reply : Except String String) :
    (o.settle lang batch reply).issues = o.issuesFor lang batch.count reply := by
  cases reply <;> rfl

theorem handled_settle (lang : String) (batch : Batch) (reply : Except String String) :
    (o.settle lang batch reply).handled = o.callsFor lang reply := by
  cases reply <;> rfl

/-! ## The run over all batches -/

section Run

variable (o : Orchestra) (d : Dispatch) (texts : List String) (fromLang toLang : String)

/-- What each group of texts comes to. -/
def settled : List Settled :=
  (Batch.groups texts o.translator.maxBatch).mapIdx fun i g =>
    o.settle toLang (Batch.ofTexts g) (o.reply d fromLang toLang i g)

/-- Translating texts puts together what their groups come to. -/
theorem translate_eq :
    (o.translate d texts fromLang toLang).texts =
        (o.settled d texts fromLang toLang).flatMap (·.texts) ∧
      (o.translate d texts fromLang toLang).issues =
        (o.settled d texts fromLang toLang).flatMap (·.issues) ∧
      (o.translate d texts fromLang toLang).handled =
        (o.settled d texts fromLang toLang).flatMap (·.handled) := by
  have hpack := (Batch.pack_groups texts o.translator.maxBatch).1
  -- each batch meets its own answer; the two lists are compared index by index
  have hsettled : ((Batch.pack texts o.translator.maxBatch).zip (d.sendAll o.translator
      ((Batch.pack texts o.translator.maxBatch).map fun b => ⟨b.text, fromLang, toLang⟩)).2).map
        (fun x => o.settle toLang x.1 x.2) = o.settled d texts fromLang toLang := by
    rw [Dispatch.answers_sendAll, hpack]
    apply List.ext_getElem?
    intro i
    cases hgroup : (Batch.groups texts o.translator.maxBatch)[i]? with
    | none => simp [settled, hgroup, List.zip_eq_zipWith, List.getElem?_zipWith]
    | some g => simp [settled, reply, hgroup, List.zip_eq_zipWith, List.getElem?_zipWith]
  unfold translate
  dsimp only
  rw [hsettled]
  exact ⟨rfl, rfl, rfl⟩

/-- Batches are settled one by one. -/
theorem map_settled {α : Type} (f : Settled → α) :
    (o.settled d texts fromLang toLang).map f =
      (Batch.groups texts o.translator.maxBatch).mapIdx fun i g =>
        f (o.settle toLang (Batch.ofTexts g) (o.reply d fromLang toLang i g)) := by
  apply List.ext_getElem?
  intro i
  simp [settled, Function.comp_def]

/-- Each group comes to as many texts as it has. -/
theorem map_length_settled :
    (o.settled d texts fromLang toLang).map (·.texts.length) =
      (Batch.groups texts o.translator.maxBatch).map List.length := by
  rw [map_settled]
  simp only [length_settle]
  apply List.ext_getElem?
  intro i
  simp [Batch.ofTexts]

/-- The texts of a group stand behind those of the groups before it. -/
theorem length_take_settled (i : Nat) :
    (((o.settled d texts fromLang toLang).take i).flatMap (·.texts)).length =
      Batch.start (Batch.groups texts o.translator.maxBatch) i := by
  rw [Batch.start, List.length_flatMap, List.length_flatten, List.map_take, List.map_take,
    map_length_settled]

end Run

/-- A member of one of the lists that are put together stands behind the lists before. -/
theorem getElem?_flatMap_of_getElem? {α β : Type} {f : α → List β} {l : List α} {a : α} {i j : Nat}
    (ha : l[i]? = some a) (hj : j < (f a).length) :
    (l.flatMap f)[((l.take i).flatMap f).length + j]? = (f a)[j]? := by
  induction l generalizing i with
  | nil => simp at ha
  | cons x l ih =>
    cases i with
    | zero =>
      obtain rfl : x = a := by simpa using ha
      simpa using List.getElem?_append_left hj
    | succ i =>
      rw [List.getElem?_cons_succ] at ha
      rw [List.take_succ_cons, List.flatMap_cons, List.flatMap_cons, List.length_append,
        Nat.add_assoc, List.getElem?_append_right (Nat.le_add_right _ _), Nat.add_sub_cancel_left]
      exact ih ha

section Results

variable (o : Orchestra) (d : Dispatch) (texts : List String) (fromLang toLang : String)

/-- There is one result for each text. -/
theorem length_texts_translate :
    (o.translate d texts fromLang toLang).texts.length = texts.length := by
  have hflat := (Batch.pack_groups texts o.translator.maxBatch).2.1
  rw [(o.translate_eq d texts fromLang toLang).1, List.length_flatMap, map_length_settled,
    ← List.length_flatten, hflat]

/-- The result for a text is what the reply to its own batch has in its place. -/
theorem getElem?_translate {i j : Nat} {g : List String}
    (hg : (Batch.groups texts o.translator.maxBatch)[i]? = some g) (hj : j < g.length) :
    (o.translate d texts fromLang toLang).texts[
        Batch.start (Batch.groups texts o.translator.maxBatch) i + j]? =
      some (o.textFor toLang (o.reply d fromLang toLang i g) j) := by
  have hsettled : (o.settled d texts fromLang toLang)[i]? =
      some (o.settle toLang (Batch.ofTexts g) (o.reply d fromLang toLang i g)) := by
    rw [settled, List.getElem?_mapIdx, hg, Option.map_some]
  rw [(o.translate_eq d texts fromLang toLang).1, ← length_take_settled o d texts fromLang toLang,
    getElem?_flatMap_of_getElem? hsettled (by rw [length_settle]; exact hj)]
  exact getElem?_settle hj

/-- The issues are those of the batches, in order. -/
theorem issues_translate :
    (o.translate d texts fromLang toLang).issues =
      ((Batch.groups texts o.translator.maxBatch).mapIdx fun i g =>
        o.issuesFor toLang g.length (o.reply d fromLang toLang i g)).flatten := by
  rw [(o.translate_eq d texts fromLang toLang).2.1, List.flatMap_def, map_settled]
  simp only [issues_settle]
  rfl

/-- An issue is one of a batch. -/
theorem exists_batch_of_mem_issues {issue : Issue}
    (h : issue ∈ (o.translate d texts fromLang toLang).issues) :
    ∃ i g, (Batch.groups texts o.translator.maxBatch)[i]? = some g ∧
      issue ∈ o.issuesFor toLang g.length (o.reply d fromLang toLang i g) := by
  rw [issues_translate] at h
  obtain ⟨part, hpart, hmem⟩ := List.mem_flatten.mp h
  obtain ⟨i, hi, rfl⟩ := List.mem_mapIdx.mp hpart
  exact ⟨i, _, List.getElem?_eq_getElem hi, hmem⟩

/-- The calls of the error handler are those of the batches, in order. -/
theorem handled_translate :
    (o.translate d texts fromLang toLang).handled =
      ((Batch.groups texts o.translator.maxBatch).mapIdx fun i g =>
        o.callsFor toLang (o.reply d fromLang toLang i g)).flatten := by
  rw [(o.translate_eq d texts fromLang toLang).2.2, List.flatMap_def, map_settled]
  simp only [handled_settle]

end Results

/-- What translating texts promises, for groups of them that are sent in one batch each and for the
replies to these batches. -/
structure Aligned (o : Orchestra) (toLang : String) (texts : List String)
    (groups : List (List String)) (reply : Nat → List String → Except String String)
    (result : Translation) : Prop where
  /-- The groups are the texts in order, none of them empty, and the batches are theirs. -/
  groups_flatten : groups.flatten = texts
  groups_ne_nil : ∀ g ∈ groups, g ≠ []
  pack_eq : Batch.pack texts o.translator.maxBatch = groups.map Batch.ofTexts
  /-- There is one result for each text. -/
  length_texts : result.texts.length = texts.length
  /-- The result for a text is what the reply to its own batch has in its place. -/
  own_reply : ∀ i g, groups[i]? = some g → ∀ j < g.length,
    texts[Batch.start groups i + j]? = g[j]? ∧
      result.texts[Batch.start groups i + j]? = some (o.textFor toLang (reply i g) j)
  /-- The issues and the calls of the error handler are those of the batches, in order. -/
  issues_eq : result.issues = (groups.mapIdx fun i g =>
    o.issuesFor toLang g.length (reply i g)).flatten
  handled_eq : result.handled = (groups.mapIdx fun i g => o.callsFor toLang (reply i g)).flatten

/-- Whatever a translator answers, the results stay with their texts. -/
theorem translate_aligned (o : Orchestra) (d : Dispatch) (texts : List String)
    (fromLang toLang : String) :
    o.Aligned toLang texts (Batch.groups texts o.translator.maxBatch)
      (o.reply d fromLang toLang) (o.translate d texts fromLang toLang) := by
  obtain ⟨hpack, hflat, hne⟩ := Batch.pack_groups texts o.translator.maxBatch
  refine ⟨hflat, hne, hpack, o.length_texts_translate d texts fromLang toLang, ?_,
    o.issues_translate d texts fromLang toLang, o.handled_translate d texts fromLang toLang⟩
  intro i g hg j hj
  have hplace := getElem?_flatMap_of_getElem? (f := id) hg hj
  rw [List.flatMap_id, List.flatMap_id, hflat] at hplace
  exact ⟨hplace, o.getElem?_translate d texts fromLang toLang hg hj⟩

end Orchestra

end TextHarvest
