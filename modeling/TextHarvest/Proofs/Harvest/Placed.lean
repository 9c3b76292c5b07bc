import Mathlib.Data.List.Basic
import TextHarvest.Proofs.Harvest.Walk

/-!
# Who takes the actions of a walk

Every action of a walk is taken at one place of the script: at a node, or at a chunk of a template.
Here the walk is repeated with its places, and the actions of one place are picked out. What is done
at a place is then found by going down to it step by step, with the site and the role that every
step gives to the child it goes to.

Main results:

* `map_snd_placedWalk` — without its places, the placed walk is the walk.
* `actionsAt_eq_of_trail?` — what is done at a place, from the steps that lead to it.
-/

namespace TextHarvest

namespace Script

/-- The address of a place in a script: the numbers of the children on the way down to a node and,
for a chunk of a template, the number of the chunk. -/
structure Address where
  path : List Nat
  chunk : Option Nat := none
  deriving DecidableEq, Repr

/-- An address in the child with the given number, seen from the parent. -/
def Address.below (i : Nat) (p : Address) : Address :=
  { p with path := i :: p.path }

/-- One step down a tree, from a node to one of its children. -/
structure Step where
  kind : Kind
  children : List Tree
  index : Nat

/-- The child that a step goes to. -/
def Step.child? (s : Step) : Option Tree :=
  s.children[s.index]?

/-- The steps along a path, and the tree at its end. -/
def Tree.trail? : Tree → List Nat → Option (List Step × Tree)
  | t, [] => some ([], t)
  | .node kind _ children, i :: path =>
    match children[i]? with
    | some c => (c.trail? path).map fun found => (⟨kind, children, i⟩ :: found.1, found.2)
    | none => none

/-- The trail to a place starts with the step to a child. -/
theorem Tree.trail?_cons {kind : Kind} {span : Span} {children : List Tree} {i : Nat}
    {path : List Nat} {steps : List Step} {u : Tree}
    (h : (Tree.node kind span children).trail? (i :: path) = some (steps, u)) :
    ∃ c rest, children[i]? = some c ∧ c.trail? path = some (rest, u) ∧
      steps = ⟨kind, children, i⟩ :: rest := by
  rw [Tree.trail?] at h
  split at h
  · rename_i c hc
    obtain ⟨⟨rest, u'⟩, hrest, heq⟩ := Option.map_eq_some_iff.mp h
    cases heq
    exact ⟨c, rest, hc, hrest, rfl⟩
  · cases h

end Script

namespace Harvest

open Script

/-! ## The walk with its places -/

/-- The place, within a node, of what is done on entering it: the constant that a template stands
for is its only chunk. -/
def entryPlace (role : Role) (kind : Kind) (children : List Tree) : Address :=
  match role, kind with
  | .lookup _, .template _ => if children.isEmpty then ⟨[], some 0⟩ else ⟨[], none⟩
  | _, _ => ⟨[], none⟩

/-- The actions for the chunks of a template, each at its chunk. -/
def placedChunks (site : Site) (cs : List Chunk) (first : Nat) : List (Address × Action) :=
  (cs.zipIdx first).flatMap fun c => (site.chunk c.1).map fun a => (⟨[], some c.2⟩, a)

/-- The actions on leaving a node, with their places. -/
def placedLeave (site : Site) (role : Role) (kind : Kind) (children : List Tree) :
    List (Address × Action) :=
  let placed (chunks : List Chunk) := if site.takesTexts then placedChunks site chunks 0 else []
  match kind with
  | .template chunks =>
    match role with
    | .lookup _ => if children.isEmpty then [] else placed chunks
    | _ => placed chunks
  | _ => (leave site role kind children).map fun a => (⟨[], none⟩, a)

mutual

/-- The actions to be taken for a tree, with their places. -/
def placedWalk (site : Site) (role : Role) : Tree → List (Address × Action)
  | .node kind span children =>
    (enter site role kind span children).map (fun a => (entryPlace role kind children, a)) ++
      placedAll (visits site role kind children) children 0 ++ placedLeave site role kind children

/-- The actions to be taken for some trees, numbered from `first` on. -/
def placedAll : List Visit → List Tree → Nat → List (Address × Action)
  | visit :: vs, t :: ts, first =>
    (match visit with
      | some (site, role) => (placedWalk site role t).map fun x => (x.1.below first, x.2)
      | none => []) ++ placedAll vs ts (first + 1)
  | _, _, _ => []

end

/-- Without their places the actions of chunks are those of the chunks. -/
theorem map_snd_placedChunks (site : Site) (cs : List Chunk) (first : Nat) :
    (placedChunks site cs first).map Prod.snd = cs.flatMap site.chunk := by
  induction cs generalizing first with
  | nil => rfl
  | cons c cs ih =>
    have hrest := ih (first + 1)
    rw [placedChunks] at hrest
    rw [placedChunks, List.zipIdx_cons, List.flatMap_cons, List.flatMap_cons, List.map_append,
      hrest, List.map_map, Function.comp_def, List.map_id']

/-- The same on leaving a node. -/
theorem map_snd_placedLeave (site : Site) (role : Role) (kind : Kind) (children : List Tree) :
    (placedLeave site role kind children).map Prod.snd = leave site role kind children := by
  have hchunks (chunks : List Chunk) :
      (if site.takesTexts then placedChunks site chunks 0 else []).map Prod.snd =
        site.chunks chunks := by
    rw [Site.chunks]
    split
    · exact map_snd_placedChunks site chunks 0
    · rfl
  rw [placedLeave.eq_def]
  dsimp only
  split
  · -- a template
    cases role with
    | lookup count =>
      simp only [leave]
      split
      · rfl
      · exact hchunks _
    | _ => exact hchunks _
  · rw [List.map_map, Function.comp_def, List.map_id']

mutual

/-- Without its places, the placed walk is the walk. -/
theorem map_snd_placedWalk :
    ∀ (site : Site) (role : Role) (t : Tree),
      (placedWalk site role t).map Prod.snd = walk site role t
  | site, role, .node kind span children => by
    rw [placedWalk, walk, List.map_append, List.map_append, List.map_map, Function.comp_def,
      List.map_id', map_snd_placedAll, map_snd_placedLeave]

/-- The same for some trees. -/
theorem map_snd_placedAll :
    ∀ (vs : List Visit) (ts : List Tree) (first : Nat),
      (placedAll vs ts first).map Prod.snd = walkAll vs ts
  | [], ts, _ => by simp [placedAll]
  | _ :: _, [], _ => by simp [placedAll, walkAll]
  | none :: vs, t :: ts, first => by
    rw [placedAll, walkAll, List.map_append, map_snd_placedAll vs ts]
    rfl
  | some (site, role) :: vs, t :: ts, first => by
    rw [placedAll, walkAll, List.map_append, map_snd_placedAll vs ts,
      ← map_snd_placedWalk site role t, List.map_map]
    rfl

end

/-! ## The actions of one place -/

/-- The actions among some that are taken at a place. -/
def atPlace (place : Address) (actions : List (Address × Action)) : List Action :=
  actions.filterMap fun x => if x.1 = place then some x.2 else none

@[simp] theorem atPlace_nil (place : Address) : atPlace place [] = [] := rfl

@[simp] theorem atPlace_append (place : Address) (as bs : List (Address × Action)) :
    atPlace place (as ++ bs) = atPlace place as ++ atPlace place bs :=
  List.filterMap_append

/-- Actions of one place are taken at that place only. -/
theorem atPlace_map (place own : Address) (as : List Action) :
    atPlace place (as.map fun a => (own, a)) = if own = place then as else [] := by
  rw [atPlace, List.filterMap_map]
  by_cases h : own = place
  · rw [if_pos h]
    exact (List.filterMap_congr fun a _ => if_pos h).trans List.filterMap_some
  · rw [if_neg h]
    exact List.filterMap_eq_nil_iff.mpr fun a _ => if_neg h

/-- What is done in one child is not done in another. -/
theorem atPlace_map_below (i j : Nat) (path : List Nat) (chunk : Option Nat)
    (as : List (Address × Action)) :
    atPlace ⟨j :: path, chunk⟩ (as.map fun x => (x.1.below i, x.2)) =
      if i = j then atPlace ⟨path, chunk⟩ as else [] := by
  have hbelow (p : Address) : p.below i = ⟨j :: path, chunk⟩ ↔ i = j ∧ p = ⟨path, chunk⟩ := by
    obtain ⟨p, c⟩ := p
    simp [Address.below, and_assoc]
  rw [atPlace, List.filterMap_map]
  by_cases h : i = j
  · rw [if_pos h]
    exact List.filterMap_congr fun x _ => if_congr ((hbelow x.1).trans (and_iff_right h)) rfl rfl
  · rw [if_neg h]
    exact List.filterMap_eq_nil_iff.mpr fun x _ => if_neg fun hx => h ((hbelow x.1).mp hx).1

/-- What is done below a node is not done at it. -/
theorem atPlace_map_below_nil (i : Nat) (chunk : Option Nat) (as : List (Address × Action)) :
    atPlace ⟨[], chunk⟩ (as.map fun x => (x.1.below i, x.2)) = [] := by
  simp [atPlace, List.filterMap_map, Address.below]

/-- What has the number `j` in a sequence that is numbered from `first` on. -/
theorem append_numbered {α : Type} (g : Nat → List α) (first j : Nat) :
    (if first = j then g 0 else []) ++ (if first + 1 ≤ j then g (j - (first + 1) + 1) else []) =
      if first ≤ j then g (j - first) else [] := by
  rcases Nat.lt_trichotomy first j with hlt | rfl | hgt
  · have hsub : j - (first + 1) + 1 = j - first := by omega
    rw [if_neg (Nat.ne_of_lt hlt), if_pos (Nat.succ_le_of_lt hlt), if_pos (Nat.le_of_lt hlt), hsub, List.nil_append]
  · rw [if_pos rfl, if_neg (Nat.not_succ_le_self first), if_pos (Nat.le_refl first), Nat.sub_self,
      List.append_nil]
  · rw [if_neg (Nat.ne_of_gt hgt), if_neg (by omega), if_neg (by omega), List.nil_append]

/-- The chunks of a template are read one by one. -/
theorem atPlace_placedChunks (site : Site) (cs : List Chunk) (first j : Nat) :
    atPlace ⟨[], some j⟩ (placedChunks site cs first) =
      if first ≤ j then (cs[j - first]?.map site.chunk).getD [] else [] := by
  induction cs generalizing first with
  | nil => simp [placedChunks]
  | cons c cs ih =>
    have hrest := ih (first + 1)
    rw [placedChunks] at hrest
    rw [placedChunks, List.zipIdx_cons, List.flatMap_cons, atPlace_append, hrest, atPlace_map]
    simp only [Address.mk.injEq, Option.some.injEq, true_and]
    exact append_numbered (fun k => ((c :: cs)[k]?.map site.chunk).getD []) first j

/-- What is done at children is not done at their node. -/
theorem atPlace_placedAll_nil (chunk : Option Nat) :
    ∀ (vs : List Visit) (ts : List Tree) (first : Nat),
      atPlace ⟨[], chunk⟩ (placedAll vs ts first) = []
  | [], ts, _ => by simp [placedAll]
  | _ :: _, [], _ => by simp [placedAll]
  | none :: vs, t :: ts, first => by
    rw [placedAll, List.nil_append, atPlace_placedAll_nil chunk vs ts]
  | some (site, role) :: vs, t :: ts, first => by
    rw [placedAll, atPlace_append, atPlace_placedAll_nil chunk vs ts]
    simp [atPlace_map_below_nil]

/-- What is done at a place of a tree. -/
def actionsAt (site : Site) (role : Role) (t : Tree) (place : Address) : List Action :=
  atPlace place (placedWalk site role t)

/-- What is done at a place of a child that is visited or not. -/
def actionsBelow (visit : Visit) (child? : Option Tree) (place : Address) : List Action :=
  match visit, child? with
  | some (site, role), some c => actionsAt site role c place
  | _, _ => []

/-- At a child that is left out nothing is done. -/
theorem actionsBelow_none (child? : Option Tree) (place : Address) :
    actionsBelow none child? place = [] := rfl

/-- What is done below a node is done at the child on the way. -/
theorem atPlace_placedAll (path : List Nat) (chunk : Option Nat) :
    ∀ (vs : List Visit) (ts : List Tree) (first j : Nat),
      atPlace ⟨j :: path, chunk⟩ (placedAll vs ts first) =
        if first ≤ j then actionsBelow vs[j - first]?.join ts[j - first]? ⟨path, chunk⟩ else []
  | [], ts, first, j => by simp [placedAll, actionsBelow_none]
  | _ :: _, [], first, j => by simp [placedAll, actionsBelow]
  | v :: vs, t :: ts, first, j => by
    have hhead : atPlace ⟨j :: path, chunk⟩ (match v with
        | some (site, role) => (placedWalk site role t).map fun x => (x.1.below first, x.2)
        | none => []) = if first = j then actionsBelow v (some t) ⟨path, chunk⟩ else [] := by
      cases v with
      | none => simp [actionsBelow_none]
      | some visit => exact atPlace_map_below ..
    simp only [placedAll, atPlace_append, atPlace_placedAll path chunk vs ts, hhead]
    exact append_numbered
      (fun k => actionsBelow (v :: vs)[k]?.join (t :: ts)[k]? ⟨path, chunk⟩) first j

/-! ## Going down to a place -/

/-- How the child that a step goes to is visited. -/
def visitOf (site : Site) (role : Role) (s : Step) : Visit :=
  (visits site role s.kind s.children)[s.index]?.join

/-- How the tree at the end of some steps is visited. -/
def arrive : Site → Role → List Step → Visit
  | site, role, [] => some (site, role)
  | site, role, s :: steps => (visitOf site role s).bind fun v => arrive v.1 v.2 steps

/-- What is done at a node itself is done on entering or on leaving it. -/
theorem actionsAt_here (site : Site) (role : Role) (kind : Kind) (span : Span)
    (children : List Tree) (chunk : Option Nat) :
    actionsAt site role (.node kind span children) ⟨[], chunk⟩ =
      (if entryPlace role kind children = ⟨[], chunk⟩ then enter site role kind span children
        else []) ++ atPlace ⟨[], chunk⟩ (placedLeave site role kind children) := by
  rw [actionsAt, placedWalk, atPlace_append, atPlace_append, atPlace_map, atPlace_placedAll_nil,
    List.append_nil]

/-- On entering a node something is done at the node. -/
theorem path_entryPlace (role : Role) (kind : Kind) (children : List Tree) :
    (entryPlace role kind children).path = [] := by
  rw [entryPlace.eq_def]
  split
  · split <;> rfl
  · rfl

/-- On leaving it nothing is done below. -/
theorem atPlace_placedLeave_cons (site : Site) (role : Role) (kind : Kind) (children : List Tree)
    (i : Nat) (path : List Nat) (chunk : Option Nat) :
    atPlace ⟨i :: path, chunk⟩ (placedLeave site role kind children) = [] := by
  -- chunks stand at the node itself and never below one of its children
  have hchunks (chunks : List Chunk) :
      atPlace ⟨i :: path, chunk⟩ (if site.takesTexts then placedChunks site chunks 0 else []) =
        [] := by
    split
    · simp [atPlace, placedChunks, List.filterMap_flatMap, List.filterMap_map]
    · rfl
  rw [placedLeave.eq_def]
  dsimp only
  split
  · split
    · split
      · rfl
      · exact hchunks _
    · exact hchunks _
  · simp [atPlace_map]

/-- What is done below a node is done in one of its children. -/
theorem actionsAt_below (site : Site) (role : Role) (kind : Kind) (span : Span)
    (children : List Tree) (i : Nat) (path : List Nat) (chunk : Option Nat) :
    actionsAt site role (.node kind span children) ⟨i :: path, chunk⟩ =
      actionsBelow (visitOf site role ⟨kind, children, i⟩) children[i]? ⟨path, chunk⟩ := by
  have hentry : entryPlace role kind children ≠ ⟨i :: path, chunk⟩ := by
    intro heq
    have hpath := path_entryPlace role kind children
    rw [heq] at hpath
    cases hpath
  rw [actionsAt, placedWalk, atPlace_append, atPlace_append, atPlace_map, if_neg hentry,
    atPlace_placedAll, atPlace_placedLeave_cons, List.nil_append, List.append_nil]
  simp [visitOf]

/-- What is done at a place is done there by the site and the role with which its node is visited;
nothing is done when a step on the way is left out. -/
theorem actionsAt_eq_of_trail? {t u : Tree} {path : List Nat} {steps : List Step}
    (htrail : t.trail? path = some (steps, u)) (site : Site) (role : Role)
    (chunk : Option Nat) :
    actionsAt site role t ⟨path, chunk⟩ =
      actionsBelow (arrive site role steps) (some u) ⟨[], chunk⟩ := by
  -- the site and the role change with every step, so they are not fixed in the induction
  induction path generalizing t steps site role with
  | nil =>
    cases t
    cases htrail
    rfl
  | cons i path ih =>
    obtain ⟨kind, span, children⟩ := t
    obtain ⟨c, rest, hc, hrest, rfl⟩ := Tree.trail?_cons htrail
    rw [actionsAt_below, hc, arrive]
    cases visitOf site role ⟨kind, children, i⟩ with
    | none => rfl
    | some visit =>
      obtain ⟨s, r⟩ := visit
      exact ih hrest s r

end Harvest

end TextHarvest
