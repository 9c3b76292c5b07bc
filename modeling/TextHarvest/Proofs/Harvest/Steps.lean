import TextHarvest.Proofs.Harvest.Placed

/-!
# The way down to a place

Whether a walk gets to a place, and in what surroundings, is read off the steps that lead to it:
some steps are never taken, the arguments of a call and the body of a function or class decide anew
whether texts are taken, and the properties of a node maker hide the keys of their entries.

Main results:

* `visited_visitOf` — what one step does to the site and the role.
* `arrived_arrive` — what all steps on the way to a place do to them.
-/

namespace TextHarvest

namespace Script

/-! ## Single steps -/

/-- Imports and exports of names, and what there is on the level of types. -/
def Kind.isPlumbing : Kind → Bool
  | .importDecl _ => true
  | .exportNamed => true
  | .exportAll => true
  | .importEquals _ => true
  | .moduleDecl _ => true
  | .enumDecl _ => true
  | .typeText _ => true
  | _ => false

/-- Functions, arrows and classes. An accessor of an object has no function of its own. -/
def Kind.isBody : Kind → Bool
  | .func .. => true
  | .arrow _ => true
  | .classExpr _ => true
  | .classDecl _ => true
  | _ => false

/-- The nodes that hand on to their parts what they are given, and nothing of their own. -/
def Kind.isOrdinary : Kind → Bool
  | .call _ => false
  | .construct _ => false
  | .property => false
  | .spread => false
  | .object => false
  | kind => !kind.isBody

/-- The attributes that a wrapper element is known by. -/
def Tree.isWrapperAttribute : Tree → Bool
  | .node (.attribute (.plain n)) _ _ => n == "id" || n == "msg"
  | _ => false

namespace Step

/-- The callee of the call to one of whose arguments a step goes. -/
def callee? (s : Step) : Option Tree :=
  match s.kind, s.index with
  | .call _, _ + 1 => s.children.head?
  | .construct _, _ + 1 => s.children.head?
  | _, _ => none

/-- The path of that callee. -/
def calleePath? (s : Step) : Option String :=
  s.callee?.bind Tree.path?

/-- The frame that a step enters: the arguments of a call, which goes by the path of its callee if
it has one, or a body, which goes by none. -/
def frame? (s : Step) : Option (Option String) :=
  match s.callee? with
  | some callee => some callee.path?
  | none => if s.kind.isBody then some none else none

/-- A step to a name that is computed from a constant. -/
def namesMember (s : Step) : Bool :=
  match s.kind with
  | .keyComputed => s.child?.any Tree.isStaticKey
  | .member _ .computed => s.index == 1 && s.child?.any Tree.isStaticKey
  | _ => false

/-- A step to the identifier or the message of a wrapper element. -/
def inWrapper (element : String) (s : Step) : Bool :=
  match s.kind with
  | .element (.plain name _) => name == element && s.child?.any Tree.isWrapperAttribute
  | _ => false

/-- A step to the first argument of the lookup function. -/
def isLookupArgument (e : Exclusion) (s : Step) : Bool :=
  s.index == 1 && s.calleePath?.any e.isLookupCall

/-- A step to the properties of a node maker. -/
def isPropsArgument (e : Exclusion) (s : Step) : Bool :=
  s.index == 2 && s.calleePath?.any fun n =>
    !e.isLookupCall n && Harvest.nodeMakers.contains (Exclusion.terminalSegment n)

/-- A step to the key of an entry of an object. -/
def toKey (s : Step) : Bool :=
  s.kind == .property && s.index == 0

/-- A step that a walk never takes, whatever came before. -/
def isClosed (element : String) (s : Step) : Bool :=
  s.kind.isPlumbing || s.namesMember || s.inWrapper element

end Step

/-! ## Sequences of steps -/

/-- The first step is to the key of an entry. -/
def keyFirst : List Step → Bool
  | [] => false
  | s :: _ => s.toKey

/-- The steps lead into an object, if need be by spreading it, and on to the key of an entry. -/
def objectKeyFirst : List Step → Bool
  | [] => false
  | s :: steps => s.kind == .object && keyFirst steps || s.kind == .spread && objectKeyFirst steps

/-- The steps lead, at some point, to the properties of a node maker and on to the key of one. -/
def inPropsKey (e : Exclusion) : List Step → Bool
  | [] => false
  | s :: steps => s.isPropsArgument e && objectKeyFirst steps || inPropsKey e steps

/-- The innermost call around the end of the steps that no function or class cuts off. -/
def enclosingCall (steps : List Step) : Option String :=
  (steps.filterMap Step.frame?).getLast?.join

/-- The steps end at the first argument of the lookup function. -/
def endsAtLookup (e : Exclusion) (steps : List Step) : Bool :=
  steps.getLast?.any (Step.isLookupArgument e)

/-! ## Shapes of nodes -/

/-- The children that a node has, as far as a walk relies on it. A computed member of the base class
is not spoken of. -/
def Kind.fits (children : List Tree) : Kind → Bool
  | .strLit _ => children.isEmpty
  | .template chunks => chunks.length == children.length + 1
  | .property => children.length == 2
  | .member _ name => name != .computed || children.length == 2
  | .superMember name => name != .computed
  | _ => true

end Script

namespace Harvest

open Script

/-! ## One step -/

/-- A step is not taken: it is closed, or it goes to the key of a property of a node. -/
def Blocked (site : Site) (role : Role) (s : Step) : Prop :=
  s.isClosed site.options.jsxElement = true ∨ role = .prop ∧ s.toKey = true

/-- The site and the role of the child that a step goes to. -/
structure LeadsTo (site : Site) (role : Role) (s : Step) (v : Site × Role) : Prop where
  site_eq : v.1 = site.within (s.frame?.getD site.call)
  props_iff : v.2 = .props ↔
    s.isPropsArgument site.harvester.exclusion = true ∨ s.kind = .spread ∧ role = .props
  prop_iff : v.2 = .prop ↔ s.kind = .object ∧ role = .props
  lookup_iff : (∃ count, v.2 = .lookup count) ↔
    s.isLookupArgument site.harvester.exclusion = true

/-- What a visit says about a step. -/
def Visited (site : Site) (role : Role) (s : Step) : Visit → Prop
  | none => Blocked site role s
  | some v => ¬Blocked site role s ∧ LeadsTo site role s v

section

variable {site : Site} {role : Role}

theorem Site.within_call (site : Site) : site.within site.call = site := rfl

/-- Outside calls and bodies the surroundings stay the same. -/
theorem leadsTo_of_callee?_eq_none {s : Step} {r : Role} (hcallee : s.callee? = none)
    (hbody : s.kind.isBody = false) (hprops : r = .props ↔ s.kind = .spread ∧ role = .props)
    (hprop : r = .prop ↔ s.kind = .object ∧ role = .props) (hlookup : ∀ count, r ≠ .lookup count) :
    LeadsTo site role s (site, r) where
  site_eq := by simp [Step.frame?, hcallee, hbody, Site.within_call]
  props_iff := by simp [Step.isPropsArgument, Step.calleePath?, hcallee, hprops]
  prop_iff := hprop
  lookup_iff := by simp [Step.isLookupArgument, Step.calleePath?, hcallee, hlookup]

theorem callee?_of_isOrdinary {s : Step} (h : s.kind.isOrdinary = true) : s.callee? = none := by
  obtain ⟨kind, children, i⟩ := s
  cases kind <;> first | rfl | cases h

theorem isBody_of_isOrdinary {kind : Kind} (h : kind.isOrdinary = true) : kind.isBody = false := by
  cases kind <;> first | rfl | cases h

/-- An ordinary step is open. -/
theorem not_blocked {s : Step} (hclosed : s.isClosed site.options.jsxElement = false)
    (hkind : s.kind ≠ .property) : ¬Blocked site role s := by
  simp [Blocked, hclosed, Step.toKey, hkind]

/-- The parts of an ordinary node are ordinary parts. -/
theorem visited_plain {s : Step} (hkind : s.kind.isOrdinary = true)
    (hclosed : s.isClosed site.options.jsxElement = false) : Visited site role s site.visit := by
  have hne (kind : Kind) (hother : kind.isOrdinary = false) : s.kind ≠ kind := by
    rintro rfl
    rw [hkind] at hother
    cases hother
  refine ⟨not_blocked hclosed (hne .property rfl), leadsTo_of_callee?_eq_none
    (callee?_of_isOrdinary hkind) (isBody_of_isOrdinary hkind) ?_ ?_ ?_⟩
  · simp [Role.plain, hne .spread rfl]
  · simp [Role.plain, hne .object rfl]
  · simp [Role.plain]

/-- The parts of a body are in a frame without a call. -/
theorem visited_body {s : Step} (hbody : s.kind.isBody = true) :
    Visited site role s (site.within none).visit := by
  obtain ⟨kind, children, i⟩ := s
  -- a body is neither a call nor a closed element, so the role of the child is the plain one
  have hcallee : Step.callee? ⟨kind, children, i⟩ = none := by
    cases kind <;> first | rfl | cases hbody
  have hclosed : Step.isClosed site.options.jsxElement ⟨kind, children, i⟩ = false := by
    cases kind <;> first | rfl | cases hbody
  have hne (other : Kind) (hother : other.isBody = false) : kind ≠ other := by
    rintro rfl
    rw [hbody] at hother
    cases hother
  refine ⟨not_blocked hclosed (hne .property rfl), ?_, ?_, ?_, ?_⟩
  · simp [Step.frame?, hcallee, hbody]
  · simp [Role.plain, Step.isPropsArgument, Step.calleePath?, hcallee, hne .spread rfl]
  · simp [Role.plain, hne .object rfl]
  · simp [Role.plain, Step.isLookupArgument, Step.calleePath?, hcallee]

/-- The role of an argument. -/
structure ArgumentRole (e : Exclusion) (name : Option String) (j : Nat) (r : Role) : Prop where
  props_iff : r = .props ↔ j = 1 ∧ name.any (fun n =>
    !e.isLookupCall n && nodeMakers.contains (Exclusion.terminalSegment n)) = true
  ne_prop : r ≠ .prop
  lookup_iff : (∃ count, r = .lookup count) ↔ j = 0 ∧ name.any e.isLookupCall = true

/-- An argument that is no key and no list of properties is plain. -/
theorem argumentRole_plain {e : Exclusion} {name : Option String} {j : Nat}
    (hprops : j = 1 → name.any (fun n =>
      !e.isLookupCall n && nodeMakers.contains (Exclusion.terminalSegment n)) = false)
    (hlookup : j = 0 → name.any e.isLookupCall = false) : ArgumentRole e name j .plain where
  props_iff := by
    constructor
    · intro h
      cases h
    · rintro ⟨hj, hname⟩
      rw [hprops hj] at hname
      cases hname
  ne_prop := by simp [Role.plain]
  lookup_iff := by
    constructor
    · rintro ⟨count, h⟩
      cases h
    · rintro ⟨hj, hname⟩
      rw [hlookup hj] at hname
      cases hname

/-- Every argument of a call is visited, in the frame of the call. -/
theorem getElem?_visitArguments (site : Site) (name : Option String) {args : List Tree} {j : Nat}
    (hj : j < args.length) : ∃ r, (visitArguments site name args)[j]? =
      some (some (site.within name, r)) ∧ ArgumentRole site.harvester.exclusion name j r := by
  have hplain : (args.map fun _ => (site.within name).visit)[j]? =
      some (some (site.within name, .plain)) := by
    rw [List.getElem?_map, List.getElem?_eq_getElem hj]
    rfl
  rw [visitArguments.eq_def]
  dsimp only
  split
  · exact ⟨_, hplain, argumentRole_plain (by simp) (by simp)⟩
  · rename_i n
    split
    · -- a lookup, with a role of its own for the first argument
      rename_i hlookup
      cases j with
      | zero => exact ⟨_, rfl, by simp, by simp, by simp [hlookup]⟩
      | succ j =>
        refine ⟨.plain, ?_, argumentRole_plain (by simp [hlookup]) (by simp)⟩
        rw [List.getElem?_cons_succ, List.getElem?_drop, Nat.add_comm, hplain]
    · rename_i hlookup
      split
      · -- a node maker, with one for the second
        rename_i hmaker
        have hlen : (List.take 1 (args.map fun _ => (site.within (some n)).visit)).length = 1 := by
          simp
          omega
        rcases j with _ | _ | j
        · refine ⟨.plain, ?_, argumentRole_plain (by simp) (by simp [hlookup])⟩
          rw [List.getElem?_append_left (by omega), List.getElem?_take_of_lt (by omega), hplain]
        · refine ⟨.props, ?_, by simpa [hlookup] using hmaker, by simp, by simp⟩
          rw [List.getElem?_append_right (by omega), hlen]
          rfl
        · refine ⟨.plain, ?_, argumentRole_plain (by simp) (by simp)⟩
          have hsub : j + 1 + 1 - 1 = j + 1 := rfl
          rw [List.getElem?_append_right (by omega), hlen, hsub, List.getElem?_cons_succ,
            List.getElem?_drop, Nat.add_comm, hplain]
      · rename_i hmaker
        have hnone : ArgumentRole site.harvester.exclusion (some n) j .plain :=
          argumentRole_plain (fun _ => by simpa [hlookup] using hmaker) (by simp [hlookup])
        split
        · -- a text maker, whose first argument has a slot of its own
          cases j with
          | zero => exact ⟨_, rfl, by simp, by simp, by simp [hlookup]⟩
          | succ j =>
            refine ⟨.plain, ?_, hnone⟩
            rw [List.getElem?_cons_succ, List.getElem?_drop, Nat.add_comm, hplain]
        · exact ⟨_, hplain, hnone⟩

/-- The visit of a child, from the visits of all. -/
theorem visitOf_of_visits {s : Step} {c : Tree} {f : Tree → Visit} (hchild : s.child? = some c)
    (hvisits : visits site role s.kind s.children = s.children.map f) :
    visitOf site role s = f c := by
  rw [Step.child?] at hchild
  rw [visitOf, hvisits, List.getElem?_map, hchild]
  rfl

/-- The arguments of a call, and the callee, which is outside its frame. -/
theorem visited_call {s : Step} {callee : Tree} {args : List Tree} (hkind : IsCall s.kind)
    (hchildren : s.children = callee :: args) (hindex : s.index < s.children.length) :
    Visited site role s (site.visit :: visitArguments site callee.path? args)[s.index]?.join := by
  obtain ⟨kind, children, i⟩ := s
  dsimp only at hkind hchildren hindex
  subst hchildren
  have hopen (i : Nat) : ¬Blocked site role ⟨kind, callee :: args, i⟩ := by
    cases kind <;> first | exact hkind.elim | exact not_blocked rfl (by simp)
  have hspread : kind ≠ .spread := by
    rintro rfl
    exact hkind
  have hobject : kind ≠ .object := by
    rintro rfl
    exact hkind
  -- the callee is visited outside the frame, each argument inside it
  cases i with
  | zero =>
    have hcallee : Step.callee? ⟨kind, callee :: args, 0⟩ = none := by
      cases kind <;> rfl
    have hbody : kind.isBody = false := by
      cases kind <;> first | exact hkind.elim | rfl
    exact ⟨hopen 0, leadsTo_of_callee?_eq_none hcallee hbody (by simp [Role.plain, hspread])
      (by simp [Role.plain, hobject]) (by simp [Role.plain])⟩
  | succ j =>
    have hcallee : Step.callee? ⟨kind, callee :: args, j + 1⟩ = some callee := by
      cases kind <;> first | exact hkind.elim | rfl
    obtain ⟨r, hr, hrole⟩ :=
      getElem?_visitArguments site callee.path? (Nat.lt_of_succ_lt_succ hindex)
    rw [List.getElem?_cons_succ, hr]
    refine ⟨hopen _, ?_, ?_, ?_, ?_⟩
    · simp [Step.frame?, hcallee]
    · simp [hrole.props_iff, Step.isPropsArgument, Step.calleePath?, hcallee, hspread]
    · simp [hrole.ne_prop, hobject]
    · simp [hrole.lookup_iff, Step.isLookupArgument, Step.calleePath?, hcallee]

/-- A name that is a constant is left out. -/
theorem visited_name {s : Step} {c : Tree} (hkind : s.kind.isOrdinary = true)
    (hclosed : s.isClosed site.options.jsxElement = c.isStaticKey)
    (hvisit : visitOf site role s = if c.isStaticKey then none else site.visit) :
    Visited site role s (visitOf site role s) := by
  rw [hvisit]
  split
  · rename_i hstatic
    exact Or.inl (hclosed.trans hstatic)
  · rename_i hstatic
    exact visited_plain hkind (hclosed.trans (Bool.eq_false_iff.mpr hstatic))

/-- The name of a computed member is left out when it is a constant. -/
theorem visited_computed {chained : Bool} {object e : Tree} {i : Nat} (hlt : i < 2) :
    Visited site role ⟨.member chained .computed, [object, e], i⟩
      (visitOf site role ⟨.member chained .computed, [object, e], i⟩) := by
  match i, hlt with
  | 0, _ => exact visited_plain rfl rfl
  | 1, _ =>
    refine visited_name rfl ?_ rfl
    simp [Step.isClosed, Kind.isPlumbing, Step.namesMember, Step.inWrapper, Step.child?]

/-- Of the parts of a wrapper element, the identifier and the message are left out. -/
theorem visited_element {name : String} {place : Span} {children : List Tree} {i : Nat} {c : Tree}
    (hget : children[i]? = some c) :
    Visited site role ⟨.element (.plain name place), children, i⟩
      (visitOf site role ⟨.element (.plain name place), children, i⟩) := by
  -- only the attributes of the wrapper itself are passed over
  have hclosed : Step.isClosed site.options.jsxElement ⟨.element (.plain name place), children, i⟩ =
      (name == site.options.jsxElement && c.isWrapperAttribute) := by
    simp [Step.isClosed, Kind.isPlumbing, Step.namesMember, Step.inWrapper, Step.child?, hget]
  have hvisit : visitOf site role ⟨.element (.plain name place), children, i⟩ =
      if name == site.options.jsxElement && c.isWrapperAttribute then none else site.visit := by
    simp only [visitOf, visits]
    split
    · rename_i hname
      rw [List.getElem?_map, hget, hname, Option.map_some, Option.join_some, Bool.true_and,
        Tree.isWrapperAttribute.eq_def]
      split <;> simp
    · rename_i hname
      rw [List.getElem?_map, hget, Bool.eq_false_iff.mpr hname]
      rfl
  rw [hvisit]
  split
  · rename_i hskip
    exact Or.inl (hclosed.trans hskip)
  · rename_i hskip
    exact visited_plain rfl (hclosed.trans (Bool.eq_false_iff.mpr hskip))

/-- A spread hands on the roles of properties and of a text. -/
theorem visited_spread {children : List Tree} {i : Nat} {c : Tree}
    (hchild : Step.child? ⟨.spread, children, i⟩ = some c) :
    Visited site role ⟨.spread, children, i⟩ (visitOf site role ⟨.spread, children, i⟩) := by
  have hhanded : ∃ r, visits site role .spread children = children.map (fun _ => some (site, r)) ∧
      (r = .props ↔ role = .props) ∧ r ≠ .prop ∧ ∀ count, r ≠ .lookup count := by
    cases role with
    | part slot => cases slot <;> exact ⟨_, rfl, by simp [Role.plain]⟩
    | _ => exact ⟨_, rfl, by simp [Role.plain]⟩
  obtain ⟨r, hvisits, hprops, hprop, hlookup⟩ := hhanded
  rw [visitOf_of_visits hchild hvisits]
  exact ⟨not_blocked rfl (by simp),
    leadsTo_of_callee?_eq_none rfl rfl (by simp [hprops]) (by simp [hprop]) hlookup⟩

/-- An object of properties makes its entries properties. -/
theorem visited_object {children : List Tree} {i : Nat} {c : Tree}
    (hchild : Step.child? ⟨.object, children, i⟩ = some c) :
    Visited site role ⟨.object, children, i⟩ (visitOf site role ⟨.object, children, i⟩) := by
  have hhanded : ∃ r, visits site role .object children = children.map (fun _ => some (site, r)) ∧
      r ≠ .props ∧ (r = .prop ↔ role = .props) ∧ ∀ count, r ≠ .lookup count := by
    cases role <;> exact ⟨_, rfl, by simp [Role.plain]⟩
  obtain ⟨r, hvisits, hprops, hprop, hlookup⟩ := hhanded
  rw [visitOf_of_visits hchild hvisits]
  exact ⟨not_blocked rfl (by simp),
    leadsTo_of_callee?_eq_none rfl rfl (by simp [hprops]) (by simp [hprop]) hlookup⟩

/-- Of the properties of a node only the values are visited. -/
theorem visited_property {children : List Tree} {i : Nat} {c : Tree} (htwo : children.length = 2)
    (hchild : Step.child? ⟨.property, children, i⟩ = some c) :
    Visited site role ⟨.property, children, i⟩ (visitOf site role ⟨.property, children, i⟩) := by
  have hopen : Step.isClosed site.options.jsxElement ⟨.property, children, i⟩ = false := rfl
  -- a property of the props is visited as such: its key is passed over, its value may be a text
  by_cases hrole : role = .prop
  · subst hrole
    have hget : children[i]? = some c := hchild
    have hlt : i < 2 := htwo ▸ (List.getElem?_eq_some_iff.mp hget).1
    match i, hlt with
    | 0, _ => exact Or.inr ⟨rfl, rfl⟩
    | 1, _ =>
      refine ⟨?_, leadsTo_of_callee?_eq_none rfl rfl (by simp) (by simp) (by simp)⟩
      simp [Blocked, hopen, Step.toKey]
  · have hvisits : visits site role .property children = children.map fun _ => site.visit := by
      cases role with
      | prop => exact absurd rfl hrole
      | _ => rfl
    rw [visitOf_of_visits hchild hvisits]
    exact ⟨by simp [Blocked, hopen, hrole],
      leadsTo_of_callee?_eq_none rfl rfl (by simp [Role.plain]) (by simp [Role.plain])
        (by simp [Role.plain])⟩

/-- A walk takes the steps that are not blocked, with the site and the role that they lead to. -/
theorem visited_visitOf {s : Step} {c : Tree} (hfits : s.kind.fits s.children = true)
    (hchild : s.child? = some c) : Visited site role s (visitOf site role s) := by
  obtain ⟨kind, children, i⟩ := s
  dsimp only at hfits
  have hget : children[i]? = some c := hchild
  have hlt : i < children.length := (List.getElem?_eq_some_iff.mp hget).1
  cases kind with
  -- calls give a role to their arguments, and a frame
  | call chained =>
    match children, hlt with
    | callee :: args, hlt => exact visited_call trivial rfl hlt
  | construct withArgs =>
    match children, hlt with
    | callee :: args, hlt => exact visited_call trivial rfl hlt
  -- a body starts a frame of its own
  | func async generator => exact visitOf_of_visits hchild rfl ▸ visited_body rfl
  | arrow async => exact visitOf_of_visits hchild rfl ▸ visited_body rfl
  | classExpr name => exact visitOf_of_visits hchild rfl ▸ visited_body rfl
  | classDecl name => exact visitOf_of_visits hchild rfl ▸ visited_body rfl
  | strLit value =>
    -- a string has no children to step to
    rw [List.isEmpty_iff.mp hfits] at hlt
    cases hlt
  | template chunks =>
    have hvisits : visits site role (.template chunks) children =
        children.map fun _ => site.visit := by
      cases role with
      | lookup count =>
        cases children with
        | nil => cases hlt
        | cons t ts => rfl
      | _ => rfl
    exact visitOf_of_visits hchild hvisits ▸ visited_plain rfl rfl
  -- names between brackets are left out when they are constant
  | keyComputed =>
    refine visited_name rfl ?_ (visitOf_of_visits hchild rfl)
    simp [Step.isClosed, Kind.isPlumbing, Step.namesMember, Step.inWrapper, Step.child?, hget]
  | member chained name =>
    cases name with
    | computed =>
      have htwo : children.length = 2 := by simpa [Kind.fits] using hfits
      match children, htwo with
      | [object, e], _ => exact visited_computed hlt
    | _ => exact visitOf_of_visits hchild rfl ▸ visited_plain rfl rfl
  | spread => exact visited_spread hchild
  | object => exact visited_object hchild
  | property => exact visited_property (beq_iff_eq.mp hfits) hchild
  | element name =>
    cases name with
    | plain name place => exact visited_element hget
    | _ => exact visitOf_of_visits hchild rfl ▸ visited_plain rfl rfl
  -- no children of these are visited
  | importDecl clause => exact Or.inl rfl
  | exportNamed => exact Or.inl rfl
  | exportAll => exact Or.inl rfl
  | importEquals name => exact Or.inl rfl
  | moduleDecl name => exact Or.inl rfl
  | enumDecl name => exact Or.inl rfl
  | typeText text => exact Or.inl rfl
  | _ => exact visitOf_of_visits hchild rfl ▸ visited_plain rfl rfl

/-! ## All steps -/

/-- The steps, taken from a role, lead to the key of a property of a node. -/
def LeadsToKey (e : Exclusion) (role : Role) (steps : List Step) : Prop :=
  inPropsKey e steps = true ∨ role = .props ∧ objectKeyFirst steps = true ∨
    role = .prop ∧ keyFirst steps = true

/-- One of the steps, taken from a role, is not taken by a walk. -/
def Barred (site : Site) (role : Role) (steps : List Step) : Prop :=
  (∃ s ∈ steps, s.isClosed site.options.jsxElement = true) ∨
    LeadsToKey site.harvester.exclusion role steps

/-- What a visit says about all steps that lead to it. -/
def Arrived (site : Site) (role : Role) (steps : List Step) : Visit → Prop
  | none => Barred site role steps
  | some v => ¬Barred site role steps ∧
    v.1 = site.within ((steps.filterMap Step.frame?).getLast?.getD site.call) ∧
    ((∃ count, v.2 = .lookup count) ↔ endsAtLookup site.harvester.exclusion steps = true ∨
      steps = [] ∧ ∃ count, role = .lookup count)

/-- A step that is taken hands on what it knows of keys. -/
theorem LeadsTo.leadsToKey_iff {s : Step} {v : Site × Role} (hleads : LeadsTo site role s v)
    (hkey : ¬(role = .prop ∧ s.toKey = true)) (steps : List Step) :
    LeadsToKey site.harvester.exclusion role (s :: steps) ↔
      LeadsToKey site.harvester.exclusion v.2 steps := by
  simp only [LeadsToKey, inPropsKey, objectKeyFirst, keyFirst, Bool.or_eq_true, Bool.and_eq_true,
    beq_iff_eq, hleads.props_iff, hleads.prop_iff]
  grind

/-- Behind an open step a path is barred when its rest is. -/
theorem LeadsTo.barred_iff {s : Step} {v : Site × Role} (hleads : LeadsTo site role s v)
    (hopen : ¬Blocked site role s) (steps : List Step) :
    Barred site role (s :: steps) ↔ Barred v.1 v.2 steps := by
  have hharvester : v.1.harvester = site.harvester := by rw [hleads.site_eq]; rfl
  have hoptions : v.1.options = site.options := by rw [hleads.site_eq]; rfl
  have hclosed : ¬s.isClosed site.options.jsxElement = true := fun h => hopen (Or.inl h)
  have hkey : ¬(role = .prop ∧ s.toKey = true) := fun h => hopen (Or.inr h)
  rw [Barred, Barred, hharvester, hoptions, hleads.leadsToKey_iff hkey]
  simp [hclosed]

/-- A path that starts with a blocked step is barred. -/
theorem barred_of_blocked {s : Step} (hblocked : Blocked site role s) (steps : List Step) :
    Barred site role (s :: steps) := by
  rcases hblocked with hclosed | ⟨hrole, hkey⟩
  · exact Or.inl ⟨s, List.mem_cons_self, hclosed⟩
  · exact Or.inr (Or.inr (Or.inr ⟨hrole, hkey⟩))

/-- A walk gets to the end of some steps when none of them bars it, in the innermost frame, and with
the role of the last one. -/
theorem arrived_arrive {steps : List Step}
    (hsteps : ∀ s ∈ steps, s.kind.fits s.children = true ∧ ∃ c, s.child? = some c)
    (site : Site) (role : Role) : Arrived site role steps (arrive site role steps) := by
  induction steps generalizing site role with
  | nil =>
    refine ⟨?_, rfl, by simp [endsAtLookup]⟩
    simp [Barred, LeadsToKey, inPropsKey, objectKeyFirst, keyFirst]
  | cons s steps ih =>
    obtain ⟨hfits, c, hchild⟩ := hsteps s List.mem_cons_self
    have hvisited : Visited site role s (visitOf site role s) := visited_visitOf hfits hchild
    rw [arrive]
    cases hvisit : visitOf site role s with
    | none =>
      rw [hvisit] at hvisited
      exact barred_of_blocked hvisited steps
    | some v =>
      rw [hvisit] at hvisited
      obtain ⟨hopen, hleads⟩ := hvisited
      have hrest := ih (fun s hs => hsteps s (List.mem_cons_of_mem _ hs)) v.1 v.2
      have hbarred := hleads.barred_iff hopen steps
      rw [Option.bind_some]
      cases harrive : arrive v.1 v.2 steps with
      | none =>
        rw [harrive] at hrest
        exact hbarred.mpr hrest
      | some w =>
        rw [harrive] at hrest
        obtain ⟨hnot, hsite, hlookup⟩ := hrest
        refine ⟨mt hbarred.mp hnot, ?_, ?_⟩
        · -- the frame is the last one of the rest, or else the one that the first step enters
          rw [hsite, hleads.site_eq]
          cases hframe : s.frame? with
          | none => simp [hframe, Site.within]
          | some frame => simp [hframe, Site.within, List.getLast?_cons]
        · have hharvester : v.1.harvester = site.harvester := by rw [hleads.site_eq]; rfl
          rw [hlookup, hleads.lookup_iff, hharvester]
          cases steps with
          | nil => simp [endsAtLookup]
          | cons s' steps => simp [endsAtLookup, List.getLast?_cons_cons]

end

end Harvest

end TextHarvest
