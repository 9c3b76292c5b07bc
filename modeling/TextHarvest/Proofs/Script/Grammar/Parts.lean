import TextHarvest.Proofs.Script.Steady
import TextHarvest.Script.Grammar.Object

/-!
# The parts of the grammar keep to their source

Types, patterns, functions, classes, lists and objects are read by steps that keep to the source, as
long as the goals that they call do. Each of these functions is taken apart into the steps it is
made of, and what they answer is put together again: a node points between characters when its
place and its children do.

Main results:

* `steady_templateParts` — a template, whose chunks are read from the source anew.
-/

namespace TextHarvest.Script.Grammar

open Parse Chars

variable {source : List Char} {self : Parser}

/-! ## Shared parts -/

@[grind ←] theorem steady_annotation? (h : ∀ goal, Steady source (self goal)) :
    Steady source (annotation? self) := by
  unfold annotation?
  grind

@[grind ←] theorem steady_annotate {start : Nat} {binding : Tree}
    (h : ∀ goal, Steady source (self goal)) (hstart : fits source start)
    (hbinding : fits source binding) : Steady source (annotate self start binding) := by
  unfold annotate
  refine steady_bind (steady_annotation? h) fun _ _ => ?_
  grind

@[grind ←] theorem steady_startsGreater : Steady source startsGreater := by
  unfold startsGreater
  grind

@[grind ←] theorem steady_typeArguments (h : ∀ goal, Steady source (self goal)) :
    Steady source (typeArguments self) := by
  unfold typeArguments
  with_reducible repeat' first
    | refine steady_bind ?_ fun _ _ => ?_
    | refine steady_ite ?_ ?_
  all_goals grind

@[grind ←] theorem steady_argument (h : ∀ goal, Steady source (self goal)) :
    Steady source (argument self) := by
  unfold argument
  grind

@[grind ←] theorem steady_arguments (h : ∀ goal, Steady source (self goal)) :
    Steady source (arguments self) := by
  unfold arguments
  grind

@[grind ←] theorem steady_dottedPath : Steady source dottedPath := by
  unfold dottedPath
  with_reducible repeat' refine steady_bind ?_ fun _ _ => ?_
  all_goals grind

@[grind ←] theorem steady_decorator (h : ∀ goal, Steady source (self goal)) :
    Steady source (decorator self) := by
  unfold decorator
  with_reducible repeat' first
    | refine steady_bind ?_ fun _ _ => ?_
    | refine steady_iterate ?_ fun _ _ => ?_
    | refine steady_ite ?_ ?_
    | split
  all_goals grind

@[grind ←] theorem steady_decorators (h : ∀ goal, Steady source (self goal))
    (beforeExport : Bool) : Steady source (decorators self beforeExport) := by
  unfold decorators
  with_reducible repeat' first
    | exact steady_decorator h
    | refine steady_bind ?_ fun _ _ => ?_
    | refine steady_iterate ?_ fun _ _ => ?_
    | refine steady_ite ?_ ?_
  all_goals grind

@[grind ←] theorem steady_propertyKey (h : ∀ goal, Steady source (self goal)) :
    Steady source (propertyKey self) := by
  unfold propertyKey
  with_reducible repeat' first
    | refine steady_bind ?_ fun _ _ => ?_
    | refine steady_iterate ?_ fun _ _ => ?_
    | refine steady_ite ?_ ?_
    | split
  all_goals grind

@[grind ←] theorem steady_memberKey (h : ∀ goal, Steady source (self goal)) :
    Steady source (memberKey self) := by
  unfold memberKey
  with_reducible repeat' first
    | exact steady_propertyKey h
    | refine steady_bind ?_ fun _ _ => ?_
    | refine steady_ite ?_ ?_
  all_goals grind

/-- Where a bad escape counts, the step fails at it. -/
theorem kept_unlessBad {α : Type} {holds : α → State → Prop} {bad : Option Nat} {counts : Bool}
    {p : Parse α} {c : Context} {s : State} (hs : s.StandsIn source)
    (hbad : ∀ offset, bad = some offset → Between source offset)
    (hp : Kept source s holds (p c s)) :
    Kept source s holds ((match bad with
      | some offset => if counts = true then do failAt offset; p else p
      | none => p) c s) := by
  cases bad with
  | none => exact hp
  | some offset =>
    cases counts with
    | false => exact hp
    | true => exact ⟨hs.stays, hbad offset rfl⟩

/-! ## Templates -/

/-- A template keeps to the source: its next chunk starts where the current token stops. -/
@[grind ←] theorem steady_templateParts {hole : Parse Tree} (h : Steady source hole)
    (isTagged : Bool) : Steady source (templateParts hole isTagged) := by
  intro c s hs
  unfold templateParts
  -- the rounds read characters, so they carry a place of their own that is ahead of the state
  refine kept_rounds (fun a s' => From source a.2.1 a.1 ∧ s'.prevStop ≤ a.2.1 ∧
    Between source a.2.2.1 ∧ fits source a.2.2.2.2) ?_ c.bound _ c s hs
    ⟨hs.rest, Nat.le_trans hs.behind hs.order, hs.start, fits_nil⟩
  rintro ⟨cs, pos, opening, chunks, holes⟩ c s hs ⟨hfrom, hle, hopening, hholes⟩
  have hchunk := reads_readChunk cs pos 0 [] [] none
  dsimp only at hfrom hle hopening hholes ⊢
  generalize readChunk cs pos 0 [] [] none = r at hchunk ⊢
  have hend := hfrom.reads hchunk.reads
  have hbound : s.prevStop ≤ r.stop := Nat.le_trans hle hchunk.reads.le
  refine kept_unlessBad hs ?_ ?_
  · intro offset hoffset
    obtain ⟨x, hx⟩ := (hchunk.badAt offset hoffset).resolve_left nofun
    exact (hfrom.reads hx).between
  cases hending : r.ending with
  | missing => exact kept_failAt hs hopening
  | close =>
    rw [hending] at hend
    refine kept_bind (kept_jump (hend.reads (reads_cons '\x60' r.rest _)) (by omega)) ?_
    rintro - s' hmoves -
    exact kept_pure hmoves.standsIn ((fits_pair ..).mpr ⟨fits_chunks _, (fits_reverse _).mpr hholes⟩)
  | substitution =>
    rw [hending] at hend
    refine kept_bind (kept_jump (hend.reads (reads_append ['$', '\x7b'] r.rest _)) (by omega)) ?_
    rintro - s' hmoves -
    refine kept_bind (h c s' hmoves.standsIn) fun e s' hmoves he => ?_
    refine kept_bind (steady_isMark _ c s' hmoves.standsIn) fun closes s' hmoves _ => ?_
    have hs' := hmoves.standsIn
    cases closes with
    | false => exact kept_failHere_bind hs'
    | true =>
      exact kept_pure (c := c) hs' ⟨hs'.rest, Nat.le_trans hs'.behind hs'.order, hs'.start,
        (fits_cons ..).mpr ⟨he, hholes⟩⟩

/-! ## Patterns and parameters -/

@[grind ←] theorem steady_namePattern : Steady source namePattern := by
  unfold namePattern
  grind

@[grind ←] theorem steady_bindingElement (h : ∀ goal, Steady source (self goal)) :
    Steady source (bindingElement self) := by
  unfold bindingElement
  grind

@[grind ←] theorem steady_arrayPattern (h : ∀ goal, Steady source (self goal)) :
    Steady source (arrayPattern self) := by
  unfold arrayPattern
  with_reducible repeat' first
    | exact steady_bindingElement h
    | refine steady_bind ?_ fun _ _ => ?_
    | refine steady_iterate ?_ fun _ _ => ?_
    | refine steady_ite ?_ ?_
  all_goals grind

@[grind ←] theorem steady_patternProperty (h : ∀ goal, Steady source (self goal)) :
    Steady source (patternProperty self) := by
  unfold patternProperty
  with_reducible repeat' first
    | exact steady_propertyKey h
    | exact steady_bindingElement h
    | refine steady_bind ?_ fun _ _ => ?_
    | refine steady_ite ?_ ?_
  all_goals grind

@[grind ←] theorem steady_objectPattern (h : ∀ goal, Steady source (self goal)) :
    Steady source (objectPattern self) := by
  unfold objectPattern
  have hprops := steady_commaList .rbrace (steady_patternProperty h)
  with_reducible repeat' first
    | exact hprops
    | refine steady_bind ?_ fun _ _ => ?_
  all_goals grind

@[grind ←] theorem steady_pattern (h : ∀ goal, Steady source (self goal)) :
    Steady source (pattern self) := by
  unfold pattern
  with_reducible repeat' first
    | exact steady_namePattern
    | exact steady_arrayPattern h
    | exact steady_objectPattern h
    | refine steady_bind ?_ fun _ _ => ?_
    | split
  all_goals grind

@[grind ←] theorem steady_eatModifier : Steady source eatModifier := by
  unfold eatModifier
  grind

@[grind ←] theorem steady_eatParameterModifiers : Steady source eatParameterModifiers := by
  unfold eatParameterModifiers
  with_reducible repeat' refine steady_iterate ?_ fun _ _ => ?_
  all_goals grind

@[grind ←] theorem steady_parameterPattern (h : ∀ goal, Steady source (self goal)) :
    Steady source (parameterPattern self) := by
  unfold parameterPattern
  with_reducible repeat' first
    | exact steady_bindingElement h
    | refine steady_annotate h ?_ ?_
    | refine steady_bind ?_ fun _ _ => ?_
    | refine steady_ite ?_ ?_
  all_goals grind

@[grind ←] theorem steady_restParameter {start : Nat} (h : ∀ goal, Steady source (self goal))
    (hstart : fits source start) : Steady source (restParameter self start) := by
  unfold restParameter
  with_reducible repeat' first
    | refine steady_annotate h ?_ ?_
    | refine steady_bind ?_ fun _ _ => ?_
    | refine steady_ite ?_ ?_
  all_goals grind

@[grind ←] theorem steady_parameter (h : ∀ goal, Steady source (self goal)) :
    Steady source (parameter self) := by
  unfold parameter
  with_reducible repeat' first
    | exact steady_decorators h _
    | exact steady_eatParameterModifiers
    | exact steady_parameterPattern h
    | refine steady_restParameter h ?_
    | refine steady_bind ?_ fun _ _ => ?_
    | refine steady_ite ?_ ?_
  all_goals grind

@[grind ←] theorem steady_parameters (h : ∀ goal, Steady source (self goal)) :
    Steady source (parameters self) := by
  unfold parameters
  have hone := steady_commaList .rparen (steady_parameter h)
  refine steady_bind (steady_expectMark _) fun _ _ => ?_
  exact steady_withReader _ hone

/-! ## Types -/

@[grind ←] theorem steady_typeParameters (h : ∀ goal, Steady source (self goal)) :
    Steady source (typeParameters self) := by
  unfold typeParameters
  with_reducible repeat' first
    | refine steady_bind ?_ fun _ _ => ?_
    | refine steady_iterate ?_ fun _ _ => ?_
    | refine steady_ite ?_ ?_
  all_goals grind

@[grind ←] theorem steady_typeParameters? (h : ∀ goal, Steady source (self goal)) :
    Steady source (typeParameters? self) := by
  unfold typeParameters?
  with_reducible repeat' first
    | exact steady_typeParameters h
    | refine steady_bind ?_ fun _ _ => ?_
    | refine steady_ite ?_ ?_
    | split
  all_goals grind

@[grind ←] theorem steady_returnType (h : ∀ goal, Steady source (self goal)) :
    Steady source (returnType self) := by
  unfold returnType
  grind

@[grind ←] theorem steady_returnAnnotation? (h : ∀ goal, Steady source (self goal)) :
    Steady source (returnAnnotation? self) := by
  unfold returnAnnotation?
  with_reducible repeat' first
    | exact steady_returnType h
    | refine steady_bind ?_ fun _ _ => ?_
    | refine steady_ite ?_ ?_
  all_goals grind

@[grind ←] theorem steady_entityName : Steady source entityName := by
  unfold entityName
  grind

@[grind ←] theorem steady_typeArguments? (h : ∀ goal, Steady source (self goal)) :
    Steady source (typeArguments? self) := by
  unfold typeArguments?
  grind

@[grind ←] theorem steady_functionType (h : ∀ goal, Steady source (self goal)) :
    Steady source (functionType self) := by
  unfold functionType
  refine steady_bind (steady_typeParameters? h) fun _ _ => ?_
  refine steady_bind (steady_parameters h) fun _ _ => ?_
  exact steady_bind (steady_expectMark _) fun _ _ => steady_returnType h

@[grind ←] theorem steady_startsFunctionType : Steady source startsFunctionType := by
  unfold startsFunctionType
  grind

@[grind ←] theorem steady_signatureKey (h : ∀ goal, Steady source (self goal)) :
    Steady source (signatureKey self) := by
  unfold signatureKey
  grind

@[grind ←] theorem steady_memberEnd : Steady source memberEnd := by
  unfold memberEnd
  grind

@[grind ←] theorem steady_startsIndexSignature : Steady source startsIndexSignature := by
  unfold startsIndexSignature
  grind

@[grind ←] theorem steady_indexSignature (h : ∀ goal, Steady source (self goal)) :
    Steady source (indexSignature self) := by
  unfold indexSignature
  with_reducible repeat' refine steady_bind ?_ fun _ _ => ?_
  all_goals grind

@[grind ←] theorem steady_accessorSignature {start : Nat}
    (h : ∀ goal, Steady source (self goal)) (hstart : fits source start) :
    Steady source (accessorSignature self start) := by
  unfold accessorSignature
  with_reducible repeat' first
    | exact steady_signatureKey h
    | exact steady_annotation? h
    | exact steady_parameters h
    | exact steady_memberEnd
    | refine steady_bind ?_ fun _ _ => ?_
    | refine steady_ite ?_ ?_
  all_goals grind

@[grind ←] theorem steady_typeMember (h : ∀ goal, Steady source (self goal)) :
    Steady source (typeMember self) := by
  unfold typeMember
  with_reducible repeat' first
    | refine steady_bind ?_ fun _ _ => ?_
    | refine steady_iterate ?_ fun _ _ => ?_
    | refine steady_ite ?_ ?_
    | split
  all_goals grind

@[grind ←] theorem steady_typeMembers (h : ∀ goal, Steady source (self goal)) :
    Steady source (typeMembers self) := by
  unfold typeMembers
  refine steady_bind (steady_expectMark _) fun _ _ => ?_
  refine steady_bind (steady_itemsUntil _ (steady_typeMember h)) fun _ _ => ?_
  grind

@[grind ←] theorem steady_startsMappedType : Steady source startsMappedType := by
  unfold startsMappedType
  grind

@[grind ←] theorem steady_mappedType (h : ∀ goal, Steady source (self goal)) :
    Steady source (mappedType self) := by
  unfold mappedType
  with_reducible repeat' first
    | refine steady_bind ?_ fun _ _ => ?_
    | refine steady_ite ?_ ?_
  all_goals grind

@[grind ←] theorem steady_tupleElement (h : ∀ goal, Steady source (self goal)) :
    Steady source (tupleElement self) := by
  unfold tupleElement
  grind

@[grind ←] theorem steady_typeQuery (h : ∀ goal, Steady source (self goal)) :
    Steady source (typeQuery self) := by
  unfold typeQuery
  exact steady_bind steady_entityName fun _ _ => steady_typeArguments? h

@[grind ←] theorem steady_importType (h : ∀ goal, Steady source (self goal)) :
    Steady source (importType self) := by
  unfold importType
  with_reducible repeat' first
    | exact steady_typeArguments? h
    | refine steady_bind ?_ fun _ _ => ?_
  all_goals grind

@[grind ←] theorem steady_simpleType (h : ∀ goal, Steady source (self goal)) :
    Steady source (simpleType self) := by
  unfold simpleType
  have helements := steady_commaList .rbracket (steady_tupleElement h)
  with_reducible repeat' first
    | exact steady_importType h
    | exact steady_typeQuery h
    | exact steady_mappedType h
    | exact steady_typeMembers h
    | exact helements
    | refine steady_bind ?_ fun _ _ => ?_
    | refine steady_ite ?_ ?_
    | split
  all_goals grind

@[grind ←] theorem steady_postfixType (h : ∀ goal, Steady source (self goal)) :
    Steady source (postfixType self) := by
  unfold postfixType
  with_reducible repeat' first
    | exact steady_simpleType h
    | refine steady_bind ?_ fun _ _ => ?_
    | refine steady_iterate ?_ fun _ _ => ?_
  all_goals grind

@[grind ←] theorem steady_operatorType (h : ∀ goal, Steady source (self goal)) :
    Steady source (operatorType self) := by
  unfold operatorType
  with_reducible repeat' first
    | exact steady_postfixType h
    | refine steady_bind ?_ fun _ _ => ?_
    | refine steady_ite ?_ ?_
    | split
  all_goals grind

@[grind ←] theorem steady_joined {item : Parse Unit} (op : String) (h : Steady source item) :
    Steady source (joined op item) := by
  unfold joined
  grind

@[grind ←] theorem steady_plainType (h : ∀ goal, Steady source (self goal)) :
    Steady source (plainType self) := by
  unfold plainType
  have hfunction := steady_functionType h
  with_reducible repeat' first
    | exact steady_startsFunctionType
    | exact hfunction
    | refine steady_joined _ ?_
    | refine steady_bind ?_ fun _ _ => ?_
    | refine steady_ite ?_ ?_
  all_goals grind

@[grind ←] theorem steady_typeExpr (h : ∀ goal, Steady source (self goal)) :
    Steady source (typeExpr self) := by
  unfold typeExpr
  with_reducible repeat' first
    | exact steady_plainType h
    | exact steady_withReader _ (steady_plainType h)
    | refine steady_bind ?_ fun _ _ => ?_
    | refine steady_ite ?_ ?_
  all_goals grind

/-! ## Functions and classes -/

@[grind ←] theorem steady_functionBody (h : ∀ goal, Steady source (self goal))
    (isGenerator : Bool) : Steady source (functionBody self isGenerator) := by
  unfold functionBody
  grind

@[grind ←] theorem steady_functionTail {start : Nat} {ds : List Tree}
    (h : ∀ goal, Steady source (self goal)) (isAsync isGenerator : Bool)
    (hstart : fits source start) (hds : fits source ds) :
    Steady source (functionTail self start isAsync isGenerator ds) := by
  unfold functionTail
  have hbody := steady_functionBody h isGenerator
  refine steady_bind (steady_typeParameters? h) fun _ _ => ?_
  refine steady_bind (steady_withReader _ (steady_parameters h)) fun _ _ => ?_
  refine steady_bind (steady_returnAnnotation? h) fun _ _ => ?_
  refine steady_bind hbody fun _ _ => ?_
  grind

@[grind ←] theorem steady_methodTail {start : Nat} {ds : List Tree}
    (h : ∀ goal, Steady source (self goal)) (isAsync isGenerator : Bool)
    (hstart : fits source start) (hds : fits source ds) :
    Steady source (methodTail self start isAsync isGenerator ds) := by
  unfold methodTail
  exact steady_withReader _ (steady_functionTail h isAsync isGenerator hstart hds)

@[grind ←] theorem steady_arrowBody (h : ∀ goal, Steady source (self goal)) :
    Steady source (arrowBody self) := by
  unfold arrowBody
  grind

@[grind ←] theorem steady_functionDecl {start : Nat} {ds : List Tree}
    (h : ∀ goal, Steady source (self goal)) (isAsync : Bool) (hstart : fits source start)
    (hds : fits source ds) : Steady source (functionDecl self start isAsync ds) := by
  unfold functionDecl
  with_reducible repeat' first
    | refine steady_functionTail h _ _ ?_ ?_
    | refine steady_bind ?_ fun _ _ => ?_
  all_goals grind

@[grind ←] theorem steady_functionExpr {start : Nat} {ds : List Tree}
    (h : ∀ goal, Steady source (self goal)) (isAsync : Bool) (hstart : fits source start)
    (hds : fits source ds) : Steady source (functionExpr self start isAsync ds) := by
  unfold functionExpr
  with_reducible repeat' first
    | refine steady_functionTail h _ _ ?_ ?_
    | refine steady_bind ?_ fun _ _ => ?_
  all_goals grind

@[grind ←] theorem steady_startsMethod : Steady source startsMethod := by
  unfold startsMethod
  grind

@[grind ←] theorem steady_startsField (implied : Bool) : Steady source (startsField implied) := by
  unfold startsField
  grind

@[grind ←] theorem steady_eatMemberModifier (modifier : String) (sameLine : Bool) :
    Steady source (eatMemberModifier modifier sameLine) := by
  unfold eatMemberModifier
  grind

@[grind ←] theorem steady_eatTypedModifiers : Steady source eatTypedModifiers := by
  unfold eatTypedModifiers
  with_reducible repeat' first
    | exact steady_eatMemberModifier _ _
    | refine steady_bind ?_ fun _ _ => ?_
    | refine steady_iterate ?_ fun _ _ => ?_
    | refine steady_ite ?_ ?_
    | refine steady_forIn ?_ fun _ _ _ => ?_
  all_goals grind

@[grind ←] theorem steady_fieldTail {start : Nat} {key : Tree} {ds : List Tree}
    (h : ∀ goal, Steady source (self goal)) (isStatic : Bool) (hstart : fits source start)
    (hkey : fits source key) (hds : fits source ds) :
    Steady source (fieldTail self start isStatic key ds) := by
  unfold fieldTail
  with_reducible repeat' first
    | refine steady_bind ?_ fun _ _ => ?_
    | refine steady_ite ?_ ?_
  all_goals grind

@[grind ←] theorem steady_classMethodTail {start : Nat} {key : Tree} {ds : List Tree}
    (h : ∀ goal, Steady source (self goal)) (isStatic isAsync isGenerator : Bool)
    (hstart : fits source start) (hkey : fits source key) (hds : fits source ds) :
    Steady source (classMethodTail self start isStatic isAsync isGenerator key ds) := by
  unfold classMethodTail
  refine steady_bind (steady_methodTail h isAsync isGenerator hstart hds) fun _ _ => ?_
  grind

@[grind ←] theorem steady_constructorTail {start : Nat} {key : Tree}
    (h : ∀ goal, Steady source (self goal)) (hstart : fits source start)
    (hkey : fits source key) : Steady source (constructorTail self start key) := by
  unfold constructorTail
  refine steady_bind (steady_typeParameters? h) fun _ _ => steady_withReader _ ?_
  refine steady_bind (steady_parameters h) fun _ _ => ?_
  refine steady_bind (steady_returnAnnotation? h) fun _ _ => ?_
  refine steady_bind (steady_functionBody h false) fun _ _ => ?_
  grind

@[grind ←] theorem steady_memberFromKey {start : Nat} {ds : List Tree}
    (h : ∀ goal, Steady source (self goal)) (isStatic : Bool) (hstart : fits source start)
    (hds : fits source ds) : Steady source (memberFromKey self start isStatic ds) := by
  unfold memberFromKey
  with_reducible repeat' first
    | exact steady_memberKey h
    | exact steady_startsMethod
    | exact steady_startsField _
    | refine steady_classMethodTail h _ _ _ ?_ ?_ ?_
    | refine steady_constructorTail h ?_ ?_
    | refine steady_fieldTail h _ ?_ ?_ ?_
    | refine steady_bind ?_ fun _ _ => ?_
    | refine steady_ite ?_ ?_
  all_goals grind

@[grind ←] theorem steady_classMember (h : ∀ goal, Steady source (self goal)) :
    Steady source (classMember self) := by
  unfold classMember
  with_reducible repeat' first
    | exact steady_decorators h _
    | exact steady_eatMemberModifier _ _
    | exact steady_eatTypedModifiers
    | exact steady_startsIndexSignature
    | exact steady_indexSignature h
    | exact steady_memberEnd
    | refine steady_memberFromKey h _ ?_ ?_
    | refine steady_bind ?_ fun _ _ => ?_
    | refine steady_ite ?_ ?_
  all_goals grind

@[grind ←] theorem steady_classHeritage (h : ∀ goal, Steady source (self goal)) :
    Steady source (classHeritage self) := by
  unfold classHeritage
  with_reducible repeat' refine steady_bind ?_ fun _ _ => ?_
  all_goals grind

@[grind ←] theorem steady_implemented (h : ∀ goal, Steady source (self goal)) :
    Steady source (implemented self) := by
  unfold implemented
  with_reducible repeat' first
    | refine steady_bind ?_ fun _ _ => ?_
    | refine steady_iterate ?_ fun _ _ => ?_
    | refine steady_ite ?_ ?_
  all_goals grind

@[grind ←] theorem steady_classFrom {start : Nat} {ds : List Tree}
    (h : ∀ goal, Steady source (self goal)) (needsName : Bool) (kindOf : Option String → Kind)
    (hstart : fits source start) (hds : fits source ds) :
    Steady source (classFrom self start ds needsName kindOf) := by
  unfold classFrom
  with_reducible repeat' first
    | exact steady_typeParameters? h
    | exact steady_classHeritage h
    | exact steady_implemented h
    | exact steady_classMember h
    | refine steady_bind ?_ fun _ _ => ?_
    | refine steady_ite ?_ ?_
    | refine steady_withReader _ ?_
    | refine steady_iterate ?_ fun _ _ => ?_
  all_goals grind

@[grind ←] theorem steady_classDecl {start : Nat} {ds : List Tree}
    (h : ∀ goal, Steady source (self goal)) (hstart : fits source start) (hds : fits source ds) :
    Steady source (classDecl self start ds) := by
  unfold classDecl
  exact steady_classFrom h true _ hstart hds

@[grind ←] theorem steady_classExpr {start : Nat} {ds : List Tree}
    (h : ∀ goal, Steady source (self goal)) (hstart : fits source start) (hds : fits source ds) :
    Steady source (classExpr self start ds) := by
  unfold classExpr
  exact steady_classFrom h false _ hstart hds

/-! ## Lists and objects -/

@[grind ←] theorem steady_arrayLiteral (h : ∀ goal, Steady source (self goal)) :
    Steady source (arrayLiteral self) := by
  unfold arrayLiteral
  with_reducible repeat' first
    | refine steady_bind ?_ fun _ _ => ?_
    | refine steady_iterate ?_ fun _ _ => ?_
    | refine steady_withReader _ ?_
  all_goals grind

@[grind ←] theorem steady_accessor {start : Nat} (h : ∀ goal, Steady source (self goal))
    (kind : Kind) (hstart : fits source start) : Steady source (accessor self start kind) := by
  unfold accessor
  refine steady_bind (steady_propertyKey h) fun _ _ => steady_withReader _ ?_
  refine steady_bind (steady_typeParameters? h) fun _ _ => ?_
  refine steady_bind (steady_parameters h) fun _ _ => ?_
  refine steady_bind (steady_returnAnnotation? h) fun _ _ => ?_
  refine steady_bind (steady_functionBody h false) fun _ _ => ?_
  grind

@[grind ←] theorem steady_objectProperty (h : ∀ goal, Steady source (self goal)) :
    Steady source (objectProperty self) := by
  unfold objectProperty
  with_reducible repeat' first
    | exact steady_propertyKey h
    | refine steady_methodTail h _ _ ?_ ?_
    | refine steady_accessor h _ ?_
    | refine steady_bind ?_ fun _ _ => ?_
    | refine steady_ite ?_ ?_
    | split
  all_goals grind

@[grind ←] theorem steady_objectBody {start : Nat} (h : ∀ goal, Steady source (self goal))
    (hstart : fits source start) : Steady source (objectBody self start) := by
  unfold objectBody
  have hprops := steady_commaList .rbrace (steady_objectProperty h)
  refine steady_bind (steady_withReader _ hprops) fun _ _ => ?_
  grind

@[grind ←] theorem steady_objectLiteral (h : ∀ goal, Steady source (self goal)) :
    Steady source (objectLiteral self) := by
  unfold objectLiteral
  refine steady_bind steady_here fun _ hstart => ?_
  exact steady_bind (steady_expectMark _) fun _ _ => steady_objectBody h hstart

@[grind ←] theorem steady_templateLiteral (h : ∀ goal, Steady source (self goal)) :
    Steady source (templateLiteral self) := by
  unfold templateLiteral
  grind

@[grind ←] theorem steady_taggedTemplate {start : Nat} {tag : Tree}
    (h : ∀ goal, Steady source (self goal)) (hstart : fits source start)
    (htag : fits source tag) : Steady source (taggedTemplate self start tag) := by
  unfold taggedTemplate
  grind

end TextHarvest.Script.Grammar
