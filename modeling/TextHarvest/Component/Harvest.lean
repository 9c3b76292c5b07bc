import TextHarvest.Component.Bytes
import TextHarvest.Component.Directive
import TextHarvest.Harvest.Script

/-!
# Harvesting components

The scripts of a component are harvested as scripts. In its template, texts and plain attributes
become interpolations and bound attributes, and the expressions of interpolations and directives
are harvested in place.
-/

namespace TextHarvest

namespace Harvest

/-- Takes over the harvest of a part of the file that starts at `offset`. -/
def absorb (h part : Harvest) (offset : Nat) : Harvest where
  patch := h.patch.absorb part.patch offset
  catalog := h.catalog.merge part.catalog
  findings := h.findings ++ part.findings
  usesWrapper := h.usesWrapper || part.usesWrapper

end Harvest

/-- The harvest of a component and what went wrong on the way. -/
structure ComponentHarvest where
  harvest : Harvest := {}
  issues : List Issue := []

namespace Component

/-- A literal of a template is recorded by where it stood; other findings stay what they are. -/
def relabel (surface : Surface) (f : Finding) : Finding :=
  if f.surface = .stringLiteral then { f with surface } else f

/-- Double braces around an expression. -/
def interpolated (expr : String) : String :=
  "\x7b\x7b " ++ expr ++ " \x7d\x7d"

/-- Harvests an expression of a template: the actions it comes to, and the new expression when it
changes. An expression that does not parse is left alone, and the findings of one that needs no
edit are not recorded. -/
def harvestExpr (h : Harvester) (code : String) (quote : Quote) (surface : Surface) :
    List Action × Option String :=
  match h.harvestExpr code quote with
  | .error _ => ([], none)
  | .ok harvest =>
    let filed := harvest.catalog.entries.map fun e => Action.file e.1 e.2
    if harvest.patch.isEmpty then (filed, none)
    else
      let changed := harvest.patch.apply code
      (filed ++ harvest.findings.map fun f => .record (relabel surface f),
        if changed == code then none else some changed)

/-- The actions for an expression, with an edit when it changes. -/
def withEdit (result : List Action × Option String) (edit : String → Edit) : List Action :=
  match result with
  | (actions, some code) => actions ++ [.edit (edit code)]
  | (actions, none) => actions

/-- A run of text. -/
def harvestText (h : Harvester) (text : String) (span : Span) : List Action :=
  let display := Text.decodeEntities (Text.collapse text)
  if h.options.extractFromText && h.accepts display then
    match Text.trimmedSpan? text with
    | some inner =>
      withEdit (harvestExpr h (Text.quoted display .single) .single .markupText) fun code =>
        ⟨inner.shift span.start, interpolated code⟩
    | none => []
  else []

/-- An expression on one line, without blanks at its ends. -/
def onOneLine (expr : String) : String :=
  Text.trim (String.ofList (expr.toList.map fun c => if c == '\r' || c == '\n' then ' ' else c))

/-- An interpolation. -/
def harvestInterpolation (h : Harvester) (expr : String) (span : Span) : List Action :=
  let code := onOneLine expr
  if code == "" then []
  else
    withEdit (harvestExpr h code .single .markupInterpolation) fun code =>
      ⟨span, interpolated code⟩

/-- A plain attribute becomes a bound one. -/
def harvestPlainAttribute (h : Harvester) (name text : String) (span : Span) : List Action :=
  let text := Text.trim text
  if h.options.extractFromText && h.accepts text then
    withEdit (harvestExpr h (Text.quoted text .single) .single .markupAttribute) fun code =>
      ⟨span, ":" ++ name ++ "=\x22" ++ code ++ "\x22"⟩
  else []

/-- The directives whose expressions hold no display texts. -/
def isSkipped (d : Directive) : Bool :=
  Exclusion.isStructuralDirective d.name || (d.name == "bind" && d.argument == some "key")

/-- The expression of a directive. Generated literals are written in the quote that the attribute
does not use. -/
def harvestDirective (h : Harvester) (d : Directive) (value : AttributeValue) : List Action :=
  let code := Text.trim value.text
  if isSkipped d || code == "" then []
  else
    let quote : Quote := if value.quote == some '\x27' then .double else .single
    withEdit (harvestExpr h code quote .markupAttribute) fun changed =>
      if value.quote.isSome then
        let start := value.span.start + Chars.size (value.text.toList.takeWhile Chars.isBlank)
        ⟨⟨start, start + code.utf8ByteSize⟩, changed⟩
      else ⟨value.span, "\x22" ++ changed ++ "\x22"⟩

/-- The actions for one part of a template. -/
def harvestNode (h : Harvester) : Node → List Action
  | .text text span => harvestText h text span
  | .interpolation expr span _ => harvestInterpolation h expr span
  | .attribute attr =>
    match attr.value with
    | none => []
    | some value =>
      match Directive.ofName? attr.name with
      | some d => harvestDirective h d value
      | none => harvestPlainAttribute h attr.name value.text attr.span

/-- Whether a template is written in plain markup. -/
def isPlainTemplate (template : Block) : Bool :=
  template.lang.all fun lang => lang.toList.map Char.toLower == "html".toList

/-- The harvest of a template. -/
def harvestTemplate (h : Harvester) (template : Block) : Harvest :=
  if isPlainTemplate template then
    Harvest.ofActions ((nodes template.content template.offset).flatMap (harvestNode h))
  else {}

/-- Harvests scripts one after the other; only the first that yields a text gets the import. -/
def harvestScripts (h : Harvester) (source file : String) :
    List Block → Bool → ComponentHarvest → ComponentHarvest
  | [], _, out => out
  | block :: rest, injected, out =>
    match h.harvestScript block.content (.ofName block.lang) !injected with
    | .ok script =>
      -- the first script with texts gets the import, the others rely on it
      harvestScripts h source file rest (injected || !script.harvest.catalog.isEmpty)
        { harvest := out.harvest.absorb script.harvest block.offset
          issues := out.issues ++ script.issues file }
    | .error e =>
      harvestScripts h source file rest injected
        -- a script that cannot be parsed is reported and left as it is
        { out with
          issues := out.issues ++
            [.ofParseError file source (some (block.offset + e.offset)) e.message] }

end Component

/-- Harvests a component: its setup script, its other script, then its template. -/
def Harvester.harvestComponent (h : Harvester) (source file : String) :
    Except Component.BlockError ComponentHarvest :=
  (Component.split source).map fun blocks =>
    let scripts := blocks.scripts.filter (·.setup) ++ blocks.scripts.filter (!·.setup)
    let out := Component.harvestScripts h source file scripts false {}
    match blocks.template with
    | some template =>
      { out with harvest := out.harvest.absorb (Component.harvestTemplate h template) 0 }
    | none => out

/-! ## Where the program stops -/

namespace Component

/-- The expression that an author wrote in a part of a template, when it is harvested. Texts and
plain attributes become literals, in which the program cannot stop. -/
def writtenExpr? : Node → Option String
  | .text .. => none
  | .interpolation expr _ _ => some (onOneLine expr)
  | .attribute attr =>
    match attr.value, Directive.ofName? attr.name with
    | some value, some d => if isSkipped d then none else some (Text.trim value.text)
    | _, _ => none

/-- Whether the program stops in a template: at a cut inside a character, be it in the markup or in
one of its expressions. -/
def stopsInTemplate (h : Harvester) (template : Block) : Bool :=
  isPlainTemplate template &&
    match Bytes.nodes template.content template.offset with
    | none => true
    | some nodes =>
      (nodes.filterMap writtenExpr?).any fun code => (h.harvestExpr? code .single).isNone

/-- Whether the program stops in a component. -/
def stopsInComponent (h : Harvester) (source : String) : Bool :=
  match Bytes.split source with
  | none => true
  | some (.error _) => false
  | some (.ok blocks) =>
    (blocks.scripts.any fun block =>
      (h.harvestScript? block.content (.ofName block.lang) true).isNone) ||
      blocks.template.any (stopsInTemplate h)

end Component

/-- The harvest of a component, unless the program stops in it. -/
def Harvester.harvestComponent? (h : Harvester) (source file : String) :
    Option (Except Component.BlockError ComponentHarvest) :=
  if Component.stopsInComponent h source then none else some (h.harvestComponent source file)

end TextHarvest
