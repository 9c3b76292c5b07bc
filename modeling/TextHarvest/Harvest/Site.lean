import TextHarvest.Finding
import TextHarvest.Harvester
import TextHarvest.Harvest.Chunk
import TextHarvest.Harvest.Render
import TextHarvest.Text.Entity

/-!
# What is done at one place of a script

The decisions about a single literal, template chunk, text of an element or argument, apart from
how a walk gets there. All that matters about the surroundings is the innermost call that is not
cut off by a function, and the slot in which a literal stands.
-/

namespace TextHarvest.Harvest

open Script

/-- Where a literal stands, which decides how its replacement is written. -/
inductive Slot where
  | plain
  /-- The value of an attribute of an element. -/
  | attribute
  /-- A property of a node of compiled render code. -/
  | property
  /-- The text of a text node of compiled render code. -/
  | text (sole : Bool)
  deriving DecidableEq, Repr

/-- The surroundings of a place. -/
structure Site where
  harvester : Harvester
  /-- The source, by characters. -/
  source : List Char
  /-- The quote of generated literals. -/
  quote : Quote
  /-- The innermost call around the place, by its path. -/
  call : Option String := none

namespace Site

def options (site : Site) : Options :=
  site.harvester.options

/-- The same place as an argument of a call. -/
def within (site : Site) (call : Option String) : Site :=
  { site with call }

/-- Whether display texts are taken at this place. -/
def takesTexts (site : Site) : Bool :=
  site.options.extractFromText && !site.harvester.exclusion.isExcluded .value site.call

/-- Whether a literal with this value is taken at this place. -/
def takesLiteral (site : Site) (value : String) : Bool :=
  site.takesTexts && site.harvester.accepts (Text.trim value)

/-- Files a text and records it. -/
def file (site : Site) (text : String) (surface : Surface) : List Action :=
  [.file (site.harvester.keyFor text) text, .record ⟨text, surface, false⟩]

/-- The call that stands for a text. -/
def callOf (site : Site) (text : String) (quote : Quote) (inRender : Bool) : String :=
  site.harvester.callText (site.harvester.keyFor text) text quote inRender

/-- What replaces a literal. -/
def replacement (site : Site) (text : String) : Slot → String
  | .plain => site.callOf text site.quote false
  | .attribute => "\x7b" ++ site.callOf text site.quote false ++ "\x7d"
  | .property => site.callOf text site.quote true
  | .text false => site.callOf text site.quote true
  | .text true => site.callOf text site.quote true ++ ", " ++ Nat.repr textFlag

/-- A string literal. -/
def literal (site : Site) (span : Span) (value : Option String) (slot : Slot) : List Action :=
  match value with
  | some v =>
    if site.takesLiteral v then
      let text := Text.trim v
      site.file text .stringLiteral ++ [.replace span (site.replacement text slot)]
    else []
  | none => []

/-- A chunk of a template literal. -/
def chunk (site : Site) (c : Chunk) : List Action :=
  match c.cooked with
  | none => []
  | some cooked =>
    let text := Text.trim cooked
    if site.harvester.accepts text && Chars.slice? site.source c.span == some c.raw.toList then
      match writtenSpan? c.raw.toList cooked.toList with
      | some inner =>
        site.file text .templateSegment ++
          [.replace (inner.shift c.span.start) ("$\x7b" ++ site.callOf text .single false ++ "\x7d")]
      | none => []
    else []

/-- The chunks of a template literal. -/
def chunks (site : Site) (cs : List Chunk) : List Action :=
  if site.takesTexts then cs.flatMap site.chunk else []

/-! ## Arguments of the lookup function -/

/-- The constant first argument of a call of the lookup function. A key of an earlier harvest
stays and is filed again; any other text is filed and replaced by its key. -/
def constantArgument (site : Site) (span : Span) (value : Option String) (count : Nat) :
    List Action :=
  match value.map Text.trim with
  | none => []
  | some text =>
    if text == "" then []
    else
      match site.harvester.knownText text with
      -- a key that is known already stays as it is, with the text it had
      | some known => [.file text known]
      | none =>
        if site.harvester.accepts text then
          let message :=
            if site.options.keepDefaultMsg && count == 1 then ", " ++ Text.quoted text site.quote
            else ""
          site.file text .lookupArgument ++
            [.replace span (Text.quoted (site.harvester.keyFor text) site.quote ++ message)]
        else []

/-- A template with substitutions as the first argument of the lookup function. -/
def dynamicArgument (site : Site) (span : Span) : List Action :=
  [.record ⟨String.ofList ((Chars.slice? site.source span).getD []), .lookupArgument, true⟩]

/-! ## Elements -/

/-- The written value of an attribute; in plain quotes when nothing needs an escape. -/
def attributeValue (text : String) : String :=
  if text.toList.any fun c =>
      c == '\x22' || c == '\x7b' || c == '\x7d' || c == '<' || c == '>' || c == '&' || c == '\n' then
    "\x7b" ++ Text.quoted text .double ++ "\x7d"
  else "\x22" ++ text ++ "\x22"

/-- The wrapper element that stands for a text. -/
def wrapper (site : Site) (text : String) : String :=
  let message := if site.options.keepDefaultMsg then " msg=" ++ attributeValue text else ""
  "<" ++ site.options.jsxElement ++ " id=" ++ Text.quoted (site.harvester.keyFor text) .double ++
    message ++ " />"

/-- The text between the tags of an element. -/
def elementText (site : Site) (span : Span) : List Action :=
  if site.takesTexts then
    match Chars.slice? site.source span with
    | none => []
    | some raw =>
      -- accepted is what a reader sees: blanks collapsed, references decoded
      let text := Text.decodeEntities (Text.collapse (String.ofList raw))
      match Chars.trimmedSpan? raw with
      | some inner =>
        if site.harvester.accepts text then
          let place := inner.shift span.start
          site.file text .elementText ++
            (if site.options.jsx then [.useWrapper, .replace place (site.wrapper text)]
            else [.replace place ("\x7b" ++ site.callOf text site.quote false ++ "\x7d")])
        else []
      | none => []
  else []

/-- The constant text of an attribute, written as a string or as an expression. -/
def attributeText? : List Tree → Option String
  | [.node (.markupString value) _ _] => some value
  | [.node .container _ [e]] => e.constant?
  | _ => none

/-- The last attribute of a name: its constant text, if it has one, and its span. -/
def lastAttribute (name : String) (attributes : List Tree) : Option (String × Span) :=
  attributes.foldl (fun found t =>
    match t with
    | .node (.attribute (.plain n)) span value =>
      if n == name then (attributeText? value).map fun text => (text, span) else found
    | _ => found) none

/-- What removes the message of a wrapper element, with the blanks before it, unless messages are
kept. The source is cut where the message starts; there is no answer when that is inside a
character. -/
def removal? (site : Site) (span : Span) : Option (List Action) :=
  if site.options.keepDefaultMsg then some []
  else
    (Chars.splitAt? site.source span.start).map fun (before, _) =>
      [.replace ⟨Chars.size (Chars.trimEnd before), span.stop⟩ ""]

/-- A wrapper element as written by an author: it gets an identifier, its message is filed, and the
message is removed unless messages are kept. -/
def wrapperElement (site : Site) (nameEnd : Nat) (attributes : List Tree) : List Action :=
  match lastAttribute "msg" attributes with
  | none => []
  | some (message, span) =>
    let text := Text.trim message
    if text == "" then []
    else
      let removal := (site.removal? span).getD []
      match lastAttribute "id" attributes with
      -- an authored id is the key, also when it is not the one of the text
      | some (id, _) => .file id text :: removal
      | none =>
        let key := site.harvester.keyFor text
        [.record ⟨text, .wrapperElement, false⟩,
          .insert nameEnd (" id=" ++ Text.quoted key .double), .file key text] ++ removal

/-- Whether a wrapper element as written by an author stops the program: its message is to be
removed, and the cut has no answer. -/
def stopsAt (site : Site) (attributes : List Tree) : Bool :=
  match lastAttribute "msg" attributes with
  | none => false
  | some (message, span) => Text.trim message != "" && (site.removal? span).isNone

end Site

end TextHarvest.Harvest
