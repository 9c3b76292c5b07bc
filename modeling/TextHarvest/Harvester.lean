import TextHarvest.Catalog
import TextHarvest.Classifier
import TextHarvest.Exclusion
import TextHarvest.Options
import TextHarvest.Text.Quoted

/-!
# Harvesters

A harvester decides which texts are taken and under which keys they are filed. It is set up from
options; the test for texts and the making of keys can be exchanged.
-/

namespace TextHarvest

/-- The rules by which texts are taken and filed. -/
structure Harvester where
  options : Options
  exclusion : Exclusion
  /-- Whether a text that is not empty is in a language. -/
  inLanguage : String → String → Bool
  /-- The key of a text. -/
  makeKey : String → String
  /-- The keys of earlier harvests, with their texts. -/
  known : Catalog
  /-- Whether changed code is handed out. -/
  emitsCode : Bool

namespace Harvester

/-- The harvester that options describe. -/
def ofOptions (options : Options) : Except Classifier.BadPattern Harvester :=
  (Classifier.withPatterns options.langPatterns).map fun classifier =>
    { options
      exclusion := ⟨options.excludedCalls, options.translateKey⟩
      inLanguage := classifier.accepts
      makeKey := fun text => Key.ofText text options.keyLength
      known := .empty
      emitsCode := options.replaceTexts }

/-- The same harvester with the catalog of earlier harvests. -/
def withKnown (h : Harvester) (known : Catalog) : Harvester :=
  { h with known }

/-- The same harvester, handing out changed code or not. -/
def withCode (h : Harvester) (emitsCode : Bool) : Harvester :=
  { h with emitsCode }

/-- Whether a text is to be taken. -/
def accepts (h : Harvester) (text : String) : Bool :=
  text != "" && h.inLanguage text h.options.fromLang

/-- The key under which a text is filed. -/
def keyFor (h : Harvester) (text : String) : String :=
  if h.options.keepRaw then text else h.makeKey text

/-- The text of a key of an earlier harvest. -/
def knownText (h : Harvester) (key : String) : Option String :=
  h.known.get? key

/-- A call of the lookup function with a key; `inRender` when it stands in compiled render
code, where the function is a member of the context. -/
def callText (h : Harvester) (key text : String) (quote : Quote) (inRender : Bool) : String :=
  let message := if h.options.keepDefaultMsg then ", " ++ Text.quoted text quote else ""
  (if inRender then "_ctx." else "") ++ h.options.translateKey ++ "(" ++ Text.quoted key quote ++
    message ++ ")"

end Harvester

end TextHarvest
