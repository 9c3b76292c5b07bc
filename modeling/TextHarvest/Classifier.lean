import TextHarvest.Pattern.Reader
import TextHarvest.Text.Casing

/-!
# Languages of texts

A classifier says whether a text is in the language of the sources, by one pattern for each
language. A language without a pattern of its own is judged by the pattern for Chinese.
-/

namespace TextHarvest

/-- Patterns under the lower-case names of their languages. -/
structure Classifier where
  patterns : List (String × Pattern)

namespace Classifier

/-- The language whose pattern stands in for a missing one. -/
def fallbackLang : String := "zh-cn"

/-- The set of letters of Russian. -/
def russianLetters : List (Nat × Nat) :=
  [(0x430, 0x44f), (0x451, 0x451), (0x410, 0x42f), (0x401, 0x401)]

/-- The languages that are known from the start. -/
def builtin : Classifier where
  patterns := [
    ("zh-cn", .set (.ranges [(0x4e00, 0x9fff)])),
    ("en", .set (.ranges [(97, 122), (65, 90)])),
    ("ja", .set (.ranges [(0x3040, 0x309f), (0x30a0, 0x30ff), (0x4e00, 0x9fff)])),
    ("ko", .set (.ranges [(0xac00, 0xd7a3)])),
    ("ru", .set (.ranges russianLetters))]

/-- A pattern that cannot be read. -/
structure BadPattern where
  lang : String
  pattern : String

def BadPattern.message (b : BadPattern) : String :=
  "Invalid language pattern for '" ++ b.lang ++ "': " ++ b.pattern

/-- Sets the pattern of a language. -/
def setPattern (c : Classifier) (lang : String) (p : Pattern) : Classifier :=
  ⟨(lang, p) :: c.patterns.filter (·.1 != lang)⟩

/-- Registers the written pattern of a language. -/
def register (c : Classifier) (lang pattern : String) : Except BadPattern Classifier :=
  match Pattern.parse? pattern with
  | some p => .ok (c.setPattern (Text.toLower lang) p)
  | none => .error ⟨lang, pattern⟩

/-- The builtin languages with further patterns. -/
def withPatterns (patterns : List (String × String)) : Except BadPattern Classifier :=
  patterns.foldlM (fun c e => c.register e.1 e.2) builtin

/-- Whether a language has a pattern of its own. -/
def hasPattern (c : Classifier) (lang : String) : Bool :=
  (c.patterns.lookup (Text.toLower lang)).isSome

/-- Whether a text that is not blank is in a language. -/
def accepts (c : Classifier) (text lang : String) : Bool :=
  if Text.isBlank text then false
  else
    match (c.patterns.lookup (Text.toLower lang)).or (c.patterns.lookup fallbackLang) with
    | some p => p.isMatch text
    | none => false

end Classifier

end TextHarvest
