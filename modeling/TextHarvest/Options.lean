import TextHarvest.Key
import TextHarvest.Text.Blank

/-!
# Options

What a run may be told: how texts are found and replaced, where sources and locale files are, and
which translator fills the locale files.
-/

namespace TextHarvest

/-- A translator and its settings. -/
inductive Service where
  | google (proxy baseUrl : Option String)
  | openai (apiKey : Option String) (model : String) (baseUrl : Option String)
  | baidu (appId appKey : String) (proxy baseUrl : Option String) (interval : Nat)
  | youdao (appId appKey : String) (proxy baseUrl : Option String) (interval : Nat)
  | empty
  deriving DecidableEq, Repr

/-- All options of a run. -/
structure Options where
  translateKey : String := "$t"
  jsxElement : String := "Trans"
  jsx : Bool := false
  replaceTexts : Bool := false
  extractFromText : Bool := true
  autoImport : Bool := true
  autoTranslate : Bool := true
  cleanTranslate : Bool := true
  keepRaw : Bool := false
  keepDefaultMsg : Bool := false
  enabled : Bool := true
  outputInSession : Bool := true
  outputDelay : Nat := 2000
  translateInterval : Nat := 1000
  excludedCalls : List String := []
  includePaths : List String := ["src/"]
  excludedPaths : List String := []
  allowedExtensions : List String := [".vue", ".nvue", ".uvue", ".tsx", ".ts", ".jsx", ".js"]
  fromLang : String := "zh-cn"
  targetLangs : List String := ["zh-tw", "en"]
  importPath : String := "@/i18n"
  outputPath : String := "src/i18n"
  langFileName : String := "\x7blang\x7d"
  keyLength : Nat := Key.defaultLength
  langPatterns : List (String × String) := []
  formatCommand : Option (List String) := none
  service : Service := .google none none
  deriving DecidableEq, Repr

namespace Options

/-- What stands for the language in the name of a locale file. -/
def langPlaceholder : List Char :=
  ['\x7b', 'l', 'a', 'n', 'g', '\x7d']

end Options

namespace Text

/-- Replaces every occurrence of `mark`, from left to right; `skip` characters belong to an
occurrence that was just replaced. -/
def substituteFrom (mark value : List Char) : List Char → Nat → List Char
  | [], _ => []
  | _ :: cs, skip + 1 => substituteFrom mark value cs skip
  | c :: cs, 0 =>
    if mark.isPrefixOf (c :: cs) then value ++ substituteFrom mark value cs (mark.length - 1)
    else c :: substituteFrom mark value cs 0

/-- Whether a text occurs in another. -/
def occursIn (mark : List Char) : List Char → Bool
  | [] => mark.isEmpty
  | c :: cs => mark.isPrefixOf (c :: cs) || occursIn mark cs

end Text

namespace Options

/-- The name of the locale file of a language. -/
def localeFileName (o : Options) (lang : String) : String :=
  String.ofList (Text.substituteFrom langPlaceholder lang.toList o.langFileName.toList 0) ++ ".json"

end Options

end TextHarvest
