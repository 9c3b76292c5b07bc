import TextHarvest.Json.Value
import TextHarvest.Options

/-!
# Options as JSON

The form of the configuration file: an object whose fields are all optional, or a list of values in
the order of the fields. Unknown fields are ignored, a field that is given twice is an error.
-/

namespace TextHarvest

namespace Decode

/-- A reader of one value; `none` when the value has the wrong form. -/
abbrev Reader (α : Type) := Json → Option α

def string : Reader String := Json.str?

def bool : Reader Bool := Json.bool?

/-- A whole number of at most 64 bits without a sign. -/
def word : Reader Nat := Json.nat?

def strings : Reader (List String) := Json.strs?

/-- A value that may be null. -/
def nullable {α : Type} (r : Reader α) : Reader (Option α)
  | .null => some none
  | j => (r j).map some

/-- Puts an entry in its place among entries sorted by key; the last value of a key counts. -/
def insertSorted (k v : String) : List (String × String) → List (String × String)
  | [] => [(k, v)]
  | e :: es =>
    if k == e.1 then (k, v) :: es
    else if k < e.1 then (k, v) :: e :: es
    else e :: insertSorted k v es

/-- An object of strings, sorted by key. -/
def stringMap : Reader (List (String × String))
  | .obj fields => do
    let es ← fields.mapM fun f => (f.2.str?).map (f.1, ·)
    return es.foldl (fun acc e => insertSorted e.1 e.2 acc) []
  | _ => none

/-- The fields of a record: each name at most once, or by position. -/
structure Fields where
  get : String → Nat → Option Json

/-- The fields of an object or of a list; `none` when a known name is repeated, when a list is too
long, and for any other value. -/
def fields? (names : List String) : Json → Option Fields
  | .obj fs =>
    if names.all fun n => (fs.filter (·.1 == n)).length ≤ 1 then
      some ⟨fun n _ => fs.lookup n⟩
    else none
  | .arr items => if items.length ≤ names.length then some ⟨fun _ i => items[i]?⟩ else none
  | _ => none

/-- A field with a default. -/
def Fields.withDefault {α : Type} (f : Fields) (names : List String) (n : String) (r : Reader α)
    (default : α) : Option α :=
  match f.get n (names.idxOf n) with
  | some j => r j
  | none => some default

/-- A field that has to be there. -/
def Fields.required {α : Type} (f : Fields) (names : List String) (n : String) (r : Reader α) :
    Option α :=
  (f.get n (names.idxOf n)).bind r

end Decode

namespace Service

/-- The settings of a service, given its type and the other fields. -/
def ofFields? (type : String) (rest : Json) : Option Service :=
  match type with
  | "google" => do
    let names := ["proxy", "baseUrl"]
    let f ← Decode.fields? names rest
    let proxy ← f.withDefault names "proxy" (Decode.nullable Decode.string) none
    let baseUrl ← f.withDefault names "baseUrl" (Decode.nullable Decode.string) none
    return .google proxy baseUrl
  | "openai" => do
    let names := ["apiKey", "model", "baseUrl"]
    let f ← Decode.fields? names rest
    let apiKey ← f.withDefault names "apiKey" (Decode.nullable Decode.string) none
    let model ← f.withDefault names "model" Decode.string "gpt-4o-mini"
    let baseUrl ← f.withDefault names "baseUrl" (Decode.nullable Decode.string) none
    return .openai apiKey model baseUrl
  | "baidu" => do
    let (appId, appKey, proxy, baseUrl, interval) ← signed
    return .baidu appId appKey proxy baseUrl interval
  | "youdao" => do
    let (appId, appKey, proxy, baseUrl, interval) ← signed
    return .youdao appId appKey proxy baseUrl interval
  | "empty" => some .empty
  | _ => none
where
  /-- The settings of a service that signs its requests. -/
  signed : Option (String × String × Option String × Option String × Nat) := do
    let names := ["appId", "appKey", "proxy", "baseUrl", "interval"]
    let f ← Decode.fields? names rest
    let appId ← f.required names "appId" Decode.string
    let appKey ← f.required names "appKey" Decode.string
    let proxy ← f.withDefault names "proxy" (Decode.nullable Decode.string) none
    let baseUrl ← f.withDefault names "baseUrl" (Decode.nullable Decode.string) none
    let interval ← f.withDefault names "interval" Decode.word 1000
    return (appId, appKey, proxy, baseUrl, interval)

/-- Reads a service. The field `type` says which one it is. -/
def ofJson? : Json → Option Service
  | .obj fs =>
    match fs.filter (·.1 == "type") with
    | [(_, .str type)] => ofFields? type (.obj (fs.filter (·.1 != "type")))
    | _ => none
  | .arr (.str type :: items) => ofFields? type (.arr items)
  | _ => none

/-- A field that is left out when it has no value. -/
def optionalField (n : String) : Option String → List (String × Json)
  | some s => [(n, .str s)]
  | none => []

/-- The fields of a service that signs its requests. -/
def signedFields (type appId appKey : String) (proxy baseUrl : Option String) (interval : Nat) :
    Json :=
  .obj ([("type", .str type), ("appId", .str appId), ("appKey", .str appKey)]
    ++ optionalField "proxy" proxy ++ optionalField "baseUrl" baseUrl
    ++ [("interval", .nat interval)])

def toJson : Service → Json
  | .google proxy baseUrl =>
    .obj (("type", .str "google") :: optionalField "proxy" proxy ++ optionalField "baseUrl" baseUrl)
  | .openai apiKey model baseUrl =>
    .obj (("type", .str "openai") :: optionalField "apiKey" apiKey
      ++ ("model", .str model) :: optionalField "baseUrl" baseUrl)
  | .baidu appId appKey proxy baseUrl interval =>
    signedFields "baidu" appId appKey proxy baseUrl interval
  | .youdao appId appKey proxy baseUrl interval =>
    signedFields "youdao" appId appKey proxy baseUrl interval
  | .empty => .obj [("type", .str "empty")]

end Service

namespace Options

/-- The names of the fields in the configuration file, in order. -/
def fieldNames : List String :=
  ["translateKey", "jsxElement", "jsx", "rewrite", "extractFromText", "autoImportI18n",
    "autoTranslate", "cleanTranslate", "keepRaw", "keepDefaultMsg", "enabled",
    "outputJsonInPlugin", "outputJsonDebounceMs", "translateInterval", "excludedCall",
    "includePath", "excludedPath", "allowedExtensions", "fromLang", "translateLangKeys",
    "i18nPkgImportPath", "outputPath", "langFileName", "keyLength", "langPatterns",
    "formatCommand", "translator"]

/-- Reads options; `none` when a value has the wrong form. -/
def ofJson? (j : Json) : Option Options := do
  let f ← Decode.fields? fieldNames j
  let d : Options := {}
  -- what is absent has the default of a record without fields
  let get {α : Type} (n : String) (r : Decode.Reader α) (default : α) : Option α :=
    f.withDefault fieldNames n r default
  let translateKey ← get "translateKey" Decode.string d.translateKey
  let jsxElement ← get "jsxElement" Decode.string d.jsxElement
  let jsx ← get "jsx" Decode.bool d.jsx
  let replaceTexts ← get "rewrite" Decode.bool d.replaceTexts
  let extractFromText ← get "extractFromText" Decode.bool d.extractFromText
  let autoImport ← get "autoImportI18n" Decode.bool d.autoImport
  let autoTranslate ← get "autoTranslate" Decode.bool d.autoTranslate
  let cleanTranslate ← get "cleanTranslate" Decode.bool d.cleanTranslate
  let keepRaw ← get "keepRaw" Decode.bool d.keepRaw
  let keepDefaultMsg ← get "keepDefaultMsg" Decode.bool d.keepDefaultMsg
  let enabled ← get "enabled" Decode.bool d.enabled
  let outputInSession ← get "outputJsonInPlugin" Decode.bool d.outputInSession
  let outputDelay ← get "outputJsonDebounceMs" Decode.word d.outputDelay
  let translateInterval ← get "translateInterval" Decode.word d.translateInterval
  let excludedCalls ← get "excludedCall" Decode.strings d.excludedCalls
  let includePaths ← get "includePath" Decode.strings d.includePaths
  let excludedPaths ← get "excludedPath" Decode.strings d.excludedPaths
  let allowedExtensions ← get "allowedExtensions" Decode.strings d.allowedExtensions
  let fromLang ← get "fromLang" Decode.string d.fromLang
  let targetLangs ← get "translateLangKeys" Decode.strings d.targetLangs
  let importPath ← get "i18nPkgImportPath" Decode.string d.importPath
  let outputPath ← get "outputPath" Decode.string d.outputPath
  let langFileName ← get "langFileName" Decode.string d.langFileName
  let keyLength ← get "keyLength" Decode.word d.keyLength
  let langPatterns ← get "langPatterns" Decode.stringMap d.langPatterns
  let formatCommand ← get "formatCommand" (Decode.nullable Decode.strings) d.formatCommand
  let service ← get "translator" Service.ofJson? d.service
  return { translateKey, jsxElement, jsx, replaceTexts, extractFromText, autoImport, autoTranslate,
           cleanTranslate, keepRaw, keepDefaultMsg, enabled, outputInSession, outputDelay,
           translateInterval, excludedCalls, includePaths, excludedPaths, allowedExtensions,
           fromLang, targetLangs, importPath, outputPath, langFileName, keyLength, langPatterns,
           formatCommand, service }

/-- The values of the fields, in the order of their names. -/
def fieldValues (o : Options) : List Json :=
  [.str o.translateKey, .str o.jsxElement, .bool o.jsx, .bool o.replaceTexts, .bool o.extractFromText,
    .bool o.autoImport, .bool o.autoTranslate, .bool o.cleanTranslate, .bool o.keepRaw,
    .bool o.keepDefaultMsg, .bool o.enabled, .bool o.outputInSession, .nat o.outputDelay,
    .nat o.translateInterval, .strs o.excludedCalls, .strs o.includePaths, .strs o.excludedPaths,
    .strs o.allowedExtensions, .str o.fromLang, .strs o.targetLangs, .str o.importPath,
    .str o.outputPath, .str o.langFileName, .nat o.keyLength,
    .obj (o.langPatterns.map fun e => (e.1, .str e.2)), .opt .strs o.formatCommand,
    o.service.toJson]

/-- Options in the form of the configuration file. -/
def toJson (o : Options) : Json :=
  .obj (fieldNames.zip o.fieldValues)

end Options

end TextHarvest
