import TextHarvest.Digest.Md5
import TextHarvest.Digest.Sha256
import TextHarvest.Json.Reader
import TextHarvest.Json.Writer
import TextHarvest.Options.Encoding
import TextHarvest.Translator.Basic
import TextHarvest.Translator.Http

/-!
# Translators by their settings

Each service has a way of writing a request and of reading a reply. Sending is left to whoever runs
the translator: the functions here say what is sent and what a reply means.
-/

namespace TextHarvest

/-- Why a translator cannot be set up. -/
inductive ServiceError where
  | badProxy (proxy : String)
  | noApiKey
  deriving DecidableEq, Repr

def ServiceError.message : ServiceError → String
  | .badProxy proxy => "Invalid translator proxy: " ++ proxy
  | .noApiKey =>
    "OpenAI translator needs 'apiKey' in the config or OPENAI_API_KEY in the environment"

/-- What sends a request; `none` when no reply came. -/
abbrev Transport := Http.Request → Option Http.Reply

/-! ## Google -/

namespace Google

/-- The code of a language, with its region in upper case. -/
def lang (code : String) : String :=
  match code.toList.dropWhile (· != '-') with
  | [] => code
  | _ :: region =>
    String.ofList (code.toList.takeWhile (· != '-') ++ '-' :: region.map Char.toUpper)

def request (base : String) (r : Request) : Http.Request :=
  Http.form (Url.dropSlashes base ++ "/translate_a/single")
    [("client", "gtx"), ("sl", lang r.fromLang), ("tl", lang r.toLang), ("dt", "t")]
    [("q", r.text)]

/-- The first item of a list. -/
def first? : Json → Option Json
  | .arr (j :: _) => some j
  | _ => none

def read (body : Json) : Except String String :=
  match (first? body).bind Json.arr? with
  | none => .error "Google Translate response has no translation segments"
  | some segments => .ok (String.join (segments.filterMap fun s => (first? s).bind Json.str?))

end Google

/-! ## OpenAI -/

namespace OpenAi

/-- What the model is told to do. -/
def prompt (r : Request) (separator : String) : String :=
  "You are a software localization translator. Translate the user's text from language code '" ++
    r.fromLang ++ "' to language code '" ++ r.toLang ++
    "'. The text contains several UI strings separated by lines reading " ++ Text.trim separator ++
    ". Keep every separator line exactly as it is, keep the strings in the same order, keep " ++
    "placeholders and markup unchanged, and reply with the translation only."

def request (base key model : String) (r : Request) (separator : String) : Http.Request :=
  let message (role content : String) : Json :=
    .obj [("role", .str role), ("content", .str content)]
  { target := Url.target (Url.dropSlashes base ++ "/chat/completions") []
    authorization := some ("Bearer " ++ key)
    contentType := "application/json"
    body := (Json.obj [("model", .str model),
      ("messages", .arr [message "system" (prompt r separator), message "user" r.text]),
      ("temperature", .real "0.2")]).compress }

/-- The content of a message. -/
def content? (j : Json) : Option String := do
  let names := ["role", "content"]
  let f ← Decode.fields? names j
  let _ ← f.required names "role" Decode.string
  f.required names "content" Decode.string

/-- The contents of all choices. -/
def choices? (j : Json) : Option (List String) := do
  let f ← Decode.fields? ["choices"] j
  f.required ["choices"] "choices" fun cs => do
    (← cs.arr?).mapM fun c => do
      let f ← Decode.fields? ["message"] c
      f.required ["message"] "message" content?

def read (body : Json) : Except String String :=
  match choices? body with
  | none => .error "Failed to parse OpenAI response"
  | some [] => .error "OpenAI response contained no choices"
  | some (c :: _) => .ok c

end OpenAi

/-! ## Baidu -/

namespace Baidu

def lang (code : String) : String :=
  ([("zh-cn", "zh"), ("zh-tw", "cht"), ("ja", "jp"), ("ko", "kor"), ("fr", "fra"), ("es", "spa"),
    ("vi", "vie"), ("ar", "ara")].lookup code).getD code

def request (base appId appKey : String) (now : Nat) (r : Request) : Http.Request :=
  let salt := Nat.repr now
  Http.form (Url.dropSlashes base ++ "/api/trans/vip/translate") []
    [("q", r.text), ("appid", appId), ("from", lang r.fromLang), ("to", lang r.toLang),
      ("salt", salt), ("sign", Digest.Md5.hex (appId ++ r.text ++ salt ++ appKey))]

/-- A code as a text. -/
def codeText : Json → String
  | .str s => s
  | j => j.compress

/-- The code and the message of an error, and the lines with their sources. -/
def reply? (j : Json) : Option (Option Json × Option String × List (String × String)) := do
  let names := ["error_code", "error_msg", "trans_result"]
  let f ← Decode.fields? names j
  let code ← f.withDefault names "error_code" (Decode.nullable some) none
  let message ← f.withDefault names "error_msg" (Decode.nullable Decode.string) none
  let lines ← f.withDefault names "trans_result" (fun ls => do
    (← ls.arr?).mapM fun l => do
      let names := ["src", "dst"]
      let f ← Decode.fields? names l
      return (← f.required names "src" Decode.string, ← f.required names "dst" Decode.string)) []
  return (code, message, lines)

/-- The code of a reply without an error. -/
def successCode : String := "52000"

/-- The lines of a reply; separating lines are put back as they were. -/
def linesText (separator : String) (lines : List (String × String)) : String :=
  let mark := Text.trim separator
  "\n".intercalate (lines.map fun (src, dst) =>
    if mark != "" && Text.trim src == mark then mark else dst)

def read (separator : String) (body : Json) : Except String String :=
  match reply? body with
  | none => .error "Failed to parse Baidu Translate response"
  | some (code, message, lines) =>
    match code.map codeText with
    | none => .ok (linesText separator lines)
    | some c =>
      if c == successCode then .ok (linesText separator lines)
      else .error ("Baidu Translate error " ++ c ++ ": " ++ message.getD "unknown error")

end Baidu

/-! ## Youdao -/

namespace Youdao

def lang (code : String) : String :=
  ([("zh-cn", "zh-CHS"), ("zh-tw", "zh-CHT")].lookup code).getD code

/-- What of a text is signed: a long one by its ends and its length. -/
def signed (text : String) : String :=
  let cs := text.toList
  if cs.length ≤ 20 then text
  else
    String.ofList (cs.take 10) ++ Nat.repr cs.length ++ String.ofList (cs.drop (cs.length - 10))

def request (base appId appKey : String) (now : Nat) (r : Request) : Http.Request :=
  let salt := Nat.repr now
  let seconds := Nat.repr (now / 1000)
  Http.form (Url.dropSlashes base ++ "/api") []
    [("q", r.text), ("appKey", appId), ("salt", salt), ("from", lang r.fromLang),
      ("to", lang r.toLang),
      ("sign", Digest.Sha256.hex (appId ++ signed r.text ++ salt ++ seconds ++ appKey)),
      ("signType", "v3"), ("curtime", seconds)]

def read (body : Json) : Except String String :=
  let names := ["errorCode", "translation"]
  let reply : Option (String × List String) := do
    let f ← Decode.fields? names body
    return (← f.required names "errorCode" Decode.string,
      ← f.withDefault names "translation" Decode.strings [])
  match reply with
  | none => .error "Failed to parse Youdao response"
  | some (code, texts) =>
    -- an answer can carry an error although the request went well
    if code != "0" then .error ("Youdao error code " ++ code)
    else
      match texts with
      | [] => .error "Youdao response contained no translation"
      | t :: _ => .ok t

end Youdao

/-! ## All services -/

namespace Service

def name : Service → String
  | .google .. => "google"
  | .openai .. => "openai"
  | .baidu .. => "baidu"
  | .youdao .. => "youdao"
  | .empty => "empty"

/-- What keeps a service from being set up; `apiKey` is the key of the environment. -/
def fault? (apiKey : Option String) : Service → Option ServiceError
  | .google proxy _ => proxyFault proxy
  | .openai key _ _ => if (key.or apiKey).isSome then none else some .noApiKey
  | .baidu _ _ proxy _ _ => proxyFault proxy
  | .youdao _ _ proxy _ _ => proxyFault proxy
  | .empty => none
where
  proxyFault (proxy : Option String) : Option ServiceError :=
    proxy.bind fun p => if Url.isProxy p then none else some (.badProxy p)

/-- The request of a service at a time; the empty one sends nothing. -/
def request? (s : Service) (apiKey : Option String) (now : Nat) (separator : String) (r : Request) :
    Option Http.Request :=
  match s with
  | .google _ base => some (Google.request (base.getD "https://translate.googleapis.com") r)
  | .openai key model base =>
    some (OpenAi.request (base.getD "https://api.openai.com/v1") ((key.or apiKey).getD "") model r
      separator)
  | .baidu appId appKey _ base _ =>
    some (Baidu.request (base.getD "https://fanyi-api.baidu.com") appId appKey now r)
  | .youdao appId appKey _ base _ =>
    some (Youdao.request (base.getD "https://openapi.youdao.com") appId appKey now r)
  | .empty => none

/-- How a service names itself in messages about failed requests: when sending fails, before the
status of a refusal, and when a reply is no JSON. -/
def labels : Service → String × String × String
  | .google .. => ("Failed to send request to Google Translate", "Google Translate error",
      "Failed to parse Google Translate response")
  | .openai .. => ("Failed to send translation request", "OpenAI API error",
      "Failed to parse OpenAI response")
  | .baidu .. => ("Failed to send request to Baidu Translate", "Baidu Translate error",
      "Failed to parse Baidu Translate response")
  | .youdao .. => ("Failed to send request to Youdao", "Youdao error",
      "Failed to parse Youdao response")
  | .empty => ("", "", "")

/-- The text in the body of a reply. -/
def readBody (s : Service) (separator : String) (body : Json) : Except String String :=
  match s with
  | .google .. => Google.read body
  | .openai .. => OpenAi.read body
  | .baidu .. => Baidu.read separator body
  | .youdao .. => Youdao.read body
  | .empty => .ok ""

/-- What a reply means. -/
def readReply (s : Service) (separator : String) : Option Http.Reply → Except String String
  | none => .error s.labels.1
  | some reply =>
    if reply.isSuccess then
      match Json.parse? reply.body with
      | none => .error s.labels.2.2
      | some body => s.readBody separator body
    else .error (s.labels.2.1 ++ " (" ++ Http.statusText reply.status ++ "): " ++ reply.body)

/-- The answer that translates every text of a batch into nothing. -/
def blankAnswer (text separator : String) : String :=
  let count := (Batch.cut (Batch.textLength? separator.toList) text.toList).length
  separator.intercalate (List.replicate count "")

/-- One request of a service and the meaning of its reply. -/
def fetch (s : Service) (apiKey : Option String) (now : Nat) (send : Transport) (separator : String)
    (r : Request) : Except String String :=
  match s.request? apiKey now separator r with
  | some q => s.readReply separator (send q)
  | none => .ok (blankAnswer r.text separator)

/-- The pause that a service asks for. -/
def interval : Service → Nat
  | .baidu _ _ _ _ interval => interval
  | .youdao _ _ _ _ interval => interval
  | _ => 0

/-- The translator of a service. -/
def translator (s : Service) (apiKey : Option String) (now : Nat) (send : Transport) :
    Except ServiceError Translator :=
  match s.fault? apiKey with
  | some e => .error e
  | none =>
    .ok
      { name := s.name
        maxBatch := if s = .empty then Nat.pow 2 64 - 1 else 4500
        interval := s.interval
        answer := fun _ r => s.fetch apiKey now send Batch.separator r }

end Service

end TextHarvest
