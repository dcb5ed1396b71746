import Lorebook.Generation.Request
import Lorebook.Json.Decode
import Lorebook.Json.Printer
import Lorebook.Json.Reader
import Lorebook.Log
import Lorebook.Settings
import Lorebook.Text.Affix

set_option autoImplicit false

/-! # Chat completion servers

A generator can be a server that completes chats. A request becomes one posted JSON document, and
what comes back becomes the text or a failure. The transport between the two is not part of this
module: it is a function from what is posted to how the server responds. -/

namespace Lorebook.Chat

/-! ## What is posted -/

/-- A document on its way to a server. -/
structure Post where
  url : String
  /-- The key that authorizes the call. -/
  bearer : String
  body : Json
deriving Repr

/-- The instruction that precedes every prompt. -/
def systemPrompt : String :=
  "You are a careful world-building assistant. Follow the requested format exactly."

/-- An address without slashes at its end. -/
def withoutSlashes (url : String) : String :=
  String.ofList (url.toList.reverse.dropWhile (· = '/')).reverse

/-- The model that a request asks for. -/
def modelOf (settings : GeneratorSettings) (request : GenerationRequest) : String :=
  request.credentials.model.getD settings.model

/-- A message of a chat. -/
def message (role content : String) : Json :=
  Json.object [("role", .str role), ("content", .str content)]

/-- The document for a request. -/
def post (settings : GeneratorSettings) (request : GenerationRequest) : Post where
  url := withoutSlashes (request.credentials.baseUrl.getD settings.baseUrl) ++ "/chat/completions"
  bearer := request.credentials.apiKey
  body := Json.object <| [
    ("model", .str (modelOf settings request)),
    ("messages", .arr [message "system" systemPrompt, message "user" request.prompt]),
    ("temperature", settings.temperature.toJson)] ++
    if request.json then [("response_format", Json.object [("type", .str "json_object")])] else []

/-- What follows the host in the address; `none` for an address that names no host. -/
def Post.path? (p : Post) : Option String := do
  let cs := p.url.toList
  let rest ← (Text.afterStart? "http://".toList cs).or (Text.afterStart? "https://".toList cs)
  let host := rest.takeWhile (· ≠ '/')
  if host.isEmpty then none else some (String.ofList (rest.drop host.length))

/-! ## What comes back -/

/-- How a server responds. -/
inductive Response where
  /-- A status with headers and a body; no body when it cannot be read. -/
  | answered (status : Nat) (headers : List (String × String)) (body : Option String)
  | timedOut
  | unreachable (detail : String)
deriving DecidableEq, Repr

/-- Whether a status stands for success. -/
def isSuccess (status : Nat) : Bool :=
  200 ≤ status && status < 300

/-- A natural number of at most 64 bits, with an optional plus sign. -/
def parseSeconds? (cs : List Char) : Option Nat :=
  let digits := match cs with
    | '+' :: rest => rest
    | rest => rest
  let n := Json.digitsValue digits
  if !digits.isEmpty && digits.all Char.isDigit && n < twoPow 64 then some n else none

/-- How long the first of the headers asks to wait. -/
def retryAfter? (headers : List (String × String)) : Option Span := do
  let header ← headers.find? fun h => h.1.toList.map Char.toLower == "retry-after".toList
  let cs := header.2.toList
  if cs.all fun c => c = '\t' || (' ' ≤ c && c ≤ '~') then
    (parseSeconds? (Text.trimChars cs)).map Span.ofSeconds
  else none

/-- The content of a choice. -/
def decodeChoice : Json.Decoder (Option String) := fun choice => do
  let [message] ← choice.members? ["message"] | none
  let message ← message.required some
  let [content] ← message.members? ["content"] | none
  content.optional Json.decodeText

/-- The contents of the choices of a completion. -/
def decodeCompletion : Json.Decoder (List (Option String)) := fun v => do
  let [choices] ← v.members? ["choices"] | none
  choices.required (Json.decodeList decodeChoice)

/-- The text of a successful answer: the content of the first choice, unless it is blank. -/
def textOf (body : String) : GenerationReply :=
  match (Json.parseRecord? body).bind decodeCompletion with
  | none => .error (.malformedResponse "error decoding response body")
  | some [] => .error (.malformedResponse "no choices")
  | some (content :: _) =>
    match content.filter fun text => !Text.isBlank text with
    | some text => .ok text
    | none => .error .emptyResponse

/-- What a response means, for calls that may take a span. -/
def interpret (limit : Span) : Response → GenerationReply
  | .timedOut => .error (.timeout limit)
  | .unreachable detail => .error (.network detail)
  | .answered status headers body =>
    if isSuccess status then
      match body with
      | some body => textOf body
      | none => .error (.malformedResponse "error decoding response body")
    else .error (.ofStatus status (body.getD "") (retryAfter? headers))

/-! ## Calls -/

/-- What is told before a call. -/
def callEvent (settings : GeneratorSettings) (request : GenerationRequest) : LogEvent :=
  ⟨.debug, .chat, "calling chat completions", [
    ("model", .str (modelOf settings request)),
    ("json", .bool request.json),
    ("prompt_chars", .nat request.prompt.utf8ByteSize)]⟩

/-- What is told about a response with another status than success. -/
def rejectionEvents : Response → List LogEvent
  | .answered status _ _ =>
    if isSuccess status then []
    else [⟨.warn, .chat, "chat completions request rejected", [("status", .nat status)]⟩]
  | _ => []

/-- One call: the document is sent, unless its address names no host, and the response is
interpreted. -/
def complete {m : Type → Type} [Monad m] (tell : LogEvent → m Unit) (send : Post → m Response)
    (settings : GeneratorSettings) (request : GenerationRequest) : m GenerationReply := do
  tell (callEvent settings request)
  let p := post settings request
  let response ← if p.path?.isSome then send p else pure (.unreachable "builder error")
  (rejectionEvents response).forM tell
  return interpret (.ofSeconds settings.timeoutSecs) response

end Lorebook.Chat
