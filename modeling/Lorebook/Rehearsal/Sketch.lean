import Lorebook.Generation.Chat
import Lorebook.Generation.Script
import Lorebook.Job
import Lorebook.Json.Members
import Lorebook.Module.Basic
import Lorebook.Time.Rfc3339
import Lorebook.World

set_option autoImplicit false

/-! # Sketches

For rehearsals worlds, modules, jobs, settings and replies are sketched: written as objects in
which almost every member can be left out. Times that are left out are the start of the year
2001. -/

namespace Lorebook

/-- What is wrong with a sketch. -/
inductive SketchError where
  | unknownWord (cause : UnknownWord)
  | badTime (raw : String)
  /-- A member or an item has another form than it should. -/
  | malformed
deriving DecidableEq, Repr

/-- What a sketch stands for. -/
abbrev Sketched (α : Type) := Except SketchError α

namespace Sketch

variable {α : Type}

/-- The value of a word. -/
def word (read : String → Except UnknownWord α) (raw : String) : Sketched α :=
  (read raw).mapError .unknownWord

/-- What a decoder gives. -/
def decoded (x : Option α) : Sketched α :=
  x.elim (.error .malformed) .ok

/-- The instant of a timestamp. -/
def time (raw : String) : Sketched Instant :=
  (Rfc3339.parse? raw).elim (.error (.badTime raw)) .ok

/-- The instant of a member that may be left out. -/
def timeAt (v : Json) (key : String) : Sketched Instant :=
  time (v.text key "2001-01-01T00:00:00Z")

/-- The instant of a member, if there is one. -/
def timeAt? (v : Json) (key : String) : Sketched (Option Instant) :=
  (v.text? key).mapM time

/-- A span of time: a number of seconds, or seconds and any number of nanoseconds. -/
def span? : Json → Option Span
  | .null => none
  | .num (.int n) => some (.ofSeconds n.toNat)
  | v => some (.ofNanos (v.natural "secs" * 1000000000 + v.natural "nanos"))

/-! ## Worlds, modules and jobs -/

/-- The world of a sketch. -/
def world (v : Json) : Sketched World := do
  return {
    id := ⟨v.text "id" "w0"⟩
    owner := ⟨v.text "owner" "u1"⟩
    name := v.text "name"
    tagline := v.text? "tagline"
    themes := ← match v.given? "themes" with
      | none => pure []
      | some themes => decoded (Json.decodeList Json.decodeText themes)
    status := ← word WorldStatus.parse (v.text "status" WorldStatus.draft.text)
    version := (v.integer? "version").getD 0
    publishedAt := ← timeAt? v "published_at"
    createdAt := ← timeAt v "created_at"
    updatedAt := ← timeAt v "updated_at"
    deletedAt := ← timeAt? v "deleted_at" }

/-- The module of a sketch, in a world and with a key of its own or the one given. -/
def module (world key : String) (v : Json) : Sketched WorldModule := do
  let key := v.text "module_key" key
  return {
    id := ⟨v.text "id" (world ++ "/" ++ key)⟩
    world := ⟨world⟩
    key := key
    fields := ← match v.given? "fields" with
      | none => pure .empty
      | some fields => decoded (Json.decodeMap Json.decodeText fields)
    status := ← word ModuleStatus.parse (v.text "status" ModuleStatus.empty.text)
    hash := v.text? "content_hash"
    content := v.text? "full_content"
    lastEditor := (v.text? "last_editor").map OwnerId.mk
    createdAt := ← timeAt v "created_at"
    updatedAt := ← timeAt v "updated_at" }

/-- The job of a sketch, in a world of its own or the one given. -/
def job (world : String) (v : Json) : Sketched Job := do
  return {
    id := ⟨v.text "id"⟩
    world := ⟨v.text "world" world⟩
    moduleKey := v.text "module_key"
    sequence := v.natural "sequence" 1
    type := ← word JobType.parse (v.text "job_type" JobType.moduleFinal.text)
    status := ← word JobStatus.parse (v.text "status" JobStatus.waiting.text)
    attempts := v.natural "attempts"
    lastError := v.text? "last_error"
    startedAt := ← timeAt? v "started_at"
    finishedAt := ← timeAt? v "finished_at"
    createdAt := ← timeAt v "created_at"
    updatedAt := ← timeAt v "updated_at" }

/-! ## Settings -/

/-- The credentials of a sketch. -/
def credentials (v : Json) : Credentials where
  apiKey := v.text "api_key"
  baseUrl := v.text? "base_url"
  model := v.text? "model"

/-- The keyring of a sketch. -/
def keyring (v : Json) : Keyring where
  owners := .ofList ((v.entries "owners").map fun e => (e.1, credentials e.2))
  fallback := v.text? "fallback"

/-- The settings of a worker of a sketch. Idle pauses have no random part unless it asks for one. -/
def workerSettings (v : Json) : WorkerSettings :=
  let standard : WorkerSettings := {}
  { pollIntervalMs := v.natural "poll_interval_ms" standard.pollIntervalMs
    idleJitterMs := v.natural "idle_jitter_ms"
    leaseTimeoutSecs := v.natural "lease_timeout_secs" standard.leaseTimeoutSecs }

/-- The temperature of a number, or the standard one. -/
def temperature : Json → Temperature
  | .num (.int n) => .ofInt n
  | .num (.real x) => .ofBinary x
  | _ => .standard

/-! ## Replies -/

/-- The failure of a sketch: a kind with what belongs to it, or a status that is classified, which
alone may ask for a span to wait. -/
def generationError (v : Json) : Sketched GenerationError :=
  let detail := v.text "text"
  let status := v.natural "status"
  match v.text "kind" with
  | "status" => .ok (.ofStatus status detail (span? (v.member "retry_after")))
  | "authentication" => .ok (.authentication detail)
  | "rate_limited" => .ok (.rateLimited none)
  | "server_error" => .ok (.server status detail)
  | "invalid_request" => .ok (.invalidRequest detail)
  | "network" => .ok (.network detail)
  | "timeout" => .ok (.timeout ((span? (v.member "duration")).getD ⟨0, 0⟩))
  | "malformed_response" => .ok (.malformedResponse detail)
  | "empty_response" => .ok .emptyResponse
  | _ => .error .malformed

/-- The reply of a sketch: a text or a failure, after a delay in milliseconds. -/
def reply (v : Json) : Sketched ScriptedReply := do
  return {
    delay := .ofMillis (v.natural "delay_ms")
    reply := ← match v.given? "error" with
      | none => pure (.ok (v.text "text"))
      | some e => (generationError e).map .error }

/-- The response of a sketch of a server. -/
def response (v : Json) : Chat.Response :=
  match v.text "fail" with
  | "timeout" => .timedOut
  | "connect" => .unreachable "connection refused"
  | _ =>
    .answered (v.natural "status" 200)
      ((v.items "headers").map fun h => (h.itemText 0, h.itemText 1))
      (if v.flag "cut" then none else some (v.text "body"))

end Sketch

end Lorebook
