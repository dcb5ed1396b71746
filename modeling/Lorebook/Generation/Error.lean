import Lorebook.Time.Span

set_option autoImplicit false

/-! # Failures of generator calls

A call to a text generator fails in one of eight ways. What a server answers with another status
than success is classified by the status alone. -/

namespace Lorebook

/-- Why a generator call gave no text. -/
inductive GenerationError where
  | authentication (detail : String)
  | rateLimited (retryAfter : Option Span)
  | server (status : Nat) (body : String)
  | invalidRequest (detail : String)
  | network (detail : String)
  | timeout (after : Span)
  | malformedResponse (detail : String)
  | emptyResponse
deriving DecidableEq, Repr

namespace GenerationError

/-- The word for a kind of failure. -/
def kind : GenerationError → String
  | .authentication _ => "authentication"
  | .rateLimited _ => "rate_limited"
  | .server _ _ => "server_error"
  | .invalidRequest _ => "invalid_request"
  | .network _ => "network_error"
  | .timeout _ => "timeout"
  | .malformedResponse _ => "malformed_response"
  | .emptyResponse => "empty_response"

/-- The text of a failure. -/
def message : GenerationError → String
  | .authentication detail => s!"authentication failed: {detail}"
  | .rateLimited _ => "rate limited"
  | .server status body => s!"server error {status}: {body}"
  | .invalidRequest detail => s!"invalid request: {detail}"
  | .network detail => s!"network error: {detail}"
  | .timeout after => s!"timeout after {after.text}"
  | .malformedResponse detail => s!"malformed response: {detail}"
  | .emptyResponse => "empty response"

/-- The failure that a status other than success stands for. -/
def ofStatus (status : Nat) (body : String) (retryAfter : Option Span) : GenerationError :=
  if status = 401 || status = 403 then .authentication body
  else if status = 429 then .rateLimited retryAfter
  else if 500 ≤ status && status ≤ 599 then .server status body
  else .invalidRequest s!"HTTP {status}: {body}"

/-- How long the server asks to wait, if it does. -/
def retryAfter? : GenerationError → Option Span
  | .rateLimited after => after
  | _ => none

end GenerationError

end Lorebook
