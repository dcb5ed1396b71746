import Lorebook.Generation.Credentials
import Lorebook.Generation.Error

set_option autoImplicit false

/-! # Generator calls

A generator answers a prompt with text, or fails. A request may ask for a JSON object; the text of
the answer is returned as it is either way. -/

namespace Lorebook

/-- What a generator is asked. -/
structure GenerationRequest where
  prompt : String
  credentials : Credentials
  /-- Whether the answer should be a JSON object. -/
  json : Bool := false
deriving DecidableEq, Repr

/-- What a generator answers. -/
abbrev GenerationReply := Except GenerationError String

/-- A generator: it answers a request within a span, or with `none` when the span has passed. -/
abbrev Generator (m : Type → Type) := Span → GenerationRequest → m (Option GenerationReply)

/-- The answer to a request, where running out of time is a failure of its own. -/
def Generator.call {m : Type → Type} [Monad m] (g : Generator m) (limit : Span)
    (request : GenerationRequest) : m GenerationReply := do
  return (← g limit request).getD (.error (.timeout limit))

end Lorebook
