import Lorebook.Generation.Request

set_option autoImplicit false

/-! # Scripted generators

For rehearsals a generator can follow a script: a list of replies that is used up in order, each
after a delay of its own. Every call is recorded. A call for which no reply is left fails at
once. -/

namespace Lorebook

/-- A reply of a script. -/
structure ScriptedReply where
  /-- How long the caller waits for it. -/
  delay : Span := ⟨0, 0⟩
  reply : GenerationReply

/-- A call that was made, as recorded. -/
structure ScriptedCall where
  prompt : String
  json : Bool
  apiKey : String
deriving DecidableEq, Repr

/-- A script with the replies that are left and the calls made so far, the latest first. -/
structure Script where
  replies : List ScriptedReply := []
  callsMade : List ScriptedCall := []

namespace Script

/-- The reply of a script that has none left. -/
def exhausted : ScriptedReply where
  reply := .error (.network "scripted generator has no reply left")

/-- Add a reply at the end. -/
def push (s : Script) (r : ScriptedReply) : Script :=
  { s with replies := s.replies ++ [r] }

/-- The number of replies left. -/
def remaining (s : Script) : Nat :=
  s.replies.length

/-- The calls made, in order. -/
def calls (s : Script) : List ScriptedCall :=
  s.callsMade.reverse

/-- Record a call and take the next reply. -/
def answer (s : Script) (request : GenerationRequest) : ScriptedReply × Script :=
  let made := ⟨request.prompt, request.json, request.credentials.apiKey⟩ :: s.callsMade
  match s.replies with
  | [] => (exhausted, { s with callsMade := made })
  | r :: rest => (r, { replies := rest, callsMade := made })

end Script

end Lorebook
