import Lorebook.Rehearsal.Stage

set_option autoImplicit false

/-! # The generator of a rehearsal

In a rehearsal the generator follows a script. Something else can happen while a call is in flight,
before the reply is taken from the script; then the delay of the reply passes. A reply that comes in
just when the call's bound ends is still in time. -/

namespace Lorebook

/-- The generator that follows the script at hand. -/
def Script.generator {ε : Type} (meanwhile : GenerationRequest → Staged ε Unit) :
    Generator (Staged ε) := fun limit request n =>
  Timed.within limit do
    meanwhile request n
    let r ← modifyGetThe (Stage ε) fun s =>
      let (r, script) := s.script.answer request
      (r, { s with script := script })
    Timed.wait r.delay
    return r.reply

end Lorebook
