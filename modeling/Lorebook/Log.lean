import Lorebook.Json.Basic

set_option autoImplicit false

/-! # Log events

What the engine does is told as a sequence of events. An event has a level, the part of the program
that it comes from, a message, and named values. -/

namespace Lorebook

/-- How much an event matters. -/
inductive LogLevel where
  | debug
  | info
  | warn
  | error
deriving DecidableEq, Repr

/-- The word for a level. -/
def LogLevel.text : LogLevel → String
  | .debug => "DEBUG"
  | .info => "INFO"
  | .warn => "WARN"
  | .error => "ERROR"

/-- The part of the program that an event comes from. -/
inductive LogOrigin where
  | database
  | chat
  | credentials
  | engine
  | publication
  | queue
  | drafting
  | worker
  | command
deriving DecidableEq, Repr

/-- An event. -/
structure LogEvent where
  level : LogLevel
  origin : LogOrigin
  message : String
  fields : List (String × Json) := []
deriving Repr

/-- The message and the named values of an event as an object. -/
def LogEvent.fieldsJson (e : LogEvent) : Json :=
  Json.object (("message", .str e.message) :: e.fields)

/-! ## Filters -/

/-- Which events are shown: those of a level and of the levels that matter more. -/
inductive LogFilter where
  | off
  | from (level : LogLevel)
  | everything
deriving DecidableEq, Repr

namespace LogFilter

/-- Every filter. -/
def all : List LogFilter :=
  [.off, .from .error, .from .warn, .from .info, .from .debug, .everything]

/-- The word for a filter. -/
def text : LogFilter → String
  | .off => "off"
  | .from .error => "error"
  | .from .warn => "warn"
  | .from .info => "info"
  | .from .debug => "debug"
  | .everything => "trace"

/-- The filter of a word, in small or capital letters. -/
def ofText? (word : String) : Option LogFilter :=
  all.find? fun f => f.text.toList == word.toList.map Char.toLower

/-- The place of a level, from the one that matters least. -/
def weight : LogLevel → Nat
  | .debug => 0
  | .info => 1
  | .warn => 2
  | .error => 3

/-- Whether events of a level are shown. -/
def shows : LogFilter → LogLevel → Bool
  | .off, _ => false
  | .from least, level => weight least ≤ weight level
  | .everything, _ => true

/-- The filter in force: the one that the environment asks for, else that of the settings, else
the one for events of level info; a word that names no filter is passed over. -/
def choose (environment : Option String) (setting : String) : LogFilter :=
  ((environment.bind ofText?).or (ofText? setting)).getD (.from .info)

end LogFilter

end Lorebook
