import Lorebook.Command.Transcript

set_option autoImplicit false

/-! # Options of commands

A command is called with words. An option is a word with two dashes, and takes either a value or
none; the value is the word that follows or what stands after an equals sign in the same word. All
other words are operands, and after a word of two dashes alone every word is one. An option may be
given only once, and a command takes so many operands and no more. A value that follows as a word of
its own may not begin with a dash, unless it is a dash alone.

Words are taken in order and each has to pass before the next is looked at. Every command has an
option that asks how it is used: what is wrong before it is refused, and the words after it do not
matter. -/

namespace Lorebook

/-- The options and operands that a command knows. -/
structure OptionTable where
  /-- Options with a value, each with the test that its value has to pass. -/
  valued : List (String × (String → Bool))
  /-- Options without a value. -/
  flags : List String
  /-- The tests that the operands have to pass, one for each. -/
  operands : List (String → Bool) := []
  /-- Whether the command tells its version. -/
  hasVersion : Bool := false

/-- The words of a call, sorted. -/
structure CallWords where
  values : List (String × String) := []
  flags : List String := []
  operands : List String := []
deriving DecidableEq, Repr

namespace CallWords

/-- The value of an option. -/
def value? (w : CallWords) (option : String) : Option String :=
  w.values.lookup option

/-- Whether an option without a value is given. -/
def hasFlag (w : CallWords) (option : String) : Bool :=
  w.flags.contains option

/-- Add the value of an option that has none yet. -/
def addValue? (w : CallWords) (option value : String) : Option CallWords :=
  if (w.value? option).isSome then none else some { w with values := (option, value) :: w.values }

/-- Add an option without a value that is not there yet. -/
def addFlag? (w : CallWords) (option : String) : Option CallWords :=
  if w.hasFlag option then none else some { w with flags := option :: w.flags }

/-- Add an operand. -/
def addOperand (w : CallWords) (operand : String) : CallWords :=
  { w with operands := w.operands ++ [operand] }

end CallWords

/-- Why words are no call. -/
inductive CallRefusal where
  /-- The words ask how the command is used. -/
  | help
  /-- The words ask for the version of the command. -/
  | version
  /-- The words are not what the command admits. -/
  | misuse
deriving DecidableEq, Repr

/-- What is printed in place of an answer. -/
def CallRefusal.transcript (usage : List String) (version : String := "") :
    CallRefusal → Transcript
  | .help => { out := usage }
  | .version => { out := [version] }
  | .misuse => { code := 2 }

/-- What a word must give for a call to be understood. -/
def CallRefusal.unless {α : Type} : Option α → Except CallRefusal α
  | some v => .ok v
  | none => .error .misuse

namespace OptionTable

/-- The test of values that can be anything. -/
def anyText (_ : String) : Bool := true

/-- The test of paths, which are not empty. -/
def isPath (word : String) : Bool :=
  !word.isEmpty

/-- Whether a word may be a value that follows its option. -/
def isPlain (word : String) : Bool :=
  word.toList.head? ≠ some '-' || word = "-"

/-- What a word asks for in place of a call: its long form stands alone, and after the short form,
a dash and a letter, the word may go on. -/
def question? (t : OptionTable) (word : String) : Option CallRefusal :=
  if word = "--help" || "-h".toList.isPrefixOf word.toList then some .help
  else if t.hasVersion && (word = "--version" || "-V".toList.isPrefixOf word.toList) then
    some .version
  else none

/-- Take a value of an option. -/
def takeValue (t : OptionTable) (w : CallWords) (option value : String) :
    Except CallRefusal CallWords :=
  match t.valued.lookup option with
  | some test => if test value then CallRefusal.unless (w.addValue? option value) else .error .misuse
  | none => .error .misuse

/-- Take an operand. -/
def takeOperand (t : OptionTable) (w : CallWords) (word : String) :
    Except CallRefusal CallWords :=
  match t.operands[w.operands.length]? with
  | some test => if test word then .ok (w.addOperand word) else .error .misuse
  | none => .error .misuse

/-- Sort words, after those already sorted. -/
def sort (t : OptionTable) (w : CallWords) : List String → Except CallRefusal CallWords
  | [] => .ok w
  | "--" :: rest => rest.foldlM t.takeOperand w
  | word :: rest => do
    if isPlain word then sort t (← t.takeOperand w word) rest
    else if let some refusal := t.question? word then throw refusal
    else if word ∈ t.flags then sort t (← CallRefusal.unless (w.addFlag? word)) rest
    else if (t.valued.lookup word).isSome then
      match rest with
      | [] => throw .misuse
      | value :: rest =>
        if isPlain value then sort t (← t.takeValue w word value) rest else throw .misuse
    else
      let name := word.toList.takeWhile (· ≠ '=')
      if name.length = word.length then throw .misuse
      else
        let value := word.toList.drop (name.length + 1)
        sort t (← t.takeValue w (String.ofList name) (String.ofList value)) rest

/-- The words of a call, sorted. -/
def read (t : OptionTable) (words : List String) : Except CallRefusal CallWords :=
  t.sort {} words

end OptionTable

end Lorebook
