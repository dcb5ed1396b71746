import Lorebook.Template.Functions
import Lorebook.Template.Parser
import Lorebook.Template.Path

set_option autoImplicit false

/-! # Compiling and rendering templates

Compiling a template checks, beyond its form, that every function it calls is registered.
Rendering is all or nothing: text comes out only when every expression evaluates. -/

namespace Lorebook

/-- Send a value through one pipe. -/
def FunctionSet.call (functions : FunctionSet) (pipe : PipeCall) (value : Option Json) :
    Except TemplateError (Option Json) :=
  match functions.find? pipe.name with
  | none => .error (.unknownFunction pipe.name)
  | some f => (f value pipe.args).mapError (.function pipe.name)

/-- The value of an expression, `none` being an absent one. -/
def Expression.evaluate (functions : FunctionSet) (context : Json) (e : Expression) :
    Except TemplateError (Option Json) :=
  e.pipes.foldlM (fun value pipe => functions.call pipe value) (resolvePath e.path context)

/-- The text of one segment. -/
def Segment.render (functions : FunctionSet) (context : Json) :
    Segment → Except TemplateError String
  | .literal text => .ok text
  | .expr e => (e.evaluate functions context).map displayText

namespace Template

/-- The text of a template in a context, or the error of its first expression that fails. -/
def render (functions : FunctionSet) (context : Json) (t : Template) :
    Except TemplateError String :=
  (t.segments.mapM (Segment.render functions context)).map String.join

/-- The template of a text whose functions are all registered. -/
def compile (functions : FunctionSet) (source : String) : Except TemplateError Template := do
  let t ← parse source
  match t.functionNames.find? (!functions.contains ·) with
  | some unknown => .error (.unknownFunction unknown)
  | none => return t

/-- Compile a text and render it. -/
def renderText (functions : FunctionSet) (source : String) (context : Json) :
    Except TemplateError String := do
  (← compile functions source).render functions context

end Template

end Lorebook
