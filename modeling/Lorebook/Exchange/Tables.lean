import Lorebook.Json.Members
import Lorebook.Store.Database

set_option autoImplicit false

/-! # The JSON form of the tables

A dump shows every row as it is stored: worlds by name, modules by world and key, jobs by world and
place in the queue. -/

namespace Lorebook

/-- A cell. Only integers and texts belong into the tables; whatever else is there shows as
null. -/
def Cell.toJson : Cell → Json
  | .int n => .int n
  | .text s => .str s
  | _ => .null

/-- The cell of a value. -/
def Cell.ofJson : Json → Cell
  | .num (.int n) => .int n
  | .str s => .text s
  | v => ((v.text? "blob").map fun s => .blob s.toUTF8.toList).getD .null

/-- Whether a list of cells does not come after another of the same length. -/
def Cell.listNotAfter : List Cell → List Cell → Bool
  | a :: as, b :: bs => a.before b || (!b.before a && listNotAfter as bs)
  | _, _ => true

/-- Rows in the order of some of their cells. -/
def tableJson {ρ : Type} (key : ρ → List Cell) (columns : ρ → List (String × Cell))
    (rows : List ρ) : Json :=
  .arr ((rows.mergeSort fun r s => Cell.listNotAfter (key r) (key s)).map fun r =>
    Json.object ((columns r).map fun c => (c.1, c.2.toJson)))

/-- The rows of the three tables. -/
def Database.dump : Statement Json := do
  [TableName.worlds, .modules, .jobs].forM Statement.needs
  let db ← get
  return Json.object [
    (TableName.worlds.text, tableJson (fun r => [r.id]) WorldRow.columns db.worlds),
    (TableName.modules.text, tableJson (fun r => [r.world, r.key]) ModuleRow.columns db.modules),
    (TableName.jobs.text,
      tableJson (fun r => [r.world, r.sequence, r.moduleKey]) JobRow.columns db.jobs)]

end Lorebook
