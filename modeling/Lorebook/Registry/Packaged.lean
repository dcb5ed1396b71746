import Lorebook.Registry

set_option autoImplicit false

/-! # The packaged modules

The five modules that worlds have when no other schema is given: geography, society, history, power
and factions. -/

namespace Lorebook.Registry

/-- The packaged definitions. -/
def packagedDefinitions : List ModuleDefinition := [
  { key := "geography"
    label := "Geography"
    order := 1
    description := some
      "The physical shape of the world: land, water, climate and the places people remember."
    fields := [
      { key := "terrain", label := "Terrain & Climate",
        required := true, minLength := some 20, maxLength := some 1200,
        focus := some
          "major landforms, climate bands and how they constrain travel and settlement" },
      { key := "regions", label := "Key Regions",
        required := true, minLength := some 20, maxLength := some 1500,
        focus := some "a handful of named regions, each with one defining trait" },
      { key := "landmarks", label := "Landmarks", maxLength := some 800,
        focus := some "memorable sites that anchor stories" }] },
  { key := "society"
    label := "Society"
    order := 2
    description := some
      "How people live together: peoples, customs, beliefs and daily life."
    fields := [
      { key := "peoples", label := "Peoples",
        required := true, minLength := some 20, maxLength := some 1200,
        focus := some "the main cultures or species and how they see each other" },
      { key := "customs", label := "Customs & Beliefs",
        required := true, minLength := some 20, maxLength := some 1200,
        focus := some "rituals, taboos and what people hold sacred" },
      { key := "daily_life", label := "Daily Life", maxLength := some 800,
        focus := some "food, work, trade and the texture of an ordinary day" }] },
  { key := "history"
    label := "History"
    order := 3
    description := some
      "The events that made the present: founding myths, wars, turning points."
    fields := [
      { key := "origins", label := "Origins",
        required := true, minLength := some 20, maxLength := some 1200,
        focus := some "how the world or its civilisations began, as told and as it really was" },
      { key := "eras", label := "Eras & Turning Points", maxLength := some 1500,
        focus := some "a short chronology of the events that still matter" }] },
  { key := "power"
    label := "Power & Magic"
    order := 4
    description := some
      "Where power comes from: magic, technology, and who controls it."
    fields := [
      { key := "source", label := "Source of Power",
        required := true, minLength := some 20, maxLength := some 1000,
        focus := some "what powers magic or technology and what it costs" },
      { key := "limits", label := "Limits & Rules", maxLength := some 800,
        focus := some "hard limits that create tension and story" }] },
  { key := "factions"
    label := "Factions & Conflict"
    order := 5
    description := some
      "The groups that want things and the conflicts between them."
    fields := [
      { key := "factions", label := "Factions",
        required := true, minLength := some 20, maxLength := some 1500,
        focus := some "three to five factions, each with a goal and a method" },
      { key := "tensions", label := "Open Tensions", maxLength := some 1000,
        focus := some "conflicts that are unresolved at the start of any story" }] }]

/-- The registry of the packaged definitions. -/
def packaged : Registry where
  modules := packagedDefinitions
  ne_nil := by decide
  sound := by decide +kernel

end Lorebook.Registry
