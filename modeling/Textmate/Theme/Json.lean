import Textmate.Grammar.Json
import Textmate.Theme.Source

/-!
# Theme files as JSON

Reading and writing theme files. Each record of a theme file may also be written as an array of its
members in order, of which those at the end may be left out. The settings may stand under the key
`tokenColors`.
-/

namespace Textmate

namespace StyleSource

/-- The style that a document stands for. -/
def ofDocument? (document : Document) : Option StyleSource := do
  let members ← document.record? ["fontStyle", "foreground", "background"] 0
  pure {
    fontStyle := ← members.optional "fontStyle" Document.string?
    foreground := ← members.optional "foreground" Document.string?
    background := ← members.optional "background" Document.string? }

/-- The style as a value. -/
def toJson (style : StyleSource) : Json :=
  .ofMembers (Rule.member "fontStyle" .string style.fontStyle ++
    Rule.member "foreground" .string style.foreground ++
    Rule.member "background" .string style.background)

end StyleSource

namespace ScopeSource

def ofDocument? : Document → Option ScopeSource
  | .string text => text.map .one
  -- What is no text has to be a list of texts.
  | document => (document.list? Document.string?).map .many

def toJson : ScopeSource → Json
  | .one text => .string text
  | .many texts => .strings texts

end ScopeSource

namespace SettingSource

/-- The setting that a document stands for. -/
def ofDocument? (document : Document) : Option SettingSource := do
  let members ← document.record? ["name", "scope", "settings"] 0
  pure {
    name := ← members.optional "name" Document.string?
    scope := ← members.optional "scope" ScopeSource.ofDocument?
    style := ← members.withDefault "settings" ⟨none, none, none⟩ StyleSource.ofDocument? }

def toJson (setting : SettingSource) : Json :=
  .ofMembers (Rule.member "name" .string setting.name ++
    Rule.member "scope" ScopeSource.toJson setting.scope ++ [("settings", setting.style.toJson)])

end SettingSource

namespace ThemeSource

/-- The theme that a document stands for. -/
def ofDocument? (document : Document) : Option ThemeSource := do
  let members ← document.record? ["name", "settings"] 0
  -- A file with both keys has two lists of settings, and is refused.
  let settings ← match ← members.find ["settings", "tokenColors"] with
    | none => pure []
    | some items => items.list? SettingSource.ofDocument?
  pure ⟨← members.optional "name" Document.string?, settings⟩

def parse? (text : String) : Option ThemeSource :=
  (Document.parse? text).bind ofDocument?

def toJson (source : ThemeSource) : Json :=
  .ofMembers (Rule.member "name" .string source.name ++
    [("settings", .array (source.settings.map (·.toJson)))])

end ThemeSource

end Textmate
