import Textmate.Theme.ColorMap
import Textmate.Theme.Source

/-!
# Themes

A theme with its colors numbered by a color map. The style of a path of scopes takes each of its
attributes from the last rule that sets it and matches the path.
-/

namespace Textmate

/-- A style; attributes that are not set are left to other rules. -/
structure Style where
  fontStyle : Option FontStyle
  foreground : Option Nat
  background : Option Nat
  deriving Repr, DecidableEq

namespace Style

def none : Style := ⟨.none, .none, .none⟩

/-- The style that takes each attribute from the first style if it sets it, and from the second one
if not. -/
def onto (a b : Style) : Style :=
  ⟨a.fontStyle.or b.fontStyle, a.foreground.or b.foreground, a.background.or b.background⟩

/-- What the style changes in a metadata word. -/
def toPatch (style : Style) : Patch :=
  { Patch.empty with
    fontStyle := style.fontStyle
    foreground := style.foreground
    background := style.background }

end Style

/-- A rule of a theme. -/
structure ThemeRule where
  /-- The scopes that get the style. -/
  selector : Selector
  style : Style
  /-- Position of the setting among all settings of the theme. -/
  index : Nat
  deriving Repr, DecidableEq

/-- A theme. -/
structure Theme where
  name : Option String
  /-- The style of scopes that no rule matches; all attributes are set. -/
  defaults : Style
  rules : List ThemeRule
  /-- The colors of defaults and rules. -/
  colors : ColorMap
  deriving Repr, DecidableEq

namespace Theme

/-- The index of a color that may be absent, and the map with the color added. -/
def internOptional (map : ColorMap) :
    Option String → Except ColorMap.Problem (Option Nat × ColorMap)
  | none => .ok (none, map)
  | some color => (map.intern color).map fun (id, map) => (some id, map)

/-- The rules of settings at their positions, and the map with their colors added: the foreground of
a setting comes before its background, and a setting before the next one. -/
def internRules (map : ColorMap) :
    List (SettingSource × Nat) → Except ColorMap.Problem (List ThemeRule × ColorMap)
  | [] => .ok ([], map)
  | (setting, index) :: settings => do
    let (foreground, map) ← internOptional map setting.foreground?
    let (background, map) ← internOptional map setting.background?
    let style : Style := ⟨setting.fontStyle?, foreground, background⟩
    let (rules, map) ← internRules map settings
    .ok (setting.selectors.map (⟨·, style, index⟩) ++ rules, map)

/-- The color map with which the colors of a theme are numbered. -/
def startMap : Option (List String) → Except ColorMap.Problem ColorMap
  | none => .ok .empty
  | some table => ColorMap.ofTable table

/-- The theme of a theme file. If a table of colors is given, all colors have to be in it. -/
def ofSource (source : ThemeSource) (table : Option (List String)) :
    Except ColorMap.Problem Theme := do
  -- The defaults get the first indices of a map without a table.
  let map ← startMap table
  let (foreground, map) ← map.intern source.defaultForeground
  let (background, map) ← map.intern source.defaultBackground
  let (rules, map) ← internRules map source.selecting
  .ok ⟨source.name, ⟨some source.defaultFontStyle, some foreground, some background⟩, rules, map⟩

/-- The theme of an empty theme file: black on white. -/
def default : Theme :=
  ⟨none, ⟨some .plain, some 1, some 2⟩, [], .growable ["#000000", "#FFFFFF"]⟩

/-- The style of a path of scopes, outermost first. -/
def styleFor (theme : Theme) (path : List ScopeName) : Style :=
  (theme.rules.filter (·.selector.selects path)).foldl (fun style rule => rule.style.onto style)
    .none

/-- A metadata word with the defaults of the theme and then the style of a path of scopes. -/
def apply (theme : Theme) (path : List ScopeName) (word : Metadata) : Metadata :=
  (word.apply theme.defaults.toPatch).apply (theme.styleFor path).toPatch

end Theme

end Textmate
