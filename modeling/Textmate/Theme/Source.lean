import Textmate.Metadata.Word
import Textmate.Scope.Selector

/-!
# Themes as they are written

A theme file lists settings. A setting has a style, and selectors for the scopes that get the style;
a setting without selectors restyles the defaults. A color counts when it is written with `#` and
three, four, six or eight hexadecimal digits, and is passed over otherwise.
-/

namespace Textmate

/-- The style of a setting as it is written. -/
structure StyleSource where
  fontStyle : Option String
  foreground : Option String
  background : Option String
  deriving Repr, DecidableEq

/-- The scopes of a setting as they are written. -/
inductive ScopeSource where
  | one (text : String)
  /-- A list of texts, each with selectors between commas. -/
  | many (texts : List String)
  deriving Repr, DecidableEq

/-- A setting as it is written. -/
structure SettingSource where
  name : Option String
  /-- The scopes that get the style. -/
  scope : Option ScopeSource
  style : StyleSource
  deriving Repr, DecidableEq

/-- A theme as it is written. -/
structure ThemeSource where
  name : Option String
  settings : List SettingSource
  deriving Repr, DecidableEq

/-- Whether a text is a color with hexadecimal digits. -/
def isHexColor (text : String) : Bool :=
  match text.toList with
  | '#' :: digits =>
    [3, 4, 6, 8].contains digits.length && digits.all fun c => (Text.digitValue? 16 c).isSome
  | _ => false

namespace SettingSource

/-- The selectors of the setting. -/
def selectors (setting : SettingSource) : List Selector :=
  match setting.scope with
  | none => []
  | some (.one text) => Selector.parseList text
  | some (.many texts) => texts.flatMap Selector.parseList

/-- The font style of the setting, if it has one. -/
def fontStyle? (setting : SettingSource) : Option FontStyle :=
  setting.style.fontStyle.map FontStyle.ofWords

/-- The foreground color of the setting, if it has one that counts. -/
def foreground? (setting : SettingSource) : Option String :=
  setting.style.foreground.filter isHexColor

/-- The background color of the setting, if it has one that counts. -/
def background? (setting : SettingSource) : Option String :=
  setting.style.background.filter isHexColor

def isDefault (setting : SettingSource) : Bool :=
  setting.selectors.isEmpty

end SettingSource

namespace ThemeSource

def empty : ThemeSource := ⟨none, []⟩

/-- The last value that a setting without selectors gives to the defaults. -/
def lastDefault? {α : Type} (source : ThemeSource) (value? : SettingSource → Option α) : Option α :=
  ((source.settings.filter (·.isDefault)).filterMap value?).getLast?

/-- The font style of scopes that no setting matches. -/
def defaultFontStyle (source : ThemeSource) : FontStyle :=
  (source.lastDefault? (·.fontStyle?)).getD .plain

/-- The foreground color of scopes that no setting matches. -/
def defaultForeground (source : ThemeSource) : String :=
  (source.lastDefault? (·.foreground?)).getD "#000000"

/-- The background color of scopes that no setting matches. -/
def defaultBackground (source : ThemeSource) : String :=
  (source.lastDefault? (·.background?)).getD "#FFFFFF"

/-- The settings with selectors and their positions among all settings. -/
def selecting (source : ThemeSource) : List (SettingSource × Nat) :=
  source.settings.zipIdx.filter fun (setting, _) => !setting.isDefault

end ThemeSource

end Textmate
