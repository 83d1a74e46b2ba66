import Mathlib.Data.List.Induction
import Textmate.Proofs.List
import Textmate.Proofs.Metadata.Fields
import Textmate.Proofs.Theme.Colors
import Textmate.Theme.Basic

/-!
# From the text of a theme to the color of a scope

A theme numbers the colors of its settings, has a rule for every selector of a setting, and layers
the styles of the rules that match a path. In the end each attribute of a scope comes from the last
setting that has the attribute and a selector for the path, or else from the defaults.

## Key results

- `Theme.reads_of_ofSource`: the rules and defaults of a theme in terms of its settings
- `Theme.Reads.styleFor_eq`: the style of a path layers the settings that select it
- `Theme.apply_ofSource`: what a word looks like with the style of a path
-/

namespace Textmate

/-! ## Colors that count -/

/-- A color that counts is not empty, in upper case neither. -/
theorem upperString_ne_empty_of_isHexColor {color : String} (h : isHexColor color = true) :
    Text.upperString color ≠ "" := by
  intro hempty
  rw [Text.upperString_eq_empty_iff] at hempty
  subst hempty
  simp [isHexColor] at h

namespace SettingSource

/-- A foreground that counts is a color. -/
theorem isHexColor_foreground? {setting : SettingSource} {color : String}
    (h : setting.foreground? = some color) : isHexColor color = true :=
  (Option.filter_eq_some_iff.1 h).2

/-- A background that counts is a color. -/
theorem isHexColor_background? {setting : SettingSource} {color : String}
    (h : setting.background? = some color) : isHexColor color = true :=
  (Option.filter_eq_some_iff.1 h).2

/-- One of the selectors of the setting matches the path. -/
def selects (setting : SettingSource) (path : List ScopeName) : Bool :=
  setting.selectors.any (·.selects path)

/-- The style of the setting with the indices that a map has for its colors. -/
def styleIn (map : ColorMap) (setting : SettingSource) : Style :=
  ⟨setting.fontStyle?, setting.foreground?.bind map.idOf?, setting.background?.bind map.idOf?⟩

/-- The rules of a setting at a position. -/
def rulesIn (map : ColorMap) (entry : SettingSource × Nat) : List ThemeRule :=
  entry.1.selectors.map (⟨·, entry.1.styleIn map, entry.2⟩)

/-- The map has the colors of the setting. -/
structure ColorsIn (map : ColorMap) (setting : SettingSource) : Prop where
  foreground : ∀ color ∈ setting.foreground?, (map.idOf? color).isSome
  background : ∀ color ∈ setting.background?, (map.idOf? color).isSome

end SettingSource

/-! ## Reading a theme -/

namespace Theme

section

variable {map later : ColorMap}

/-- A color that the map has keeps its index when other colors are added. -/
private theorem bind_idOf?_eq (h : map.Extends later) {color? : Option String}
    (hknown : ∀ color ∈ color?, (map.idOf? color).isSome) :
    color?.bind map.idOf? = color?.bind later.idOf? := by
  cases color? with
  | none => rfl
  | some color =>
    obtain ⟨id, hid⟩ := Option.isSome_iff_exists.1 (hknown color rfl)
    rw [Option.bind_some, Option.bind_some, hid, h.idOf?_eq color id hid]

/-- A color that the map has stays in it when other colors are added. -/
private theorem isSome_of_extends (h : map.Extends later) {color? : Option String}
    (hknown : ∀ color ∈ color?, (map.idOf? color).isSome) :
    ∀ color ∈ color?, (later.idOf? color).isSome := by
  intro color hcolor
  obtain ⟨id, hid⟩ := Option.isSome_iff_exists.1 (hknown color hcolor)
  rw [h.idOf?_eq color id hid]
  rfl

/-- What interning a color does that may be absent. -/
private theorem internOptional_spec {color? : Option String} {id? : Option Nat}
    (h : internOptional map color? = .ok (id?, later)) :
    map.Extends later ∧ id? = color?.bind later.idOf? ∧
      ∀ color ∈ color?, (later.idOf? color).isSome := by
  cases color? with
  | none =>
    cases h
    exact ⟨.refl map, rfl, fun _ h => nomatch h⟩
  | some color =>
    -- A color that is there is interned.
    obtain ⟨⟨id, found⟩, hintern, heq⟩ := Except.bind_eq_ok_iff.1 h
    cases heq
    -- The index that interning gives is the one that is found later.
    have hid := ColorMap.idOf?_of_intern hintern
    refine ⟨ColorMap.extends_of_intern hintern, hid.symm, fun other hother => ?_⟩
    cases hother
    rw [hid]
    rfl

/-- The rules of settings have the indices that the map behind them has for their colors. -/
private theorem internRules_spec {settings : List (SettingSource × Nat)} {rules : List ThemeRule}
    (h : internRules map settings = .ok (rules, later)) :
    map.Extends later ∧ rules = settings.flatMap (SettingSource.rulesIn later) ∧
      ∀ entry ∈ settings, entry.1.ColorsIn later := by
  induction settings generalizing map rules with
  | nil =>
    cases h
    exact ⟨.refl later, rfl, fun _ h => nomatch h⟩
  | cons entry settings ih =>
    obtain ⟨setting, index⟩ := entry
    rw [internRules] at h
    obtain ⟨⟨foreground, first⟩, hforeground, h⟩ := Except.bind_eq_ok_iff.1 h
    obtain ⟨⟨background, second⟩, hbackground, h⟩ := Except.bind_eq_ok_iff.1 h
    -- The colors of a setting are interned first, then those of the settings behind it.
    obtain ⟨⟨others, third⟩, hothers, h⟩ := Except.bind_eq_ok_iff.1 h
    cases h
    obtain ⟨hfirst, rfl, hknown⟩ := internOptional_spec hforeground
    obtain ⟨hsecond, rfl, hknown'⟩ := internOptional_spec hbackground
    obtain ⟨hthird, rfl, hrest⟩ := ih hothers
    -- The colors that were interned for the setting keep their indices.
    have hcolors : setting.ColorsIn later :=
      ⟨isSome_of_extends (hsecond.trans hthird) hknown, isSome_of_extends hthird hknown'⟩
    refine ⟨hfirst.trans (hsecond.trans hthird), ?_, fun entry hentry => ?_⟩
    · rw [List.flatMap_cons, SettingSource.rulesIn, SettingSource.styleIn,
        bind_idOf?_eq (hsecond.trans hthird) hknown, bind_idOf?_eq hthird hknown']
    · rcases List.mem_cons.1 hentry with rfl | hlater
      · exact hcolors
      · exact hrest entry hlater

end

/-- The theme has the defaults and the rules of a source, with indices for all of their colors. -/
structure Reads (theme : Theme) (source : ThemeSource) : Prop where
  fits : theme.colors.Fits
  defaults_eq : theme.defaults = ⟨some source.defaultFontStyle,
    theme.colors.idOf? source.defaultForeground, theme.colors.idOf? source.defaultBackground⟩
  foreground : (theme.colors.idOf? source.defaultForeground).isSome
  background : (theme.colors.idOf? source.defaultBackground).isSome
  rules_eq : theme.rules = source.selecting.flatMap (SettingSource.rulesIn theme.colors)
  colorsIn : ∀ entry ∈ source.selecting, entry.1.ColorsIn theme.colors

/-- Reading starts with a map that is not too large. -/
private theorem fits_of_startMap {table : Option (List String)} {map : ColorMap}
    (h : startMap table = .ok map) : map.Fits := by
  -- The map is a new one, or that of the table, whose length was checked.
  cases table with
  | none =>
    cases h
    exact (by decide : ColorMap.empty.size ≤ ColorMap.capacity)
  | some table =>
    simp only [startMap, ColorMap.ofTable] at h
    split at h
    · rename_i hle
      cases h
      simpa [ColorMap.Fits, ColorMap.size, ColorMap.colors] using hle
    · cases h

/-- A theme that was made from a source has its defaults and its rules. -/
theorem reads_of_ofSource {source : ThemeSource} {table : Option (List String)} {theme : Theme}
    (h : ofSource source table = .ok theme) : theme.Reads source := by
  obtain ⟨map, hstart, h⟩ := Except.bind_eq_ok_iff.1 h
  obtain ⟨⟨foreground, first⟩, hforeground, h⟩ := Except.bind_eq_ok_iff.1 h
  obtain ⟨⟨background, second⟩, hbackground, h⟩ := Except.bind_eq_ok_iff.1 h
  obtain ⟨⟨rules, later⟩, hrules, h⟩ := Except.bind_eq_ok_iff.1 h
  cases h
  obtain ⟨hlater, rfl, hcolors⟩ := internRules_spec hrules
  -- The defaults were interned before the colors of the rules.
  have hsecond := (ColorMap.extends_of_intern hbackground).trans hlater
  -- Both default colors keep their indices up to the map of the theme.
  have hforegroundId := hsecond.idOf?_eq _ _ (ColorMap.idOf?_of_intern hforeground)
  have hbackgroundId := hlater.idOf?_eq _ _ (ColorMap.idOf?_of_intern hbackground)
  exact {
    fits := ((ColorMap.extends_of_intern hforeground).trans hsecond).fits (fits_of_startMap hstart)
    defaults_eq := by rw [hforegroundId, hbackgroundId]
    foreground := by rw [hforegroundId]; rfl
    background := by rw [hbackgroundId]; rfl
    rules_eq := rfl
    colorsIn := hcolors }

/-! ## Layers of styles -/

/-- A style over itself is the style. -/
private theorem onto_onto_self (a b : Style) : a.onto (a.onto b) = a.onto b := by
  obtain ⟨fontStyle, foreground, background⟩ := a
  cases fontStyle <;> cases foreground <;> cases background <;> rfl

/-- The rules of a setting that match a path have the style of the setting in common. -/
private theorem foldl_rulesIn (map : ColorMap) (entry : SettingSource × Nat)
    (path : List ScopeName) (start : Style) :
    ((SettingSource.rulesIn map entry).filter (·.selector.selects path)).foldl
      (fun style rule => rule.style.onto style) start =
      if entry.1.selects path then (entry.1.styleIn map).onto start else start := by
  -- The rules have one style, so it makes no difference how many of them match.
  unfold SettingSource.rulesIn SettingSource.selects
  induction entry.1.selectors generalizing start with
  | nil => rfl
  | cons selector selectors ih =>
    rw [List.map_cons, List.any_cons]
    cases hselects : selector.selects path with
    | false => rw [List.filter_cons_of_neg (by simp [hselects]), ih, Bool.false_or]
    | true =>
      rw [List.filter_cons_of_pos (by simp [hselects]), List.foldl_cons, ih, Bool.true_or,
        if_pos rfl]
      dsimp only
      rw [onto_onto_self, ite_self]

/-- Only settings with selectors can select a path. -/
private theorem map_filter_selecting (source : ThemeSource) (path : List ScopeName) :
    (source.selecting.filter fun entry => entry.1.selects path).map (·.1) =
      source.settings.filter (·.selects path) := by
  -- A setting without selectors selects nothing, so leaving it out changes nothing.
  have hselects (setting : SettingSource) :
      (setting.selects path && !setting.isDefault) = setting.selects path := by
    rw [SettingSource.selects, SettingSource.isDefault]
    cases setting.selectors <;> simp
  -- Places in the list of settings have no part in what is selected.
  have hfst := List.filter_map (f := Prod.fst) (p := (·.selects path)) (l := source.settings.zipIdx)
  rw [List.zipIdx_map_fst] at hfst
  rw [hfst, ThemeSource.selecting, List.filter_filter]
  simp only [hselects]
  rfl

/-- The style of a path layers the styles of the settings that select it. -/
theorem Reads.styleFor_eq {theme : Theme} {source : ThemeSource} (h : theme.Reads source)
    (path : List ScopeName) :
    theme.styleFor path =
      ((source.settings.filter (·.selects path)).map (·.styleIn theme.colors)).foldl
        (fun style above => above.onto style) .none := by
  rw [styleFor, h.rules_eq, List.filter_flatMap, List.foldl_flatMap]
  -- Setting by setting, the rules come to the style of the setting.
  simp only [foldl_rulesIn]
  rw [← List.foldl_filter, ← map_filter_selecting, List.map_map, List.foldl_map]
  rfl

end Theme

/-- An attribute of styles that layers take from the upper style if it has the attribute. -/
structure Style.Layered {α : Type} (field : Style → Option α) : Prop where
  of_none : field Style.none = Option.none
  of_onto : ∀ a b, field (a.onto b) = (field a).or (field b)

/-- Of several layers the last one that has an attribute gives it. -/
private theorem Style.Layered.foldl_eq {α : Type} {field : Style → Option α}
    (h : Style.Layered field) (styles : List Style) :
    field (styles.foldl (fun style above => above.onto style) .none) =
      (styles.filterMap field).getLast? := by
  -- The induction is from the last layer on, which is above all others.
  induction styles using List.reverseRecOn with
  | nil => exact h.of_none
  | append_singleton styles style ih =>
    rw [List.foldl_append, List.foldl_cons, List.foldl_nil, h.of_onto, ih, List.filterMap_append,
      List.getLast?_append]
    cases hstyle : field style with
    | none => rw [List.filterMap_cons_none hstyle]; rfl
    | some value => rw [List.filterMap_cons_some hstyle]; rfl

/-! ## What a path looks like -/

namespace ThemeSource

/-- The last value that a setting with a selector for the path gives. -/
def lastSelecting? {α : Type} (source : ThemeSource) (path : List ScopeName)
    (value? : SettingSource → Option α) : Option α :=
  ((source.settings.filter (·.selects path)).filterMap value?).getLast?

/-- The font style of a path: that of the last setting with a selector for the path that has one,
else of the last setting without selectors that has one, else plain. -/
def fontStyleFor (source : ThemeSource) (path : List ScopeName) : FontStyle :=
  ((source.lastSelecting? path (·.fontStyle?)).or (source.lastDefault? (·.fontStyle?))).getD .plain

/-- A color of a path in upper case: that of the last setting with a selector for the path that has
one, else of the last setting without selectors that has one, else a color for all themes. -/
def colorFor (source : ThemeSource) (path : List ScopeName)
    (value? : SettingSource → Option String) (color : String) : String :=
  (((source.lastSelecting? path value?).or (source.lastDefault? value?)).map Text.upperString).getD
    color

/-- The color of a path as the setting has it written that gives it to the path. -/
def writtenFor (source : ThemeSource) (path : List ScopeName)
    (value? : SettingSource → Option String) (color : String) : String :=
  ((source.lastSelecting? path value?).or (source.lastDefault? value?)).getD color

/-- The color of a path is the written one in upper case. -/
theorem upperString_writtenFor (source : ThemeSource) (path : List ScopeName)
    (value? : SettingSource → Option String) {color : String}
    (hupper : Text.upperString color = color) :
    Text.upperString (source.writtenFor path value? color) = source.colorFor path value? color := by
  unfold writtenFor colorFor
  cases (source.lastSelecting? path value?).or (source.lastDefault? value?) with
  | some chosen => rfl
  | none => exact hupper

/-- The last value for a path is that of a setting that selects the path. -/
private theorem exists_of_lastSelecting? {α : Type} {source : ThemeSource} {path : List ScopeName}
    {value? : SettingSource → Option α} {value : α}
    (h : source.lastSelecting? path value? = some value) :
    ∃ setting ∈ source.settings, setting.selects path = true ∧ value? setting = some value := by
  obtain ⟨setting, hmem, hvalue⟩ := List.mem_filterMap.1 (List.mem_of_getLast? h)
  obtain ⟨hsetting, hselects⟩ := List.mem_filter.1 hmem
  exact ⟨setting, hsetting, hselects, hvalue⟩

/-- The last default value is that of a setting. -/
theorem exists_of_lastDefault? {α : Type} {source : ThemeSource}
    {value? : SettingSource → Option α} {value : α} (h : source.lastDefault? value? = some value) :
    ∃ setting, value? setting = some value := by
  obtain ⟨setting, -, hvalue⟩ := List.mem_filterMap.1 (List.mem_of_getLast? h)
  exact ⟨setting, hvalue⟩

end ThemeSource

namespace FontStyle

/-- A word sets one of three flags or none. -/
private theorem toNat_ofWord_lt (word : String) : (ofWord word).bits.toNat < 8 := by
  unfold ofWord
  split <;> decide

/-- The words of a text set no more than three flags. -/
private theorem toNat_ofWords_lt (text : String) : (ofWords text).bits.toNat < 8 := by
  -- The induction needs any flags to start from.
  have hall (words : List (List Char)) (style : FontStyle) (h : style.bits.toNat < 8) :
      (words.foldl (fun style word => ⟨style.bits ||| (ofWord (String.ofList word)).bits⟩)
        style).bits.toNat < 8 := by
    induction words generalizing style with
    | nil => exact h
    | cons word words ih =>
      refine ih _ ?_
      rw [UInt8.toNat_or]
      exact Nat.or_lt_two_pow (n := 3) h (toNat_ofWord_lt _)
  exact hall _ _ (by decide)

end FontStyle

/-- The font style of a setting fits into its three bits. -/
private theorem SettingSource.fits_fontStyle? {setting : SettingSource} {style : FontStyle}
    (h : setting.fontStyle? = some style) : style.bits.toNat < 8 := by
  obtain ⟨text, -, rfl⟩ := Option.map_eq_some_iff.1 h
  exact FontStyle.toNat_ofWords_lt text

namespace Theme

variable {theme : Theme} {source : ThemeSource}

/-- An attribute of the style of a path is that of the last setting that has it. -/
private theorem Reads.field_styleFor (h : theme.Reads source) (path : List ScopeName) {α : Type}
    {field : Style → Option α} (hfield : Style.Layered field) :
    field (theme.styleFor path) =
      source.lastSelecting? path fun setting => field (setting.styleIn theme.colors) := by
  -- The style of a path is made of layers, and the attribute is that of the last one with it.
  rw [h.styleFor_eq, hfield.foldl_eq, List.filterMap_map]
  rfl

/-- A color attribute: the indices that a theme has for the colors that settings give. -/
structure ColorField (theme : Theme) (source : ThemeSource)
    (value? : SettingSource → Option String) (field : Style → Option Nat) : Prop where
  layered : Style.Layered field
  styleIn_eq : ∀ setting : SettingSource,
    field (setting.styleIn theme.colors) = (value? setting).bind theme.colors.idOf?
  known : ∀ entry ∈ source.selecting, ∀ color ∈ value? entry.1, (theme.colors.idOf? color).isSome
  isHexColor : ∀ setting, ∀ color ∈ value? setting, isHexColor color = true

/-- Foregrounds are read like other color attributes. -/
theorem Reads.colorField_foreground (h : theme.Reads source) :
    theme.ColorField source (·.foreground?) (·.foreground) where
  layered := ⟨rfl, fun _ _ => rfl⟩
  styleIn_eq := fun _ => rfl
  known := fun entry hentry => (h.colorsIn entry hentry).foreground
  isHexColor := fun _ _ => SettingSource.isHexColor_foreground?

/-- Backgrounds are read like other color attributes. -/
theorem Reads.colorField_background (h : theme.Reads source) :
    theme.ColorField source (·.background?) (·.background) where
  layered := ⟨rfl, fun _ _ => rfl⟩
  styleIn_eq := fun _ => rfl
  known := fun entry hentry => (h.colorsIn entry hentry).background
  isHexColor := fun _ _ => SettingSource.isHexColor_background?

section

variable {value? : SettingSource → Option String} {field : Style → Option Nat}

/-- A color of a setting that selects a path has an index. -/
private theorem ColorField.isSome (hfield : theme.ColorField source value? field)
    {path : List ScopeName} {setting : SettingSource} (hsetting : setting ∈ source.settings)
    (hselects : setting.selects path = true) {color : String}
    (hvalue : value? setting = some color) : (theme.colors.idOf? color).isSome := by
  have hmem : setting ∈ source.settings.filter (·.selects path) :=
    List.mem_filter.2 ⟨hsetting, hselects⟩
  -- A setting that selects a path has selectors, so its colors were interned.
  rw [← map_filter_selecting] at hmem
  obtain ⟨entry, hentry, rfl⟩ := List.mem_map.1 hmem
  exact hfield.known entry (List.mem_filter.1 hentry).1 color hvalue

/-- The index in the style of a path is that of the color of the last setting that has one. -/
private theorem Reads.color_styleFor (h : theme.Reads source)
    (hfield : theme.ColorField source value? field) (path : List ScopeName) :
    field (theme.styleFor path) = (source.lastSelecting? path value?).bind theme.colors.idOf? := by
  rw [h.field_styleFor path hfield.layered]
  simp only [ThemeSource.lastSelecting?, hfield.styleIn_eq]
  rw [← List.filterMap_filterMap]
  -- All colors of settings that select the path have an index, so the last color has the last one.
  refine List.getLast?_filterMap_of_isSome fun color hcolor => ?_
  obtain ⟨setting, hmem, hvalue⟩ := List.mem_filterMap.1 hcolor
  obtain ⟨hsetting, hselects⟩ := List.mem_filter.1 hmem
  exact hfield.isSome hsetting hselects hvalue

/-- The color of a path has an index that fits into its field. -/
private theorem Reads.le_maxColor_styleFor (h : theme.Reads source)
    (hfield : theme.ColorField source value? field) (path : List ScopeName) :
    ∀ id ∈ field (theme.styleFor path), id ≤ maxColor := by
  rw [h.color_styleFor hfield]
  intro id hid
  obtain ⟨color, -, hcolor⟩ := Option.bind_eq_some_iff.1 hid
  exact ColorMap.le_maxColor_of_idOf? h.fits hcolor

/-- The color that counts is the one with its index. -/
private theorem color?_of_isHexColor {color : String} (hhex : isHexColor color = true) {id : Nat}
    (hid : theme.colors.idOf? color = some id) :
    theme.colors.color? id = some (Text.upperString color) :=
  ColorMap.color?_of_idOf? hid (upperString_ne_empty_of_isHexColor hhex)

/-- The index that a path has for a color, its own or that of the defaults, is that of the color as
it is written for the path. -/
theorem Reads.idOf?_writtenFor (h : theme.Reads source)
    (hfield : theme.ColorField source value? field) (path : List ScopeName) {color : String}
    (hknown : (theme.colors.idOf? ((source.lastDefault? value?).getD color)).isSome) (old : Nat) :
    theme.colors.idOf? (source.writtenFor path value? color) =
      some ((field (theme.styleFor path)).getD
        ((theme.colors.idOf? ((source.lastDefault? value?).getD color)).getD old)) := by
  rw [h.color_styleFor hfield, ThemeSource.writtenFor]
  cases hselecting : source.lastSelecting? path value? with
  -- A setting that selects the path has its color in the map.
  | some chosen =>
    obtain ⟨setting, hsetting, hselects, hvalue⟩ :=
      ThemeSource.exists_of_lastSelecting? hselecting
    obtain ⟨id, hid⟩ := Option.isSome_iff_exists.1 (hfield.isSome hsetting hselects hvalue)
    rw [Option.some_or, Option.getD_some, Option.bind_some, hid, Option.getD_some]
  | none =>
    obtain ⟨id, hid⟩ := Option.isSome_iff_exists.1 hknown
    rw [Option.none_or, Option.bind_none, Option.getD_none, hid, Option.getD_some]

/-- What is written for a path is a color, if the color for all themes is one. -/
theorem ColorField.isHexColor_writtenFor (hfield : theme.ColorField source value? field)
    (path : List ScopeName) {color : String} (hhex : Textmate.isHexColor color = true) :
    Textmate.isHexColor (source.writtenFor path value? color) = true := by
  unfold ThemeSource.writtenFor
  -- The color is that of a setting for the path, that of the defaults, or the one for all themes.
  cases hselecting : source.lastSelecting? path value? with
  | some chosen =>
    obtain ⟨setting, -, -, hvalue⟩ := ThemeSource.exists_of_lastSelecting? hselecting
    exact hfield.isHexColor setting chosen hvalue
  | none =>
    cases hdefault : source.lastDefault? value? with
    | some chosen =>
      obtain ⟨setting, hvalue⟩ := ThemeSource.exists_of_lastDefault? hdefault
      exact hfield.isHexColor setting chosen hvalue
    | none => exact hhex

/-- The entry with the index that a path has for a color is the color of the path. -/
private theorem Reads.color?_eq (h : theme.Reads source)
    (hfield : theme.ColorField source value? field)
    (path : List ScopeName) {color : String} (hhex : isHexColor color = true)
    (hupper : Text.upperString color = color)
    (hknown : (theme.colors.idOf? ((source.lastDefault? value?).getD color)).isSome) (old : Nat) :
    theme.colors.color? ((field (theme.styleFor path)).getD
      ((theme.colors.idOf? ((source.lastDefault? value?).getD color)).getD old)) =
      some (source.colorFor path value? color) := by
  rw [color?_of_isHexColor (hfield.isHexColor_writtenFor path hhex)
    (h.idOf?_writtenFor hfield path hknown old), source.upperString_writtenFor path value? hupper]

end

/-- The font style in the style of a path is that of the last setting that has one. -/
private theorem Reads.field_fontStyle (h : theme.Reads source) (path : List ScopeName) :
    (theme.styleFor path).fontStyle = source.lastSelecting? path (·.fontStyle?) := by
  have hlayered : Style.Layered (·.fontStyle) := ⟨rfl, fun _ _ => rfl⟩
  exact h.field_styleFor path hlayered

/-- The font style of a path, its own or that of the defaults, is that of its settings. -/
private theorem Reads.fontStyle_eq (h : theme.Reads source) (path : List ScopeName) :
    (theme.styleFor path).fontStyle.getD source.defaultFontStyle = source.fontStyleFor path := by
  rw [h.field_fontStyle, ThemeSource.fontStyleFor, ThemeSource.defaultFontStyle, Option.getD_or]

/-- What a theme changes in a word fits into the fields of the word. -/
private theorem Reads.fits_styleFor (h : theme.Reads source) (path : List ScopeName) :
    (theme.styleFor path).toPatch.Fits where
  language := fun _ h => nomatch h
  tokenType := fun _ h => nomatch h
  fontStyle := by
    intro style hstyle
    -- The style is that of a setting, whose words make up three bits.
    obtain ⟨setting, -, -, hvalue⟩ :=
      ThemeSource.exists_of_lastSelecting? ((h.field_fontStyle path).symm.trans hstyle)
    exact SettingSource.fits_fontStyle? hvalue
  foreground := fun id hid =>
    Nat.lt_succ_of_le (h.le_maxColor_styleFor h.colorField_foreground path id hid)
  background := fun id hid =>
    Nat.lt_succ_of_le (h.le_maxColor_styleFor h.colorField_background path id hid)

/-- The defaults of a theme fit into the fields of a word. -/
private theorem Reads.fits_defaults (h : theme.Reads source) : theme.defaults.toPatch.Fits := by
  rw [h.defaults_eq]
  refine ⟨fun _ h => (nomatch h), fun _ h => (nomatch h), fun style hstyle => ?_,
    fun id hid => Nat.lt_succ_of_le (ColorMap.le_maxColor_of_idOf? h.fits hid),
    fun id hid => Nat.lt_succ_of_le (ColorMap.le_maxColor_of_idOf? h.fits hid)⟩
  -- The default font style is plain, or it was read from a setting.
  cases hstyle
  rw [ThemeSource.defaultFontStyle]
  cases hdefault : source.lastDefault? (·.fontStyle?) with
  | none => decide
  | some style =>
    obtain ⟨setting, hvalue⟩ := ThemeSource.exists_of_lastDefault? hdefault
    exact SettingSource.fits_fontStyle? hvalue

/-- A styled word has the style of the path above the defaults above what it had. -/
theorem Reads.unpack_apply (h : theme.Reads source) (path : List ScopeName) (word : Metadata) :
    (theme.apply path word).unpack =
      (theme.styleFor path).toPatch.onto (theme.defaults.toPatch.onto word.unpack) := by
  rw [← Metadata.unpack_apply_of_fits word h.fits_defaults]
  exact Metadata.unpack_apply_of_fits _ (h.fits_styleFor path)

/-- What a word looks like with the style of a path, for a theme made from a source: its colors and
its font style come from the last setting that gives them to the path, or from the defaults, and its
language and token type stay. -/
theorem apply_ofSource {table : Option (List String)} (h : ofSource source table = .ok theme)
    (path : List ScopeName) (word : Metadata) :
    let styled := theme.apply path word
    theme.colors.color? styled.foreground = some (source.colorFor path (·.foreground?) "#000000") ∧
      theme.colors.color? styled.background =
        some (source.colorFor path (·.background?) "#FFFFFF") ∧
      styled.fontStyle = source.fontStyleFor path ∧ styled.language = word.language ∧
      styled.tokenType = word.tokenType := by
  intro styled
  have hreads := reads_of_ofSource h
  -- The style of the path goes on top of the defaults, and both on top of the word.
  have hstyled : styled.unpack =
      (theme.styleFor path).toPatch.onto (theme.defaults.toPatch.onto word.unpack) :=
    hreads.unpack_apply path word
  rw [hreads.defaults_eq] at hstyled
  have hforeground := congrArg Attributes.foreground hstyled
  have hbackground := congrArg Attributes.background hstyled
  refine ⟨?_, ?_, ?_, congrArg Attributes.language hstyled, congrArg Attributes.tokenType hstyled⟩
  · exact (congrArg theme.colors.color? hforeground).trans (hreads.color?_eq
      hreads.colorField_foreground path (by decide) (by decide) hreads.foreground word.foreground)
  · exact (congrArg theme.colors.color? hbackground).trans (hreads.color?_eq
      hreads.colorField_background path (by decide) (by decide) hreads.background word.background)
  · exact (congrArg Attributes.fontStyle hstyled).trans (hreads.fontStyle_eq path)

/-- A comment takes its foreground and its font style from one setting and its background from a
later one, whose foreground does not count. -/
theorem apply_ofSource_to_comment :
    let path : List ScopeName := [⟨"source.a", by decide, by simp, by simp; decide⟩,
      ⟨"comment.line", by decide, by simp, by simp; decide⟩]
    let source : ThemeSource := ⟨none,
      [⟨none, none, ⟨some "bold", some "#111", none⟩⟩,
        ⟨none, some (.one "comment, string"), ⟨some "italic", some "#aabbcc", none⟩⟩,
        ⟨none, some (.many ["source.a comment"]), ⟨none, some "red", some "#123456"⟩⟩]⟩
    let word := Metadata.pack ⟨7, .comment, .plain, 0, 0⟩
    ∃ theme, ofSource source none = .ok theme ∧
      theme.colors.color? (theme.apply path word).foreground = some "#AABBCC" ∧
      theme.colors.color? (theme.apply path word).background = some "#123456" ∧
      (theme.apply path word).fontStyle = ⟨1⟩ ∧ (theme.apply path word).language = word.language ∧
      (theme.apply path word).tokenType = word.tokenType := by
  intro path source word
  have hread : (ofSource source none).toOption.any (fun _ => true) = true := by decide
  obtain ⟨theme, htheme, -⟩ := Except.exists_ok_of_any hread
  have hforeground : source.colorFor path (·.foreground?) "#000000" = "#AABBCC" := by decide
  have hbackground : source.colorFor path (·.background?) "#FFFFFF" = "#123456" := by decide
  have hfontStyle : source.fontStyleFor path = ⟨1⟩ := by rfl
  refine ⟨theme, htheme, ?_⟩
  -- What is written in the settings is computed; that the word shows it is the theorem.
  rw [← hforeground, ← hbackground, ← hfontStyle]
  exact apply_ofSource htheme path word

end Theme

end Textmate
