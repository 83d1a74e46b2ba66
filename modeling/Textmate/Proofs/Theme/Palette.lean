import Textmate.Error
import Textmate.Proofs.List
import Textmate.Proofs.Theme.Interning
import Textmate.Proofs.Theme.Styles

/-!
# The colors of a theme without a table

A theme that is read without a table numbers its colors in the order in which they first occur: the
final colors of the defaults, then those of the settings with selectors. There is room for as many
as the indices of a metadata word can tell apart, the index of no color aside. A theme with more
colors cannot be read, and every other one can.

## Key results

- `ColorMap.Adds`: a step that takes up colors as long as there is room, and what such steps make
  together
- `Theme.adds_internRules`: reading settings takes up their colors
- `Theme.ofSource_growable`: which themes can be read, with which table and which rules
-/

namespace Textmate

namespace ColorMap

/-! ## Taking up colors -/

/-- The growable map to which colors were added one after another. A color that occurs again, with
whatever letters, has its entry already. -/
def ofColors (colors : List String) : ColorMap :=
  .growable (colors.map Text.upperString).eraseDups

section

variable {known colors : List String} {color : String}

/-- The colors stand behind the entry for no color. -/
theorem colors_ofColors (colors : List String) :
    (ofColors colors).colors = "" :: (colors.map Text.upperString).eraseDups := rfl

/-- Without colors the map is empty. -/
@[simp] theorem ofColors_nil : ofColors [] = .empty := by
  simp [ofColors, empty]

/-- There is room for the first of some colors if there is room for all of them. -/
private theorem fits_of_append (h : (ofColors (known ++ colors)).Fits) : (ofColors known).Fits := by
  unfold Fits size at *
  simp only [colors_ofColors, List.map_append, List.eraseDups_append, List.length_cons,
    List.length_append] at *
  omega

/-- A color that occurred before adds nothing. -/
private theorem ofColors_concat_of_mem (h : Text.upperString color ∈ known.map Text.upperString) :
    ofColors (known ++ [color]) = ofColors known := by
  unfold ofColors
  rw [List.map_append, List.map_singleton, List.eraseDups_concat, if_pos h]

/-- A new color has its entry behind all others. -/
private theorem ofColors_concat_of_not_mem
    (h : Text.upperString color ∉ known.map Text.upperString) :
    ofColors (known ++ [color]) =
      .growable ((known.map Text.upperString).eraseDups ++ [Text.upperString color]) := by
  unfold ofColors
  rw [List.map_append, List.map_singleton, List.eraseDups_concat, if_neg h]

/-- A color that occurred before has an index. -/
private theorem exists_idOf?_ofColors (h : Text.upperString color ∈ known.map Text.upperString) :
    ∃ id, (ofColors known).idOf? color = some id := by
  refine Option.isSome_iff_exists.1 ?_
  simpa [ofColors, idOf?, find?, List.isSome_idxOf?] using h

/-- A step that takes up colors, each at its first occurrence, and fails when there is no room for
one of them. -/
structure Adds {α : Type} (step : ColorMap → Except Problem (α × ColorMap))
    (colors : List String) : Prop where
  ok : ∀ known, (ofColors (known ++ colors)).Fits →
    ∃ a, step (ofColors known) = .ok (a, ofColors (known ++ colors))
  full : ∀ known, (ofColors known).Fits → ¬ (ofColors (known ++ colors)).Fits →
    ∃ color, step (ofColors known) = .error (.full color)

namespace Adds

/-- A step that takes up nothing. -/
private theorem pure {α : Type} (a : α) : Adds (fun map => .ok (a, map)) [] where
  ok := fun known _ => ⟨a, by rw [List.append_nil]⟩
  full := fun known hfits hfull => absurd (by rwa [List.append_nil]) hfull

/-- A step and then another one take up the colors of both. -/
private theorem bind {α β : Type} {step : ColorMap → Except Problem (α × ColorMap)}
    {next : α × ColorMap → Except Problem (β × ColorMap)} {more : List String}
    (h : Adds step colors) (hnext : ∀ a, Adds (fun map => next (a, map)) more) :
    Adds (fun map => step map >>= next) (colors ++ more) := by
  constructor
  · intro known hfits
    rw [← List.append_assoc] at hfits ⊢
    obtain ⟨a, hstep⟩ := h.ok known (fits_of_append hfits)
    obtain ⟨b, hb⟩ := (hnext a).ok (known ++ colors) hfits
    exact ⟨b, Except.bind_eq_ok_iff.2 ⟨_, hstep, hb⟩⟩
  · intro known hknown hfull
    rw [← List.append_assoc] at hfull
    -- Either there is no room for the first colors, or the second step comes to where it runs out.
    by_cases hfits : (ofColors (known ++ colors)).Fits
    · obtain ⟨a, hstep⟩ := h.ok known hfits
      obtain ⟨color, hcolor⟩ := (hnext a).full (known ++ colors) hfits hfull
      refine ⟨color, ?_⟩
      show step (ofColors known) >>= next = _
      rw [hstep]
      exact hcolor
    · obtain ⟨color, hcolor⟩ := h.full known hknown hfits
      refine ⟨color, ?_⟩
      show step (ofColors known) >>= next = _
      rw [hcolor]
      rfl

/-- What becomes of the answer of a step has no part in the colors. -/
private theorem map {α β : Type} {step : ColorMap → Except Problem (α × ColorMap)}
    (h : Adds step colors)
    (f : α → β) : Adds (fun map => (step map).map fun (a, map) => (f a, map)) colors := by
  constructor
  · intro known hfits
    obtain ⟨a, hstep⟩ := h.ok known hfits
    refine ⟨f a, ?_⟩
    simp only [hstep]
    rfl
  · intro known hknown hfull
    obtain ⟨color, hstep⟩ := h.full known hknown hfull
    refine ⟨color, ?_⟩
    simp only [hstep]
    rfl

/-- Interning takes up one color. -/
theorem intern (color : String) : Adds (·.intern color) [color] := by
  constructor
  · intro known hfits
    -- A color that occurred before has its index, and a new one needs room for one entry more.
    by_cases hold : Text.upperString color ∈ known.map Text.upperString
    · obtain ⟨id, hid⟩ := exists_idOf?_ofColors hold
      exact ⟨id, by rw [intern_of_idOf? hid, ofColors_concat_of_mem hold]⟩
    · rw [ofColors_concat_of_not_mem hold] at hfits ⊢
      have hroom : (known.map Text.upperString).eraseDups.length + 1 < capacity := by
        refine Nat.lt_of_succ_le ?_
        simpa [Fits, size, ColorMap.colors] using hfits
      have hintern := intern_growable (by rwa [List.mem_eraseDups])
      rw [if_pos hroom] at hintern
      exact ⟨_, hintern⟩
  · intro known hfits hfull
    -- There was room before the color, so it takes some up.
    have hnew : Text.upperString color ∉ known.map Text.upperString := by
      intro hold
      rw [ofColors_concat_of_mem hold] at hfull
      exact hfull hfits
    have hroom : ¬ (known.map Text.upperString).eraseDups.length + 1 < capacity := by
      rw [ofColors_concat_of_not_mem hnew] at hfull
      refine Nat.not_lt.2 (Nat.le_of_lt_succ ?_)
      simpa [Fits, size, ColorMap.colors] using hfull
    have hintern := intern_growable (by rwa [List.mem_eraseDups])
    rw [if_neg hroom] at hintern
    exact ⟨_, hintern⟩

end Adds

end

end ColorMap

/-! ## The colors of a source -/

namespace SettingSource

/-- The colors of the setting that count, in the order in which they are numbered. -/
def hexColors (setting : SettingSource) : List String :=
  setting.foreground?.toList ++ setting.background?.toList

end SettingSource

namespace ThemeSource

/-- The colors that a theme needs: those of the defaults, and those of the settings with selectors
in their order. -/
def neededColors (source : ThemeSource) : List String :=
  source.defaultForeground :: source.defaultBackground ::
    source.selecting.flatMap fun (setting, _) => setting.hexColors

/-- The needed colors in upper case, each at its first occurrence. -/
def palette (source : ThemeSource) : List String :=
  (source.neededColors.map Text.upperString).eraseDups

/-- There is room for all needed colors beside the entry for no color. -/
theorem fits_neededColors_iff (source : ThemeSource) :
    (ColorMap.ofColors source.neededColors).Fits ↔ source.palette.length ≤ 511 := by
  show source.palette.length + 1 ≤ 512 ↔ source.palette.length ≤ 511
  omega

end ThemeSource

/-! ## Themes without a table -/

namespace Theme

open ColorMap (Adds ofColors)

/-- A color that may be absent takes up one entry or none. -/
private theorem adds_internOptional (color? : Option String) :
    Adds (internOptional · color?) color?.toList := by
  cases color? with
  | none => exact .pure none
  | some color => exact (Adds.intern color).map some

/-- Reading settings takes up their colors, setting by setting. -/
theorem adds_internRules (settings : List (SettingSource × Nat)) :
    Adds (internRules · settings) (settings.flatMap fun (setting, _) => setting.hexColors) := by
  induction settings with
  | nil => exact .pure []
  | cons entry settings ih =>
    obtain ⟨setting, index⟩ := entry
    simp only [List.flatMap_cons, SettingSource.hexColors, List.append_assoc]
    -- The text color of a setting is numbered before the background.
    refine (adds_internOptional setting.foreground?).bind fun foreground => ?_
    refine (adds_internOptional setting.background?).bind fun background => ?_
    exact ih.map (setting.selectors.map
      (⟨·, ⟨setting.fontStyle?, foreground, background⟩, index⟩) ++ ·)

/-- The indices of the default colors and the rules of a theme, and the map with all its colors. -/
def numberColors (source : ThemeSource) (map : ColorMap) :
    Except ColorMap.Problem ((Nat × Nat × List ThemeRule) × ColorMap) := do
  let (foreground, map) ← map.intern source.defaultForeground
  let (background, map) ← map.intern source.defaultBackground
  (internRules map source.selecting).map fun (rules, map) => ((foreground, background, rules), map)

/-- Numbering the colors of a theme takes up the needed ones. -/
theorem adds_numberColors (source : ThemeSource) :
    Adds (numberColors source) source.neededColors := by
  -- The defaults come first, then the settings in their order.
  refine (Adds.intern source.defaultForeground).bind fun foreground => ?_
  refine (Adds.intern source.defaultBackground).bind fun background => ?_
  exact (adds_internRules source.selecting).map (foreground, background, ·)

/-- Without a table a theme numbers its colors in an empty map. -/
theorem ofSource_none (source : ThemeSource) :
    ofSource source none =
      (numberColors source .empty).map fun ((foreground, background, rules), map) =>
        ⟨source.name, ⟨some source.defaultFontStyle, some foreground, some background⟩, rules,
          map⟩ := by
  -- Both sides intern the same colors in the same order; the first failure is that of both.
  have hstart : startMap none = .ok .empty := rfl
  unfold ofSource numberColors
  rw [hstart]
  cases hforeground : ColorMap.empty.intern source.defaultForeground with
  | error problem => simp [bind, Except.bind, hforeground, Except.map]
  | ok numbered =>
    obtain ⟨foreground, first⟩ := numbered
    cases hbackground : first.intern source.defaultBackground with
    | error problem => simp [bind, Except.bind, hforeground, hbackground, Except.map]
    | ok numbered =>
      obtain ⟨background, second⟩ := numbered
      cases hrules : internRules second source.selecting with
      | error problem => simp [bind, Except.bind, hforeground, hbackground, hrules, Except.map]
      | ok numbered => simp [bind, Except.bind, hforeground, hbackground, hrules, Except.map]

/-- A theme has one rule for each selector of each setting, in the order of the theme. -/
private theorem Reads.places_rules {source : ThemeSource} {theme : Theme} (h : theme.Reads source) :
    theme.rules.map (fun rule => (rule.index, rule.selector)) =
      source.settings.zipIdx.flatMap fun (setting, index) => setting.selectors.map (index, ·) := by
  -- The rules of one setting have its place in the theme.
  have hsetting (setting : SettingSource) (index : Nat) :
      (SettingSource.rulesIn theme.colors (setting, index)).map
        (fun rule => (rule.index, rule.selector)) = setting.selectors.map (index, ·) := by
    simp [SettingSource.rulesIn, Function.comp_def]
  rw [h.rules_eq, ThemeSource.selecting, List.map_flatMap]
  induction source.settings.zipIdx with
  | nil => rfl
  | cons entry entries ih =>
    obtain ⟨setting, index⟩ := entry
    rw [List.filter_cons, List.flatMap_cons, ← ih]
    -- A setting without selectors is left out on one side and has no rules on the other.
    by_cases hdefault : setting.selectors = []
    · simp [SettingSource.isDefault, hdefault]
    · simp [SettingSource.isDefault, hdefault, hsetting]

/-- Without a table a theme can be read exactly when it has at most 511 colors. Then its table has
them behind the entry for no color, and there is one rule for each selector of each setting. -/
theorem ofSource_growable (source : ThemeSource) :
    (source.palette.length ≤ 511 → ∃ theme, ofSource source none = .ok theme ∧
      theme.colors.colors = "" :: source.palette ∧
      theme.rules.map (fun rule => (rule.index, rule.selector)) =
        source.settings.zipIdx.flatMap fun (setting, index) => setting.selectors.map (index, ·)) ∧
    (511 < source.palette.length → ∃ color,
      (ofSource source none).mapError Error.theme = .error (.theme (.full color))) := by
  have hadds := adds_numberColors source
  have hfits := source.fits_neededColors_iff
  constructor
  · intro hle
    obtain ⟨⟨foreground, background, rules⟩, hnumbered⟩ := hadds.ok [] (hfits.2 hle)
    -- Without a table numbering begins with no color.
    rw [ColorMap.ofColors_nil, List.nil_append] at hnumbered
    have htheme := ofSource_none source
    -- The map with all needed colors is what numbering ends with.
    rw [hnumbered] at htheme
    exact ⟨_, htheme, rfl, (reads_of_ofSource htheme).places_rules⟩
  · intro hlt
    -- Before the first color there is room.
    have hroom : (ofColors []).Fits := by
      rw [ColorMap.ofColors_nil]
      exact ColorMap.Initial.growable.fits
    obtain ⟨color, hfull⟩ := hadds.full [] hroom fun h => by
      have hle := hfits.1 h
      omega
    rw [ColorMap.ofColors_nil] at hfull
    rw [ofSource_none, hfull]
    exact ⟨color, rfl⟩

/-- The last default colors come first, and a color that counts twice has one entry. -/
theorem ofSource_growable_of_repeated_color :
    let source : ThemeSource := ⟨none,
      [⟨none, none, ⟨none, some "#abc", some "white"⟩⟩,
        ⟨none, some (.one "comment, string"), ⟨none, some "#ddd", some "#Abc"⟩⟩,
        ⟨none, none, ⟨none, some "#DDD", none⟩⟩,
        ⟨none, some (.many ["source.a comment"]), ⟨none, some "#12", some "#123456"⟩⟩]⟩
    source.palette.length ≤ 511 ∧ ∃ theme, ofSource source none = .ok theme ∧
      theme.colors.colors = ["", "#DDD", "#FFFFFF", "#ABC", "#123456"] ∧
      theme.rules.map (fun rule => (rule.index, rule.selector)) =
        [(1, ⟨[], "comment"⟩), (1, ⟨[], "string"⟩), (3, ⟨["source.a"], "comment"⟩)] := by
  intro source
  have hpalette : source.palette = ["#DDD", "#FFFFFF", "#ABC", "#123456"] := by decide
  have hle : source.palette.length ≤ 511 := by rw [hpalette]; decide
  have hrules : (source.settings.zipIdx.flatMap fun (setting, index) =>
      setting.selectors.map (index, ·)) =
      [(1, ⟨[], "comment"⟩), (1, ⟨[], "string"⟩), (3, ⟨["source.a"], "comment"⟩)] := by rfl
  -- The general theorem has the palette and the rules as the source has them.
  rw [← hpalette, ← hrules]
  exact ⟨hle, (ofSource_growable source).1 hle⟩

end Theme

end Textmate
