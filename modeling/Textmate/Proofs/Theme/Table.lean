import Mathlib.Data.List.Nodup
import Textmate.Proofs.Theme.Palette

/-!
# The colors of a theme with a table

A theme that is read with a table takes all of its colors from there and adds none. So it can be
read when the table is not too long and has the colors that the theme needs. A theme that was read
without a table can be read again with the table that it made: a color has the same index in both,
since the table has no color twice and no entry in lower case.

## Key results

- `Theme.ofSource_of_known`: reading a theme whose colors are all in a map
- `ColorMap.idOf?_fixed_colors`: the entries of a growable map, given as a table
- `Theme.ofSource_fixed`: which themes can be read with a table, and what is read with its own table
-/

namespace Textmate

/-! ## Colors in upper case -/

namespace Text

/-- An ASCII letter in upper case is in upper case. -/
private theorem upperChar_toUpper {c : Char} (h : c.toNat < 0x80) :
    upperChar c.toUpper = upperChar c := by
  -- There are few such characters, so all of them are tried.
  have hall : ∀ n < 0x80, upperChar (Char.ofNat n).toUpper = upperChar (Char.ofNat n) := by decide
  simpa using hall c.toNat h

/-- Upper case is upper case already, at least when all letters are ASCII letters. -/
private theorem upper_upper_of_ascii {cs : List Char} (h : ∀ c ∈ cs, c.toNat < 0x80) :
    upper (upper cs) = upper cs := by
  induction cs with
  | nil => rfl
  | cons c cs ih =>
    have hc := h c List.mem_cons_self
    have hupper : upperChar c = [c.toUpper] := by rw [upperChar, if_pos hc]
    have hcs := ih fun d hd => h d (List.mem_cons_of_mem _ hd)
    simp only [upper, List.flatMap_cons, List.flatMap_append] at hcs ⊢
    rw [hcs, hupper, List.flatMap_singleton, upperChar_toUpper hc, hupper]

end Text

/-- The characters of a color that counts are ASCII characters. -/
private theorem ascii_of_isHexColor {color : String} (h : isHexColor color = true) :
    ∀ c ∈ color.toList, c.toNat < 0x80 := by
  unfold isHexColor at h
  split at h
  · rename_i digits heq
    have hdigits := List.all_eq_true.1 (Bool.and_eq_true_iff.1 h).2
    rw [heq]
    intro c hc
    rcases List.mem_cons.1 hc with rfl | hdigit
    · decide
    · have hvalue := hdigits c hdigit
      -- Hexadecimal digits are numerals and the letters from A to F.
      simp only [Text.digitValue?] at hvalue
      split_ifs at hvalue with hdecimal hlower hupper <;> simp_all <;> omega
  · cases h

/-- A color in upper case is in upper case. -/
private theorem upperString_upperString_of_isHexColor {color : String}
    (h : isHexColor color = true) :
    Text.upperString (Text.upperString color) = Text.upperString color := by
  unfold Text.upperString
  rw [String.toList_ofList, Text.upper_upper_of_ascii (ascii_of_isHexColor h)]

/-! ## Maps without repeated entries -/

/-- Without its duplicates a list has none. -/
private theorem nodup_eraseDups (colors : List String) : colors.eraseDups.Nodup := by
  induction colors using List.reverseRecOn with
  | nil => exact List.nodup_nil
  | append_singleton colors color ih =>
    rw [List.eraseDups_concat]
    split
    · exact ih
    · rename_i hnew
      -- The last color is kept only if it is none of those before.
      have hapart : ∀ other ∈ colors, other ≠ color := fun other hother heq => hnew (heq ▸ hother)
      exact List.nodup_append.2 ⟨ih, List.nodup_singleton color, by simpa using hapart⟩

namespace ColorMap

variable {map later : ColorMap} {color : String} {id : Nat}

/-- A fixed map never changes. -/
private theorem eq_of_intern_fixed {table : List String}
    (h : (fixed table).intern color = .ok (id, later)) : later = fixed table := by
  rcases intern_cases h with hfound | ⟨added, hgrowable, -⟩
  · exact hfound.2
  · cases hgrowable

/-- In a map without repeated entries, the index of a color is where its entry is. -/
private theorem idOf?_eq_some_iff_of_nodup (hnodup : map.colors.Nodup) (hne : color ≠ "") :
    map.idOf? color = some id ↔ map.colors[id]? = some (Text.upperString color) := by
  refine ⟨getElem?_of_idOf?, fun hentry => ?_⟩
  cases hid : map.idOf? color with
  | none => exact absurd (List.mem_of_getElem? hentry) ((idOf?_eq_none_iff hne).1 hid)
  | some other =>
    -- Both entries are the color, so they are one entry.
    have hother := getElem?_of_idOf? hid
    have hlt := (List.getElem?_eq_some_iff.1 hother).1
    rw [(List.getElem?_inj hlt hnodup).1 (hother.trans hentry.symm)]

/-- Given as a table, the entries of a growable map have the indices that they had. -/
theorem idOf?_fixed_colors {added : List String} (hnodup : (growable added).colors.Nodup) :
    (fixed (growable added).colors).idOf? = (growable added).idOf? := by
  funext color
  by_cases hempty : color = ""
  · subst hempty
    -- The entry zero of a growable map is no color, and no other one is empty.
    have hnew : added.idxOf? "" = none := List.idxOf?_eq_none_iff.2 (List.nodup_cons.1 hnodup).1
    have hupper : Text.upperString "" = "" := Text.upperString_eq_empty_iff.2 rfl
    simp [idOf?, find?, hupper, hnew]
  · refine Option.ext fun id => ?_
    rw [idOf?_eq_some_iff_of_nodup hnodup hempty,
      idOf?_eq_some_iff_of_nodup (by exact hnodup) hempty]
    rfl

end ColorMap

/-! ## Colors that a theme needs -/

namespace ThemeSource

variable {source : ThemeSource}

/-- All colors that a theme needs are colors that count. -/
theorem isHexColor_of_mem_neededColors {color : String} (h : color ∈ source.neededColors) :
    isHexColor color = true := by
  rw [neededColors, List.mem_cons, List.mem_cons, List.mem_flatMap] at h
  -- The colors are the two of the defaults, and those of the other settings.
  rcases h with rfl | rfl | ⟨entry, -, hcolor⟩
  · unfold defaultForeground
    cases hlast : source.lastDefault? (·.foreground?) with
    | none => decide
    | some color =>
      obtain ⟨setting, hsetting⟩ := exists_of_lastDefault? hlast
      exact SettingSource.isHexColor_foreground? hsetting
  · unfold defaultBackground
    cases hlast : source.lastDefault? (·.background?) with
    | none => decide
    | some color =>
      obtain ⟨setting, hsetting⟩ := exists_of_lastDefault? hlast
      exact SettingSource.isHexColor_background? hsetting
  · rcases List.mem_append.1 hcolor with hforeground | hbackground
    · exact SettingSource.isHexColor_foreground? (Option.mem_toList.1 hforeground)
    · exact SettingSource.isHexColor_background? (Option.mem_toList.1 hbackground)

/-- The palette has the needed colors in upper case. -/
theorem mem_palette_iff {color : String} :
    color ∈ source.palette ↔ ∃ needed ∈ source.neededColors, Text.upperString needed = color := by
  rw [palette, List.mem_eraseDups, List.mem_map]

/-- The palette is in upper case, and none of its colors is empty. -/
private theorem upper_of_mem_palette {color : String} (h : color ∈ source.palette) :
    Text.upperString color = color ∧ color ≠ "" := by
  obtain ⟨needed, hneeded, rfl⟩ := mem_palette_iff.1 h
  have hhex := isHexColor_of_mem_neededColors hneeded
  exact ⟨upperString_upperString_of_isHexColor hhex, upperString_ne_empty_of_isHexColor hhex⟩

/-- The map has all colors that the theme needs. -/
def KnownTo (source : ThemeSource) (map : ColorMap) : Prop :=
  ∀ color ∈ source.neededColors, (map.idOf? color).isSome

/-- A map with all needed colors has those of every setting. -/
private theorem KnownTo.colorsIn {map : ColorMap} (h : source.KnownTo map) :
    ∀ entry ∈ source.selecting, entry.1.ColorsIn map := by
  -- The needed colors are the two defaults and, behind them, those of the settings.
  have hneeded {entry : SettingSource × Nat} (hentry : entry ∈ source.selecting) {color : String}
      (hcolor : color ∈ entry.1.hexColors) : (map.idOf? color).isSome :=
    h color (List.mem_cons_of_mem _ (List.mem_cons_of_mem _
      (List.mem_flatMap.2 ⟨entry, hentry, hcolor⟩)))
  intro entry hentry
  exact ⟨fun color hcolor => hneeded hentry (List.mem_append_left _ (Option.mem_toList.2 hcolor)),
    fun color hcolor => hneeded hentry (List.mem_append_right _ (Option.mem_toList.2 hcolor))⟩

/-- A fixed map has the colors that are among its entries. -/
private theorem knownTo_fixed_iff {table : List String} :
    source.KnownTo (.fixed table) ↔ ∀ color ∈ source.palette, color ∈ table := by
  have hentry {color : String} (h : color ∈ source.neededColors) :
      ((ColorMap.fixed table).idOf? color).isSome ↔ Text.upperString color ∈ table := by
    -- The empty text has a number of its own, and is no color.
    have hne : color ≠ "" := by
      rintro rfl
      exact absurd (isHexColor_of_mem_neededColors h) (by decide)
    rw [Option.isSome_iff_ne_none, ne_eq, ColorMap.idOf?_eq_none_iff hne, not_not]
    rfl
  simp only [KnownTo, mem_palette_iff]
  constructor
  · rintro h color ⟨needed, hneeded, rfl⟩
    exact (hentry hneeded).1 (h needed hneeded)
  · exact fun h color hcolor => (hentry hcolor).2 (h _ ⟨color, hcolor, rfl⟩)

end ThemeSource

/-! ## Reading with a table -/

namespace Theme

open ColorMap (ofColors)

variable {source : ThemeSource} {theme : Theme} {map later : ColorMap}

/-- The theme of a source whose colors have the indices of a map. -/
def numberedBy (map : ColorMap) (source : ThemeSource) : Theme :=
  ⟨source.name, ⟨some source.defaultFontStyle, map.idOf? source.defaultForeground,
    map.idOf? source.defaultBackground⟩, source.selecting.flatMap (SettingSource.rulesIn map), map⟩

/-- Maps with the same indices number a theme alike. -/
private theorem numberedBy_congr {other : ColorMap} (h : map.idOf? = other.idOf?) :
    numberedBy map source = { numberedBy other source with colors := map } := by
  unfold numberedBy SettingSource.rulesIn SettingSource.styleIn
  rw [h]

/-- A theme is numbered by its own map. -/
private theorem eq_numberedBy_of_ofSource {table : Option (List String)}
    (h : ofSource source table = .ok theme) : theme = numberedBy theme.colors source := by
  have hreads := reads_of_ofSource h
  -- The name is taken over at the end, behind all that is interned.
  have hname : theme.name = source.name := by
    obtain ⟨map, -, h⟩ := Except.bind_eq_ok_iff.1 h
    obtain ⟨_, -, h⟩ := Except.bind_eq_ok_iff.1 h
    obtain ⟨_, -, h⟩ := Except.bind_eq_ok_iff.1 h
    obtain ⟨_, -, h⟩ := Except.bind_eq_ok_iff.1 h
    cases h
    rfl
  unfold numberedBy
  rw [← hname, ← hreads.defaults_eq, ← hreads.rules_eq]

/-- The map of a theme has all colors that the theme needs. -/
private theorem Reads.knownTo (h : theme.Reads source) : source.KnownTo theme.colors := by
  intro color hcolor
  rw [ThemeSource.neededColors, List.mem_cons, List.mem_cons, List.mem_flatMap] at hcolor
  -- A needed color is the default foreground, the default background or that of a setting.
  rcases hcolor with rfl | rfl | ⟨entry, hentry, hcolor⟩
  · exact h.foreground
  · exact h.background
  · rcases List.mem_append.1 hcolor with hforeground | hbackground
    · exact (h.colorsIn entry hentry).foreground color (Option.mem_toList.1 hforeground)
    · exact (h.colorsIn entry hentry).background color (Option.mem_toList.1 hbackground)

/-- A color that the map has adds nothing to it. -/
private theorem internOptional_of_known {color? : Option String}
    (h : ∀ color ∈ color?, (map.idOf? color).isSome) :
    internOptional map color? = .ok (color?.bind map.idOf?, map) := by
  cases color? with
  | none => rfl
  | some color =>
    obtain ⟨id, hid⟩ := Option.isSome_iff_exists.1 (h color rfl)
    rw [internOptional, ColorMap.intern_of_idOf? hid, Option.bind_some, hid]
    rfl

/-- Settings whose colors the map has add nothing to it. -/
private theorem internRules_of_known {settings : List (SettingSource × Nat)}
    (h : ∀ entry ∈ settings, entry.1.ColorsIn map) :
    internRules map settings = .ok (settings.flatMap (SettingSource.rulesIn map), map) := by
  induction settings with
  | nil => rfl
  | cons entry settings ih =>
    obtain ⟨setting, index⟩ := entry
    have hcolors := h _ List.mem_cons_self
    -- Both colors of the first setting are found, and the map stays.
    rw [internRules, internOptional_of_known hcolors.foreground]
    simp only [bind, Except.bind]
    rw [internOptional_of_known hcolors.background]
    simp only
    rw [ih fun entry hentry => h entry (List.mem_cons_of_mem _ hentry)]
    rfl

/-- A theme can be read when the map with which it starts has all the colors that it needs. -/
theorem ofSource_of_known {table : Option (List String)} (hstart : startMap table = .ok map)
    (hknown : source.KnownTo map) : ofSource source table = .ok (numberedBy map source) := by
  obtain ⟨foreground, hforeground⟩ :=
    Option.isSome_iff_exists.1 (hknown source.defaultForeground List.mem_cons_self)
  obtain ⟨background, hbackground⟩ := Option.isSome_iff_exists.1
    (hknown source.defaultBackground (List.mem_cons_of_mem _ List.mem_cons_self))
  -- Each step finds its colors in the map and hands on the same map.
  unfold ofSource numberedBy
  rw [hstart, hforeground, hbackground]
  simp only [bind, Except.bind]
  rw [ColorMap.intern_of_idOf? hforeground]
  simp only
  rw [ColorMap.intern_of_idOf? hbackground]
  simp only
  rw [internRules_of_known hknown.colorsIn]

/-- A color of a setting leaves a fixed map alone. -/
private theorem eq_of_internOptional_fixed {table : List String} {color? : Option String}
    {id? : Option Nat} (h : internOptional (.fixed table) color? = .ok (id?, later)) :
    later = .fixed table := by
  cases color? with
  | none =>
    cases h
    rfl
  | some color =>
    obtain ⟨⟨id, found⟩, hintern, heq⟩ := Except.bind_eq_ok_iff.1 h
    cases heq
    exact ColorMap.eq_of_intern_fixed hintern

/-- The colors of all settings leave a fixed map alone. -/
private theorem eq_of_internRules_fixed {table : List String}
    {settings : List (SettingSource × Nat)} {rules : List ThemeRule}
    (h : internRules (.fixed table) settings = .ok (rules, later)) : later = .fixed table := by
  induction settings generalizing rules with
  | nil =>
    cases h
    rfl
  | cons entry settings ih =>
    obtain ⟨setting, index⟩ := entry
    rw [internRules] at h
    obtain ⟨⟨foreground, first⟩, hforeground, h⟩ := Except.bind_eq_ok_iff.1 h
    obtain ⟨⟨background, second⟩, hbackground, h⟩ := Except.bind_eq_ok_iff.1 h
    obtain ⟨⟨others, third⟩, hothers, h⟩ := Except.bind_eq_ok_iff.1 h
    cases h
    -- Neither color of the setting changes the map.
    obtain rfl := eq_of_internOptional_fixed hforeground
    obtain rfl := eq_of_internOptional_fixed hbackground
    exact ih hothers

/-- A theme that was read with a table has that table, in upper case, which was not too long. -/
theorem colors_of_ofSource_some {table : List String}
    (h : ofSource source (some table) = .ok theme) :
    table.length ≤ 512 ∧ theme.colors = .fixed (table.map Text.upperString) := by
  obtain ⟨map, hstart, h⟩ := Except.bind_eq_ok_iff.1 h
  obtain ⟨⟨foreground, first⟩, hforeground, h⟩ := Except.bind_eq_ok_iff.1 h
  obtain ⟨⟨background, second⟩, hbackground, h⟩ := Except.bind_eq_ok_iff.1 h
  obtain ⟨⟨rules, later⟩, hrules, h⟩ := Except.bind_eq_ok_iff.1 h
  cases h
  rw [startMap, ColorMap.ofTable] at hstart
  split at hstart
  · rename_i hle
    cases hstart
    -- Every step leaves the fixed map as it was.
    obtain rfl := ColorMap.eq_of_intern_fixed hforeground
    obtain rfl := ColorMap.eq_of_intern_fixed hbackground
    exact ⟨hle, eq_of_internRules_fixed hrules⟩
  · cases hstart

/-- A theme that was read without a table has its palette as its table, for which there was room. -/
theorem colors_of_ofSource_none (h : ofSource source none = .ok theme) :
    theme.colors = .growable source.palette ∧ source.palette.length ≤ 511 := by
  -- The colors that are interned are the needed ones, and the map has room for them or not.
  have hadds := adds_numberColors source
  by_cases hfits : (ofColors source.neededColors).Fits
  · obtain ⟨⟨foreground, background, rules⟩, hnumbered⟩ := hadds.ok [] hfits
    rw [ofSource_none, ← ColorMap.ofColors_nil, hnumbered] at h
    cases h
    exact ⟨rfl, source.fits_neededColors_iff.1 hfits⟩
  · have hroom : (ofColors []).Fits := by
      rw [ColorMap.ofColors_nil]
      exact ColorMap.Initial.growable.fits
    obtain ⟨color, hfull⟩ := hadds.full [] hroom hfits
    rw [ofSource_none, ← ColorMap.ofColors_nil, hfull] at h
    cases h

/-- With a table a theme can be read exactly when the table has at most 512 entries and every needed
color is among them, whatever their letters; then it has the entries in upper case. And what is read
without a table is read again with the table that came out: nothing changes but that the table is
fixed now. -/
theorem ofSource_fixed (source : ThemeSource) :
    (∀ table,
      ((∃ theme, ofSource source (some table) = .ok theme) ↔
        table.length ≤ 512 ∧ ∀ color ∈ source.palette, color ∈ table.map Text.upperString) ∧
      ∀ theme, ofSource source (some table) = .ok theme →
        theme.colors = .fixed (table.map Text.upperString)) ∧
    ∀ theme, ofSource source none = .ok theme →
      ofSource source (some theme.colors.colors) =
        .ok { theme with colors := .fixed theme.colors.colors } := by
  refine ⟨fun table => ⟨⟨?_, ?_⟩, fun theme h => (colors_of_ofSource_some h).2⟩, ?_⟩
  · rintro ⟨theme, h⟩
    obtain ⟨hle, hcolors⟩ := colors_of_ofSource_some h
    have hknown := (reads_of_ofSource h).knownTo
    rw [hcolors, ThemeSource.knownTo_fixed_iff] at hknown
    exact ⟨hle, hknown⟩
  · rintro ⟨hle, hpalette⟩
    have hstart : startMap (some table) = .ok (.fixed (table.map Text.upperString)) := if_pos hle
    exact ⟨_, ofSource_of_known hstart (ThemeSource.knownTo_fixed_iff.2 hpalette)⟩
  · intro theme h
    obtain ⟨hcolors, hle⟩ := colors_of_ofSource_none h
    -- The table that comes out is in upper case already.
    have hupper : ("" :: source.palette).map Text.upperString = "" :: source.palette := by
      have hempty : Text.upperString "" = "" := Text.upperString_eq_empty_iff.2 rfl
      have hpalette : source.palette.map Text.upperString = source.palette.map id :=
        List.map_congr_left fun color hcolor => (ThemeSource.upper_of_mem_palette hcolor).1
      rw [List.map_cons, hempty, hpalette, List.map_id]
    have hnodup : ("" :: source.palette).Nodup :=
      List.nodup_cons.2 ⟨fun hmem => (ThemeSource.upper_of_mem_palette hmem).2 rfl,
        nodup_eraseDups _⟩
    have hstart : startMap (some ("" :: source.palette)) = .ok (.fixed ("" :: source.palette)) := by
      have hroom : ("" :: source.palette).length ≤ ColorMap.capacity := Nat.succ_le_succ hle
      rw [startMap, ColorMap.ofTable, if_pos hroom, hupper]
    have hknown : source.KnownTo (.fixed ("" :: source.palette)) :=
      ThemeSource.knownTo_fixed_iff.2 fun color => List.mem_cons_of_mem _
    -- Both maps have the same indices, so they number the theme alike.
    have hsame : numberedBy (.fixed ("" :: source.palette)) source =
        { numberedBy _ source with colors := .fixed ("" :: source.palette) } :=
      numberedBy_congr (ColorMap.idOf?_fixed_colors hnodup)
    rw [eq_numberedBy_of_ofSource h, hcolors]
    exact (ofSource_of_known hstart hknown).trans (congrArg Except.ok hsame)

/-- A table in mixed letters, with a repeated color and an empty entry, has the colors of a theme;
of the two entries of one color the later one counts. -/
theorem ofSource_fixed_of_mixed_table :
    let source : ThemeSource := ⟨none,
      [⟨none, some (.one "comment, string"), ⟨some "bold", some "#abc", none⟩⟩,
        ⟨none, none, ⟨none, some "#ddd", some "white"⟩⟩]⟩
    let table := ["#AbC", "", "#dDd", "#ffffff", "#aBC"]
    (∃ theme, ofSource source (some table) = .ok theme ∧
      theme.colors.colors = ["#ABC", "", "#DDD", "#FFFFFF", "#ABC"] ∧
      theme.colors.idOf? "#abc" = some 4) ∧
    ∃ theme, ofSource source none = .ok theme ∧
      theme.colors.colors = ["", "#DDD", "#FFFFFF", "#ABC"] ∧
      ofSource source (some ["", "#DDD", "#FFFFFF", "#ABC"]) =
        .ok { theme with colors := .fixed ["", "#DDD", "#FFFFFF", "#ABC"] } := by
  intro source table
  obtain ⟨hfixed, hagain⟩ := ofSource_fixed source
  obtain ⟨hiff, hcolors⟩ := hfixed table
  constructor
  · -- The table has the three colors that the theme needs.
    obtain ⟨theme, htheme⟩ := hiff.2 ⟨by decide, by decide⟩
    refine ⟨theme, htheme, ?_⟩
    rw [hcolors theme htheme]
    exact ⟨by rfl, by rfl⟩
  · -- The theme is made without a table first, and then again with the one that it has got.
    have hread : (ofSource source none).toOption.any
        (·.colors.colors == ["", "#DDD", "#FFFFFF", "#ABC"]) = true := by decide
    obtain ⟨theme, htheme, hcolors⟩ := Except.exists_ok_of_any hread
    have htable := eq_of_beq hcolors
    have hsame := hagain theme htheme
    rw [htable] at hsame
    exact ⟨theme, htheme, htable, hsame⟩

end Theme

end Textmate
