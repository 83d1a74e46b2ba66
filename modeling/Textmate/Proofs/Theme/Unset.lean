import Textmate.Proofs.Theme.Table

/-!
# The index for no color

Index zero of a metadata word stands for no color. A theme that is read without a table gives it to
none of its colors. A table may have a color in its first entry, and if no other entry is that
color, the color has index zero: scopes that are given the color look as if they had none.

## Key results

- `ColorMap.lastIndex?_eq_zero_iff`: which color of a table has index zero
- `Theme.keepsUnset_iff`: when no color of a theme has index zero, and which words show it
- `Theme.not_keepsUnset`: a table that begins with the color of the defaults
-/

namespace Textmate

namespace ColorMap

variable {color : String} {table : List String}

/-- The color is the first entry of the table and no other one. -/
structure FirstOnly (color : String) (table : List String) : Prop where
  head?_eq : table.head? = some color
  not_mem_tail : color ∉ table.tail

/-- A color has number zero in a table when it is the first entry and no later one. -/
theorem lastIndex?_eq_zero_iff : lastIndex? color table = some 0 ↔ FirstOnly color table := by
  cases table with
  | nil => exact ⟨fun h => (nomatch h), fun h => nomatch h.head?_eq⟩
  | cons first rest =>
    -- From the end of the table on, the first entry is found when no other one is.
    have hcons : lastIndex? color (first :: rest) =
        ((rest.reverse.idxOf? color).or (([first].idxOf? color).map (· + rest.length))).map
          (rest.length - ·) := by
      unfold lastIndex? List.idxOf?
      rw [List.reverse_cons, List.findIdx?_append, List.length_reverse]
      rfl
    rw [hcons]
    -- A later entry with the color counts, and its index is not zero.
    by_cases hagain : color ∈ rest
    · obtain ⟨index, hindex⟩ := Option.isSome_iff_exists.1
        (List.isSome_idxOf?.2 (List.mem_reverse.2 hagain))
      obtain ⟨hlt, -⟩ := List.idxOf?_eq_some_iff.1 hindex
      rw [List.length_reverse] at hlt
      rw [hindex, Option.some_or, Option.map_some, Option.some.injEq]
      exact ⟨fun h => by omega, fun h => absurd hagain h.not_mem_tail⟩
    · have hnone : rest.reverse.idxOf? color = none := by simpa using hagain
      rw [hnone, Option.none_or]
      by_cases hfirst : first = color
      · subst hfirst
        simpa using ⟨rfl, hagain⟩
      · have hother : [first].idxOf? color = none := by simpa using hfirst
        rw [hother]
        exact ⟨fun h => (nomatch h), fun h => absurd (Option.some.inj h.head?_eq) hfirst⟩

end ColorMap

namespace Theme

variable {source : ThemeSource} {table : Option (List String)} {theme : Theme}

/-- No color of the theme has the index that stands for no color. -/
structure KeepsUnset (theme : Theme) : Prop where
  foreground : theme.defaults.foreground ≠ some 0
  background : theme.defaults.background ≠ some 0
  rules : ∀ rule ∈ theme.rules, rule.style.foreground ≠ some 0 ∧ rule.style.background ≠ some 0

/-- A table is given, and its first entry is the only one of the color. -/
def TakesZero (table : Option (List String)) (color : String) : Prop :=
  ∃ entries ∈ table, ColorMap.FirstOnly color (entries.map Text.upperString)

/-! ## Colors with index zero -/

/-- A color of a theme has index zero when the table has it in its first entry only. -/
private theorem idOf?_eq_zero_iff (h : ofSource source table = .ok theme) {color : String}
    (hne : Text.upperString color ≠ "") :
    theme.colors.idOf? color = some 0 ↔ TakesZero table (Text.upperString color) := by
  cases table with
  | none =>
    rw [(colors_of_ofSource_none h).1]
    constructor
    · exact fun hzero => absurd rfl (ColorMap.id_ne_zero_of_idOf? rfl hzero)
    · rintro ⟨entries, hentries, -⟩
      cases hentries
  | some entries =>
    -- The table has its entries in upper case, and the last one with the color counts.
    have hfixed : theme.colors.idOf? color =
        ColorMap.lastIndex? (Text.upperString color) (entries.map Text.upperString) := by
      rw [(colors_of_ofSource_some h).2]
      exact if_neg hne
    rw [hfixed, ColorMap.lastIndex?_eq_zero_iff]
    simp [TakesZero]

/-- The colors of a style are those that its setting has. -/
private theorem styleIn_ne_zero_iff (setting : SettingSource) (colors : ColorMap) :
    ((setting.styleIn colors).foreground ≠ some 0 ∧ (setting.styleIn colors).background ≠ some 0) ↔
      ∀ color ∈ setting.hexColors, colors.idOf? color ≠ some 0 := by
  unfold SettingSource.styleIn SettingSource.hexColors
  cases setting.foreground? <;> cases setting.background? <;> simp

/-- The colors of defaults and rules are the colors that a theme needs. -/
private theorem Reads.keepsUnset_iff_needed (h : theme.Reads source) :
    theme.KeepsUnset ↔ ∀ color ∈ source.neededColors, theme.colors.idOf? color ≠ some 0 := by
  constructor
  · intro hkeeps color hcolor
    rw [ThemeSource.neededColors, List.mem_cons, List.mem_cons, List.mem_flatMap] at hcolor
    -- A needed color is one of the two defaults or that of a setting.
    rcases hcolor with rfl | rfl | ⟨entry, hentry, hcolor⟩
    · have hforeground := hkeeps.foreground
      rwa [h.defaults_eq] at hforeground
    · have hbackground := hkeeps.background
      rwa [h.defaults_eq] at hbackground
    · -- A setting that is none of the defaults has a selector, so it has a rule.
      have hselecting : entry.1.selectors ≠ [] := by
        simpa [SettingSource.isDefault] using (List.mem_filter.1 hentry).2
      obtain ⟨selector, hselector⟩ := List.exists_mem_of_ne_nil _ hselecting
      have hrule : ⟨selector, entry.1.styleIn theme.colors, entry.2⟩ ∈ theme.rules := by
        rw [h.rules_eq]
        exact List.mem_flatMap.2 ⟨entry, hentry, List.mem_map.2 ⟨selector, hselector, rfl⟩⟩
      exact (styleIn_ne_zero_iff _ _).1 (hkeeps.rules _ hrule) color hcolor
  · intro hneeded
    refine ⟨?_, ?_, fun rule hrule => ?_⟩
    · rw [h.defaults_eq]
      exact hneeded _ List.mem_cons_self
    · rw [h.defaults_eq]
      exact hneeded _ (List.mem_cons_of_mem _ List.mem_cons_self)
    · -- The colors of a rule are those of the setting that it comes from.
      rw [h.rules_eq] at hrule
      obtain ⟨entry, hentry, hrule⟩ := List.mem_flatMap.1 hrule
      obtain ⟨selector, -, rfl⟩ := List.mem_map.1 hrule
      refine (styleIn_ne_zero_iff _ _).2 fun color hcolor => hneeded color ?_
      exact List.mem_cons_of_mem _ (List.mem_cons_of_mem _
        (List.mem_flatMap.2 ⟨entry, hentry, hcolor⟩))

/-! ## Words -/

/-- A word shows index zero when it has its color from the first entry of a table. -/
private theorem index_eq_zero_iff (h : ofSource source table = .ok theme)
    {value? : SettingSource → Option String} {field : Style → Option Nat}
    (hfield : theme.ColorField source value? field) (path : List ScopeName) {color : String}
    (hhex : isHexColor color = true) (hupper : Text.upperString color = color)
    (hknown : (theme.colors.idOf? ((source.lastDefault? value?).getD color)).isSome) (old : Nat) :
    (field (theme.styleFor path)).getD
        ((theme.colors.idOf? ((source.lastDefault? value?).getD color)).getD old) = 0 ↔
      TakesZero table (source.colorFor path value? color) := by
  have hreads := reads_of_ofSource h
  -- The index of the path is that of its color as it is written.
  have hwritten := hreads.idOf?_writtenFor hfield path hknown old
  have hne := upperString_ne_empty_of_isHexColor (hfield.isHexColor_writtenFor path hhex)
  rw [← source.upperString_writtenFor path value? hupper, ← idOf?_eq_zero_iff h hne, hwritten,
    Option.some.injEq]

/-- No color of a theme has index zero exactly when the theme needs no color that the table has in
its first entry only; without a table that is always so. A word shows index zero exactly when the
color of its path is such a color. -/
theorem keepsUnset_iff (h : ofSource source table = .ok theme) :
    (theme.KeepsUnset ↔ ∀ color ∈ source.palette, ¬ TakesZero table color) ∧
    ∀ (path : List ScopeName) (word : Metadata),
      ((theme.apply path word).foreground = 0 ↔
        TakesZero table (source.colorFor path (·.foreground?) "#000000")) ∧
      ((theme.apply path word).background = 0 ↔
        TakesZero table (source.colorFor path (·.background?) "#FFFFFF")) := by
  have hreads := reads_of_ofSource h
  refine ⟨?_, fun path word => ?_⟩
  · -- A color that is needed is no empty text, so its index is one in the table.
    have hzero (color : String) (hcolor : color ∈ source.neededColors) :
        theme.colors.idOf? color = some 0 ↔ TakesZero table (Text.upperString color) :=
      idOf?_eq_zero_iff h (upperString_ne_empty_of_isHexColor
        (ThemeSource.isHexColor_of_mem_neededColors hcolor))
    rw [hreads.keepsUnset_iff_needed]
    constructor
    · intro hneeded color hcolor
      obtain ⟨needed, hmem, rfl⟩ := ThemeSource.mem_palette_iff.1 hcolor
      exact mt (hzero needed hmem).2 (hneeded needed hmem)
    · intro hpalette color hcolor
      exact mt (hzero color hcolor).1
        (hpalette _ (ThemeSource.mem_palette_iff.2 ⟨color, hcolor, rfl⟩))
  · -- The index in the word is that of the color of the path.
    have hstyled := hreads.unpack_apply path word
    rw [hreads.defaults_eq] at hstyled
    have hforeground : (theme.apply path word).foreground = _ :=
      congrArg Attributes.foreground hstyled
    have hbackground : (theme.apply path word).background = _ :=
      congrArg Attributes.background hstyled
    rw [hforeground, hbackground]
    exact ⟨index_eq_zero_iff h hreads.colorField_foreground path (by decide) (by decide)
        hreads.foreground word.foreground,
      index_eq_zero_iff h hreads.colorField_background path (by decide) (by decide)
        hreads.background word.background⟩

/-- A table that begins with the foreground of the defaults: only scopes with a color of their own
have a foreground. If the table ends with the same color, all scopes have one. -/
theorem keepsUnset_iff_of_leading_color :
    let source : ThemeSource := ⟨none,
      [⟨none, some (.one "comment"), ⟨none, some "#abc", none⟩⟩,
        ⟨none, none, ⟨none, some "#ddd", none⟩⟩]⟩
    let comment : ScopeName := ⟨"comment.line", by decide, by simp, by simp; decide⟩
    (∃ theme, ofSource source (some ["#DDD", "#fff", "#ffffff", "#aBc"]) = .ok theme ∧
      ¬ theme.KeepsUnset ∧ ∀ word : Metadata,
        (theme.apply [] word).foreground = 0 ∧ (theme.apply [comment] word).foreground ≠ 0) ∧
    ∃ theme, ofSource source (some ["#DDD", "#fff", "#ffffff", "#aBc", "#dDd"]) = .ok theme ∧
      theme.KeepsUnset := by
  intro source comment
  have hpalette : source.palette = ["#DDD", "#FFFFFF", "#ABC"] := by decide
  have hleading : TakesZero (some ["#DDD", "#fff", "#ffffff", "#aBc"]) "#DDD" :=
    ⟨_, rfl, by rfl, by decide⟩
  constructor
  · have hread : (ofSource source (some ["#DDD", "#fff", "#ffffff", "#aBc"])).toOption.any
        (fun _ => true) = true := by decide
    -- The foreground of the defaults takes index zero, that of the comment another one.
    obtain ⟨theme, htheme, -⟩ := Except.exists_ok_of_any hread
    obtain ⟨hkeeps, hwords⟩ := keepsUnset_iff htheme
    refine ⟨theme, htheme, fun hall => ?_, fun word => ⟨?_, fun hzero => ?_⟩⟩
    · exact hkeeps.1 hall "#DDD" (by rw [hpalette]; decide) hleading
    · have hcolor : source.colorFor [] (·.foreground?) "#000000" = "#DDD" := by rfl
      exact (hwords [] word).1.2 (hcolor ▸ hleading)
    · have hcolor : source.colorFor [comment] (·.foreground?) "#000000" = "#ABC" := by decide
      -- The comment has a color of its own, which is not the first entry.
      obtain ⟨entries, hentries, hfirst⟩ := (hwords [comment] word).1.1 hzero
      cases hentries
      rw [hcolor] at hfirst
      exact absurd hfirst.head?_eq (by decide)
  · have hread : (ofSource source (some ["#DDD", "#fff", "#ffffff", "#aBc", "#dDd"])).toOption.any
        (fun _ => true) = true := by decide
    obtain ⟨theme, htheme, -⟩ := Except.exists_ok_of_any hread
    refine ⟨theme, htheme, (keepsUnset_iff htheme).1.2 fun color hcolor => ?_⟩
    rintro ⟨entries, hentries, hfirst⟩
    cases hentries
    obtain rfl : "#DDD" = color := Option.some.inj hfirst.head?_eq
    exact absurd hfirst.not_mem_tail (by decide)

/-- A table of black and white has the defaults, and black has the index that stands for no
color. -/
theorem not_keepsUnset :
    ¬ ∀ (source : ThemeSource) (table : Option (List String)) (theme : Theme),
      ofSource source table = .ok theme →
      theme.KeepsUnset ∧ ∀ (path : List ScopeName) (word : Metadata),
        (theme.apply path word).foreground ≠ 0 ∧ (theme.apply path word).background ≠ 0 := by
  intro hall
  have hread : ofSource .empty (some ["#000000", "#FFFFFF"]) =
      .ok ⟨none, ⟨some .plain, some 0, some 1⟩, [], .fixed ["#000000", "#FFFFFF"]⟩ := by rfl
  exact (hall _ _ _ hread).1.foreground rfl

end Theme

end Textmate
