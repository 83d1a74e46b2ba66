import Textmate.Proofs.Text.Split
import Textmate.Scope.Selector

/-!
# Reading selectors from what they show

A selector shows its segments with blanks between them. A segment that was read is a word and has no
blank of its own, so the same segments come back when the text is read again. A list of selectors
has commas between them in the same way, and the selectors of joined lists are those of the lists.
Commas are left out of segments by lists alone: a selector that is read by itself may have some.

## Key results

- `Text.words_intercalate`: the words of joined texts
- `Selector.parse?_display`, `Selector.parseList_displayAll`: words come back as they were
- `Selector.parseList_joinWith`: the selectors of joined lists
- `Selector.reads_display`: what is read, shown and read again, for selectors and for lists
-/

namespace Textmate

/-! ## Words of joined texts -/

namespace Text

/-- The words of texts that are joined by blanks are those of the texts. -/
theorem words_intercalate (texts : List (List Char)) :
    words ([' '].intercalate texts) = texts.flatMap words := by
  cases texts with
  | nil => rfl
  | cons first texts =>
    have hblank : isBlank ' ' = true := by decide
    rw [words, splitBy_intercalate hblank (List.cons_ne_nil _ _), List.filter_flatMap]
    rfl

/-- A word is its own single word. -/
private theorem words_of_word {word : List Char} (hne : word ≠ [])
    (h : ∀ c ∈ word, isBlank c = false) :
    words word = [word] := by
  simp [words, splitBy_eq_singleton h, hne]

end Text

namespace Selector

variable {text : String} {selector : Selector} {segments : List String}

/-! ## Single selectors -/

/-- Whether the segments of a selector are words: not empty and without a blank. -/
def InWords (selector : Selector) : Prop :=
  ∀ segment ∈ selector.segments, segment ≠ "" ∧ ∀ c ∈ segment.toList, Text.isBlank c = false

/-- The segments of a selector are those that it was made of. -/
private theorem ofSegments?_eq_some_iff : ofSegments? segments = some selector ↔
    selector.segments = segments := by
  constructor
  · exact segments_of_ofSegments?
  · rintro rfl
    simp [ofSegments?, Selector.segments]

/-- A selector is read from the texts with its segments as words. -/
private theorem parse?_eq_some_iff : parse? text = some selector ↔
    selector.segments.map String.toList = Text.words text.toList := by
  rw [parse?, ofSegments?_eq_some_iff]
  constructor
  · intro h
    rw [h, List.map_map]
    simp [Function.comp_def]
  · intro h
    rw [← h, List.map_map]
    simp [Function.comp_def]

/-- What was read has words as segments. -/
private theorem inWords_of_parse? (h : parse? text = some selector) : selector.InWords :=
  fun _ hsegment => word_of_mem_segments h hsegment

/-- A selector shows its segments with blanks between them. -/
private theorem toList_display (selector : Selector) :
    selector.display.toList = [' '].intercalate (selector.segments.map String.toList) :=
  String.toList_intercalate

/-- A selector with words as segments is read from what it shows. -/
theorem parse?_display (h : selector.InWords) : parse? selector.display = some selector := by
  -- The words of the text are those of the segments, and each segment is one word.
  rw [parse?_eq_some_iff, toList_display, Text.words_intercalate, List.flatMap_map]
  have hwords : ∀ segment ∈ selector.segments, Text.words segment.toList = [segment.toList] := by
    intro segment hsegment
    obtain ⟨hne, hblank⟩ := h segment hsegment
    exact Text.words_of_word (by simpa using hne) hblank
  rw [List.flatMap_congr hwords]
  exact List.map_eq_flatMap

/-! ## Lists of selectors -/

/-- Whether no segment of a selector has a comma. -/
def WithoutComma (selector : Selector) : Prop :=
  ∀ segment ∈ selector.segments, ',' ∉ segment.toList

/-- Selectors with commas between them. -/
def displayAll (selectors : List Selector) : String :=
  Text.joinWith "," (selectors.map display)

/-- The selectors of joined lists are those of the lists. -/
theorem parseList_joinWith (texts : List String) :
    parseList (Text.joinWith "," texts) = texts.flatMap parseList := by
  cases texts with
  | nil => rfl
  | cons first texts =>
    -- The joined text is cut where the texts are, and where they were joined.
    have hsplit := Text.splitString_joinWith ',' (List.cons_ne_nil first texts)
    show (Text.splitString ',' (Text.joinWith (String.singleton ',') _)).filterMap parse? = _
    rw [hsplit, List.filterMap_flatMap]
    rfl

/-- A selector of a list is read from a piece of the text between commas, so it has none. -/
private theorem withoutComma_of_mem_parseList (h : selector ∈ parseList text) :
    selector.WithoutComma := by
  obtain ⟨part, hpart, hparse⟩ := List.mem_filterMap.1 h
  obtain ⟨piece, hpiece, rfl⟩ := List.mem_map.1 hpart
  intro segment hsegment hcomma
  -- The segment is a word of a piece, and pieces have no comma.
  have hword : segment.toList ∈ Text.words piece := by
    have hsegments := parse?_eq_some_iff.1 hparse
    rw [String.toList_ofList] at hsegments
    rw [← hsegments]
    exact List.mem_map_of_mem hsegment
  have hmem : ',' ∈ piece := Text.mem_of_mem_splitBy (List.mem_filter.1 hword).1 ',' hcomma
  have hsep := Text.not_mem_of_mem_splitBy hpiece ',' hmem
  simp at hsep

/-- So has every selector of a list that was read. -/
private theorem inWords_of_mem_parseList (h : selector ∈ parseList text) : selector.InWords := by
  obtain ⟨part, _, hparse⟩ := List.mem_filterMap.1 h
  exact inWords_of_parse? hparse

/-- A selector without a comma shows a list of one. -/
private theorem parseList_display (hwords : selector.InWords) (hcomma : selector.WithoutComma) :
    parseList selector.display = [selector] := by
  -- What stands between the segments is no comma either, so the text is not cut.
  have hnot : ',' ∉ selector.display.toList := by
    rw [toList_display]
    intro hmem
    obtain hsep | ⟨piece, hpiece, hin⟩ := List.mem_of_mem_intercalate hmem
    · simp at hsep
    · obtain ⟨segment, hsegment, rfl⟩ := List.mem_map.1 hpiece
      exact hcomma segment hsegment hin
  rw [parseList, Text.splitString_of_not_mem hnot, List.filterMap_cons_some (parse?_display hwords),
    List.filterMap_nil]

/-- A list of selectors with words and without commas is read from what it shows. -/
theorem parseList_displayAll {selectors : List Selector}
    (h : ∀ selector ∈ selectors, selector.InWords ∧ selector.WithoutComma) :
    parseList (displayAll selectors) = selectors := by
  have hsingle : ∀ selector ∈ selectors, parseList selector.display = [selector] := by
    intro selector hmem
    obtain ⟨hwords, hcomma⟩ := h selector hmem
    exact parseList_display hwords hcomma
  rw [displayAll, parseList_joinWith, List.flatMap_map, List.flatMap_congr hsingle]
  exact List.flatMap_singleton' selectors

/-- A selector that was read is read from what it shows, and those with words as segments are the
ones that can be read. The same holds of lists, where in addition no segment has a comma. Reading
two lists with a comma between them is reading one after the other. -/
theorem reads_display :
    (∀ (text : String) (selector : Selector), parse? text = some selector →
      parse? selector.display = some selector) ∧
    (∀ selector : Selector, (∃ text, parse? text = some selector) ↔ selector.InWords) ∧
    (∀ text : String, parseList (displayAll (parseList text)) = parseList text) ∧
    (∀ selectors : List Selector, (∃ text, parseList text = selectors) ↔
      ∀ selector ∈ selectors, selector.InWords ∧ selector.WithoutComma) ∧
    ∀ first second : String,
      parseList (first ++ "," ++ second) = parseList first ++ parseList second := by
  -- What was read from a list has words without commas as segments.
  have hlist (text : String) :
      ∀ selector ∈ parseList text, selector.InWords ∧ selector.WithoutComma :=
    fun _ hmem => ⟨inWords_of_mem_parseList hmem, withoutComma_of_mem_parseList hmem⟩
  refine ⟨?_, ?_, ?_, ?_, ?_⟩
  · intro text selector h
    exact parse?_display (inWords_of_parse? h)
  · intro selector
    exact ⟨fun ⟨_, h⟩ => inWords_of_parse? h, fun h => ⟨_, parse?_display h⟩⟩
  · intro text
    exact parseList_displayAll (hlist text)
  · intro selectors
    constructor
    · rintro ⟨text, rfl⟩
      exact hlist text
    · exact fun h => ⟨_, parseList_displayAll h⟩
  · intro first second
    -- A comma between two lists is one more place where the text is cut.
    simpa [Text.joinWith] using parseList_joinWith [first, second]

/-- Read by itself, a text with commas has them in its segments; read as a list, it has none. -/
theorem reads_display_of_commas :
    let text := "\u00A0a,b\t\nc ,"
    let selector : Selector := ⟨["a,b", "c"], ","⟩
    let list : List Selector := [⟨[], "a"⟩, ⟨["b"], "c"⟩]
    (parse? text = some selector ∧ parse? selector.display = some selector ∧ selector.InWords) ∧
      parseList text = list ∧ parseList (displayAll list) = list ∧
        ∀ selector ∈ list, selector.InWords ∧ selector.WithoutComma := by
  intro text selector list
  have hselector : parse? text = some selector := by decide
  have hlist : parseList text = list := by decide
  obtain ⟨hshown, hread, hlistShown, hlistRead, -⟩ := reads_display
  refine ⟨⟨hselector, hshown text selector hselector, (hread selector).1 ⟨text, hselector⟩⟩, hlist,
    ?_, (hlistRead list).1 ⟨text, hlist⟩⟩
  -- The list is one that was read, so it is read from what it shows.
  have hagain := hlistShown text
  rwa [hlist] at hagain

end Selector

end Textmate
