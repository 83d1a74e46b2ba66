/-!
# Offsets in bytes

Positions in a line count the bytes of its UTF-8 form. A position inside a character is not a place
where a text can be cut.

Main statement: cutting loses nothing (`append_of_splitBytes?`).
-/

namespace Textmate.Text

/-- Cuts a text after a number of bytes, if that is a place between two characters or an end. -/
def splitBytes? : Nat → List Char → Option (List Char × List Char)
  | 0, cs => some ([], cs)
  | _ + 1, [] => none
  | n + 1, c :: cs =>
    if c.utf8Size ≤ n + 1 then
      (splitBytes? (n + 1 - c.utf8Size) cs).map fun (before, after) => (c :: before, after)
    else none

/-- The part of a text between two offsets, if the text can be cut at both. -/
def slice? (start stop : Nat) (cs : List Char) : Option (List Char) :=
  if start ≤ stop then
    (splitBytes? start cs).bind fun (_, rest) =>
      (splitBytes? (stop - start) rest).map (·.1)
  else none

/-- Cutting loses nothing. -/
theorem append_of_splitBytes? {n : Nat} {cs before after : List Char}
    (h : splitBytes? n cs = some (before, after)) : before ++ after = cs := by
  fun_induction splitBytes? n cs generalizing before after with
  | case1 => simp_all
  | case2 => simp at h
  | case3 n c cs hc ih =>
    obtain ⟨⟨b, a⟩, hcut, hr⟩ := Option.map_eq_some_iff.1 h
    simp only [Prod.mk.injEq] at hr
    simp [← hr.1, ← hr.2, ih hcut]
  | case4 => simp at h

end Textmate.Text
