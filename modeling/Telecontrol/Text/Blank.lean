import Telecontrol.Text.Range

/-! # Blanks

The characters that only set others apart, in any script, and texts without them at their ends.

Main statements: `Blank.isBlank_of_isWhitespace` (the blanks of plain text are among them),
`Blank.trim_of_not_isBlank` (a text that neither begins nor ends with a blank stays as it is) and
`Blank.trim_trim` (once the ends are dropped there is nothing more to drop). -/

namespace Telecontrol.Blank

/-- The characters with the Unicode property `White_Space`. -/
def blanks : CharRanges :=
  [(0x9, 0xD), (0x20, 0x20), (0x85, 0x85), (0xA0, 0xA0), (0x1680, 0x1680), (0x2000, 0x200A),
   (0x2028, 0x2029), (0x202F, 0x202F), (0x205F, 0x205F), (0x3000, 0x3000)]

/-- Whether a character is a blank. -/
def isBlank (c : Char) : Bool := blanks.contains c

/-- A space, a tab, and the end of a line are blanks. -/
theorem isBlank_of_isWhitespace {c : Char} (h : c.isWhitespace = true) : isBlank c = true := by
  simp only [Char.isWhitespace, Bool.or_eq_true, decide_eq_true_eq] at h
  rcases h with ((rfl | rfl) | rfl) | rfl <;> decide

/-- Drop the blanks at the beginning. -/
def trimStart (cs : List Char) : List Char := cs.dropWhile isBlank

/-- Drop the blanks at the end. -/
def trimEnd (cs : List Char) : List Char := (cs.reverse.dropWhile isBlank).reverse

/-- Drop the blanks at both ends. -/
def trim (cs : List Char) : List Char := trimEnd (trimStart cs)

/-- Nothing is dropped where a text begins and ends with something else. -/
theorem trim_of_not_isBlank {cs : List Char} (hb : ∀ c, cs.head? = some c → isBlank c = false)
    (he : ∀ c, cs.getLast? = some c → isBlank c = false) : trim cs = cs := by
  have drop_eq (ds : List Char) (h : ∀ c, ds.head? = some c → isBlank c = false) :
      ds.dropWhile isBlank = ds := by
    cases ds with
    | nil => rfl
    | cons d ds => simp [List.dropWhile, h d rfl]
  rw [trim, trimStart, drop_eq cs hb, trimEnd, drop_eq cs.reverse, List.reverse_reverse]
  intro c hc
  exact he c (by rwa [List.head?_reverse] at hc)

/-- What is left of a text begins with no blank. -/
theorem isBlank_head?_trim {cs : List Char} {c : Char} (h : (trim cs).head? = some c) :
    isBlank c = false := by
  have hfirst := List.head?_dropWhile_not isBlank cs
  have hpre : trim cs <+: trimStart cs :=
    List.reverse_suffix.mp ((List.reverse_reverse _).symm ▸ List.dropWhile_suffix isBlank)
  obtain ⟨rest, hrest⟩ := List.head?_eq_some_iff.mp h
  obtain ⟨more, hmore⟩ := hrest ▸ hpre
  rw [trimStart] at hmore
  rw [← hmore] at hfirst
  exact hfirst

/-- What is left of a text ends with no blank. -/
theorem isBlank_getLast?_trim {cs : List Char} {c : Char} (h : (trim cs).getLast? = some c) :
    isBlank c = false := by
  have hlast := List.head?_dropWhile_not isBlank (trimStart cs).reverse
  rw [trim, trimEnd, List.getLast?_reverse] at h
  rw [h] at hlast
  exact hlast

/-- Once the blanks at both ends are dropped there is nothing more to drop. -/
theorem trim_trim (cs : List Char) : trim (trim cs) = trim cs :=
  trim_of_not_isBlank (fun _ => isBlank_head?_trim) fun _ => isBlank_getLast?_trim

end Telecontrol.Blank
