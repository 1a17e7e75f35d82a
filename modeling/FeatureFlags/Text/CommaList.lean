import FeatureFlags.Text.Blank

/-!
# Comma lists

A field that takes several values holds them as one text with commas between.
`values` reads such a text: the pieces between the commas, each without the
blanks around it.  A text of blanks alone holds no value.  `join` writes pieces
one after another with a separator between neighbours.
-/

namespace FeatureFlags.Text

/-- The pieces between the separators: one more than there are separators. -/
def cut (separator : Char) : List Char → List (List Char)
  | [] => [[]]
  | c :: cs =>
    if c = separator then [] :: cut separator cs
    else
      match cut separator cs with
      | [] => [[c]]
      | piece :: pieces => (c :: piece) :: pieces

def join (separator : String) : List String → String
  | [] => ""
  | [piece] => piece
  | piece :: next :: pieces =>
    piece ++ separator ++ join separator (next :: pieces)

def values (text : String) : List String :=
  if (trimChars text.toList).isEmpty then []
  else (cut ',' text.toList).map fun piece => String.ofList (trimChars piece)

theorem cut_ne_nil (separator : Char) (cs : List Char) :
    cut separator cs ≠ [] := by
  cases cs with
  | nil => simp [cut]
  | cons c cs =>
      simp only [cut]
      split
      · simp
      · split <;> simp

theorem separator_notMem_of_mem_cut {separator : Char} {cs piece : List Char}
    (h : piece ∈ cut separator cs) : separator ∉ piece := by
  induction cs generalizing piece with
  | nil => simp_all [cut]
  | cons c cs ih =>
      simp only [cut] at h
      split at h
      · rcases List.mem_cons.mp h with rfl | h
        · simp
        · exact ih h
      · rename_i differs
        cases hcut : cut separator cs with
        | nil => exact absurd hcut (cut_ne_nil separator cs)
        | cons first others =>
            rw [hcut] at h
            rcases List.mem_cons.mp h with rfl | h
            · have := ih (show first ∈ cut separator cs by simp [hcut])
              simp [this, Ne.symm differs]
            · exact ih (by simp [hcut, h])

end FeatureFlags.Text
