import Mathlib.Data.Nat.Notation

/-!
# Character arrays

A `CharArray n` is an array `char[n]`.  `strcpy` copies a text and its terminating null character
to the beginning of the array and can only be applied where both fit; `text` is what a reader of
the array sees, the characters before the first null character.
-/

namespace CStrings

/-- The null character. -/
def nul : Char := Char.ofNat 0

/-- An array of `n` characters. -/
structure CharArray (n : ℕ) where
  chars : List Char
  length_chars : chars.length = n

namespace CharArray

variable {n : ℕ}

/-- The array after `strcpy` of a text that fits. -/
def strcpy (a : CharArray n) (s : String) (h : s.length < n) : CharArray n where
  chars := s.toList ++ nul :: a.chars.drop (s.length + 1)
  length_chars := by
    rw [List.length_append, List.length_cons, List.length_drop, a.length_chars,
      String.length_toList]
    omega

/-- The characters before the first null character. -/
def text (a : CharArray n) : String := String.ofList (a.chars.takeWhile (· != nul))

/-- What has been copied is read back, whatever the array held before. -/
theorem text_strcpy (a : CharArray n) {s : String} (h : s.length < n) (hs : nul ∉ s.toList) :
    (a.strcpy s h).text = s := by
  have hall : ∀ c ∈ s.toList, (c != nul) = true := by
    intro c hc
    rw [bne_iff_ne]
    rintro rfl
    exact hs hc
  rw [text, strcpy, List.takeWhile_append_of_pos hall, List.takeWhile_cons_of_neg (by simp),
    List.append_nil, String.ofList_toList]

end CharArray

end CStrings
