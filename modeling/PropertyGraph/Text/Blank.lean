import PropertyGraph.Text.Ranges
import PropertyGraph.Text.Split

/-!
White space as Unicode defines it, with the four information separators added. A text is stripped
of it at both ends, or split at its runs into words.
-/

namespace PropertyGraph.Text

/-- Closed ranges of code points, in increasing order. -/
def blankRanges : List (Nat × Nat) := [
    (0x9, 0xD), (0x1C, 0x20), (0x85, 0x85), (0xA0, 0xA0), (0x1680, 0x1680), (0x2000, 0x200A),
    (0x2028, 0x2029), (0x202F, 0x202F), (0x205F, 0x205F), (0x3000, 0x3000)]

def isBlank (c : Char) : Bool := within blankRanges c

/-- The text without the blanks at its end. -/
def stripEnd (text : List Char) : List Char :=
  (text.reverse.dropWhile isBlank).reverse

/-- The text without the blanks at either end. -/
def strip (text : List Char) : List Char :=
  stripEnd (text.dropWhile isBlank)

/-- The longest parts of the text that hold no blank. -/
def words (text : List Char) : List (List Char) :=
  (pieces isBlank text).filter (!·.isEmpty)

theorem isBlank_space : isBlank ' ' = true := by decide

theorem ne_nil_of_mem_words {text word : List Char} (h : word ∈ words text) : word ≠ [] := by
  have := (List.mem_filter.1 h).2
  intro hnil
  simp [hnil] at this

end PropertyGraph.Text
