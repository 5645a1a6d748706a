import PropertyGraph.Text.Ranges
import PropertyGraph.Text.Printable.Table

/-!
Printable characters stand for themselves in a quoted text; the others are escaped there.
-/

namespace PropertyGraph.Text

def isPrintable (c : Char) : Bool :=
  if c.toNat < 128 then 32 ≤ c.toNat && c.toNat < 127 else within printableRanges c

end PropertyGraph.Text
