/-!
The ends of lines. Texts that come from outside end their lines in `\n`, `\r\n` or `\r`; inside,
`\n` is the only one.
-/

namespace PropertyGraph.Text

/-- The text with every end of line written `\n`. -/
def unifyNewlines : List Char → List Char
  | [] => []
  | '\r' :: '\n' :: rest => '\n' :: unifyNewlines rest
  | c :: rest => (if c = '\r' then '\n' else c) :: unifyNewlines rest

end PropertyGraph.Text
