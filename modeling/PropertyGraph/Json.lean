import PropertyGraph.Number.Text
import PropertyGraph.Text.Quoted
import PropertyGraph.Text.Split

/-!
JSON texts in ASCII. `Json.compact` writes a tree on one line and `Json.indented` over several,
each member on a line of its own. Characters outside ASCII are written in UTF-16 escapes.
-/

namespace PropertyGraph

inductive Json where
  | null
  | bool (b : Bool)
  | int (n : Int)
  | float (x : Double)
  | str (s : String)
  | array (items : List Json)
  | object (members : List (String × Json))
  deriving Inhabited

namespace Json

open Text

/-- A UTF-16 unit as an escape. -/
def unitEscape (unit : Nat) : List Char := '\\' :: 'u' :: hexDigits 4 unit

/-- One character within a JSON string. -/
def escapedChar (c : Char) : List Char :=
  if c = '"' ∨ c = '\\' then ['\\', c]
  else if c = '\n' then ['\\', 'n']
  else if c = '\r' then ['\\', 'r']
  else if c = '\t' then ['\\', 't']
  else if c = '\x08' then ['\\', 'b']
  else if c = '\x0c' then ['\\', 'f']
  else if 32 ≤ c.toNat ∧ c.toNat < 127 then [c]
  else if c.toNat < 0x10000 then unitEscape c.toNat
  else
    let beyond := c.toNat - 0x10000
    unitEscape (0xD800 + beyond / 0x400) ++ unitEscape (0xDC00 + beyond % 0x400)

def string (s : String) : List Char :=
  '"' :: s.toList.flatMap escapedChar ++ ['"']

/-- A tree without members. -/
def leaf : Json → List Char
  | .null => "null".toList
  | .bool b => if b then "true".toList else "false".toList
  | .int n => intDigits n
  | .float x => jsonFormat.write x
  | .str s => string s
  | .array _ => "[]".toList
  | .object _ => ['\x7b', '\x7d']

mutual

/-- The tree on one line, a blank after each comma and colon. -/
def compact : Json → List Char
  | .array items => '[' :: compactItems items ++ [']']
  | .object members => '\x7b' :: compactMembers members ++ ['\x7d']
  | tree => tree.leaf

def compactItems : List Json → List Char
  | [] => []
  | [item] => compact item
  | item :: rest => compact item ++ ", ".toList ++ compactItems rest

def compactMembers : List (String × Json) → List Char
  | [] => []
  | [(key, value)] => string key ++ ": ".toList ++ compact value
  | (key, value) :: rest =>
    string key ++ ": ".toList ++ compact value ++ ", ".toList ++ compactMembers rest

end

/-- The start of a line that is so deep in the tree. -/
def newLine (depth : Nat) : List Char := '\n' :: List.replicate (2 * depth) ' '

mutual

/-- The tree at a depth, each member on its own line, two blanks further in. -/
def indentedAt (depth : Nat) : Json → List Char
  | .array (item :: rest) =>
    '[' :: newLine (depth + 1) ++ indentedAt (depth + 1) item ++ indentedItems (depth + 1) rest ++
      newLine depth ++ [']']
  | .object ((key, value) :: rest) =>
    '\x7b' :: newLine (depth + 1) ++ string key ++ ": ".toList ++ indentedAt (depth + 1) value ++
      indentedMembers (depth + 1) rest ++ newLine depth ++ ['\x7d']
  | tree => tree.leaf

def indentedItems (depth : Nat) : List Json → List Char
  | [] => []
  | item :: rest => ',' :: newLine depth ++ indentedAt depth item ++ indentedItems depth rest

def indentedMembers (depth : Nat) : List (String × Json) → List Char
  | [] => []
  | (key, value) :: rest =>
    ',' :: newLine depth ++ string key ++ ": ".toList ++ indentedAt depth value ++
      indentedMembers depth rest

end

/-- The tree over several lines. -/
def indented (tree : Json) : List Char := indentedAt 0 tree

end Json

end PropertyGraph
