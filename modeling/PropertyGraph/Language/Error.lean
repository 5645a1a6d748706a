import PropertyGraph.Number.Numeral

/-!
What can be wrong with a query text, and on which line. An integer of too many digits is the one
fault whose message names no line.
-/

namespace PropertyGraph

/-- The sections of a query that hold entries. -/
inductive Section where
  | conditions
  | aggregations
  | filters
  deriving DecidableEq

namespace Section

def keyword : Section → String
  | conditions => "WHERE"
  | aggregations => "COMPUTE"
  | filters => "FILTER"

def ofKeyword? (word : String) : Option Section :=
  [conditions, aggregations, filters].find? (·.keyword == word)

end Section

inductive Fault where
  | unterminatedString
  | invalidDate (literal : String)
  | oversizedInteger (e : OversizedInteger)
  | invalidComputation (text : String)
  | unknownFunction (name : String)
  | fieldRequired (function text : String)
  | malformedEntry («section» : Section) (text : String)
  | malformedFilter (text : String)
  | nameRequired
  | unknownDirective (keyword : String)
  | braceBeforeOperation (brace : String)
  | invalidOperation (text : String)
  | openingExpected (keyword : String)
  | unexpectedOpening
  | unbalancedClosing
  | invalidSort (text : String)
  | invalidLimit (text : String)
  | unexpectedLine (text : String)
  | nestedOpening («section» : Section)
  | unclosedSection («section» : Section)
  | unclosedBlock
  | contentAfterBlock (text : String)
  deriving DecidableEq

def Fault.message : Fault → String
  | unterminatedString => "unterminated string"
  | invalidDate literal => "invalid date literal: " ++ literal
  | oversizedInteger e => e.message
  | invalidComputation text => "Invalid compute expression: " ++ text
  | unknownFunction name => "Unknown aggregate function: " ++ name
  | fieldRequired function text => function ++ " requires a field: " ++ text
  | malformedEntry part text => part.keyword ++ " entry must be 'key: value', got: " ++ text
  | malformedFilter text => "FILTER entry must be 'field OP value', got: " ++ text
  | nameRequired => "@QUERY requires a name"
  | unknownDirective keyword => "unknown metadata directive: " ++ keyword
  | braceBeforeOperation brace => "unexpected '" ++ brace ++ "' before operation"
  | invalidOperation text => "invalid operation line: " ++ text
  | openingExpected keyword => "expected '\x7b' after " ++ keyword
  | unexpectedOpening => "unexpected '\x7b'"
  | unbalancedClosing => "unbalanced '\x7d'"
  | invalidSort text => "invalid SORT directive: " ++ text
  | invalidLimit text => "invalid LIMIT directive: " ++ text
  | unexpectedLine text => "unexpected line: " ++ text
  | nestedOpening part => "nested '\x7b' inside " ++ part.keyword
  | unclosedSection part => "unclosed " ++ part.keyword ++ " section"
  | unclosedBlock => "unclosed '\x7b' in operation block"
  | contentAfterBlock text => "unexpected content after query block: " ++ text

/-- A fault of a query text, with the line that it was found on. -/
structure TextError where
  fault : Fault
  line : Option Int
  deriving DecidableEq

namespace TextError

def message (e : TextError) : String :=
  match e.fault, e.line with
  | .oversizedInteger oversized, _ => oversized.message
  | fault, some line => "line " ++ String.ofList (Text.intDigits line) ++ ": " ++ fault.message
  | fault, none => fault.message

end TextError

/-- A result whose fault, if it has one, is on the given line. -/
def onLine (line : Option Int) (result : Except Fault α) : Except TextError α :=
  result.mapError fun fault => ⟨fault, line⟩

end PropertyGraph
