/-!
The tokens of a document. The structure that indentation gives is made explicit: each block
collection has a start and an end, as each collection in brackets has.
-/

namespace PropertyGraph.Document

inductive Token where
  | scalar (text : List Char) (isQuoted : Bool)
  | blockSequenceStart
  | blockMappingStart
  | blockEnd
  | flowSequenceStart
  | flowSequenceEnd
  | flowMappingStart
  | flowMappingEnd
  | blockEntry
  | flowEntry
  | key
  | value
  | documentStart
  | documentEnd
  deriving DecidableEq

end PropertyGraph.Document
