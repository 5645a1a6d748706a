import PropertyGraph.Text.Blank
import PropertyGraph.Text.Case

/-!
Query texts drafted from requests in plain words. A template is chosen by keywords that occur in
the request; the request itself becomes the intent of the query.
-/

namespace PropertyGraph

open Text

structure Template where
  name : String
  triggers : List String
  body : String

namespace Template

/-- Every trigger occurs in the text, which is in small letters. -/
def matchesLowered (t : Template) (lowered : List Char) : Bool :=
  t.triggers.all fun trigger => occursIn trigger.toList lowered

/-- The request on one line, its quotation marks turned into apostrophes. -/
def intentOf (request : List Char) : List Char :=
  join [' '] (words (request.map fun c => if c = '"' then '\'' else c))

/-- The query text of the template for a request. -/
def render (t : Template) (request : String) : String :=
  "@QUERY " ++ t.name ++ "\n@INTENT \"" ++ String.ofList (intentOf request.toList) ++ "\"\n\n" ++
    t.body

end Template

/-- Templates in the order in which they are tried, and the one for all other requests. -/
structure Phrasebook where
  templates : List Template
  fallback : Template

namespace Phrasebook

def findUsers : Template where
  name := "find_users"
  triggers := ["find", "user"]
  body := "FETCH users \x7b\n  WHERE \x7b\n    status: active\n  \x7d\n  LIMIT 10\n\x7d"

def countOrders : Template where
  name := "count_orders"
  triggers := ["count", "order"]
  body := "FETCH orders \x7b\n  COMPUTE \x7b\n    total: COUNT()\n  \x7d\n\x7d"

def anyData : Template where
  name := "custom_query"
  triggers := []
  body := "FETCH data \x7b\n  LIMIT 10\n\x7d"

/-- The templates at hand where none are given. -/
def standard : Phrasebook := ⟨[findUsers, countOrders], anyData⟩

/-- The template for a request: the first whose triggers all occur in it. -/
def choose (book : Phrasebook) (request : String) : Template :=
  (book.templates.find? (·.matchesLowered (lower request.toList))).getD book.fallback

/-- The query text for a request. -/
def draft (book : Phrasebook) (request : String) : String :=
  (book.choose request).render request

end Phrasebook

end PropertyGraph
