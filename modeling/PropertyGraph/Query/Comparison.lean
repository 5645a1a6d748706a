import PropertyGraph.Value.Order

/-!
Comparisons of a property with a fixed value. An absent property satisfies only `ne`; values that
have no order satisfy none of the four comparisons of order.
-/

namespace PropertyGraph

inductive ComparisonOp where
  | eq | ne | gt | gte | lt | lte
  deriving DecidableEq

namespace ComparisonOp

def name : ComparisonOp → String
  | eq => "eq"
  | ne => "ne"
  | gt => "gt"
  | gte => "gte"
  | lt => "lt"
  | lte => "lte"

def symbol : ComparisonOp → String
  | eq => "="
  | ne => "!="
  | gt => ">"
  | gte => ">="
  | lt => "<"
  | lte => "<="

/-- The operator as document stores mark it; plain equality has no mark. -/
def marker : ComparisonOp → Option String
  | eq => none
  | op => some ("$" ++ op.name)

/-- The operators in the order in which a text is searched for them: none comes after a part of
itself. -/
def inSearchOrder : List ComparisonOp := [gte, lte, gt, lt, ne, eq]

def ofName? (name : String) : Option ComparisonOp :=
  inSearchOrder.find? (·.name == name)

end ComparisonOp

structure Comparison where
  op : ComparisonOp
  value : Value

namespace Comparison

/-- The comparison holds of a value that is present. -/
def holdsOf (c : Comparison) (actual : Value) : Bool :=
  match c.op with
  | .eq => actual.same c.value
  | .ne => !actual.same c.value
  | .gt => actual.greater c.value
  | .gte => match actual.relate c.value with
    | .ok (some order) => order.isGE
    | _ => false
  | .lt => actual.less c.value
  | .lte => match actual.relate c.value with
    | .ok (some order) => order.isLE
    | _ => false

/-- The comparison holds of a property, absent or present. -/
def holds (c : Comparison) : Option Value → Bool
  | none => c.op = .ne
  | some actual => c.holdsOf actual

@[simp] theorem holds_none (c : Comparison) : c.holds none = decide (c.op = .ne) := rfl

@[simp] theorem holds_some (c : Comparison) (v : Value) : c.holds (some v) = c.holdsOf v := rfl

end Comparison

end PropertyGraph
