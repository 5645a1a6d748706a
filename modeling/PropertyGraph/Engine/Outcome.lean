import PropertyGraph.Engine.Basic

/-!
Requests from text to answer. A failure of the request is an outcome like any other; what is no
failure of the request is passed on.
-/

namespace PropertyGraph

/-- Why a query text is not answered. -/
inductive RequestError where
  | text (e : TextError)
  | execution (e : ExecutionError)

namespace RequestError

def message : RequestError → String
  | text e => e.message
  | execution e => e.message

/-- The name under which a failure of the request is reported. -/
def typeName? : RequestError → Option String
  | text ⟨.oversizedInteger _, _⟩ => none
  | text _ => some "ParseError"
  | execution e => e.typeName?

end RequestError

inductive Outcome where
  | answered (queryName : String) (answer : Answer)
  | failed (typeName message : String)

namespace Outcome

def message : Outcome → String
  | answered _ answer => s!"{answer.count} row(s)"
  | failed _ message => message

end Outcome

namespace Engine

/-- Compile a query text and answer it. -/
def request (engine : Engine) (text : String) (now : Number) :
    Except RequestError (Query × Answer) × Engine :=
  match Query.ofText text with
  | .error e => (.error (.text e), engine)
  | .ok q =>
    match engine.execute q now with
    | (.error e, engine) => (.error (.execution e), engine)
    | (.ok answer, engine) => (.ok (q, answer), engine)

/-- Run a query text to its outcome. -/
def run (engine : Engine) (text : String) (now : Number) :
    Except RequestError Outcome × Engine :=
  match engine.request text now with
  | (.ok (q, answer), engine) => (.ok (.answered q.name answer), engine)
  | (.error e, engine) =>
    match e.typeName? with
    | some typeName => (.ok (.failed typeName e.message), engine)
    | none => (.error e, engine)

end Engine

end PropertyGraph
