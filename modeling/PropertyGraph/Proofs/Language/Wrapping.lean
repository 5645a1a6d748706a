import PropertyGraph.Proofs.Language.Block
import PropertyGraph.Proofs.Language.Layout

/-!
The block of an operation can be left out. What stands between its braces makes the same query when
it follows the line of the operation without them.
-/

namespace PropertyGraph

open Text

/-- The text is a metadata line that assigns this. -/
def IsMetadata (text : List Char) (a : Assignment) : Prop :=
  ∃ chunk, Token.lexemes? text = some [.text chunk] ∧ chunk.toList.head? = some '@' ∧
    Grammar.Metadata chunk a

/-- The text is the line of an operation, which assigns this. -/
def IsOperation (text : List Char) (a : Assignment) : Prop :=
  ∃ chunk, Token.lexemes? text = some [.text chunk] ∧ Grammar.Operation chunk a

/-- The text is made of items: directives, and sections in their braces. Together they assign
this. -/
def IsBody (text : List Char) (assigned : List Assignment) : Prop :=
  ∃ lexemes, Token.lexemes? text = some lexemes ∧ Grammar.Items lexemes assigned

namespace Wrapping

/-- The lines of the header, and the rest of the text behind them. -/
def headed (header : List (List Char)) (rest : List Char) : List Char :=
  header.flatMap (· ++ ['\n']) ++ rest

/-- The text with the body in a block. -/
def withBlock (header : List (List Char)) (operation body : List Char) : String :=
  String.ofList (headed header (operation ++ '\x7b' :: (body ++ ['\x7d'])))

/-- The text with the body on the lines that follow the operation. -/
def withoutBlock (header : List (List Char)) (operation body : List Char) : String :=
  String.ofList (headed header (operation ++ '\n' :: body))

example : withBlock ["@QUERY q".toList] "FETCH users ".toList "\nLIMIT 5\n".toList =
      "@QUERY q\nFETCH users \x7b\nLIMIT 5\n\x7d" ∧
    withoutBlock ["@QUERY q".toList] "FETCH users ".toList "\nLIMIT 5\n".toList =
      "@QUERY q\nFETCH users \n\nLIMIT 5\n" := by
  decide +kernel

variable {header : List (List Char)} {operation body rest : List Char} {chunk : String}
  {named assigned : List Assignment} {a : Assignment} {q : Query}

theorem headed_cons (line : List Char) (header : List (List Char)) (rest : List Char) :
    headed (line :: header) rest = line ++ '\n' :: headed header rest := by
  simp [headed]

/-- The header comes first in the text, and what it assigns comes first too. -/
theorem exists_headed (h : List.Forall₂ IsMetadata header named) :
    ∃ front, (∀ rest, Token.lexemes? (headed header rest) =
        (Token.lexemes? rest).map (front ++ ·)) ∧
      ∀ rest assigned, Grammar.Sentence (front ++ rest) assigned ↔
        ∃ more, assigned = named ++ more ∧ Grammar.Sentence rest more := by
  induction h with
  | nil => exact ⟨[], fun rest => by simp [headed], fun rest assigned => by simp⟩
  | cons hline _ ih =>
      obtain ⟨chunk, hchunk, hat, hmetadata⟩ := hline
      obtain ⟨front, hlexemes, hsentence⟩ := ih
      refine ⟨.text chunk :: front, fun rest => ?_, fun rest assigned => ?_⟩
      · rw [headed_cons, Token.lexemes?_append_newline, hchunk, hlexemes]
        simp [Function.comp_def]
      · rw [List.cons_append, Grammar.sentence_metadata_iff hat hmetadata]
        constructor
        · rintro ⟨more, rfl, hmore⟩
          obtain ⟨last, rfl, hlast⟩ := (hsentence rest more).1 hmore
          exact ⟨last, rfl, hlast⟩
        · rintro ⟨last, rfl, hlast⟩
          exact ⟨_, rfl, (hsentence rest _).2 ⟨last, rfl, hlast⟩⟩

/-- The braces of the block are lexemes around those of the body. -/
theorem lexemes?_block (h : Token.lexemes? operation = some [.text chunk]) (body : List Char) :
    Token.lexemes? (operation ++ '\x7b' :: (body ++ ['\x7d'])) =
      (Token.lexemes? body).map fun items => .text chunk :: .opening :: (items ++ [.closing]) := by
  have hnil : Token.lexemes? [] = some [] := rfl
  have hopen : (Token.lexemes? operation).isSome = true := by rw [h]; rfl
  rw [Token.lexemes?_append_brace .opening (.inl hopen), h,
    Token.lexemes?_append_brace .closing (.inr List.not_mem_nil), hnil]
  cases Token.lexemes? body <;> rfl

/-- With a text behind the header, the query is what the header assigns and then the text. -/
theorem ofText_headed_iff (h : List.Forall₂ IsMetadata header named) :
    Query.ofText (String.ofList (headed header rest)) = .ok q ↔
      ∃ lexemes assigned, Token.lexemes? rest = some lexemes ∧
        Grammar.Sentence lexemes assigned ∧ q = Assignment.applyAll {} (named ++ assigned) := by
  obtain ⟨front, hlexemes, hsentence⟩ := exists_headed h
  rw [Query.ofText_eq_ok_iff, hlexemes]
  constructor
  · rintro ⟨_, _, hfound, hwhole, rfl⟩
    obtain ⟨lexemes, hrest, rfl⟩ := Option.map_eq_some_iff.1 hfound
    obtain ⟨assigned, rfl, hassigned⟩ := (hsentence _ _).1 hwhole
    exact ⟨lexemes, assigned, hrest, hassigned, rfl⟩
  · rintro ⟨lexemes, assigned, hrest, hassigned, rfl⟩
    exact ⟨front ++ lexemes, named ++ assigned, by rw [hrest]; rfl,
      (hsentence _ _).2 ⟨assigned, rfl, hassigned⟩, rfl⟩

section

variable (hheader : List.Forall₂ IsMetadata header named) (hoperation : IsOperation operation a)

include hheader hoperation

theorem ofText_withBlock_iff :
    Query.ofText (withBlock header operation body) = .ok q ↔
      ∃ assigned, IsBody body assigned ∧
        q = Assignment.applyAll {} (named ++ a :: assigned) := by
  obtain ⟨chunk, hchunk, hoperation⟩ := hoperation
  rw [withBlock, ofText_headed_iff hheader, lexemes?_block hchunk]
  constructor
  · rintro ⟨_, _, hfound, hsentence, rfl⟩
    obtain ⟨items, hitems, rfl⟩ := Option.map_eq_some_iff.1 hfound
    obtain ⟨assigned, rfl, hrest⟩ := (Grammar.sentence_operation_iff hoperation).1 hsentence
    exact ⟨assigned, ⟨items, hitems, Grammar.rest_block_iff.1 hrest⟩, rfl⟩
  · rintro ⟨assigned, ⟨items, hlexemes, hitems⟩, rfl⟩
    refine ⟨_, a :: assigned, by rw [hlexemes]; rfl, ?_, rfl⟩
    exact (Grammar.sentence_operation_iff hoperation).2
      ⟨assigned, rfl, Grammar.rest_block_iff.2 hitems⟩

theorem ofText_withoutBlock (hbody : IsBody body assigned) :
    Query.ofText (withoutBlock header operation body) =
      .ok (Assignment.applyAll {} (named ++ a :: assigned)) := by
  obtain ⟨chunk, hchunk, hoperation⟩ := hoperation
  obtain ⟨items, hlexemes, hitems⟩ := hbody
  rw [withoutBlock, ofText_headed_iff hheader, Token.lexemes?_append_newline, hchunk, hlexemes]
  exact ⟨_, a :: assigned, rfl, .body (.operation hoperation hitems), rfl⟩

end

/-- Behind its header and its operation, a body of items makes one query, in a block or without one.
In a block nothing but items makes a query. -/
theorem block_optional (hheader : List.Forall₂ IsMetadata header named)
    (hoperation : IsOperation operation a) (body : List Char) :
    (∀ assigned, IsBody body assigned → ∃ q,
      Query.ofText (withBlock header operation body) = .ok q ∧
        Query.ofText (withoutBlock header operation body) = .ok q) ∧
      ∀ q, Query.ofText (withBlock header operation body) = .ok q →
        ∃ assigned, IsBody body assigned ∧
          q = Assignment.applyAll {} (named ++ a :: assigned) := by
  refine ⟨fun assigned hbody => ?_, fun q => (ofText_withBlock_iff hheader hoperation).1⟩
  exact ⟨_, (ofText_withBlock_iff hheader hoperation).2 ⟨assigned, hbody, rfl⟩,
    ofText_withoutBlock hheader hoperation hbody⟩

/-- A brace between quotation marks opens no block, and the braces of sections close none. -/
theorem block_optional_of_sections :
    let header := ["@QUERY q".toList, "@INTENT \"a \x7b b\"".toList]
    let operation := "FETCH users ".toList
    let body := ("\nWHERE \x7b a: 1 \x7d\nFILTER \x7b\n b: > 2\n\x7d\n" ++
      "SORT BY b DESC\nLIMIT 5\n").toList
    let named := [.name "q", .intent "a \x7b b"]
    let assigned := [.condition "a" (.int 1), .filter "b" ⟨.gt, .int 2⟩, .sorting ⟨"b", .desc⟩,
      .limit 5]
    List.Forall₂ IsMetadata header named ∧ IsOperation operation (.operation .fetch "users") ∧
      IsBody body assigned ∧ ∃ q, Query.ofText (withBlock header operation body) = .ok q ∧
        Query.ofText (withoutBlock header operation body) = .ok q := by
  intro header operation body named assigned
  have hname : IsMetadata "@QUERY q".toList (.name "q") :=
    ⟨"@QUERY q", by decide +kernel, rfl, .name rfl rfl⟩
  have hintent : IsMetadata "@INTENT \"a \x7b b\"".toList (.intent "a \x7b b") :=
    ⟨"@INTENT \"a \x7b b\"", by decide +kernel, rfl,
      @Grammar.Metadata.intent _ (some "\"a \x7b b\"".toList) rfl⟩
  have hheader : List.Forall₂ IsMetadata header named := .cons hname (.cons hintent .nil)
  have hoperation : IsOperation operation (.operation .fetch "users") :=
    ⟨"FETCH users", by decide +kernel, .fetch (by decide) (by decide +kernel) rfl⟩
  have hwhere : Grammar.Item [.text "WHERE", .opening, .text "a: 1", .closing]
      [.condition "a" (.int 1)] :=
    .entries (.cons (.condition rfl (Literal.read_of_not_bracketed? rfl)) .nil)
  have hliteral : Literal.read " 2".toList = .ok (.int 2) := Literal.read_of_not_bracketed? rfl
  have hcomparison : Comparison.read "> 2".toList = .ok ⟨.gt, .int 2⟩ :=
    congrArg (Comparison.mk .gt <$> ·) hliteral
  have hfilter : Grammar.Item [.text "FILTER", .opening, .text "b: > 2", .closing]
      [.filter "b" ⟨.gt, .int 2⟩] :=
    .entries (.cons (.filter rfl hcomparison) .nil)
  have hsorting : Grammar.Item [.text "SORT BY b DESC"] [.sorting ⟨"b", .desc⟩] :=
    .directive (.sorting (by decide) (by decide +kernel))
  have hlimit : Grammar.Item [.text "LIMIT 5"] [.limit 5] :=
    .directive (.limit (by decide) rfl rfl)
  have hbody : IsBody body assigned :=
    ⟨_, by decide +kernel, .cons hwhere (.cons hfilter (.cons hsorting (.cons hlimit .nil)))⟩
  exact ⟨hheader, hoperation, hbody, (block_optional hheader hoperation body).1 assigned hbody⟩

end Wrapping

end PropertyGraph
