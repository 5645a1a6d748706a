import PropertyGraph.Proofs.Language.Filter

/-!
The two spellings of a filter. One is cut at its colon, the other at its operator. With an operand
that holds none of the marks that operators end in, both give the name that was written and the same
comparison, and it does not matter what blanks stand around name and operator.
-/

namespace PropertyGraph

open Text

theorem ComparisonOp.exists_symbol_concat (op : ComparisonOp) :
    ∃ word c, op.symbol.toList = word ++ [c] ∧ c ∈ ['<', '>', '='] := by
  cases op
  case gte => exact ⟨['>'], '=', rfl, by decide⟩
  case lte => exact ⟨['<'], '=', rfl, by decide⟩
  case ne => exact ⟨['!'], '=', rfl, by decide⟩
  all_goals exact ⟨[], _, rfl, by decide⟩

namespace Entry

/-- A text that no operator ends in. Colons may stand in it, and so may exclamation marks. -/
def IsOperand (value : List Char) : Prop := ∀ mark ∈ ['<', '>', '='], mark ∉ value

instance (value : List Char) : Decidable (IsOperand value) :=
  decidable_of_iff ((['<', '>', '='].all fun mark => !value.contains mark) = true)
    (by simp [IsOperand])

/-- The filter with a colon behind its name. -/
def colonSpelling (name sign value : List Char) : List Char := name ++ ':' :: (sign ++ value)

/-- The filter with its operator behind its name. -/
def plainSpelling (name sign value : List Char) : List Char := name ++ (sign ++ value)

example : String.ofList (colonSpelling "at".toList " >= ".toList "10:00".toList) = "at: >= 10:00" ∧
    String.ofList (plainSpelling "at".toList " >= ".toList "10:00".toList) = "at >= 10:00" := by
  decide

variable {name sign value operand : List Char} {op other : ComparisonOp}

theorem IsOperand.of_subset (h : IsOperand value) (hsubset : operand ⊆ value) :
    IsOperand operand :=
  fun mark hmark hmem => h mark hmark (hsubset hmem)

/-- No operator that is looked for earlier begins before the operator or ends behind it. -/
theorem not_infix_operation (h : other ∈ op.earlier) {front : List Char}
    (hfront : ∀ c ∈ other.symbol.toList.head?, c ∉ front) (hoperand : IsOperand operand) :
    ¬ other.symbol.toList <:+: front ++ (op.symbol.toList ++ operand) := by
  obtain ⟨c, word, hhead, -⟩ := other.exists_symbol_cons
  obtain ⟨word', d, hlast, hd⟩ := other.exists_symbol_concat
  have hc : c ∉ front := hfront c (by rw [hhead]; rfl)
  rw [hhead, infix_append_of_head_notMem hc, ← hhead, hlast,
    infix_append_of_last_notMem (hoperand d hd), ← hlast]
  exact ComparisonOp.not_infix_symbol h

theorem read_operation (hoperand : IsOperand operand) :
    Comparison.read (op.symbol.toList ++ operand) = Comparison.mk op <$> Literal.read operand := by
  obtain ⟨c, word, hsymbol, -⟩ := op.exists_symbol_cons
  have hcut : cutAt op.symbol.toList (op.symbol.toList ++ operand) = some ([], operand) := by
    rw [hsymbol]
    exact cutAt_append_of_notMem List.not_mem_nil _ _
  refine Comparison.read_of_cutAt hcut fun other hother => ?_
  have hfront : ∀ c ∈ other.symbol.toList.head?, c ∉ ([] : List Char) :=
    fun _ _ => List.not_mem_nil
  exact not_infix_operation hother hfront hoperand

theorem strip_operation (operand : List Char) :
    strip (op.symbol.toList ++ operand) = op.symbol.toList ++ stripEnd operand := by
  obtain ⟨c, word, hsymbol, hblank, -⟩ := op.exists_symbol_cons
  have hhead : ∀ d ∈ (op.symbol.toList ++ operand).head?, isBlank d = false := by
    rw [hsymbol]
    intro d hd
    exact Option.some.inj hd ▸ hblank
  have hend : stripEnd op.symbol.toList = op.symbol.toList := by cases op <;> decide
  rw [strip, dropWhile_eq_self hhead, stripEnd_append]
  split
  case isTrue hnone => rw [hend, hnone, List.append_nil]
  case isFalse => rfl

/-- Behind the blanks before it the operator stands, and then an operand that is read as the value
is. -/
theorem exists_operand (hsign : strip sign = op.symbol.toList) (hvalue : IsOperand value) :
    ∃ lead operand, (∀ c ∈ lead, isBlank c = true) ∧ IsOperand operand ∧
      strip operand = strip value ∧ sign ++ value = lead ++ (op.symbol.toList ++ operand) := by
  obtain ⟨lead, trail, hlead, htrail, htext⟩ := exists_strip_append sign
  refine ⟨lead, trail ++ value, hlead, fun mark hmark hmem => ?_, strip_blanks_append htrail _, ?_⟩
  · have hblank : ['<', '>', '='].all (fun mark => !isBlank mark) = true := by decide
    rcases List.mem_append.1 hmem with hmem | hmem
    · simpa [htrail mark hmem] using List.all_eq_true.1 hblank mark hmark
    · exact hvalue mark hmark hmem
  · rw [htext, hsign, List.append_assoc, List.append_assoc]

/-- The entry is a filter by this name, and its comparison is with the value by the operator. The
fault of a value that is no literal is the fault of the comparison. -/
structure Compares (chunk name : List Char) (op : ComparisonOp) (value : List Char) : Prop where
  split : ∃ clause, splitFilter? chunk = some (String.ofList name, clause) ∧
    Comparison.read clause = Comparison.mk op <$> Literal.read value
  addTo (q : Query) : addTo q .filters (String.ofList chunk) =
    (fun v => { q with filters := q.filters.insert (String.ofList name) ⟨op, v⟩ }) <$>
      Literal.read value

theorem compares_of_splitFilter? {chunk : List Char} (clause : List Char)
    (hsplit : splitFilter? chunk = some (String.ofList name, clause))
    (hread : Comparison.read clause = Comparison.mk op <$> Literal.read value) :
    Compares chunk name op value := by
  refine ⟨⟨clause, hsplit, hread⟩, fun q => ?_⟩
  simp only [Entry.addTo, String.toList_ofList, hsplit, hread]
  cases Literal.read value <;> rfl

section

variable (hname : isFieldName (strip name) = true) (hsign : strip sign = op.symbol.toList)
  (hvalue : IsOperand value)

include hname hsign hvalue

theorem compares_colonSpelling : Compares (colonSpelling name sign value) (strip name) op value := by
  obtain ⟨lead, operand, hlead, hoperand, hstrip, htext⟩ := exists_operand hsign hvalue
  have hclause : strip (sign ++ value) = op.symbol.toList ++ stripEnd operand := by
    rw [htext, strip_blanks_append hlead, strip_operation]
  have hread : Literal.read (stripEnd operand) = Literal.read value :=
    Literal.read_congr_of_strip ((strip_stripEnd operand).trans hstrip)
  refine compares_of_splitFilter? (op.symbol.toList ++ stripEnd operand) ?_ ?_
  · rw [splitFilter?, split?, colonSpelling,
      cut_append_mark (notMem_of_isFieldName_strip hname (by decide) (by decide))]
    simp only [hname, if_true, hclause]
    rfl
  · rw [read_operation (hoperand.of_subset (stripEnd_isPrefix operand).subset), hread]

theorem compares_plainSpelling : Compares (plainSpelling name sign value) (strip name) op value := by
  obtain ⟨lead, operand, hlead, hoperand, hstrip, htext⟩ := exists_operand hsign hvalue
  have hchunk : plainSpelling name sign value =
      (name ++ lead) ++ (op.symbol.toList ++ operand) := by
    rw [plainSpelling, htext, List.append_assoc]
  have hfront : strip (name ++ lead) = strip name := strip_append_blanks hlead name
  rw [← hfront] at hname ⊢
  have hhead (other : ComparisonOp) : ∀ c ∈ other.symbol.toList.head?, c ∉ name ++ lead := by
    obtain ⟨c, word, hsymbol, hblank, hmark⟩ := other.exists_symbol_cons
    rw [hsymbol]
    intro d hd
    exact Option.some.inj hd ▸ notMem_of_isFieldName_strip hname hblank hmark
  obtain ⟨c, word, hsymbol, hblank, hmark⟩ := op.exists_symbol_cons
  have hsplit : split? (plainSpelling name sign value) = none := by
    rw [hchunk, ← List.append_assoc]
    refine split?_of_mark (c := c) (by simp [hsymbol]) hblank hmark ?_ operand
    rw [List.mem_append, not_or]
    exact ⟨notMem_of_isFieldName_strip hname (by decide) (by decide),
      ComparisonOp.notMem_symbol (by decide) op⟩
  have hcut : cutAt op.symbol.toList (plainSpelling name sign value) =
      some (name ++ lead, operand) := by
    rw [hchunk, hsymbol]
    exact cutAt_append_of_notMem (hhead op c (by rw [hsymbol]; rfl)) _ _
  have hne : name ++ lead ≠ [] := by
    intro hnil
    rw [hnil] at hname
    cases hname
  have hearlier : ∀ other ∈ op.earlier,
      ¬ other.symbol.toList <:+: plainSpelling name sign value := by
    intro other hother
    rw [hchunk]
    exact not_infix_operation hother (hhead other) hoperand
  refine compares_of_splitFilter? (op.symbol.toList ++ operand) ?_ ?_
  · rw [splitFilter?, hsplit, splitAtOperator?_of_cutAt hcut hne hearlier hname]
    rfl
  · rw [read_operation hoperand, Literal.read_congr_of_strip hstrip]

end

/-- A field, an operator and an operand make the same filter in both spellings, whatever blanks
stand around the field and around the operator: what it compares with is the literal of the operand,
and if this is none, both have the fault of the literal. -/
theorem spellings_agree {key : List Char} (hkey : isFieldName key = true)
    (hvalue : IsOperand value) {name' sign' : List Char} (hname : strip name = key)
    (hname' : strip name' = key) (hsign : strip sign = op.symbol.toList)
    (hsign' : strip sign' = op.symbol.toList) :
    Compares (colonSpelling name sign value) key op value ∧
      Compares (plainSpelling name' sign' value) key op value := by
  constructor
  · subst hname
    exact compares_colonSpelling hkey hsign hvalue
  · subst hname'
    exact compares_plainSpelling hkey hsign' hvalue

/-- The colons of a time are no colons of the filter. -/
theorem spellings_agree_of_time :
    let value := " 2024-01-01T10:30:00+02:00 ".toList
    isFieldName "paid.at".toList = true ∧ IsOperand value ∧
      strip "\tpaid.at ".toList = "paid.at".toList ∧ strip "paid.at".toList = "paid.at".toList ∧
      strip " >=".toList = ComparisonOp.gte.symbol.toList ∧
      strip "\n>= ".toList = ComparisonOp.gte.symbol.toList ∧
      Compares (colonSpelling "\tpaid.at ".toList " >=".toList value) "paid.at".toList .gte value ∧
      Compares (plainSpelling "paid.at".toList "\n>= ".toList value) "paid.at".toList .gte value ∧
      ∃ t, Literal.read value = .ok (.dateTime t) := by
  intro value
  have hkey : isFieldName "paid.at".toList = true := by decide
  have hvalue : IsOperand value := by decide
  have hname : strip "\tpaid.at ".toList = "paid.at".toList := by decide
  have hname' : strip "paid.at".toList = "paid.at".toList := by decide
  have hsign : strip " >=".toList = ComparisonOp.gte.symbol.toList := by decide
  have hsign' : strip "\n>= ".toList = ComparisonOp.gte.symbol.toList := by decide
  obtain ⟨hcolon, hplain⟩ := spellings_agree hkey hvalue hname hname' hsign hsign'
  exact ⟨hkey, hvalue, hname, hname', hsign, hsign', hcolon, hplain, _,
    Literal.read_of_not_bracketed? rfl⟩

end Entry

end PropertyGraph
