import PropertyGraph.Proofs.Language.Draft
import PropertyGraph.Proofs.Language.Entry

/-!
Filters on quoted texts. The operator is looked for in the whole comparison, the text between the
quotation marks included. So a filter compares with its text by its operator exactly if the text
holds none of the operators that are looked for earlier; one that it holds is taken for the operator
of the filter.
-/

namespace PropertyGraph

open Text

namespace ComparisonOp

/-- The operators that are looked for before this one. -/
def earlier (op : ComparisonOp) : List ComparisonOp := inSearchOrder.takeWhile (· ≠ op)

example : inSearchOrder.map earlier =
    [[], [.gte], [.gte, .lte], [.gte, .lte, .gt], [.gte, .lte, .gt, .lt],
      [.gte, .lte, .gt, .lt, .ne]] := by
  decide

theorem earlier_of_append {op : ComparisonOp} {before after : List ComparisonOp}
    (h : inSearchOrder = before ++ op :: after) : op.earlier = before := by
  have hdistinct : inSearchOrder.Nodup := by decide
  rw [h, List.nodup_append] at hdistinct
  have hbefore : ∀ other ∈ before, decide (other ≠ op) = true := fun other hother =>
    decide_eq_true (hdistinct.2.2 other hother op List.mem_cons_self)
  rw [earlier, h, List.takeWhile_append_of_pos hbefore, List.takeWhile_cons_of_neg (by simp),
    List.append_nil]

/-- A search ends at the first operator for which there is something to find. -/
theorem findSome?_inSearchOrder_iff {find? : ComparisonOp → Option α} {found : α} :
    inSearchOrder.findSome? find? = some found ↔
      ∃ op, find? op = some found ∧ ∀ other ∈ op.earlier, find? other = none := by
  rw [List.findSome?_eq_some_iff]
  constructor
  · rintro ⟨before, op, after, horder, hfound, hnone⟩
    exact ⟨op, hfound, earlier_of_append horder ▸ hnone⟩
  · rintro ⟨op, hfound, hnone⟩
    obtain ⟨after, horder⟩ : ∃ after, inSearchOrder = op.earlier ++ op :: after := by
      cases op <;> exact ⟨_, rfl⟩
    exact ⟨op.earlier, op, after, horder, hfound, hnone⟩

theorem earlier_total (op other : ComparisonOp) :
    other ∈ op.earlier ∨ other = op ∨ op ∈ other.earlier := by
  cases op <;> cases other <;> decide

/-- No operator stands in a later one. -/
theorem not_infix_symbol {op other : ComparisonOp} (h : other ∈ op.earlier) :
    ¬ other.symbol.toList <:+: op.symbol.toList := by
  rw [← occursIn_iff]
  revert h
  cases op <;> cases other <;> decide

/-- An operator begins with a mark that is in no name of a field. -/
theorem exists_symbol_cons (op : ComparisonOp) :
    ∃ c rest, op.symbol.toList = c :: rest ∧ isBlank c = false ∧
      (isWordChar c || c == '.') = false := by
  cases op <;> exact ⟨_, _, rfl, by decide, by decide⟩

theorem notMem_symbol {mark : Char} (h : mark ∈ [' ', '"', ':']) (op : ComparisonOp) :
    mark ∉ op.symbol.toList := by
  simp only [List.mem_cons, List.not_mem_nil, or_false] at h
  rcases h with rfl | rfl | rfl <;> cases op <;> decide

/-- No operator stands in the name of a field. -/
theorem not_infix_fieldName {key : List Char} (hkey : isFieldName key = true) (op : ComparisonOp) :
    ¬ op.symbol.toList <:+: key := by
  obtain ⟨c, rest, hsymbol, -, hmark⟩ := op.exists_symbol_cons
  intro hinfix
  have hc : c ∈ key := hinfix.subset (by rw [hsymbol]; exact List.mem_cons_self)
  exact notMem_of_isFieldName hkey hmark hc

end ComparisonOp

namespace Comparison

variable {op other : ComparisonOp} {text : List Char}

/-- The first operator in search order that occurs in the text, and what follows it there. -/
def found? (text : List Char) : Option (ComparisonOp × List Char) :=
  ComparisonOp.inSearchOrder.findSome? fun op =>
    (cutAt op.symbol.toList text).map fun cut => (op, cut.2)

theorem read_eq (text : List Char) :
    read text = Literal.read ((found? text).getD (.eq, text)).2 >>= fun value =>
      .ok ⟨((found? text).getD (.eq, text)).1, value⟩ := rfl

/-- The operator of a comparison is the first that occurs in it. -/
theorem read_of_cutAt {before after : List Char}
    (hcut : cutAt op.symbol.toList text = some (before, after))
    (h : ∀ other ∈ op.earlier, ¬ other.symbol.toList <:+: text) :
    read text = Literal.read after >>= fun value => .ok ⟨op, value⟩ := by
  have hfound : found? text = some (op, after) := by
    refine ComparisonOp.findSome?_inSearchOrder_iff.2 ⟨op, by rw [hcut]; rfl, fun other hother => ?_⟩
    rw [cutAt_eq_none_iff.2 (h other hother)]
    rfl
  rw [read_eq, hfound]
  rfl

/-- What is looked for earlier than the operator of a comparison does not occur in it. -/
theorem not_infix_of_read {c : Comparison} (h : read text = .ok c) (hother : other ∈ c.op.earlier) :
    ¬ other.symbol.toList <:+: text := by
  rw [read_eq] at h
  obtain ⟨value, -, hc⟩ := exists_of_bind h
  obtain rfl := Except.ok.inj hc
  rw [← cutAt_eq_none_iff]
  cases hfound : found? text with
  | none =>
      have hmem : other ∈ ComparisonOp.inSearchOrder := by cases other <;> decide
      exact Option.map_eq_none_iff.1 (List.findSome?_eq_none_iff.1 hfound other hmem)
  | some found =>
      obtain ⟨op, hop, hnone⟩ := ComparisonOp.findSome?_inSearchOrder_iff.1 hfound
      obtain ⟨cut, -, rfl⟩ := Option.map_eq_some_iff.1 hop
      rw [hfound] at hother
      exact Option.map_eq_none_iff.1 (hnone other hother)

end Comparison

namespace Entry

/-- An operator before the first colon: no field is named there. -/
theorem split?_of_mark {front : List Char} {c : Char} (hc : c ∈ front) (hblank : isBlank c = false)
    (hmark : (isWordChar c || c == '.') = false) (hcolon : ':' ∉ front) (rest : List Char) :
    split? (front ++ rest) = none := by
  have hname (more : List Char) : isFieldName (strip (front ++ more)) = false :=
    Bool.eq_false_iff.2 fun hname =>
      notMem_of_isFieldName_strip hname hblank hmark (List.mem_append_left _ hc)
  rw [split?, cut_append_of_notMem hcolon]
  cases (cut ':' rest).2 with
  | none => rfl
  | some value => exact if_neg (Bool.eq_false_iff.1 (hname _))

theorem splitAtOperator?_eq (text : List Char) :
    splitAtOperator? text =
      (ComparisonOp.inSearchOrder.findSome? fun op =>
        (cutAt op.symbol.toList text).bind fun found =>
          if found.1.isEmpty then none else some found.1).bind fun before =>
        if isFieldName (strip before) then
          some (String.ofList (strip before), text.drop before.length)
        else none := rfl

/-- Without a colon the operator of a filter is the first in search order that occurs in it, and
what precedes it is the name. -/
theorem splitAtOperator?_of_cutAt {op : ComparisonOp} {text before after : List Char}
    (hcut : cutAt op.symbol.toList text = some (before, after)) (hne : before ≠ [])
    (h : ∀ other ∈ op.earlier, ¬ other.symbol.toList <:+: text)
    (hname : isFieldName (strip before) = true) :
    splitAtOperator? text = some (String.ofList (strip before), op.symbol.toList ++ after) := by
  have hsearch : (ComparisonOp.inSearchOrder.findSome? fun op =>
      (cutAt op.symbol.toList text).bind fun found =>
        if found.1.isEmpty then none else some found.1) = some before := by
    refine ComparisonOp.findSome?_inSearchOrder_iff.2 ⟨op, ?_, fun other hother => ?_⟩
    · rw [hcut]
      exact if_neg (by simpa using hne)
    · rw [cutAt_eq_none_iff.2 (h other hother)]
      rfl
  rw [splitAtOperator?_eq, hsearch, Option.bind_some, if_pos hname, eq_append_of_cutAt hcut,
    List.drop_left]

/-- A comparison with a text between quotation marks. -/
def comparison (op : ComparisonOp) (text : List Char) : List Char :=
  op.symbol.toList ++ ' ' :: Literal.quoted text

/-- The filter with a colon before its comparison. -/
def colonFilter (key : List Char) (op : ComparisonOp) (text : List Char) : List Char :=
  key ++ ':' :: ' ' :: comparison op text

/-- The filter with its comparison behind the name of the field. -/
def plainFilter (key : List Char) (op : ComparisonOp) (text : List Char) : List Char :=
  key ++ ' ' :: comparison op text

theorem plainFilter_eq (key : List Char) (op : ComparisonOp) (text : List Char) :
    plainFilter key op text = (key ++ [' ']) ++ comparison op text :=
  List.append_cons ..

/-- None of the operators that are looked for earlier stands in the text. -/
def Unmistaken (op : ComparisonOp) (text : List Char) : Prop :=
  ∀ other ∈ op.earlier, ¬ other.symbol.toList <:+: text

instance (op : ComparisonOp) (text : List Char) : Decidable (Unmistaken op text) :=
  inferInstanceAs (Decidable (∀ other ∈ op.earlier, ¬ other.symbol.toList <:+: text))

variable {key text : List Char} {op other : ComparisonOp}

theorem infix_quoted_iff :
    op.symbol.toList <:+: Literal.quoted text ↔ op.symbol.toList <:+: text := by
  have hmark : '"' ∉ op.symbol.toList := ComparisonOp.notMem_symbol (by decide) op
  have hne : ¬ op.symbol.toList <:+: [] := by
    rw [List.infix_nil]
    cases op <;> decide
  have hquoted : Literal.quoted text = [] ++ '"' :: (text ++ ['"']) := rfl
  rw [hquoted, infix_append_mark hmark, infix_append_mark hmark, or_iff_right hne, or_iff_left hne]

theorem infix_comparison_iff (h : other ∈ op.earlier) :
    other.symbol.toList <:+: comparison op text ↔ other.symbol.toList <:+: text := by
  rw [comparison, infix_append_mark (ComparisonOp.notMem_symbol (by decide) other),
    or_iff_right (ComparisonOp.not_infix_symbol h), infix_quoted_iff]

theorem infix_plainFilter_iff (hkey : isFieldName key = true) (h : other ∈ op.earlier) :
    other.symbol.toList <:+: plainFilter key op text ↔ other.symbol.toList <:+: text := by
  rw [plainFilter, infix_append_mark (ComparisonOp.notMem_symbol (by decide) other),
    or_iff_right (other.not_infix_fieldName hkey), infix_comparison_iff h]

/-- The operator of a comparison is found at its beginning. -/
theorem cutAt_comparison (front : List Char) (hfront : ∀ c ∈ op.symbol.toList.head?, c ∉ front) :
    cutAt op.symbol.toList (front ++ comparison op text) =
      some (front, ' ' :: Literal.quoted text) := by
  obtain ⟨c, rest, hsymbol, -⟩ := op.exists_symbol_cons
  rw [hsymbol] at hfront
  rw [comparison, hsymbol]
  exact cutAt_append_of_notMem (hfront c rfl) _ _

theorem read_comparison (h : Unmistaken op text) :
    Comparison.read (comparison op text) = .ok ⟨op, .str (String.ofList text)⟩ := by
  have hcut : cutAt op.symbol.toList ([] ++ comparison op text) =
      some ([], ' ' :: Literal.quoted text) := cutAt_comparison [] (by simp)
  rw [List.nil_append] at hcut
  rw [Comparison.read_of_cutAt hcut fun other hother => mt (infix_comparison_iff hother).1
    (h other hother), Literal.read_cons_space, Literal.read_quoted]
  rfl

theorem strip_comparison : strip (comparison op text) = comparison op text := by
  obtain ⟨c, rest, hsymbol, hblank, -⟩ := op.exists_symbol_cons
  have henclosed : comparison op text = c :: (rest ++ " \"".toList ++ text ++ ['"']) := by
    simp [comparison, hsymbol, Literal.quoted]
  rw [henclosed]
  exact strip_enclosed hblank (by decide) _

theorem splitFilter?_colonFilter (hkey : isFieldName key = true) :
    splitFilter? (colonFilter key op text) = some (String.ofList key, comparison op text) := by
  rw [splitFilter?, colonFilter, split?_of_colon hkey, strip_comparison]
  rfl

/-- The operator stands before a colon of the text, so that no field is named before it. -/
theorem split?_plainFilter (hkey : isFieldName key = true) :
    split? (plainFilter key op text) = none := by
  obtain ⟨c, rest, hsymbol, hblank, hmark⟩ := op.exists_symbol_cons
  have hfront : ':' ∉ key ++ ' ' :: op.symbol.toList := by
    rw [List.mem_append, List.mem_cons, not_or, not_or]
    exact ⟨notMem_of_isFieldName hkey (by decide), by decide,
      ComparisonOp.notMem_symbol (by decide) op⟩
  have hchunk : plainFilter key op text =
      (key ++ ' ' :: op.symbol.toList) ++ ' ' :: Literal.quoted text := by
    simp [plainFilter, comparison]
  rw [hchunk]
  exact split?_of_mark (c := c) (by simp [hsymbol]) hblank hmark hfront _

/-- Something precedes each operator of a text that begins with the name of a field. -/
theorem splitAtOperator?_of_fieldName (hkey : isFieldName key = true) (rest : List Char) :
    splitAtOperator? (key ++ rest) =
      (ComparisonOp.inSearchOrder.findSome? fun op =>
        (cutAt op.symbol.toList (key ++ rest)).map Prod.fst) >>= fun before =>
          if isFieldName (strip before) then
            some (String.ofList (strip before), (key ++ rest).drop before.length)
          else none := by
  rw [splitAtOperator?]
  refine congrArg (fun find? => ComparisonOp.inSearchOrder.findSome? find? >>= _)
    (funext fun op => ?_)
  cases hcut : cutAt op.symbol.toList (key ++ rest) with
  | none => rfl
  | some cut =>
      obtain ⟨before, after⟩ := cut
      have hne : before ≠ [] := by
        rintro rfl
        obtain ⟨c, symbol, hsymbol, -, hmark⟩ := op.exists_symbol_cons
        have htext := eq_append_of_cutAt hcut
        rw [hsymbol] at htext
        cases key with
        | nil => cases hkey
        | cons d key =>
            obtain ⟨rfl, -⟩ := List.cons.inj htext
            exact notMem_of_isFieldName hkey hmark List.mem_cons_self
      exact if_neg (by simpa using hne)

theorem cutAt_plainFilter (hkey : isFieldName key = true) :
    cutAt op.symbol.toList (plainFilter key op text) =
      some (key ++ [' '], ' ' :: Literal.quoted text) := by
  obtain ⟨c, rest, hsymbol, hblank, hmark⟩ := op.exists_symbol_cons
  have hfront : c ∉ key ++ [' '] := by
    rw [List.mem_append, not_or, List.mem_singleton]
    refine ⟨notMem_of_isFieldName hkey hmark, ?_⟩
    rintro rfl
    exact absurd hblank (by decide)
  rw [plainFilter_eq]
  refine cutAt_comparison _ fun d hd => ?_
  rw [hsymbol] at hd
  exact Option.some.inj hd ▸ hfront

theorem splitFilter?_plainFilter (hkey : isFieldName key = true) (h : Unmistaken op text) :
    splitFilter? (plainFilter key op text) = some (String.ofList key, comparison op text) := by
  have hstrip : strip (key ++ [' ']) = key := by
    rw [strip_append_blank isBlank_space, strip_of_isFieldName hkey]
  have hearlier : ∀ other ∈ op.earlier, ¬ other.symbol.toList <:+: plainFilter key op text :=
    fun other hother => mt (infix_plainFilter_iff hkey hother).1 (h other hother)
  rw [splitFilter?, split?_plainFilter hkey,
    splitAtOperator?_of_cutAt (cutAt_plainFilter hkey) (by simp) hearlier (hstrip.symm ▸ hkey),
    hstrip]
  rfl

/-- If the comparison of a filter is read with the operator that was written, no operator that is
looked for earlier stands in the text. -/
theorem unmistaken_of_read (hkey : isFieldName key = true) {name : String} {clause : List Char}
    (hsplit : splitFilter? (plainFilter key op text) = some (name, clause)) {value : Value}
    (hread : Comparison.read clause = .ok ⟨op, value⟩) : Unmistaken op text := by
  rw [splitFilter?, split?_plainFilter hkey, plainFilter, splitAtOperator?_of_fieldName hkey,
    ← plainFilter] at hsplit
  obtain ⟨before, hsearch, hclause⟩ := Option.bind_eq_some_iff.1 hsplit
  obtain ⟨found, hfound, hnone⟩ := ComparisonOp.findSome?_inSearchOrder_iff.1 hsearch
  obtain ⟨⟨front, after⟩, hcut, rfl⟩ := Option.map_eq_some_iff.1 hfound
  rcases op.earlier_total found with hearlier | rfl | hlater
  · -- The operator that is found begins the comparison, and it is not the one that was read.
    have hbegins : found.symbol.toList <:+: clause := by
      rw [Option.ite_none_right_eq_some] at hclause
      obtain rfl := (Prod.mk.inj (Option.some.inj hclause.2)).2
      rw [eq_append_of_cutAt hcut, List.drop_left]
      exact List.infix_append_left
    exact absurd hbegins (Comparison.not_infix_of_read hread hearlier)
  · intro other hother hinfix
    have hmissed := cutAt_eq_none_iff.1 (Option.map_eq_none_iff.1 (hnone other hother))
    exact hmissed ((infix_plainFilter_iff hkey hother).2 hinfix)
  · have hmissed := hnone op hlater
    rw [cutAt_plainFilter hkey] at hmissed
    cases hmissed

/-- What a spelling has to meet: its comparison is found as written if no operator is mistaken, and
if any comparison is found in it and read with the operator as written, then none is. -/
theorem addTo_iff_unmistaken {chunk : List Char}
    (hsplit : Unmistaken op text →
      splitFilter? chunk = some (String.ofList key, comparison op text))
    (hread : ∀ name clause value, splitFilter? chunk = some (name, clause) →
      Comparison.read clause = .ok ⟨op, value⟩ → Unmistaken op text) :
    (∀ q, addTo q .filters (String.ofList chunk) = .ok { q with
        filters := q.filters.insert (String.ofList key) ⟨op, .str (String.ofList text)⟩ }) ↔
      Unmistaken op text := by
  constructor
  · intro h
    obtain ⟨a, hentry, hquery⟩ := addTo_eq_ok_iff.1 (h {})
    cases hentry with
    | filter hfound hclause =>
        have hfilters := congrArg (fun q => q.filters.entries) hquery
        obtain ⟨-, rfl⟩ := Prod.mk.inj (List.cons.inj hfilters).1
        rw [String.toList_ofList] at hfound
        exact hread _ _ _ hfound hclause
  · intro h q
    refine addTo_eq_ok_iff.2 ⟨.filter _ _, .filter ?_ (read_comparison h), rfl⟩
    rw [String.toList_ofList, hsplit h]

/-- A filter on a quoted text, in either spelling, compares with this text by its operator exactly
if none of the operators that are looked for earlier stands in the text. -/
theorem addTo_filter_iff {key : String} (hkey : isFieldName key.toList = true) (op : ComparisonOp)
    (text : String) :
    let binds (chunk : List Char) : Prop := ∀ q, addTo q .filters (String.ofList chunk) =
      .ok { q with filters := q.filters.insert key ⟨op, .str text⟩ }
    (binds (colonFilter key.toList op text.toList) ↔ Unmistaken op text.toList) ∧
      (binds (plainFilter key.toList op text.toList) ↔ Unmistaken op text.toList) := by
  have hcolon : ∀ name clause value,
      splitFilter? (colonFilter key.toList op text.toList) = some (name, clause) →
      Comparison.read clause = .ok ⟨op, value⟩ → Unmistaken op text.toList := by
    intro name clause value hsplit hread other hother hinfix
    rw [splitFilter?_colonFilter hkey] at hsplit
    obtain ⟨-, rfl⟩ := Prod.mk.inj (Option.some.inj hsplit)
    exact Comparison.not_infix_of_read hread hother ((infix_comparison_iff hother).2 hinfix)
  have hplain (h : Unmistaken op text.toList) :
      splitFilter? (plainFilter key.toList op text.toList) =
        some (String.ofList key.toList, comparison op text.toList) :=
    splitFilter?_plainFilter hkey h
  have hfirst := addTo_iff_unmistaken (fun _ => splitFilter?_colonFilter hkey) hcolon
  have hsecond := addTo_iff_unmistaken hplain fun _ _ _ hfound hread =>
    unmistaken_of_read hkey hfound hread
  rw [String.ofList_toList, String.ofList_toList] at hfirst hsecond
  exact ⟨hfirst, hsecond⟩

/-- A text may hold the operator itself, and those that are looked for later. -/
theorem addTo_filter_of_later :
    isFieldName "name".toList = true ∧ Unmistaken .lt "<a = b".toList ∧
      let binds (chunk : List Char) : Prop := ∀ q, addTo q .filters (String.ofList chunk) =
        .ok { q with filters := q.filters.insert "name" ⟨.lt, .str "<a = b"⟩ }
      (binds (colonFilter "name".toList .lt "<a = b".toList) ↔ Unmistaken .lt "<a = b".toList) ∧
        (binds (plainFilter "name".toList .lt "<a = b".toList) ↔
          Unmistaken .lt "<a = b".toList) := by
  have hkey : isFieldName "name".toList = true := by decide
  exact ⟨hkey, by decide, addTo_filter_iff hkey .lt "<a = b"⟩

/-- An operator in the text is taken for that of the filter, or the filter is refused. -/
theorem addTo_filter_of_earlier :
    addTo {} .filters (String.ofList (colonFilter "name".toList .eq "a>b".toList)) =
        .ok { filters := OrderedMap.insert ∅ "name" ⟨.gt, .str "b"⟩ } ∧
      addTo {} .filters (String.ofList (colonFilter "name".toList .eq "a>b".toList)) ≠
        .ok { filters := OrderedMap.insert ∅ "name" ⟨.eq, .str "a>b"⟩ } ∧
      addTo {} .filters (String.ofList (plainFilter "name".toList .eq "a>b".toList)) =
        .error (.malformedFilter "name = \"a>b\"") := by
  have hread : Literal.read "b\"".toList = .ok (.str "b") := Literal.read_of_not_bracketed? rfl
  have hcut : cutAt ComparisonOp.gt.symbol.toList "= \"a>b\"".toList =
      some ("= \"a".toList, "b\"".toList) := by decide
  have hclause : Comparison.read "= \"a>b\"".toList = .ok ⟨.gt, .str "b"⟩ := by
    rw [Comparison.read_of_cutAt hcut (by decide), hread]
    rfl
  have hbound : addTo {} .filters (String.ofList (colonFilter "name".toList .eq "a>b".toList)) =
      .ok { filters := OrderedMap.insert ∅ "name" ⟨.gt, .str "b"⟩ } :=
    addTo_eq_ok_iff.2 ⟨.filter "name" ⟨.gt, .str "b"⟩, .filter rfl hclause, rfl⟩
  refine ⟨hbound, fun hwritten => ?_, rfl⟩
  have hfilters := congrArg (fun q => q.filters.entries.map fun entry => entry.2.op)
    (Except.ok.inj (hbound.symm.trans hwritten))
  exact absurd hfilters (by decide)

end Entry

end PropertyGraph
