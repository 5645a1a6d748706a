import Mathlib.Algebra.Order.BigOperators.Group.List
import PropertyGraph.Proofs.Language.Label

/-!
Lists of texts between quotation marks. A comma ends an item even there, where every other mark is
text. So a list is read as its texts exactly if none of them holds a comma, and any other list as
more texts than it has.
-/

namespace PropertyGraph

open Text

namespace Literal

/-- The texts, each between quotation marks. -/
def quotations (texts : List String) : List (List Char) := texts.map fun text => quoted text.toList

/-- The list of the texts between brackets. -/
def listing (texts : List String) : List Char :=
  '[' :: (join ", ".toList (quotations texts) ++ [']'])

example : String.ofList (listing ["a: \x7b", ""]) = "[\"a: \x7b\", \"\"]" := by decide

/-- What holds a quotation mark is not passed over as blank. -/
theorem items_ne_nil_of_quote {text : List Char} (h : '"' ∈ text) : items text ≠ [] := by
  have hcomma : '"' ≠ ',' := by decide
  obtain ⟨piece, hpiece, hquote⟩ := exists_mem_pieces h hcomma
  have hne : strip piece ≠ [] := List.ne_nil_of_mem (mem_strip hquote (by decide))
  exact List.ne_nil_of_mem (List.mem_filter.2 ⟨hpiece, by simpa using hne⟩)

theorem items_quoted_of_notMem {text : List Char} (h : ',' ∉ text) :
    items (quoted text) = [quoted text] := by
  refine items_of_notMem ?_ ?_
  · rw [quoted, List.mem_cons, List.mem_append, not_or, not_or]
    exact ⟨by decide, h, by decide⟩
  · exact List.ne_nil_of_mem (mem_strip List.mem_cons_self (by decide))

/-- A comma leaves a quotation mark on either side, so that there is an item on each. -/
theorem one_lt_length_items_quoted {text : List Char} (h : ',' ∈ text) :
    1 < (items (quoted text)).length := by
  obtain ⟨front, rest, rfl⟩ := List.append_of_mem h
  have hquoted : quoted (front ++ ',' :: rest) = ('"' :: front) ++ ',' :: (rest ++ ['"']) := by
    simp [quoted]
  have hfront : 0 < (items ('"' :: front)).length :=
    List.length_pos_of_ne_nil (items_ne_nil_of_quote List.mem_cons_self)
  have hrest : 0 < (items (rest ++ ['"'])).length :=
    List.length_pos_of_ne_nil (items_ne_nil_of_quote (by simp))
  rw [hquoted, items_append_comma, List.length_append]
  omega

/-- A list is read as more texts than it has if one of them holds a comma. -/
theorem length_lt_of_comma {texts : List String} {text : String} (htext : text ∈ texts)
    (h : ',' ∈ text.toList) : texts.length < ((quotations texts).flatMap items).length := by
  have hsum : (texts.map fun _ => 1).sum <
      (texts.map fun text => (items (quoted text.toList)).length).sum :=
    List.sum_lt_sum _ _
      (fun _ _ => List.length_pos_of_ne_nil (items_ne_nil_of_quote List.mem_cons_self))
      ⟨text, htext, one_lt_length_items_quoted h⟩
  rw [quotations, List.length_flatMap, List.map_map]
  simpa [Function.comp_def] using hsum

theorem read_listing_quoted (texts : List String) :
    read (listing texts) = Value.tuple <$> ((quotations texts).flatMap items).mapM read := by
  cases texts with
  | nil =>
      have hbracketed : bracketed? (core (listing [])) = some [] := by decide
      exact read_of_bracketed? hbracketed
  | cons text more => exact read_listing (quoted text.toList) (quotations more)

theorem mapM_read_quotations (texts : List String) :
    (quotations texts).mapM read = .ok (texts.map .str) := by
  induction texts with
  | nil => rfl
  | cons text more ih =>
      rw [quotations, List.map_cons, List.mapM_cons, ← quotations, read_quoted,
        String.ofList_toList, ih]
      rfl

/-- A list of quoted texts is read as these texts exactly if none of them holds a comma. -/
theorem read_listing_iff (texts : List String) :
    read (listing texts) = .ok (.tuple (texts.map .str)) ↔ ∀ text ∈ texts, ',' ∉ text.toList := by
  rw [read_listing_quoted]
  constructor
  · intro h text htext hcomma
    obtain ⟨values, hvalues, htuple⟩ := exists_of_bind h
    have hlength : values.length = texts.length := by
      rw [Value.tuple.inj (Except.ok.inj htuple), List.length_map]
    have hmore := length_lt_of_comma htext hcomma
    rw [← length_of_mapM hvalues, hlength] at hmore
    exact absurd hmore (Nat.lt_irrefl _)
  · intro h
    have hitems : ∀ text ∈ quotations texts, items text = [text] :=
      List.forall_mem_map.2 fun text htext => items_quoted_of_notMem (h text htext)
    rw [List.flatMap_congr hitems, List.flatMap_singleton', mapM_read_quotations]
    rfl

/-- One text with a comma is read as two, each without the mark at its other end. -/
theorem read_listing_of_comma :
    read (listing ["a,b"]) = .ok (.tuple [.str "a", .str "b"]) ∧
      read (listing ["a,b"]) ≠ .ok (.tuple [.str "a,b"]) := by
  have hitems : (quotations ["a,b"]).flatMap items = ["\"a".toList, "b\"".toList] := by decide
  have hfirst : read "\"a".toList = .ok (.str "a") := read_of_not_bracketed? rfl
  have hsecond : read "b\"".toList = .ok (.str "b") := read_of_not_bracketed? rfl
  have hread : read (listing ["a,b"]) = .ok (.tuple [.str "a", .str "b"]) := by
    rw [read_listing_quoted, hitems, List.mapM_cons, List.mapM_cons, List.mapM_nil, hfirst, hsecond]
    rfl
  refine ⟨hread, fun hwhole => ?_⟩
  have hsame := Value.tuple.inj (Except.ok.inj (hread.symm.trans hwhole))
  exact absurd (congrArg List.length hsame) (by decide)

end Literal

end PropertyGraph
