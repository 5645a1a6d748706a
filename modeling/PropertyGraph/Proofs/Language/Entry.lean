import PropertyGraph.Proofs.Language.Grammar
import PropertyGraph.Proofs.Language.Label
import PropertyGraph.Proofs.Language.Token

/-!
Conditions as they are written: the name of a field, a colon and a literal. A condition on quoted
text is one line and one lexeme, whatever the text holds, and the text is what it binds.
-/

namespace PropertyGraph

open Text

namespace Entry

variable {key text : List Char}

theorem split?_of_colon (hkey : isFieldName key = true) (value : List Char) :
    split? (key ++ ':' :: ' ' :: value) = some (String.ofList key, strip value) := by
  rw [split?, cut_append_mark (notMem_of_isFieldName hkey (by decide))]
  simp only [strip_of_isFieldName hkey, hkey, strip_cons_blank isBlank_space]
  rfl

/-- The entry of a text between quotation marks. -/
def quoted (key text : List Char) : List Char := key ++ ':' :: ' ' :: Literal.quoted text

theorem split?_quoted (hkey : isFieldName key = true) :
    split? (quoted key text) = some (String.ofList key, Literal.quoted text) := by
  rw [quoted, split?_of_colon hkey, Literal.quoted, strip_enclosed (by decide) (by decide)]

theorem newline_notMem_quoted (hkey : isFieldName key = true) (htext : '\n' ∉ text) :
    '\n' ∉ quoted key text := by
  have hline : quoted key text = key ++ (": \"".toList ++ (text ++ ['"'])) := rfl
  simp only [hline, List.mem_append, not_or]
  exact ⟨notMem_of_isFieldName hkey (by decide), by decide, htext, by decide⟩

/-- The marks that the text may hold do not end the lexeme: they stand between quotation marks. -/
theorem ofLine_quoted (hkey : isFieldName key = true) (htext : '"' ∉ text) :
    Token.ofLine (quoted key text) = some [.text (String.ofList (quoted key text))] := by
  have hline : quoted key text = (key ++ [':', ' ']) ++ '"' :: (text ++ ['"']) := by
    simp [quoted, Literal.quoted]
  have hplain : ∀ c ∈ key ++ [':', ' '], Token.IsPlain c := by
    rw [List.forall_mem_append]
    refine ⟨fun c hc => ⟨?_, ?_, ?_⟩, by simp [Token.IsPlain]⟩
    all_goals
      rintro rfl
      exact notMem_of_isFieldName hkey (by decide) hc
  have hstrip : strip (quoted key text) = quoted key text := by
    obtain ⟨hne, hchars⟩ := isFieldName_iff.1 hkey
    cases key with
    | nil => exact absurd rfl hne
    | cons c rest =>
        have henclosed : quoted (c :: rest) text =
            c :: (rest ++ ": \"".toList ++ text ++ ['"']) := by
          simp [quoted, Literal.quoted]
        rw [henclosed]
        exact strip_enclosed (isBlank_of_mem_fieldName hkey List.mem_cons_self) (by decide) _
  have hne : quoted key text ≠ [] := List.append_ne_nil_of_right_ne_nil _ (List.cons_ne_nil _ _)
  rw [← Token.ofChunk_of_strip hne hstrip, hline]
  exact Token.ofLine_of_quoted hplain htext

end Entry

namespace Grammar

/-- A condition is bound to what its literal is read as. -/
theorem condition_iff {chunk key : String} {text : List Char} {a : Assignment}
    (h : PropertyGraph.Entry.split? chunk.toList = some (key, text)) :
    Entry .conditions chunk a ↔
      ∃ value, Literal.read text = .ok value ∧ a = .condition key value := by
  constructor
  · intro hentry
    cases hentry with
    | condition hsplit hvalue =>
        obtain ⟨rfl, rfl⟩ := Prod.mk.inj (Option.some.inj (h.symm.trans hsplit))
        exact ⟨_, hvalue, rfl⟩
  · rintro ⟨value, hvalue, rfl⟩
    exact .condition h hvalue

theorem condition_quoted_iff {key text : List Char} (hkey : isFieldName key = true)
    {a : Assignment} :
    Entry .conditions (String.ofList (PropertyGraph.Entry.quoted key text)) a ↔
      a = .condition (String.ofList key) (.str (String.ofList text)) := by
  have hsplit : PropertyGraph.Entry.split?
      (String.ofList (PropertyGraph.Entry.quoted key text)).toList =
        some (String.ofList key, Literal.quoted text) := by
    rw [String.toList_ofList]
    exact PropertyGraph.Entry.split?_quoted hkey
  rw [condition_iff hsplit, Literal.read_quoted]
  simp

end Grammar

end PropertyGraph
