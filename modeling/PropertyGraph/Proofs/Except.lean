/-!
Computations that can fail: what is known of the parts of one that gave a result.
-/

namespace PropertyGraph

theorem exists_of_bind {x : Except ε α} {f : α → Except ε β} {result : β}
    (h : x >>= f = .ok result) : ∃ value, x = .ok value ∧ f value = .ok result := by
  cases x with
  | error e => cases h
  | ok value => exact ⟨value, rfl, h⟩

theorem exists_bind {x : Except ε α} {f : α → Except ε β} (hx : ∃ value, x = .ok value)
    (hf : ∀ value, ∃ result, f value = .ok result) : ∃ result, x >>= f = .ok result := by
  obtain ⟨value, rfl⟩ := hx
  exact hf value

theorem bind_eq_error_iff {x : Except ε α} {f : α → Except ε β} {e : ε} :
    x >>= f = .error e ↔ x = .error e ∨ ∃ value, x = .ok value ∧ f value = .error e := by
  cases x with
  | error e' => simp [bind, Except.bind]
  | ok value => simp [bind, Except.bind]

/-- Where two computations fail alike, one has a result if the other has. -/
theorem exists_ok_congr {x : Except ε α} {y : Except ε β}
    (h : ∀ e, x = .error e ↔ y = .error e) : (∃ a, x = .ok a) ↔ ∃ b, y = .ok b := by
  cases x with
  | error e => simp [(h e).1 rfl]
  | ok a =>
      cases y with
      | error e => cases (h e).2 rfl
      | ok b => simp

theorem map_eq_error_iff {x : Except ε α} {f : α → β} {e : ε} :
    f <$> x = .error e ↔ x = .error e := by
  cases x <;> simp [Functor.map, Except.map]

theorem mapError_eq_error_iff {x : Except ε α} {f : ε → δ} {e : δ} :
    x.mapError f = .error e ↔ ∃ e', x = .error e' ∧ f e' = e := by
  cases x with
  | error e' =>
      show Except.error (f e') = .error e ↔ _
      simp
  | ok value =>
      show Except.ok value = .error e ↔ _
      simp

theorem mapError_eq_ok_iff {x : Except ε α} {f : ε → δ} {value : α} :
    x.mapError f = .ok value ↔ x = .ok value := by
  cases x with
  | error e => exact iff_of_false nofun nofun
  | ok found =>
      show Except.ok found = .ok value ↔ _
      simp

/-- A fold fails exactly if it does at one of the elements, after a fold over those before it. -/
theorem foldlM_eq_error_iff {f : β → α → Except ε β} {start : β} {xs : List α} {e : ε} :
    xs.foldlM f start = .error e ↔
      ∃ before x after total, xs = before ++ x :: after ∧ before.foldlM f start = .ok total ∧
        f total x = .error e := by
  induction xs generalizing start with
  | nil =>
      refine iff_of_false nofun ?_
      rintro ⟨before, x, after, total, hnil, -⟩
      simp at hnil
  | cons y ys ih =>
      rw [List.foldlM_cons, bind_eq_error_iff]
      constructor
      · rintro (hy | ⟨next, hnext, hys⟩)
        · exact ⟨[], y, ys, start, rfl, rfl, hy⟩
        · obtain ⟨before, x, after, total, rfl, htotal, hx⟩ := ih.1 hys
          exact ⟨y :: before, x, after, total, rfl, by rw [List.foldlM_cons, hnext]; exact htotal, hx⟩
      · rintro ⟨before, x, after, total, hlist, htotal, hx⟩
        cases before with
        | nil =>
            obtain ⟨rfl, rfl⟩ := List.cons.inj hlist
            obtain rfl := Except.ok.inj htotal
            exact .inl hx
        | cons z before =>
            obtain ⟨rfl, rfl⟩ := List.cons.inj hlist
            obtain ⟨next, hnext, hrest⟩ := exists_of_bind htotal
            exact .inr ⟨next, hnext, ih.2 ⟨before, x, after, total, rfl, hrest, hx⟩⟩

theorem mapM_cons_ok {f : α → Except ε β} {x : α} {xs : List α} {ys : List β}
    (h : (x :: xs).mapM f = .ok ys) :
    ∃ first rest, f x = .ok first ∧ xs.mapM f = .ok rest ∧ ys = first :: rest := by
  rw [List.mapM_cons] at h
  obtain ⟨first, hfirst, h⟩ := exists_of_bind h
  obtain ⟨rest, hrest, h⟩ := exists_of_bind h
  exact ⟨first, rest, hfirst, hrest, (Except.ok.inj h).symm⟩

theorem length_of_mapM {f : α → Except ε β} {xs : List α} {ys : List β} (h : xs.mapM f = .ok ys) :
    ys.length = xs.length := by
  induction xs generalizing ys with
  | nil =>
      obtain rfl := Except.ok.inj h
      rfl
  | cons x xs ih =>
      obtain ⟨first, rest, -, hrest, rfl⟩ := mapM_cons_ok h
      rw [List.length_cons, List.length_cons, ih hrest]

theorem mem_of_mapM {f : α → Except ε β} {xs : List α} {ys : List β} (h : xs.mapM f = .ok ys)
    {y : β} : y ∈ ys ↔ ∃ x ∈ xs, f x = .ok y := by
  induction xs generalizing ys with
  | nil =>
      obtain rfl := Except.ok.inj h
      simp
  | cons x xs ih =>
      obtain ⟨first, rest, hfirst, hrest, rfl⟩ := mapM_cons_ok h
      rw [List.mem_cons, ih hrest]
      constructor
      · rintro (rfl | ⟨z, hz, hy⟩)
        · exact ⟨x, List.mem_cons_self, hfirst⟩
        · exact ⟨z, List.mem_cons_of_mem _ hz, hy⟩
      · rintro ⟨z, hz, hy⟩
        rcases List.mem_cons.1 hz with rfl | hz
        · exact .inl (Except.ok.inj (hy.symm.trans hfirst))
        · exact .inr ⟨z, hz, hy⟩

theorem ok_of_mapM {f : α → Except ε β} {xs : List α} {ys : List β} (h : xs.mapM f = .ok ys)
    {x : α} (hx : x ∈ xs) : ∃ y, f x = .ok y := by
  induction xs generalizing ys with
  | nil => cases hx
  | cons first xs ih =>
      obtain ⟨y, rest, hy, hrest, -⟩ := mapM_cons_ok h
      rcases List.mem_cons.1 hx with rfl | hx
      · exact ⟨y, hy⟩
      · exact ih hrest hx

theorem exists_mapM {f : α → Except ε β} {xs : List α} (h : ∀ x ∈ xs, ∃ y, f x = .ok y) :
    ∃ ys, xs.mapM f = .ok ys := by
  induction xs with
  | nil => exact ⟨[], rfl⟩
  | cons x xs ih =>
      obtain ⟨y, hy⟩ := h x List.mem_cons_self
      obtain ⟨ys, hys⟩ := ih fun z hz => h z (List.mem_cons_of_mem _ hz)
      refine ⟨y :: ys, ?_⟩
      rw [List.mapM_cons, hy, hys]
      rfl

theorem mem_of_mapM_eq_error {f : α → Except ε β} {xs : List α} {e : ε}
    (h : xs.mapM f = .error e) : ∃ x ∈ xs, f x = .error e := by
  induction xs with
  | nil => cases h
  | cons x xs ih =>
      rw [List.mapM_cons] at h
      rcases bind_eq_error_iff.1 h with hx | ⟨y, -, h⟩
      · exact ⟨x, List.mem_cons_self, hx⟩
      · rcases bind_eq_error_iff.1 h with hxs | ⟨ys, -, h⟩
        · obtain ⟨z, hz, hfz⟩ := ih hxs
          exact ⟨z, List.mem_cons_of_mem _ hz, hfz⟩
        · cases h

end PropertyGraph
