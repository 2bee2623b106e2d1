namespace Chain

variable {α : Type} {W : α → Prop} {R : α → α → Prop} {x : α} {xs : List α}

def Guarded (W : α → Prop) (R : α → α → Prop) (xs : List α) : Prop := ∀ l, l <+: xs → ∀ x ∈ l, W x → ∃ y ∈ l, R x y

theorem guarded_nil : Guarded W R [] := by
  intro l hl x hx
  rw [List.prefix_nil.mp hl] at hx
  cases hx

theorem Guarded.concat (h : Guarded W R xs) (hx : W x → ∃ y ∈ xs, R x y) : Guarded W R (xs ++ [x]) := by
  intro l hl y hy hW
  rcases List.prefix_concat_iff.mp hl with rfl | hl
  · obtain ⟨z,hz,hR⟩ : ∃ z ∈ xs, R y z := by
      rcases List.mem_append.mp hy with hy | hy
      · exact h xs (List.prefix_refl xs) y hy hW
      · rw [List.mem_singleton] at hy
        subst hy
        exact hx hW
    exact ⟨z,List.mem_append_left _ hz,hR⟩
  · exact h l hl y hy hW

theorem Guarded.filter (h : Guarded W R xs) {keep : α → Bool}
    (hkeep : ∀ x y, W x → R x y → keep x = true → keep y = true) : Guarded W R (xs.filter keep) := by
  intro l ⟨rest,hsplit⟩ x hx hW
  obtain ⟨l',rest',rfl,rfl,-⟩ := List.filter_eq_append_iff.mp hsplit.symm
  obtain ⟨hmem,hkept⟩ := List.mem_filter.mp hx
  obtain ⟨y,hy,hR⟩ := h l' (List.prefix_append l' rest') x hmem hW
  exact ⟨y,List.mem_filter.mpr ⟨hy,hkeep x y hW hR hkept⟩,hR⟩

theorem Guarded.find? (h : Guarded W R xs) {f : α → Bool} (hmatch : ∀ x y, R x y → f x = true → f y = true)
    (hself : ∀ x y, R x y → ¬ W y) (hfind : xs.find? f = some x) : ¬ W x := by
  intro hW
  obtain ⟨hx,before,after,rfl,hbefore⟩ := List.find?_eq_some_iff_append.mp hfind
  have hprefix : before ++ [x] <+: before ++ x :: after := ⟨after,by simp⟩
  obtain ⟨y,hy,hR⟩ := h _ hprefix x (by simp) hW
  have hy' : y ∈ before := by
    rcases List.mem_append.mp hy with hy | hy
    · exact hy
    · rw [List.mem_singleton] at hy
      exact absurd (hy ▸ hW) (hself x y hR)
  have hmiss := hbefore y hy'
  rw [hmatch x y hR hx] at hmiss
  cases hmiss

end Chain
