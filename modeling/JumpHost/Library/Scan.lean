namespace Scan

def lit (text cs : List Char) : Option (List Char) :=
  if text.isPrefixOf cs then some (cs.drop text.length) else none

def many (p : Char → Bool) (cs : List Char) : Option (List Char × List Char) :=
  let run := cs.takeWhile p
  if run = [] then none else some (run,cs.dropWhile p)

def skip (p : Char → Bool) (cs : List Char) : Option (List Char) := (many p cs).map Prod.snd

def trim (blank : Char → Bool) (cs : List Char) : List Char :=
  ((cs.dropWhile blank).reverse.dropWhile blank).reverse

def Ends (p : Char → Bool) (cs : List Char) : Prop := ∀ c ∈ cs.head?, p c = false

variable {p blank : Char → Bool} {run cs text : List Char}

theorem lit_append (text cs : List Char) : lit text (text ++ cs) = some cs := by
  have hstarts : text.isPrefixOf (text ++ cs) = true := List.isPrefixOf_iff_prefix.mpr (List.prefix_append _ _)
  rw [lit, if_pos hstarts, List.drop_left]

theorem takeWhile_run (hrun : ∀ c ∈ run, p c = true) (hcs : Ends p cs) : (run ++ cs).takeWhile p = run := by
  rw [List.takeWhile_append_of_pos hrun]
  cases cs with
  | nil => simp
  | cons c cs => rw [List.takeWhile_cons_of_neg (by simp [hcs c rfl]), List.append_nil]

theorem dropWhile_run (hrun : ∀ c ∈ run, p c = true) (hcs : Ends p cs) : (run ++ cs).dropWhile p = cs := by
  rw [List.dropWhile_append_of_pos hrun]
  cases cs with
  | nil => rfl
  | cons c cs => exact List.dropWhile_cons_of_neg (by simp [hcs c rfl])

theorem many_append (hne : run ≠ []) (hrun : ∀ c ∈ run, p c = true) (hcs : Ends p cs) :
    many p (run ++ cs) = some (run,cs) := by
  rw [many, takeWhile_run hrun hcs, dropWhile_run hrun hcs]
  exact if_neg hne

theorem many_none (hcs : Ends p cs) : many p cs = none := by
  have hrun : ([] ++ cs).takeWhile p = [] := takeWhile_run (by simp) hcs
  rw [List.nil_append] at hrun
  rw [many, hrun]
  exact if_pos rfl

theorem skip_append (hne : run ≠ []) (hrun : ∀ c ∈ run, p c = true) (hcs : Ends p cs) :
    skip p (run ++ cs) = some cs := by
  rw [skip, many_append hne hrun hcs, Option.map_some]

theorem trim_front (hhead : Ends blank text) (hlast : Ends blank text.reverse) (hne : text ≠ []) (cs : List Char) :
    trim blank (text ++ cs) = text ++ (cs.reverse.dropWhile blank).reverse := by
  have hdrop : (text ++ cs).dropWhile blank = text ++ cs := by
    obtain ⟨c,rest,rfl⟩ := List.exists_cons_of_ne_nil hne
    exact List.dropWhile_cons_of_neg (by simp [hhead c rfl])
  have hkeep : text.reverse.dropWhile blank = text.reverse := by
    obtain ⟨c,rest,hrev⟩ := List.exists_cons_of_ne_nil (List.reverse_ne_nil_iff.mpr hne)
    rw [hrev]
    exact List.dropWhile_cons_of_neg (by simp [hlast c (by rw [hrev]; rfl)])
  rw [trim, hdrop, List.reverse_append, List.dropWhile_append]
  split
  · next hempty =>
    rw [List.isEmpty_iff.mp hempty, hkeep, List.reverse_reverse]
    simp
  · rw [List.reverse_append, List.reverse_reverse]

theorem trim_append (hhead : Ends blank cs) (hlast : Ends blank cs.reverse) (hne : cs ≠ [])
    (hrun : ∀ c ∈ run, blank c = true) : trim blank (cs ++ run) = cs := by
  have hblank : (run.reverse ++ []).dropWhile blank = [] := dropWhile_run (by simpa using hrun) (by simp [Ends])
  rw [List.append_nil] at hblank
  rw [trim_front hhead hlast hne, hblank, List.reverse_nil, List.append_nil]

theorem ends_cons {c : Char} (h : p c = false) : Ends p (c :: cs) := by
  intro d hd
  cases hd
  exact h

section Table

variable {sep : Char} {fields : List (List Char)}

structure Field (blank : Char → Bool) (text : List Char) : Prop where
  nonempty : text ≠ []
  plain : ∀ c ∈ text, blank c = false

theorem plain_of_all (h : text.all (!blank ·) = true) : ∀ c ∈ text, blank c = false := by
  intro c hc
  simpa using List.all_eq_true.mp h c hc

theorem field_iff : Field blank text ↔ text ≠ [] ∧ text.all (!blank ·) = true :=
  ⟨fun h => ⟨h.nonempty,List.all_eq_true.mpr fun c hc => by simp [h.plain c hc]⟩,
    fun h => ⟨h.1,plain_of_all h.2⟩⟩

instance : Decidable (Field blank text) := decidable_of_iff _ field_iff.symm

theorem Field.ends (h : Field blank text) (cs : List Char) : Ends blank (text ++ cs) := by
  obtain ⟨c,rest,rfl⟩ := List.exists_cons_of_ne_nil h.nonempty
  exact ends_cons (h.plain c List.mem_cons_self)

theorem Field.reverse (h : Field blank text) : Field blank text.reverse :=
  ⟨List.reverse_ne_nil_iff.mpr h.nonempty,fun c hc => h.plain c (List.mem_reverse.mp hc)⟩

theorem Field.not_mem (h : Field blank text) (hsep : blank sep = true) : sep ∉ text := by
  intro hmem
  rw [h.plain sep hmem] at hsep
  cases hsep

theorem intercalate_head (sep : Char) (hne : fields ≠ []) :
    ∃ cs, [sep].intercalate fields = fields.head hne ++ cs := by
  cases fields with
  | nil => exact absurd rfl hne
  | cons f fs =>
    cases fs with
    | nil => exact ⟨[],by simp [List.intercalate]⟩
    | cons g gs =>
      refine ⟨[sep] ++ [sep].intercalate (g :: gs),?_⟩
      rw [List.intercalate_cons_cons, List.append_assoc]
      rfl

theorem intercalate_last (sep : Char) (hne : fields ≠ []) :
    ∃ cs, [sep].intercalate fields = cs ++ fields.getLast hne := by
  induction fields with
  | nil => exact absurd rfl hne
  | cons f fs ih =>
    cases fs with
    | nil => exact ⟨[],by simp [List.intercalate]⟩
    | cons g gs =>
      obtain ⟨cs,hcs⟩ := ih (List.cons_ne_nil g gs)
      refine ⟨f ++ [sep] ++ cs,?_⟩
      rw [List.intercalate_cons_cons, hcs, List.getLast_cons (List.cons_ne_nil g gs)]
      simp only [List.append_assoc]

end Table

end Scan
