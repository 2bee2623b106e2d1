import Mathlib.Data.List.Sort

variable {α κ : Type} [LinearOrder κ]

structure Newest (key : α → κ) (limit : Nat) (all shown : List α) : Prop where
  le_limit : shown.length ≤ limit
  split : ∃ hidden, (shown ++ hidden).Perm all ∧ (∀ a ∈ shown, ∀ b ∈ hidden, key b ≤ key a) ∧
    (hidden ≠ [] → shown.length = limit)

namespace Newest

variable {key : α → κ} {limit : Nat} {all all' shown : List α}

theorem of_perm (h : Newest key limit all shown) (hperm : all.Perm all') : Newest key limit all' shown := by
  obtain ⟨hidden,hsplit,hle,hfull⟩ := h.split
  exact ⟨h.le_limit,hidden,hsplit.trans hperm,hle,hfull⟩

theorem mem (h : Newest key limit all shown) {a : α} (ha : a ∈ shown) : a ∈ all := by
  obtain ⟨hidden,hsplit,-⟩ := h.split
  exact hsplit.mem_iff.mp (List.mem_append_left _ ha)

theorem full_of_not_mem (h : Newest key limit all shown) {b : α} (hb : b ∈ all) (hnot : b ∉ shown) :
    shown.length = limit ∧ ∀ a ∈ shown, key b ≤ key a := by
  obtain ⟨hidden,hsplit,hle,hfull⟩ := h.split
  have hmem : b ∈ hidden := (List.mem_append.mp (hsplit.mem_iff.mpr hb)).resolve_left hnot
  exact ⟨hfull (List.ne_nil_of_mem hmem),fun a ha => hle a ha b hmem⟩

theorem le_of_take_drop {l : List α} (hl : l.Pairwise fun a b => key b ≤ key a) :
    ∀ a ∈ l.take limit, ∀ b ∈ l.drop limit, key b ≤ key a := by
  rw [← List.take_append_drop limit l] at hl
  exact (List.pairwise_append.mp hl).2.2

theorem length_take_of_mem_drop {l : List α} {b : α} (hb : b ∈ l.drop limit) : (l.take limit).length = limit := by
  have hpos := List.length_pos_of_mem hb
  rw [List.length_drop] at hpos
  rw [List.length_take]
  omega

theorem take {l : List α} (hl : l.Pairwise fun a b => key b ≤ key a) : Newest key limit l (l.take limit) := by
  refine ⟨List.length_take_le limit l,l.drop limit,List.Perm.of_eq (List.take_append_drop limit l),
    le_of_take_drop hl,fun hne => ?_⟩
  obtain ⟨b,hb⟩ := List.exists_mem_of_ne_nil _ hne
  exact length_take_of_mem_drop hb

theorem filter_take_iff {l : List α} (hl : l.Pairwise fun a b => key b ≤ key a) (p : α → Bool) :
    Newest key limit (l.filter p) ((l.take limit).filter p) ↔
      (∀ a ∈ l.take limit, p a) ∨ ∀ a ∈ l.drop limit, ¬ p a := by
  have happ : (l.take limit).filter p ++ (l.drop limit).filter p = l.filter p := by
    rw [← List.filter_append, List.take_append_drop]
  constructor
  · rintro ⟨-,hidden,hsplit,-,hfull⟩
    by_cases hempty : hidden = []
    · right
      have hlength := hsplit.length_eq
      rw [← happ, hempty, List.append_nil, List.length_append] at hlength
      have hnil : (l.drop limit).filter p = [] := List.length_eq_zero_iff.mp (by omega)
      exact List.filter_eq_nil_iff.mp hnil
    · left
      have hlength : ((l.take limit).filter p).length = (l.take limit).length := by
        have hfilter := List.length_filter_le p (l.take limit)
        have htake := List.length_take_le limit l
        have hshown := hfull hempty
        omega
      exact List.length_filter_eq_length_iff.mp hlength
  · intro hcond
    refine ⟨(List.length_filter_le _ _).trans (List.length_take_le _ _),(l.drop limit).filter p,?_,?_,?_⟩
    · rw [happ]
    · exact fun a ha b hb => le_of_take_drop hl a (List.mem_filter.mp ha).1 b (List.mem_filter.mp hb).1
    · intro hne
      obtain ⟨b,hb⟩ := List.exists_mem_of_ne_nil _ hne
      obtain ⟨hdrop,hpass⟩ := List.mem_filter.mp hb
      have hall : ∀ a ∈ l.take limit, p a := hcond.resolve_right fun hnone => hnone b hdrop hpass
      rw [List.filter_eq_self.mpr hall, length_take_of_mem_drop hdrop]

end Newest
