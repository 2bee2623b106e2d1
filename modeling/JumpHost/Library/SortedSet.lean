import Mathlib.Data.Finset.Max
import Mathlib.Data.List.Sort
import Mathlib.Data.Prod.Lex

structure SortedSet (σ μ : Type) [LinearOrder σ] [LinearOrder μ] where
  entries : List (σ ×ₗ μ)
  sorted : entries.Pairwise (· ≤ ·)
  unique : (entries.map fun e => (ofLex e).2).Nodup

namespace SortedSet

section Operations

variable {σ μ : Type} [LinearOrder σ] [LinearOrder μ]

def empty : SortedSet σ μ := ⟨[],.nil,.nil⟩

def members (z : SortedSet σ μ) : List μ := z.entries.map fun e => (ofLex e).2

def zCard (z : SortedSet σ μ) : Nat := z.entries.length

def zRange (z : SortedSet σ μ) (start stop : Nat) : List μ := (z.members.take (stop + 1)).drop start

def zRem (z : SortedSet σ μ) (stale : List μ) : SortedSet σ μ where
  entries := z.entries.filter fun e => (ofLex e).2 ∉ stale
  sorted := z.sorted.sublist List.filter_sublist
  unique := z.unique.sublist (List.filter_sublist.map _)

def zAdd (z : SortedSet σ μ) (score : σ) (member : μ) : SortedSet σ μ where
  entries := (z.zRem [member]).entries.orderedInsert (· ≤ ·) (toLex (score,member))
  sorted := (z.zRem [member]).sorted.orderedInsert _ _
  unique := by
    have hperm := (List.perm_orderedInsert (· ≤ ·) (toLex (score,member)) (z.zRem [member]).entries).map
      fun e => (ofLex e).2
    rw [hperm.nodup_iff, List.map_cons, List.nodup_cons]
    refine ⟨?_,(z.zRem [member]).unique⟩
    simp [zRem]

variable {z : SortedSet σ μ} {e : σ ×ₗ μ} {score : σ} {member m : μ} {stale stale' : List μ}

theorem mem_zRem : e ∈ (z.zRem stale).entries ↔ e ∈ z.entries ∧ (ofLex e).2 ∉ stale := by
  simp [zRem]

theorem mem_zAdd : e ∈ (z.zAdd score member).entries ↔
    e = toLex (score,member) ∨ e ∈ z.entries ∧ (ofLex e).2 ≠ member := by
  simp [zAdd, mem_zRem]

theorem mem_members : m ∈ z.members ↔ ∃ e ∈ z.entries, (ofLex e).2 = m := by simp [members]

theorem mem_members_zAdd : m ∈ (z.zAdd score member).members ↔ m = member ∨ m ∈ z.members := by
  simp only [mem_members, mem_zAdd]
  constructor
  · rintro ⟨e,rfl | ⟨he,-⟩,rfl⟩
    · exact .inl rfl
    · exact .inr ⟨e,he,rfl⟩
  · rintro (rfl | ⟨e,he,rfl⟩)
    · exact ⟨_,.inl rfl,rfl⟩
    · by_cases hm : (ofLex e).2 = member
      · exact ⟨_,.inl rfl,hm.symm⟩
      · exact ⟨e,.inr ⟨he,hm⟩,rfl⟩

theorem mem_members_zRem : m ∈ (z.zRem stale).members ↔ m ∈ z.members ∧ m ∉ stale := by
  simp only [mem_members, mem_zRem]
  constructor
  · rintro ⟨e,⟨he,hstale⟩,rfl⟩
    exact ⟨⟨e,he,rfl⟩,hstale⟩
  · rintro ⟨⟨e,he,rfl⟩,hstale⟩
    exact ⟨e,⟨he,hstale⟩,rfl⟩

theorem zCard_zRem_le : (z.zRem stale).zCard ≤ z.zCard := List.length_filter_le _ _

theorem zCard_zRem_zRem_le : ((z.zRem stale').zRem stale).zCard ≤ (z.zRem stale).zCard := by
  refine List.Sublist.length_le ?_
  simp only [zRem, List.filter_filter]
  exact List.monotone_filter_right _ fun e he => by simp_all

theorem entries_nodup (z : SortedSet σ μ) : z.entries.Nodup := List.Nodup.of_map _ z.unique

theorem lt_of_mem_take {k : Nat} {e' : σ ×ₗ μ} (he : e ∈ z.entries.take k) (he' : e' ∈ z.entries.drop k) : e < e' := by
  have hsplit : (z.entries.take k ++ z.entries.drop k).Pairwise (· ≤ ·) := by
    rw [List.take_append_drop]
    exact z.sorted
  have hnodup : (z.entries.take k ++ z.entries.drop k).Nodup := by
    rw [List.take_append_drop]
    exact z.entries_nodup
  refine lt_of_le_of_ne ((List.pairwise_append.mp hsplit).2.2 e he e' he') ?_
  rintro rfl
  exact List.disjoint_of_nodup_append hnodup he he'

theorem mem_zRange {k : Nat} (hm : m ∈ z.zRange 0 k) : ∃ e ∈ z.entries.take (k + 1), (ofLex e).2 = m := by
  simpa [zRange, members, ← List.map_take] using hm

theorem zCard_zRem_zRange {k : Nat} : (z.zRem (z.zRange 0 k)).zCard = z.zCard - (k + 1) := by
  have hsplit : z.entries = z.entries.take (k + 1) ++ z.entries.drop (k + 1) := (List.take_append_drop _ _).symm
  have hunique := z.unique
  rw [hsplit, List.map_append] at hunique
  have hdrop : (z.zRem (z.zRange 0 k)).entries = z.entries.drop (k + 1) := by
    have hall : ∀ e ∈ z.entries.drop (k + 1), (ofLex e).2 ∉ z.zRange 0 k := by
      intro e he hm
      refine List.disjoint_of_nodup_append hunique ?_ (List.mem_map_of_mem he)
      simpa [zRange, members, ← List.map_take] using hm
    have hnone : ∀ e ∈ z.entries.take (k + 1), (ofLex e).2 ∈ z.zRange 0 k := by
      intro e he
      simp only [zRange, members, List.drop_zero, ← List.map_take]
      exact List.mem_map_of_mem he
    simp only [zRem]
    conv_lhs => rw [hsplit]
    rw [List.filter_append, List.filter_eq_nil_iff.mpr (by simpa using hnone),
      List.filter_eq_self.mpr (by simpa using hall), List.nil_append]
  rw [zCard, hdrop, List.length_drop, zCard]

end Operations

section Newest

variable {α : Type} [LinearOrder α] {all kept : Finset α} {max : Nat}

theorem newest_of_outranked (hsub : kept ⊆ all) (hcard : kept.card ≤ max)
    (hmissing : ∀ x ∈ all, x ∉ kept → max ≤ (all.filter (x < ·)).card) :
    kept.card = min all.card max ∧ ∀ x ∈ all, x ∉ kept → ∀ y ∈ kept, x < y := by
  rcases (all \ kept).eq_empty_or_nonempty with hnone | hsome
  · have hall : kept = all := Finset.Subset.antisymm hsub (Finset.sdiff_eq_empty_iff_subset.mp hnone)
    subst hall
    exact ⟨(min_eq_left hcard).symm,fun x hx hnot => absurd hx hnot⟩
  · obtain ⟨x,hx,hlast⟩ := (all \ kept).exists_max_image id hsome
    obtain ⟨hxall,hxkept⟩ := Finset.mem_sdiff.mp hx
    have hnewer : all.filter (x < ·) ⊆ kept := by
      intro y hy
      obtain ⟨hyall,hlt⟩ := Finset.mem_filter.mp hy
      by_contra hykept
      exact absurd (hlast y (Finset.mem_sdiff.mpr ⟨hyall,hykept⟩)) (not_le.mpr hlt)
    have hfull : max ≤ (all.filter (x < ·)).card := hmissing x hxall hxkept
    have hkept : all.filter (x < ·) = kept := Finset.eq_of_subset_of_card_le hnewer (hcard.trans hfull)
    have hmax : kept.card = max := le_antisymm hcard (hkept ▸ hfull)
    refine ⟨?_,fun x' hx' hnot y hy => ?_⟩
    · rw [min_eq_right (hmax ▸ Finset.card_le_card hsub), hmax]
    · have hle : x' ≤ x := hlast x' (Finset.mem_sdiff.mpr ⟨hx',hnot⟩)
      exact lt_of_le_of_lt hle (Finset.mem_filter.mp (hkept ▸ hy)).2

end Newest

end SortedSet
