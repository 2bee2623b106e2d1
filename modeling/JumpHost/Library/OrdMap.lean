import Mathlib.Data.List.Nodup

structure OrdMap (κ ν : Type) where
  entries : List (κ × ν)
  nodup : (entries.map Prod.fst).Nodup

namespace OrdMap

variable {κ ν : Type}

def empty : OrdMap κ ν := ⟨[],List.nodup_nil⟩

def keys (m : OrdMap κ ν) : List κ := m.entries.map Prod.fst

def size (m : OrdMap κ ν) : Nat := m.entries.length

def mapValues (f : κ → ν → ν) (m : OrdMap κ ν) : OrdMap κ ν where
  entries := m.entries.map fun e => (e.1,f e.1 e.2)
  nodup := by simpa [Function.comp_def] using m.nodup

variable [DecidableEq κ]

def get? (m : OrdMap κ ν) (k : κ) : Option ν := (m.entries.find? fun e => e.1 == k).map Prod.snd

def has (m : OrdMap κ ν) (k : κ) : Bool := m.keys.contains k

-- a key keeps its place when its value is replaced, as in a JavaScript Map
def set (m : OrdMap κ ν) (k : κ) (v : ν) : OrdMap κ ν :=
  if h : k ∈ m.keys then m.mapValues fun k' v' => if k' = k then v else v'
  else ⟨m.entries ++ [(k,v)],by
    have hn := m.nodup
    simp only [keys, List.mem_map, not_exists, not_and] at h
    simp only [List.map_append, List.map_cons, List.map_nil, List.nodup_append, hn,
      List.mem_map, List.mem_singleton, true_and]
    refine ⟨by simp,?_⟩
    rintro a ⟨e,he,rfl⟩ b rfl
    exact h e he⟩

def delete (m : OrdMap κ ν) (k : κ) : OrdMap κ ν where
  entries := m.entries.filter fun e => e.1 != k
  nodup := m.nodup.sublist (List.filter_sublist.map _)

omit [DecidableEq κ] in
@[simp] theorem keys_empty : (empty : OrdMap κ ν).keys = [] := rfl

omit [DecidableEq κ] in
theorem keys_nodup (m : OrdMap κ ν) : m.keys.Nodup := m.nodup

omit [DecidableEq κ] in
@[simp] theorem keys_mapValues (f : κ → ν → ν) (m : OrdMap κ ν) :
    (m.mapValues f).keys = m.keys := by simp [keys, mapValues, Function.comp_def]

theorem has_iff {m : OrdMap κ ν} {k : κ} : m.has k = true ↔ k ∈ m.keys := by simp [has]

theorem mem_entries_iff {m : OrdMap κ ν} {k : κ} {v : ν} :
    (k,v) ∈ m.entries ↔ m.get? k = some v := by
  obtain ⟨es,hn⟩ := m
  induction es with
  | nil => simp [get?]
  | cons e es ih =>
    obtain ⟨k',v'⟩ := e
    simp only [List.map_cons, List.nodup_cons] at hn
    have ih' := ih hn.2
    simp only [get?] at ih' ⊢
    by_cases hk : k' = k
    · subst hk
      have hnot : (k',v) ∉ es := fun hm => hn.1 (List.mem_map.mpr ⟨_,hm,rfl⟩)
      simp [hnot, eq_comm]
    · simp [hk, Ne.symm hk, ih']

theorem mem_values_iff {m : OrdMap κ ν} {v : ν} : v ∈ m.entries.map Prod.snd ↔ ∃ k, m.get? k = some v := by
  simp only [List.mem_map, Prod.exists, mem_entries_iff, exists_eq_right]

theorem get?_eq_none_iff {m : OrdMap κ ν} {k : κ} : m.get? k = none ↔ k ∉ m.keys := by
  simp only [get?, keys, Option.map_eq_none_iff, List.find?_eq_none, List.mem_map]
  constructor
  · rintro h ⟨e,he,rfl⟩
    simpa using h e he
  · intro h e he hk
    exact h ⟨e,he,by simpa using hk⟩

theorem mem_keys_iff {m : OrdMap κ ν} {k : κ} : k ∈ m.keys ↔ ∃ v, m.get? k = some v := by
  rw [← not_iff_not, ← get?_eq_none_iff, ← Option.not_isSome_iff_eq_none, Option.isSome_iff_exists]

theorem get?_mapValues (f : κ → ν → ν) (m : OrdMap κ ν) (k : κ) :
    (m.mapValues f).get? k = (m.get? k).map (f k) := by
  obtain ⟨es,hn⟩ := m
  simp only [get?, mapValues]
  clear hn
  induction es with
  | nil => rfl
  | cons e es ih =>
    by_cases hk : e.1 = k
    · simp [hk]
    · simpa [hk] using ih

theorem get?_set_self (m : OrdMap κ ν) (k : κ) (v : ν) : (m.set k v).get? k = some v := by
  unfold set
  split
  · next h =>
    obtain ⟨w,hw⟩ := mem_keys_iff.mp h
    simp [get?_mapValues, hw]
  · exact mem_entries_iff.mp (by simp)

theorem get?_set_of_ne {m : OrdMap κ ν} {k k' : κ} (v : ν) (h : k' ≠ k) :
    (m.set k v).get? k' = m.get? k' := by
  unfold set
  split
  · simp [get?_mapValues, h]
  · simp [get?, List.find?_append, Ne.symm h]

theorem mem_keys_set {m : OrdMap κ ν} {k k' : κ} {v : ν} :
    k' ∈ (m.set k v).keys ↔ k' ∈ m.keys ∨ k' = k := by
  by_cases h : k' = k
  · subst h
    simp [mem_keys_iff, get?_set_self]
  · simp [mem_keys_iff, get?_set_of_ne v h, h]

theorem mem_keys_delete {m : OrdMap κ ν} {k k' : κ} :
    k' ∈ (m.delete k).keys ↔ k' ∈ m.keys ∧ k' ≠ k := by
  simp only [keys, delete, List.mem_map, List.mem_filter, bne_iff_ne]
  constructor
  · rintro ⟨e,⟨he,hk⟩,rfl⟩
    exact ⟨⟨e,he,rfl⟩,hk⟩
  · rintro ⟨⟨e,he,rfl⟩,hk⟩
    exact ⟨e,⟨he,hk⟩,rfl⟩

theorem get?_delete_of_ne {m : OrdMap κ ν} {k k' : κ} (h : k' ≠ k) :
    (m.delete k).get? k' = m.get? k' := by
  obtain ⟨es,hn⟩ := m
  simp only [get?, delete]
  clear hn
  induction es with
  | nil => rfl
  | cons e es ih =>
    by_cases hk : e.1 = k
    · simpa [hk, Ne.symm h] using ih
    · by_cases hk' : e.1 = k'
      · simp [hk', h]
      · simpa [hk, hk'] using ih

theorem has_set (m : OrdMap κ ν) (k k' : κ) (v : ν) :
    (m.set k v).has k' = (m.has k' || k' == k) := by
  rw [Bool.eq_iff_iff, has_iff, mem_keys_set, Bool.or_eq_true, has_iff, beq_iff_eq]

theorem has_delete (m : OrdMap κ ν) (k k' : κ) :
    (m.delete k).has k' = (m.has k' && k' != k) := by
  rw [Bool.eq_iff_iff, has_iff, mem_keys_delete, Bool.and_eq_true, has_iff, bne_iff_ne]

omit [DecidableEq κ] in
theorem eq_empty {m : OrdMap κ ν} (h : ∀ k, k ∉ m.keys) : m = empty := by
  obtain ⟨entries,hn⟩ := m
  obtain rfl : entries = [] := List.map_eq_nil_iff.mp (List.eq_nil_iff_forall_not_mem.mpr h)
  rfl

theorem entries_eq_singleton {m : OrdMap κ ν} {k : κ} {v : ν} (honly : ∀ k' ∈ m.keys, k' = k)
    (h : m.get? k = some v) : m.entries = [(k,v)] := by
  have hmem := mem_entries_iff.mpr h
  have hkey : ∀ e ∈ m.entries, e.1 = k := fun e he => honly e.1 (List.mem_map_of_mem he)
  have hnodup := m.nodup
  cases hentries : m.entries with
  | nil => simp [hentries] at hmem
  | cons e es =>
    cases es with
    | nil =>
      rw [hentries, List.mem_singleton] at hmem
      rw [hmem]
    | cons e' es =>
      rw [hentries] at hkey hnodup
      have hsame : e.1 = e'.1 := (hkey e (by simp)).trans (hkey e' (by simp)).symm
      simp [hsame] at hnodup

theorem countP_filter_entries (m : OrdMap κ ν) (p : κ × ν → Bool) (k : κ) :
    (m.entries.filter p).countP (fun e => e.1 == k) = ((m.get? k).any fun v => p (k,v)).toNat := by
  obtain ⟨es,hn⟩ := m
  induction es with
  | nil => rfl
  | cons e es ih =>
    obtain ⟨k',v⟩ := e
    simp only [List.map_cons, List.nodup_cons] at hn
    have ih' := ih hn.2
    simp only [get?] at ih' ⊢
    by_cases hk : k' = k
    · subst hk
      have hnone : (es.filter p).countP (fun e => e.1 == k') = 0 := by
        refine List.countP_eq_zero.mpr fun e he => ?_
        have hne : e.1 ≠ k' := fun h => hn.1 (List.mem_map.mpr ⟨e,(List.mem_filter.mp he).1,h⟩)
        simpa using hne
      by_cases hp : p (k',v) = true <;> simp [hp, hnone]
    · by_cases hp : p (k',v) = true <;> simp [hp, hk, ih']

theorem size_set_le (m : OrdMap κ ν) (k : κ) (v : ν) : (m.set k v).size ≤ m.size + 1 := by
  unfold set
  split
  · simp [size, mapValues]
  · simp [size]

theorem size_delete_le (m : OrdMap κ ν) (k : κ) : (m.delete k).size ≤ m.size :=
  List.length_filter_le _ _

theorem entries_eq (m : OrdMap κ ν) : m.entries = m.keys.filterMap fun k => (m.get? k).map fun v => (k,v) := by
  rw [keys, List.filterMap_map]
  have hentry : ∀ e ∈ m.entries, ((fun k => (m.get? k).map fun v => (k,v)) ∘ Prod.fst) e = some e := fun e he => by
    rw [Function.comp_apply, mem_entries_iff.mp he]
    rfl
  rw [List.filterMap_congr hentry, List.filterMap_some]

theorem ext_get? {m m' : OrdMap κ ν} (hkeys : m.keys = m'.keys) (h : ∀ k, m.get? k = m'.get? k) : m = m' := by
  obtain ⟨es,hn⟩ := m
  obtain ⟨es',hn'⟩ := m'
  have hentries : es = es' := by
    refine (entries_eq ⟨es,hn⟩).trans (Eq.trans ?_ (entries_eq ⟨es',hn'⟩).symm)
    rw [hkeys]
    simp only [h]
  subst hentries
  rfl

theorem keys_set {m : OrdMap κ ν} {k : κ} {v : ν} (h : k ∈ m.keys) : (m.set k v).keys = m.keys := by
  unfold set
  rw [dif_pos h, keys_mapValues]

theorem set_eq {m : OrdMap κ ν} {k : κ} {v : ν} (h : m.get? k = some v) : m.set k v = m := by
  refine ext_get? (keys_set (mem_keys_iff.mpr ⟨v,h⟩)) fun k' => ?_
  by_cases hk : k' = k
  · subst hk
    rw [get?_set_self, h]
  · exact get?_set_of_ne v hk

theorem keys_set_set (m : OrdMap κ ν) (k : κ) (v v' : ν) : ((m.set k v).set k v').keys = (m.set k v').keys := by
  rw [keys_set (mem_keys_set.mpr (.inr rfl))]
  unfold set
  split
  · simp
  · simp [keys]

theorem set_set (m : OrdMap κ ν) (k : κ) (v v' : ν) : (m.set k v).set k v' = m.set k v' := by
  refine ext_get? (keys_set_set m k v v') fun k' => ?_
  by_cases hk : k' = k
  · subst hk
    rw [get?_set_self, get?_set_self]
  · rw [get?_set_of_ne _ hk, get?_set_of_ne _ hk, get?_set_of_ne _ hk]

end OrdMap
