import JumpHost.Library.Quad

namespace Net

variable {ν : Type}

section Longest

variable {entries : List (Net × ν)} {a : Addr} {n m : Net} {v w : ν}

def Functional (entries : List (Net × ν)) : Prop :=
  ∀ n v w, (n,v) ∈ entries → (n,w) ∈ entries → v = w

theorem eq_of_contains (hn : n.contains a = true) (hm : m.contains a = true)
    (hlen : n.bits.length = m.bits.length) : n = m := by
  obtain ⟨f,bits,hfits⟩ := n
  obtain ⟨f',bits',hfits'⟩ := m
  simp only [contains, Bool.and_eq_true, beq_iff_eq, List.isPrefixOf_iff_prefix] at hn hm
  obtain ⟨rfl,hn⟩ := hn
  obtain ⟨rfl,hm⟩ := hm
  have hbits : bits = bits' := (List.prefix_of_prefix_length_le hn hm (Nat.le_of_eq hlen)).eq_of_length hlen
  subst hbits
  rfl

theorem longest_eq_some (h : Functional entries) (hmem : (n,v) ∈ entries) (hn : n.contains a = true)
    (hmax : ∀ m w, (m,w) ∈ entries → m.contains a = true → m.bits.length ≤ n.bits.length) :
    longest entries a = some v := by
  have hin : (n,v) ∈ entries.filter fun e : Net × ν => e.1.contains a := List.mem_filter.mpr ⟨hmem,hn⟩
  cases hbest : (entries.filter fun e : Net × ν => e.1.contains a).argmax fun e => e.1.bits.length with
  | none =>
    rw [List.argmax_eq_none.mp hbest] at hin
    cases hin
  | some best =>
    obtain ⟨m,w⟩ := best
    obtain ⟨hmem',hm⟩ := List.mem_filter.mp (List.argmax_mem hbest)
    have hle : n.bits.length ≤ m.bits.length :=
      List.le_of_mem_argmax (f := fun e : Net × ν => e.1.bits.length) hin hbest
    obtain rfl := eq_of_contains hn hm (Nat.le_antisymm hle (hmax m w hmem' hm))
    rw [longest, hbest, h n v w hmem hmem']
    rfl

theorem longest_max (h : longest entries a = some v) : ∃ n, (n,v) ∈ entries ∧ n.contains a = true ∧
    ∀ m w, (m,w) ∈ entries → m.contains a = true → m.bits.length ≤ n.bits.length := by
  obtain ⟨⟨n,w⟩,hbest,rfl⟩ := Option.map_eq_some_iff.mp h
  obtain ⟨hmem,hn⟩ := List.mem_filter.mp (List.argmax_mem hbest)
  refine ⟨n,hmem,hn,fun m w' hm hin => ?_⟩
  exact List.le_of_mem_argmax (f := fun e : Net × ν => e.1.bits.length) (List.mem_filter.mpr ⟨hm,hin⟩) hbest

theorem longest_map {μ : Type} {f : ν → μ} {mapped : List (Net × μ)} (h : Functional mapped)
    (hmem : ∀ n w, (n,w) ∈ mapped ↔ ∃ v, (n,v) ∈ entries ∧ f v = w) :
    longest mapped a = (longest entries a).map f := by
  cases hlongest : longest entries a with
  | none =>
    rw [longest_eq_none] at hlongest
    refine longest_eq_none.mpr fun e he => ?_
    obtain ⟨v,hv,-⟩ := (hmem e.1 e.2).mp he
    exact hlongest _ hv
  | some v =>
    obtain ⟨n,hv,hn,hmax⟩ := longest_max hlongest
    refine longest_eq_some h ((hmem n (f v)).mpr ⟨v,hv,rfl⟩) hn fun m w hm hin => ?_
    obtain ⟨v',hv',-⟩ := (hmem m w).mp hm
    exact hmax m v' hv' hin

end Longest

section Claims

def claim (table : List (Net × ν)) (e : Net × ν) : List (Net × ν) := table.filter (fun e' => e'.1 ≠ e.1) ++ [e]

def claimAll (claims : List (Net × ν)) : List (Net × ν) := claims.foldl claim []

variable {claims table : List (Net × ν)} {e : Net × ν}

theorem mem_foldl_claim (table : List (Net × ν)) (h : Functional (table ++ claims)) :
    e ∈ claims.foldl claim table ↔ e ∈ table ++ claims := by
  induction claims generalizing table with
  | nil => simp
  | cons c claims ih =>
    have hmem : ∀ e', e' ∈ claim table c ++ claims ↔ e' ∈ table ++ c :: claims := by
      intro e'
      simp only [claim, List.mem_append, List.mem_filter, decide_eq_true_eq, List.mem_cons,
        List.not_mem_nil, or_false]
      constructor
      · rintro ((⟨htable,-⟩ | rfl) | hclaims)
        · exact .inl htable
        · exact .inr (.inl rfl)
        · exact .inr (.inr hclaims)
      · rintro (htable | rfl | hclaims)
        · by_cases hnet : e'.1 = c.1
          · have hvalue : e'.2 = c.2 := h e'.1 e'.2 c.2 (List.mem_append_left _ htable)
              (List.mem_append_right _ (hnet ▸ List.mem_cons_self))
            exact .inl (.inr (Prod.ext hnet hvalue))
          · exact .inl (.inl ⟨htable,hnet⟩)
        · exact .inl (.inr rfl)
        · exact .inr hclaims
    rw [List.foldl_cons, ih (claim table c) fun n v w hv hw => h n v w ((hmem _).mp hv) ((hmem _).mp hw), hmem]

theorem mem_claimAll (h : Functional claims) : e ∈ claimAll claims ↔ e ∈ claims := mem_foldl_claim [] h

end Claims

end Net
