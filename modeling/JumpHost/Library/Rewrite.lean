import JumpHost.Library.Net

namespace Net

def rewrite (target : Net) (x : Addr) : Addr :=
  if h : target.family = x.family then
    ⟨x.family,target.bits ++ x.bits.drop target.bits.length,by
      have hfits := target.fits
      rw [List.length_append, List.length_drop, x.full]
      rw [h] at hfits
      omega⟩
  else x

structure OneToOne (outer inner : Net) : Prop where
  lands : ∀ x, inner.contains x = true → outer.contains (outer.rewrite x) = true
  distinct : ∀ x y, inner.contains x = true → inner.contains y = true → outer.rewrite x = outer.rewrite y → x = y
  back : ∀ x, inner.contains x = true → inner.rewrite (outer.rewrite x) = x

section Rewrite

variable {s p : Net} {x y : Addr}

theorem Addr.ext_bits (hfamily : x.family = y.family) (hbits : x.bits = y.bits) : x = y := by
  obtain ⟨f,bits,hfull⟩ := x
  obtain ⟨f',bits',hfull'⟩ := y
  cases hfamily
  cases hbits
  rfl

theorem contains_iff : p.contains x = true ↔ p.family = x.family ∧ p.bits <+: x.bits := by
  simp only [contains, Bool.and_eq_true, beq_iff_eq, List.isPrefixOf_iff_prefix]

@[simp] theorem rewrite_family : (s.rewrite x).family = x.family := by
  unfold rewrite
  split <;> rfl

theorem rewrite_bits (h : s.family = x.family) : (s.rewrite x).bits = s.bits ++ x.bits.drop s.bits.length := by
  rw [rewrite, dif_pos h]

theorem contains_rewrite : s.contains (s.rewrite x) = true ↔ s.family = x.family := by
  rw [contains_iff, rewrite_family]
  exact ⟨And.left,fun h => ⟨h,rewrite_bits h ▸ List.prefix_append _ _⟩⟩

theorem rewrite_rewrite (hfamily : s.family = p.family) (hlen : s.bits.length ≤ p.bits.length)
    (hx : p.contains x = true) : p.rewrite (s.rewrite x) = x := by
  obtain ⟨hp,rest,hbits⟩ := contains_iff.mp hx
  refine Addr.ext_bits (by rw [rewrite_family, rewrite_family]) ?_
  rw [rewrite_bits (by rw [rewrite_family, hp]), rewrite_bits (hfamily.trans hp), ← hbits,
    List.drop_append_of_le_length hlen, ← List.append_assoc, List.drop_left']
  rw [List.length_append, List.length_drop]
  omega

def extend (p : Net) (rest : List Bool) (h : (p.bits ++ rest).length = p.family.width) : Addr :=
  ⟨p.family,p.bits ++ rest,h⟩

theorem contains_extend {rest : List Bool} {h : (p.bits ++ rest).length = p.family.width} :
    p.contains (p.extend rest h) = true := contains_iff.mpr ⟨rfl,List.prefix_append _ _⟩

theorem oneToOne_iff : OneToOne s p ↔ s.family = p.family ∧ s.bits.length ≤ p.bits.length := by
  have hfits := p.fits
  constructor
  · intro h
    have hzeros : (p.bits ++ List.replicate (p.family.width - p.bits.length) false).length = p.family.width := by
      rw [List.length_append, List.length_replicate]
      omega
    have hfamily : s.family = p.family := contains_rewrite.mp (h.lands (p.extend _ hzeros) contains_extend)
    refine ⟨hfamily,?_⟩
    -- the two addresses that part at the first bit past the block would meet
    by_contra hlen
    obtain ⟨k,hk⟩ : ∃ k, s.bits.length = p.bits.length + (k + 1) := ⟨s.bits.length - p.bits.length - 1,by omega⟩
    have hroom : p.bits.length + (k + 1) ≤ p.family.width := hk ▸ hfamily ▸ s.fits
    have hfull : ∀ b, (p.bits ++ b :: List.replicate (p.family.width - p.bits.length - 1) false).length =
        p.family.width := by
      intro b
      rw [List.length_append, List.length_cons, List.length_replicate]
      omega
    have hbits : ∀ b, (s.rewrite (p.extend _ (hfull b))).bits =
        s.bits ++ (List.replicate (p.family.width - p.bits.length - 1) false).drop k := by
      intro b
      rw [rewrite_bits hfamily, hk]
      exact congrArg (s.bits ++ ·) (List.drop_length_add_append (k + 1))
    have hsame : s.rewrite (p.extend _ (hfull false)) = s.rewrite (p.extend _ (hfull true)) := by
      refine Addr.ext_bits ?_ ((hbits false).trans (hbits true).symm)
      rw [rewrite_family, rewrite_family]
      rfl
    have hmeet := congrArg Addr.bits (h.distinct _ _ contains_extend contains_extend hsame)
    cases List.append_cancel_left hmeet
  · rintro ⟨hfamily,hlen⟩
    have hback : ∀ x, p.contains x = true → p.rewrite (s.rewrite x) = x := fun x => rewrite_rewrite hfamily hlen
    refine ⟨fun x hx => ?_,fun x y hx hy heq => ?_,hback⟩
    · exact contains_rewrite.mpr (hfamily.trans (contains_iff.mp hx).1)
    · rw [← hback x hx, ← hback y hy, heq]

end Rewrite

end Net
