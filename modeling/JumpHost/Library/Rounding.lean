import Mathlib.Algebra.Group.Nat.Defs

namespace JumpHost.Rounding

def toMultiple (unit n : Nat) : Nat :=
  let low := n / unit
  let rest := n % unit
  if 2 * rest < unit ∨ 2 * rest = unit ∧ low % 2 = 0 then low * unit else (low + 1) * unit

def nat (p n : Nat) : Nat := if n < 2 ^ p then n else toMultiple (2 ^ (n.log2 + 1 - p)) n

def int (p : Nat) : Int → Int
  | .ofNat n => nat p n
  | .negSucc n => -(nat p (n + 1))

variable {p n : Nat}

theorem toMultiple_ge (unit n : Nat) : n / unit * unit ≤ toMultiple unit n := by
  unfold toMultiple
  simp only
  split
  · exact Nat.le_refl _
  · exact Nat.mul_le_mul_right unit (Nat.le_succ _)

theorem nat_of_lt (h : n < 2 ^ p) : nat p n = n := if_pos h

theorem nat_ge (hp : 0 < p) (h : 2 ^ p ≤ n) : 2 ^ p ≤ nat p n := by
  have hpos : n ≠ 0 := by
    have := Nat.two_pow_pos p
    omega
  have hlog : p ≤ n.log2 := (Nat.le_log2 hpos).mpr h
  have hsplit : 2 ^ n.log2 = 2 ^ (p - 1) * 2 ^ (n.log2 + 1 - p) := by
    rw [← Nat.pow_add]
    congr 1
    omega
  have hlow : 2 ^ (p - 1) ≤ n / 2 ^ (n.log2 + 1 - p) := by
    rw [Nat.le_div_iff_mul_le (Nat.two_pow_pos _), ← hsplit]
    exact Nat.log2_self_le hpos
  rw [nat, if_neg (Nat.not_lt.mpr h)]
  calc 2 ^ p ≤ 2 ^ n.log2 := Nat.pow_le_pow_right (by decide) hlog
    _ = 2 ^ (p - 1) * 2 ^ (n.log2 + 1 - p) := hsplit
    _ ≤ n / 2 ^ (n.log2 + 1 - p) * 2 ^ (n.log2 + 1 - p) := Nat.mul_le_mul_right _ hlow
    _ ≤ toMultiple (2 ^ (n.log2 + 1 - p)) n := toMultiple_ge _ n

theorem natAbs_int (p : Nat) (m : Int) : (int p m).natAbs = nat p m.natAbs := by
  cases m with
  | ofNat n => rfl
  | negSucc n => simp [int, Int.natAbs_negSucc]

theorem int_of_natAbs_lt {m : Int} (h : m.natAbs < 2 ^ p) : int p m = m := by
  cases m with
  | ofNat n => exact congrArg Int.ofNat (nat_of_lt h)
  | negSucc n => exact congrArg (fun k : Nat => -(k : Int)) (nat_of_lt (n := n + 1) h)

theorem int_eq_iff (hp : 0 < p) {m k : Int} (hk : k.natAbs < 2 ^ p) : int p m = k ↔ m = k := by
  have hsmall : int p m = k → m.natAbs < 2 ^ p := by
    intro h
    refine Nat.lt_of_not_le fun hlarge => ?_
    have hge := nat_ge hp hlarge
    rw [← natAbs_int, h] at hge
    exact absurd hk (Nat.not_lt.mpr hge)
  constructor
  · intro h
    rw [← int_of_natAbs_lt (hsmall h), h]
  · rintro rfl
    exact int_of_natAbs_lt hk

end JumpHost.Rounding
