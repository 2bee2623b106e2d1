import Mathlib.Data.List.Basic

namespace Pages

variable {α : Type} {xs : List α} {size i n : Nat}

-- where an index of `slice` points: a negative one counts from the end
def point (length : Nat) (index : Int) : Nat :=
  if index < 0 then (length + index).toNat else min index.toNat length

def slice (xs : List α) (start stop : Int) : List α :=
  (xs.take (point xs.length stop)).drop (point xs.length start)

def block (size i : Nat) (xs : List α) : List α := (xs.drop (i * size)).take size

theorem length_block_le (size i : Nat) (xs : List α) : (block size i xs).length ≤ size := List.length_take_le _ _

theorem take_min (xs : List α) (n : Nat) : xs.take (min n xs.length) = xs.take n := by
  rcases Nat.le_total n xs.length with h | h
  · rw [Nat.min_eq_left h]
  · rw [Nat.min_eq_right h, List.take_length, List.take_of_length_le h]

theorem slice_block (size i : Nat) (xs : List α) :
    slice xs ((i : Int) * size) ((i : Int) * size + size) = block size i xs := by
  have hstart : (i : Int) * size = ((i * size : Nat) : Int) := by push_cast; rfl
  have hstop : (i : Int) * size + size = ((i * size + size : Nat) : Int) := by push_cast; rfl
  rw [slice, block, hstop, hstart]
  simp only [point, Int.toNat_natCast]
  rw [if_neg (by omega), if_neg (by omega), take_min, List.take_drop, Nat.add_comm]
  rcases Nat.le_total (i * size) xs.length with h | h
  · rw [Nat.min_eq_left h]
  · have hlength := List.length_take_le' (size + i * size) xs
    rw [Nat.min_eq_right h, List.drop_eq_nil_of_le hlength, List.drop_eq_nil_of_le (Nat.le_trans hlength h)]

theorem take_blocks (size n : Nat) (xs : List α) :
    (List.range n).flatMap (fun i => block size i xs) = xs.take (n * size) := by
  induction n with
  | zero => simp
  | succ n ih =>
    rw [List.range_succ, List.flatMap_append, ih, List.flatMap_singleton, block, Nat.succ_mul, List.take_add]

theorem blocks_all (h : xs.length ≤ n * size) : (List.range n).flatMap (fun i => block size i xs) = xs := by
  rw [take_blocks, List.take_of_length_le h]

theorem slice_negative_zero {size : Int} (h : size < 0) : slice xs 0 size = xs.take (xs.length + size).toNat := by
  rw [slice, point, point, if_pos h, if_neg (by decide)]
  simp

theorem slice_negative_one {size : Int} (h : size < 0) : slice xs size (size + size) = [] := by
  rw [slice, List.drop_eq_nil_of_le]
  rw [List.length_take, point, point, if_pos h, if_pos (by omega)]
  omega

theorem negative_not_blocks {size : Int} {k : Nat} (hsize : size < 0) (hk : 0 < k)
    (hzero : slice xs 0 size = block k 0 xs) (hone : slice xs size (size + size) = block k 1 xs) : xs = [] := by
  rw [slice_negative_zero hsize, block, Nat.zero_mul, List.drop_zero] at hzero
  rw [slice_negative_one hsize, block, Nat.one_mul] at hone
  have hlength := congrArg List.length hzero
  have hrest := congrArg List.length hone
  simp only [List.length_take, List.length_nil, List.length_drop] at hlength hrest
  refine List.length_eq_zero_iff.mp ?_
  omega

end Pages
