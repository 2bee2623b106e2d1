namespace Utf8

structure Pending where
  owed : Nat
  low : Nat
  high : Nat
  value : Nat
  tail : 0x80 ≤ low

def REPLACEMENT : Char := '\uFFFD'

def first (b : Nat) : List Char × Option Pending :=
  if b < 0x80 then ([Char.ofNat b],none)
  else if 0xC2 ≤ b ∧ b ≤ 0xDF then ([],some ⟨1,0x80,0xBF,b - 0xC0,by decide⟩)
  else if b = 0xE0 then ([],some ⟨2,0xA0,0xBF,0,by decide⟩)
  else if 0xE1 ≤ b ∧ b ≤ 0xEF then ([],some ⟨2,0x80,if b = 0xED then 0x9F else 0xBF,b - 0xE0,by decide⟩)
  else if b = 0xF0 then ([],some ⟨3,0x90,0xBF,0,by decide⟩)
  else if 0xF1 ≤ b ∧ b ≤ 0xF4 then ([],some ⟨3,0x80,if b = 0xF4 then 0x8F else 0xBF,b - 0xF0,by decide⟩)
  else ([REPLACEMENT],none)

def multibyte (n : Nat) : Char := if 0x80 ≤ n ∧ n.isValidChar then Char.ofNat n else REPLACEMENT

def feed (p : Option Pending) (b : Nat) : List Char × Option Pending :=
  match p with
  | none => first b
  | some p =>
      if p.low ≤ b ∧ b ≤ p.high then
        let value := 64 * p.value + (b - 0x80)
        if p.owed ≤ 1 then ([multibyte value],none) else ([],some ⟨p.owed - 1,0x80,0xBF,value,by decide⟩)
      else (REPLACEMENT :: (first b).1,(first b).2)

def finish (p : Option Pending) : List Char := if p.isSome then [REPLACEMENT] else []

def decodeFrom (p : Option Pending) : List UInt8 → List Char
  | [] => finish p
  | b :: bs => (feed p b.toNat).1 ++ decodeFrom (feed p b.toNat).2 bs

def decode (bs : List UInt8) : List Char := decodeFrom none bs

def units (c : Char) : Nat := if c.toNat < 0x10000 then 1 else 2

def length : List Char → Nat
  | [] => 0
  | c :: cs => units c + length cs

def ascii (b : UInt8) : Bool := b.toNat < 0x80

section Decoding

variable {p : Option Pending} {b : UInt8} {bs bs' : List UInt8} {c : Char} {cs cs' : List Char}

@[simp] theorem decode_nil : decode [] = [] := rfl

theorem feed_ascii (h : ascii b = true) : feed p b.toNat = (finish p ++ [Char.ofNat b.toNat],none) := by
  have hb : b.toNat < 0x80 := of_decide_eq_true h
  have hfirst : first b.toNat = ([Char.ofNat b.toNat],none) := if_pos hb
  cases p with
  | none => exact hfirst
  | some p =>
    have hout : ¬ (p.low ≤ b.toNat ∧ b.toNat ≤ p.high) := fun hin => by
      have htail := p.tail
      omega
    simp only [feed, if_neg hout, hfirst]
    rfl

theorem decodeFrom_append (h : ascii b = true) :
    decodeFrom p (bs ++ b :: bs') = decodeFrom p bs ++ Char.ofNat b.toNat :: decode bs' := by
  induction bs generalizing p with
  | nil =>
    have hcons : decodeFrom p (b :: bs') = (feed p b.toNat).1 ++ decodeFrom (feed p b.toNat).2 bs' := rfl
    rw [List.nil_append, hcons, feed_ascii h, List.append_assoc]
    rfl
  | cons d bs ih => rw [List.cons_append, decodeFrom, decodeFrom, ih, List.append_assoc]

theorem decode_append (h : ascii b = true) :
    decode (bs ++ b :: bs') = decode bs ++ Char.ofNat b.toNat :: decode bs' := decodeFrom_append h

theorem decode_ascii (h : ∀ b ∈ bs, ascii b = true) : decode bs = bs.map fun b => Char.ofNat b.toNat := by
  induction bs with
  | nil => rfl
  | cons b bs ih =>
    have happend : decode ([] ++ b :: bs) = _ := decode_append (h b List.mem_cons_self)
    rw [List.nil_append] at happend
    rw [happend, ih fun d hd => h d (List.mem_cons_of_mem b hd)]
    rfl

theorem decode_ascii_append (h : ∀ b ∈ bs, ascii b = true) :
    decode (bs ++ bs') = (bs.map fun b => Char.ofNat b.toNat) ++ decode bs' := by
  induction bs with
  | nil => rfl
  | cons b bs ih =>
    have happend : decode ([] ++ b :: (bs ++ bs')) = _ := decode_append (h b List.mem_cons_self)
    rw [List.nil_append] at happend
    rw [List.cons_append, happend, ih fun d hd => h d (List.mem_cons_of_mem b hd)]
    rfl

theorem multibyte_high (n : Nat) : 0x80 ≤ (multibyte n).toNat := by
  unfold multibyte
  split
  · next h =>
    rw [Char.ofNat, dif_pos h.2]
    exact h.1
  · decide

theorem first_high {n : Nat} (hn : 0x80 ≤ n) : ∀ c ∈ (first n).1, 0x80 ≤ c.toNat := by
  have hmark : ∀ c ∈ [REPLACEMENT], 0x80 ≤ c.toNat := by
    intro c hc
    rw [List.mem_singleton.mp hc]
    decide
  unfold first
  rw [if_neg (by omega)]
  repeat' split
  all_goals first | exact fun c hc => absurd hc List.not_mem_nil | exact hmark

theorem feed_high {n : Nat} (hn : 0x80 ≤ n) : ∀ c ∈ (feed p n).1, 0x80 ≤ c.toNat := by
  cases p with
  | none => exact first_high hn
  | some p =>
    unfold feed
    dsimp only
    generalize 64 * p.value + (n - 0x80) = value
    split
    · split
      · intro c hc
        rw [List.mem_singleton.mp hc]
        exact multibyte_high value
      · exact fun c hc => absurd hc List.not_mem_nil
    · intro c hc
      rcases List.mem_cons.mp hc with rfl | hc
      · decide
      · exact first_high hn c hc

theorem mem_of_ascii_mem (h : c ∈ decodeFrom p bs) (hc : c.toNat < 0x80) :
    ∃ b ∈ bs, ascii b = true ∧ c = Char.ofNat b.toNat := by
  induction bs generalizing p with
  | nil =>
    rw [decodeFrom, finish] at h
    split at h
    · obtain rfl := List.mem_singleton.mp h
      exact absurd hc (by decide)
    · cases h
  | cons b bs ih =>
    rw [decodeFrom] at h
    rcases List.mem_append.mp h with h | h
    · cases hb : ascii b with
      | true =>
        rw [feed_ascii hb] at h
        rcases List.mem_append.mp h with h | h
        · unfold finish at h
          split at h
          · obtain rfl := List.mem_singleton.mp h
            exact absurd hc (by decide)
          · cases h
        · exact ⟨b,List.mem_cons_self,hb,List.mem_singleton.mp h⟩
      | false =>
        have hhigh := feed_high (Nat.le_of_not_lt (of_decide_eq_false hb)) c h
        omega
    · obtain ⟨d,hd,hascii,rfl⟩ := ih h
      exact ⟨d,List.mem_cons_of_mem b hd,hascii,rfl⟩

theorem first_or (b : Nat) : (first b).1 ≠ [] ∨ (first b).2.isSome = true := by
  unfold first
  repeat' split
  all_goals simp

theorem feed_or (p : Option Pending) (b : Nat) : (feed p b).1 ≠ [] ∨ (feed p b).2.isSome = true := by
  cases p with
  | none => exact first_or b
  | some p =>
    unfold feed
    dsimp only
    split
    · split
      · exact .inl (List.cons_ne_nil _ _)
      · exact .inr rfl
    · exact .inl (List.cons_ne_nil _ _)

theorem decodeFrom_ne_nil (h : p.isSome = true ∨ bs ≠ []) : decodeFrom p bs ≠ [] := by
  induction bs generalizing p with
  | nil =>
    rw [decodeFrom, finish, if_pos (h.resolve_right fun h => h rfl)]
    exact List.cons_ne_nil _ _
  | cons b bs ih =>
    rw [decodeFrom]
    rcases feed_or p b.toNat with hchars | hpending
    · exact fun hnil => hchars (List.append_eq_nil_iff.mp hnil).1
    · exact fun hnil => ih (.inl hpending) (List.append_eq_nil_iff.mp hnil).2

theorem decode_ne_nil (h : bs ≠ []) : decode bs ≠ [] := decodeFrom_ne_nil (.inr h)

theorem decode_ascii_one (h : ascii b = true) : decode [b] = [Char.ofNat b.toNat] := decode_ascii (by simpa using h)

theorem decode_high_one (h : ascii b = false) : decode [b] = [REPLACEMENT] := by
  have hb : ¬ b.toNat < 0x80 := of_decide_eq_false h
  rw [decode, decodeFrom, feed, first, if_neg hb]
  repeat' split
  all_goals rfl

@[simp] theorem length_nil : length [] = 0 := rfl

@[simp] theorem length_cons : length (c :: cs) = units c + length cs := rfl

@[simp] theorem length_append : length (cs ++ cs') = length cs + length cs' := by
  induction cs with
  | nil => rw [List.nil_append, length_nil, Nat.zero_add]
  | cons c cs ih => rw [List.cons_append, length_cons, length_cons, ih, Nat.add_assoc]

theorem units_pos (c : Char) : 0 < units c := by
  unfold units
  split <;> decide

theorem length_pos (h : cs ≠ []) : 0 < length cs := by
  cases cs with
  | nil => exact absurd rfl h
  | cons c cs =>
    have hpos := units_pos c
    rw [length_cons]
    omega

theorem length_decode_of_ascii (h : b ∈ bs) (hb : ascii b = true) (hlen : 2 ≤ bs.length) : 2 ≤ length (decode bs) := by
  obtain ⟨before,after,rfl⟩ := List.append_of_mem h
  rw [decode_append hb, length_append, length_cons]
  have hunit := units_pos (Char.ofNat b.toNat)
  cases before with
  | nil =>
    have hafter : after ≠ [] := by
      rintro rfl
      simp at hlen
    have hpos := length_pos (decode_ne_nil hafter)
    omega
  | cons d before =>
    have hpos := length_pos (decode_ne_nil (List.cons_ne_nil d before))
    omega

theorem single_ascii (h : decode bs = [c]) (hc : c.toNat < 0x80) :
    ∃ b, bs = [b] ∧ ascii b = true ∧ c = Char.ofNat b.toNat := by
  obtain ⟨b,hb,hascii,rfl⟩ := mem_of_ascii_mem (h ▸ List.mem_singleton_self c) hc
  refine ⟨b,?_,hascii,rfl⟩
  by_cases hlen : 2 ≤ bs.length
  · have htwo := length_decode_of_ascii hb hascii hlen
    rw [h, length_cons, length_nil, units, if_pos (by omega)] at htwo
    omega
  · obtain ⟨before,after,rfl⟩ := List.append_of_mem hb
    rw [List.length_append, List.length_cons] at hlen
    obtain rfl : before = [] := List.length_eq_zero_iff.mp (by omega)
    obtain rfl : after = [] := List.length_eq_zero_iff.mp (by omega)
    rfl

end Decoding

example : decode [0x61,0xC3,0xA9,0xE2,0x82,0xAC,0xF0,0x9F,0x98,0x80] = ['a','é','€','😀'] := by decide
example : decode [0xE2,0x82] = [REPLACEMENT] := by decide
example : decode [0xE2,0x41] = [REPLACEMENT,'A'] := by decide

end Utf8
