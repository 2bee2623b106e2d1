import JumpHost.Library.Net

theorem ofBits_toBits {n : Nat} (h : n < 256) : ofBits (toBits 8 n) = n := by
  have hall : ∀ m : Fin 256, ofBits (toBits 8 m) = m := by decide +kernel
  exact hall ⟨n,h⟩

theorem toBits_inj {n m : Nat} (hn : n < 256) (hm : m < 256) : toBits 8 n = toBits 8 m ↔ n = m := by
  refine ⟨fun h => ?_,fun h => h ▸ rfl⟩
  rw [← ofBits_toBits hn, h, ofBits_toBits hm]

theorem take_flatMap_toBits (width k : Nat) (ns : List Nat) :
    (ns.flatMap (toBits width)).take (width * k) = (ns.take k).flatMap (toBits width) := by
  induction ns generalizing k with
  | nil => simp
  | cons n ns ih =>
    cases k with
    | zero => simp
    | succ k =>
      have hlen : width * (k + 1) - (toBits width n).length = width * k := by
        rw [length_toBits, Nat.mul_add, Nat.mul_one, Nat.add_sub_cancel]
      rw [List.flatMap_cons, List.take_append, hlen, ih, List.take_succ_cons, List.flatMap_cons,
        List.take_of_length_le]
      rw [length_toBits, Nat.mul_add, Nat.mul_one]
      exact Nat.le_add_left _ _

theorem flatMap_toBits_inj {ns ms : List Nat} (hns : ∀ n ∈ ns, n < 256) (hms : ∀ m ∈ ms, m < 256)
    (h : ns.flatMap (toBits 8) = ms.flatMap (toBits 8)) : ns = ms := by
  have hne : ∀ (n : Nat) (bits : List Bool), toBits 8 n ++ bits ≠ [] := fun n bits heq => by
    have hlen := congrArg List.length heq
    simp at hlen
  induction ns generalizing ms with
  | nil =>
    cases ms with
    | nil => rfl
    | cons m ms => exact absurd h.symm (hne m _)
  | cons n ns ih =>
    cases ms with
    | nil => exact absurd h (hne n _)
    | cons m ms =>
      simp only [List.flatMap_cons] at h
      obtain ⟨hfirst,hrest⟩ := List.append_inj h (by simp)
      rw [toBits_inj (hns n (by simp)) (hms m (by simp))] at hfirst
      rw [hfirst, ih (fun k hk => hns k (by simp [hk])) (fun k hk => hms k (by simp [hk])) hrest]

theorem quad_full (a b c d : Nat) : ([a,b,c,d].flatMap (toBits 8)).length = Family.v4.width := by
  simp [Family.width]

def Addr.quad (a b c d : Nat) : Addr := ⟨.v4,[a,b,c,d].flatMap (toBits 8),quad_full a b c d⟩

structure Octets (a b c d : Nat) : Prop where
  one : a < 256
  two : b < 256
  three : c < 256
  four : d < 256

theorem Octets.all {a b c d : Nat} (h : Octets a b c d) : ∀ n ∈ [a,b,c,d], n < 256 := by
  simp only [List.mem_cons, List.not_mem_nil, or_false]
  rintro n (rfl | rfl | rfl | rfl)
  · exact h.one
  · exact h.two
  · exact h.three
  · exact h.four

namespace Net

variable {a b c d a' b' c' d' : Nat}

theorem ofAddr_full (x : Addr) : ofAddr x x.family.width = host x := by
  simp [ofAddr, host, ← x.full]

theorem contains_ofAddr {x y : Addr} {len : Nat} (hlen : len ≤ x.family.width) :
    (ofAddr x len).contains y = true ↔ x.family = y.family ∧ x.bits.take len = y.bits.take len := by
  have htake : (x.bits.take len).length = len := by
    rw [List.length_take, x.full, Nat.min_eq_left hlen]
  simp only [contains, ofAddr, Bool.and_eq_true, beq_iff_eq, List.isPrefixOf_iff_prefix,
    List.prefix_iff_eq_take, htake]

theorem contains_quad {k : Nat} (h : Octets a b c d) (h' : Octets a' b' c' d') (hk : k ≤ 4) :
    (ofAddr (.quad a b c d) (8 * k)).contains (.quad a' b' c' d') = true ↔
      [a,b,c,d].take k = [a',b',c',d'].take k := by
  have hlen : 8 * k ≤ (Addr.quad a b c d).family.width := by
    change 8 * k ≤ 32
    omega
  rw [contains_ofAddr hlen]
  simp only [Addr.quad, take_flatMap_toBits, true_and]
  refine ⟨fun heq => flatMap_toBits_inj (fun n hn => h.all n (List.mem_of_mem_take hn))
    (fun n hn => h'.all n (List.mem_of_mem_take hn)) heq,fun heq => by rw [heq]⟩

theorem parse_quad {s : String} {len : Nat} (h : Octets a b c d) (hlen : len ≤ 32)
    (hs : s.toList = quad [a,b,c,d] ++ '/' :: Nat.toDigits 10 len) :
    parse s = some (ofAddr (.quad a b c d) len) ∧
      parseIface s = some (.quad a b c d,ofAddr (.quad a b c d) len) := by
  obtain ⟨hfull,haddr⟩ := addr_quad h.one h.two h.three h.four
  refine parse_slash haddr (fun ch hch => ⟨allowed_quad hch,?_⟩) hlen hs
  rintro rfl
  exact not_mem_quad rfl (by decide) hch

def Dotted (s : String) : Prop := ∃ a b c d, Octets a b c d ∧ s.toList = quad [a,b,c,d]

theorem parse_dotted {s : String} (h : Octets a b c d) (hs : s.toList = quad [a,b,c,d]) :
    parse (s ++ "/32") = some (host (.quad a b c d)) := by
  have htext : (s ++ "/32").toList = quad [a,b,c,d] ++ '/' :: Nat.toDigits 10 32 := by
    rw [String.toList_append, hs]
    rfl
  rw [(parse_quad h (Nat.le_refl _) htext).1]
  exact congrArg some (ofAddr_full (.quad a b c d))

theorem Dotted.parse {s : String} (h : Dotted s) :
    ∃ x : Addr, x.family = .v4 ∧ Net.parse (s ++ "/32") = some (host x) := by
  obtain ⟨a,b,c,d,hoctets,hs⟩ := h
  exact ⟨_,rfl,parse_dotted hoctets hs⟩

theorem Dotted.inj {s t : String} (hs : Dotted s) (ht : Dotted t)
    (h : Net.parse (s ++ "/32") = Net.parse (t ++ "/32")) : s = t := by
  obtain ⟨a,b,c,d,hoctets,hs⟩ := hs
  obtain ⟨a',b',c',d',hoctets',ht⟩ := ht
  rw [parse_dotted hoctets hs, parse_dotted hoctets' ht] at h
  have hbits : [a,b,c,d].flatMap (toBits 8) = [a',b',c',d'].flatMap (toBits 8) :=
    congrArg Net.bits (Option.some.inj h)
  have heq := flatMap_toBits_inj hoctets.all hoctets'.all hbits
  rw [← String.toList_inj, hs, ht, heq]

end Net

section Blocks

variable {ns ms : List Nat} {a b c d : Nat}

theorem length_flatMap_toBits (ns : List Nat) : (ns.flatMap (toBits 8)).length = 8 * ns.length := by
  induction ns with
  | nil => rfl
  | cons n ns ih =>
    rw [List.flatMap_cons, List.length_append, length_toBits, ih, List.length_cons]
    omega

def Net.block (ns : List Nat) : Net := ⟨.v4,(ns.flatMap (toBits 8)).take 32,List.length_take_le _ _⟩

theorem bits_block (h : ns.length ≤ 4) : (Net.block ns).bits = ns.flatMap (toBits 8) := by
  refine List.take_of_length_le ?_
  rw [length_flatMap_toBits]
  omega

theorem length_block (h : ns.length ≤ 4) : (Net.block ns).bits.length = 8 * ns.length := by
  rw [bits_block h, length_flatMap_toBits]

theorem block_inj (hns : ns.length ≤ 4) (hms : ms.length ≤ 4) (hn : ∀ n ∈ ns, n < 256) (hm : ∀ m ∈ ms, m < 256)
    (h : Net.block ns = Net.block ms) : ns = ms := by
  have hbits := congrArg Net.bits h
  rw [bits_block hns, bits_block hms] at hbits
  exact flatMap_toBits_inj hn hm hbits

theorem ofAddr_quad (a b c d k : Nat) : Net.ofAddr (.quad a b c d) (8 * k) = Net.block ([a,b,c,d].take k) := by
  have hlen : ([a,b,c,d].take k).length ≤ 4 := List.length_take_le' _ _
  have hbits : (Net.ofAddr (.quad a b c d) (8 * k)).bits = (Net.block ([a,b,c,d].take k)).bits := by
    rw [bits_block hlen]
    exact take_flatMap_toBits 8 k [a,b,c,d]
  exact Net.mk.injEq .. |>.mpr ⟨rfl,hbits⟩

theorem host_quad (a b c d : Nat) : Net.host (.quad a b c d) = Net.block [a,b,c,d] := by
  rw [← Net.ofAddr_full]
  exact ofAddr_quad a b c d 4

theorem contains_block (hns : ns.length ≤ 4) (hn : ∀ n ∈ ns, n < 256) (h : Octets a b c d) :
    (Net.block ns).contains (.quad a b c d) = true ↔ ns <+: [a,b,c,d] := by
  have hfamily : (Net.block ns).family = (Addr.quad a b c d).family := rfl
  simp only [Net.contains, hfamily, beq_self_eq_true, Bool.true_and, List.isPrefixOf_iff_prefix, bits_block hns]
  refine ⟨fun hbits => ?_,fun hinitial => ?_⟩
  · have htake := List.prefix_iff_eq_take.mp hbits
    rw [length_flatMap_toBits] at htake
    have heq : ns.flatMap (toBits 8) = ([a,b,c,d].take ns.length).flatMap (toBits 8) :=
      htake.trans (take_flatMap_toBits 8 ns.length [a,b,c,d])
    rw [flatMap_toBits_inj hn (fun n hn => h.all n (List.mem_of_mem_take hn)) heq]
    exact List.take_prefix _ _
  · obtain ⟨rest,hrest⟩ := hinitial
    refine ⟨rest.flatMap (toBits 8),?_⟩
    rw [← List.flatMap_append, hrest]
    rfl

theorem eq_toBits {bits : List Bool} (h : bits.length = 8) : ∃ n, n < 256 ∧ bits = toBits 8 n := by
  refine ⟨ofBits bits,Net.ofBits_octet h,?_⟩
  rw [← h, Net.toBits_ofBits]

theorem Addr.eq_quad {x : Addr} (h : x.family = .v4) : ∃ a b c d, Octets a b c d ∧ x = .quad a b c d := by
  obtain ⟨family,bits,hfull⟩ := x
  obtain rfl : family = .v4 := h
  have hlen : bits.length = 32 := hfull
  obtain ⟨a,ha,ha'⟩ := eq_toBits (show (bits.take 8).length = 8 by simp [hlen])
  obtain ⟨b,hb,hb'⟩ := eq_toBits (show ((bits.drop 8).take 8).length = 8 by simp [hlen])
  obtain ⟨c,hc,hc'⟩ := eq_toBits (show ((bits.drop 16).take 8).length = 8 by simp [hlen])
  obtain ⟨d,hd,hd'⟩ := eq_toBits (show (bits.drop 24).length = 8 by simp [hlen])
  refine ⟨a,b,c,d,⟨ha,hb,hc,hd⟩,?_⟩
  have hbits : bits = [a,b,c,d].flatMap (toBits 8) := by
    have hone := List.take_append_drop 8 bits
    have htwo := List.take_append_drop 8 (bits.drop 8)
    have hthree := List.take_append_drop 8 (bits.drop 16)
    rw [List.drop_drop] at htwo hthree
    rw [← hone, ← htwo, ← hthree, ha', hb', hc', hd']
    simp
  simp [Addr.quad, hbits]

theorem octet_text {cs : List Char} {n : Nat} (h : Text.octet cs = some n) : n < 256 ∧ cs = Nat.toDigits 10 n := by
  obtain ⟨hdecimal,hlt⟩ := Option.filter_eq_some_iff.mp h
  unfold Text.decimal at hdecimal
  simp only at hdecimal
  split at hdecimal
  · next htext =>
    cases hdecimal
    exact ⟨of_decide_eq_true hlt,htext.symm⟩
  · cases hdecimal

theorem octets_text {css : List (List Char)} {ns : List Nat} (h : css.mapM Text.octet = some ns) :
    css = ns.map (Nat.toDigits 10) ∧ ∀ n ∈ ns, n < 256 := by
  induction css generalizing ns with
  | nil =>
    cases h
    exact ⟨rfl,fun _ hn => absurd hn List.not_mem_nil⟩
  | cons cs css ih =>
    rw [List.mapM_cons] at h
    obtain ⟨n,hn,h⟩ := Option.bind_eq_some_iff.mp h
    obtain ⟨ns',hns,h⟩ := Option.bind_eq_some_iff.mp h
    cases h
    obtain ⟨hlt,rfl⟩ := octet_text hn
    obtain ⟨rfl,hall⟩ := ih hns
    exact ⟨rfl,List.forall_mem_cons.mpr ⟨hlt,hall⟩⟩

theorem addr_text {cs : List Char} {x : Addr} (h : Text.addr cs = some x) (hv4 : x.family = .v4) :
    ∃ a b c d, Octets a b c d ∧ cs = Net.quad [a,b,c,d] ∧ x = .quad a b c d := by
  unfold Text.addr at h
  split at h
  · split at h
    · cases h
      cases hv4
    · cases h
  · split at h
    · next a b c d hoctets =>
      cases h
      obtain ⟨hparts,hall⟩ := octets_text hoctets
      refine ⟨a,b,c,d,⟨hall a (by simp),hall b (by simp),hall c (by simp),hall d (by simp)⟩,?_,rfl⟩
      rw [Net.quad, ← hparts, List.intercalate_splitOn]
    · cases h

end Blocks

section Dots

variable {cs left right : List Char}

theorem not_mem_of_hexGroup {n : Nat} (h : Text.hexGroup cs = some n) : '.' ∉ cs := by
  have hfold : ∀ (m : Nat), cs.foldlM (fun n c => (Text.hexDigit c).map fun d => 16 * n + d) m = some n → '.' ∉ cs := by
    clear h
    induction cs with
    | nil => exact fun _ _ => List.not_mem_nil
    | cons c cs ih =>
      intro m hm
      rw [List.foldlM_cons] at hm
      obtain ⟨m',hdigit,hm⟩ := Option.bind_eq_some_iff.mp hm
      refine List.not_mem_cons_of_ne_of_not_mem ?_ (ih m' hm)
      rintro rfl
      cases hdigit
  unfold Text.hexGroup at h
  split at h
  · cases h
  · exact hfold 0 h

theorem not_mem_of_hexGroups {ns : List Nat} (h : Text.hexGroups cs = some ns) : '.' ∉ cs := by
  unfold Text.hexGroups at h
  split at h
  · next hnil => exact hnil ▸ List.not_mem_nil
  · have hparts : ∀ (css : List (List Char)) (ns : List Nat), css.mapM Text.hexGroup = some ns →
        ∀ part ∈ css, '.' ∉ part := by
      intro css
      induction css with
      | nil => exact fun _ _ _ hpart => absurd hpart List.not_mem_nil
      | cons cs css ih =>
        intro ns hns
        rw [List.mapM_cons] at hns
        obtain ⟨n,hn,hns⟩ := Option.bind_eq_some_iff.mp hns
        obtain ⟨ns',hns',-⟩ := Option.bind_eq_some_iff.mp hns
        exact List.forall_mem_cons.mpr ⟨not_mem_of_hexGroup hn,ih ns' hns'⟩
    intro hmem
    rcases Net.mem_splitOn ':' hmem with hcolon | ⟨part,hpart,hmem⟩
    · cases hcolon
    · exact hparts _ _ h part hpart hmem

theorem mem_of_atGap {c : Char} (h : Text.atGap cs = some (left,right)) (hc : c ∈ cs) :
    c = ':' ∨ c ∈ left ∨ c ∈ right := by
  fun_induction Text.atGap cs generalizing left right with
  | case1 rest =>
    cases h
    rcases List.mem_cons.mp hc with hc | hc
    · exact .inl hc
    · rcases List.mem_cons.mp hc with hc | hc
      · exact .inl hc
      · exact .inr (.inr hc)
  | case2 d rest hgap ih =>
    obtain ⟨⟨left',right'⟩,hrest,hsplit⟩ := Option.map_eq_some_iff.mp h
    obtain ⟨rfl,rfl⟩ := Prod.mk.inj hsplit
    rcases List.mem_cons.mp hc with rfl | hc
    · exact .inr (.inl List.mem_cons_self)
    · exact (ih hrest hc).imp_right (Or.imp_left (List.mem_cons_of_mem d))
  | case3 => cases h

theorem family_of_dot {x : Addr} (h : Text.addr cs = some x) (hdot : '.' ∈ cs) : x.family = .v4 := by
  unfold Text.addr at h
  split at h
  · split at h
    · next hgroups =>
      unfold Text.groups at hgroups
      split at hgroups
      · exact absurd hdot (not_mem_of_hexGroups hgroups)
      · next left right hgap =>
        obtain ⟨ls,hls,hgroups⟩ := Option.bind_eq_some_iff.mp hgroups
        obtain ⟨rs,hrs,-⟩ := Option.bind_eq_some_iff.mp hgroups
        rcases mem_of_atGap hgap hdot with hcolon | hmem | hmem
        · cases hcolon
        · exact absurd hmem (not_mem_of_hexGroups hls)
        · exact absurd hmem (not_mem_of_hexGroups hrs)
    · cases h
  · split at h
    · cases h
      rfl
    · cases h

end Dots
