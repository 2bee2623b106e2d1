import Mathlib.Data.List.MinMax

inductive Family where
  | v4
  | v6
deriving DecidableEq, Repr

def Family.width : Family → Nat
  | .v4 => 32
  | .v6 => 128

structure Addr where
  family : Family
  bits : List Bool
  full : bits.length = family.width
deriving DecidableEq

-- a block is the bits its addresses share, so one block has one value
structure Net where
  family : Family
  bits : List Bool
  fits : bits.length ≤ family.width
deriving DecidableEq

def toBits (width n : Nat) : List Bool := (List.range width).map fun i => n.testBit (width - 1 - i)

def ofBits (bits : List Bool) : Nat := bits.foldl (fun n b => 2 * n + b.toNat) 0

@[simp] theorem length_toBits (width n : Nat) : (toBits width n).length = width := by simp [toBits]

namespace Text

def decimal (cs : List Char) : Option Nat :=
  let n := Nat.ofDigitChars 10 cs 0
  if Nat.toDigits 10 n = cs then some n else none

theorem decimal_toDigits (n : Nat) : decimal (Nat.toDigits 10 n) = some n := by
  simp [decimal, Nat.ofDigitChars_ten_toDigits]

theorem toDigits_inj {n m : Nat} (h : Nat.toDigits 10 n = Nat.toDigits 10 m) : n = m := by
  have hdecimal := congrArg decimal h
  rw [decimal_toDigits, decimal_toDigits] at hdecimal
  exact Option.some.inj hdecimal

theorem toList_toString (n : Nat) : (toString n).toList = Nat.toDigits 10 n := String.toList_ofList

theorem toList_int (n : Nat) : (toString (n : Int)).toList = Nat.toDigits 10 n := by
  change (String.ofList (Nat.toDigits 10 n)).toList = _
  exact String.toList_ofList

def octet (cs : List Char) : Option Nat := (decimal cs).filter (· < 256)

def hexDigit (c : Char) : Option Nat :=
  "0123456789abcdef".toList.idxOf? c.toLower

def hexGroup (cs : List Char) : Option Nat :=
  if cs = [] ∨ 4 < cs.length then none
  else cs.foldlM (fun n c => (hexDigit c).map fun d => 16 * n + d) 0

def hexGroups (cs : List Char) : Option (List Nat) :=
  if cs = [] then some [] else (cs.splitOn ':').mapM hexGroup

def atGap : List Char → Option (List Char × List Char)
  | ':' :: ':' :: rest => some ([],rest)
  | c :: rest => (atGap rest).map fun p => (c :: p.1,p.2)
  | [] => none

def groups (cs : List Char) : Option (List Nat) :=
  match atGap cs with
  | none => hexGroups cs
  | some (left,right) => do
      let ls ← hexGroups left
      let rs ← hexGroups right
      if ls.length + rs.length < 8 then
        some (ls ++ List.replicate (8 - (ls.length + rs.length)) 0 ++ rs)
      else none

def addr (cs : List Char) : Option Addr :=
  if cs.contains ':' then
    match groups cs with
    | some [a,b,c,d,e,f,g,h] =>
        some ⟨.v6,[a,b,c,d,e,f,g,h].flatMap (toBits 16),by simp [Family.width]⟩
    | _ => none
  else match (cs.splitOn '.').mapM octet with
    | some [a,b,c,d] => some ⟨.v4,[a,b,c,d].flatMap (toBits 8),by simp [Family.width]⟩
    | _ => none

def allowed (c : Char) : Bool := c.isDigit || "abcdefABCDEF.:/".toList.contains c

end Text

namespace Net

def host (a : Addr) : Net := ⟨a.family,a.bits,Nat.le_of_eq a.full⟩

def ofAddr (a : Addr) (len : Nat) : Net :=
  ⟨a.family,a.bits.take len,by
    rw [List.length_take, a.full]
    exact Nat.min_le_right _ _⟩

def parse (s : String) : Option Net :=
  if s.toList.all Text.allowed then
    match s.toList.splitOn '/' with
    | [cs] => (Text.addr cs).map host
    | [cs,ls] => do
        let a ← Text.addr cs
        let len ← (Text.decimal ls).filter (· ≤ a.family.width)
        some (ofAddr a len)
    | _ => none
  else none

def parseIface (s : String) : Option (Addr × Net) :=
  match s.toList.splitOn '/' with
  | [cs,ls] => do
      let a ← Text.addr cs
      let len ← (Text.decimal ls).filter (· ≤ a.family.width)
      some (a,ofAddr a len)
  | _ => none

def quad (ns : List Nat) : List Char := ['.'].intercalate (ns.map (Nat.toDigits 10))

def part (n : Net) (width i : Nat) : List Bool :=
  ((n.bits ++ List.replicate (n.family.width - n.bits.length) false).drop (width * i)).take width

def octets (n : Net) : List Nat := (List.range 4).map fun i => ofBits (n.part 8 i)

def hexChar (bits : List Bool) : Char := "0123456789abcdef".toList.getD (ofBits bits) '0'

def hexText (bits : List Bool) : List Char :=
  [bits.take 4,(bits.drop 4).take 4,(bits.drop 8).take 4,(bits.drop 12).take 4].map hexChar

def text (n : Net) : List Char :=
  match n.family with
  | .v4 => quad n.octets
  | .v6 => [':'].intercalate ((List.range 8).map fun i => hexText (n.part 16 i))

def print (n : Net) : String :=
  if n.bits.length = n.family.width then String.ofList n.text
  else String.ofList n.text ++ "/" ++ toString n.bits.length

def cidr (n : Net) : String :=
  if n.bits.length = n.family.width then n.print ++ "/" ++ toString n.bits.length else n.print

def contains (n : Net) (a : Addr) : Bool := n.family == a.family && n.bits.isPrefixOf a.bits

theorem not_mem_of_parse {s : String} {n : Net} {c : Char} (h : parse s = some n)
    (hc : Text.allowed c = false) : c ∉ s.toList := by
  unfold parse at h
  split at h
  · next hall =>
    intro hmem
    exact absurd (List.all_eq_true.mp hall c hmem) (by simp [hc])
  · cases h

theorem contains_host {a b : Addr} : (host a).contains b = true ↔ b = a := by
  obtain ⟨f,bits,hfull⟩ := a
  obtain ⟨f',bits',hfull'⟩ := b
  simp only [contains, host, Bool.and_eq_true, beq_iff_eq, List.isPrefixOf_iff_prefix, Addr.mk.injEq]
  constructor
  · rintro ⟨rfl,hpre⟩
    exact ⟨rfl,(hpre.eq_of_length (hfull.trans hfull'.symm)).symm⟩
  · rintro ⟨rfl,rfl⟩
    exact ⟨rfl,List.prefix_refl _⟩

theorem of_parse_slash {s : String} {cs ls : List Char} {n : Net} (h : parse s = some n)
    (hs : s.toList = cs ++ '/' :: ls) (hls : '/' ∉ ls) : ∃ a len, Text.addr cs = some a ∧
      Text.decimal ls = some len ∧ len ≤ a.family.width ∧ n = ofAddr a len := by
  have hsplit : s.toList.splitOn '/' = cs.splitOn '/' ++ [ls] := by
    rw [hs, List.splitOn_append_cons_self, List.splitOn_eq_singleton hls]
  have hcs : ['/'].intercalate (cs.splitOn '/') = cs := List.intercalate_splitOn '/'
  unfold parse at h
  rw [hsplit] at h
  split at h
  · cases hparts : cs.splitOn '/' with
    | nil => exact absurd hparts (List.splitOn_ne_nil _ _)
    | cons part rest =>
      rw [hparts] at h hcs
      cases rest with
      | nil =>
        obtain ⟨a,ha,h⟩ := Option.bind_eq_some_iff.mp h
        obtain ⟨len,hlen,h⟩ := Option.bind_eq_some_iff.mp h
        obtain ⟨hlen,hle⟩ := Option.filter_eq_some_iff.mp hlen
        have hpart : part = cs := by simpa [List.intercalate] using hcs
        cases h
        exact ⟨a,len,hpart ▸ ha,hlen,of_decide_eq_true hle,rfl⟩
      | cons part' rest => simp at h
  · cases h

theorem length_of_parse {t : String} {n : Net} (h : parse (t ++ "/32") = some n) :
    n.bits.length = 32 := by
  have htext : (t ++ "/32").toList = t.toList ++ '/' :: ['3','2'] := by simp
  obtain ⟨a,len,-,hlen,hle,rfl⟩ := of_parse_slash h htext (by decide)
  have hthirtytwo : Text.decimal ['3','2'] = some 32 := by decide
  obtain rfl := Option.some.inj (hthirtytwo.symm.trans hlen)
  simp [ofAddr, a.full, hle]

section Longest

variable {ν : Type}

def longest (entries : List (Net × ν)) (a : Addr) : Option ν :=
  ((entries.filter fun e : Net × ν => e.1.contains a).argmax fun e => e.1.bits.length).map Prod.snd

theorem longest_eq_none {entries : List (Net × ν)} {a : Addr} :
    longest entries a = none ↔ ∀ e ∈ entries, e.1.contains a = false := by
  simp [longest, List.argmax_eq_none, List.filter_eq_nil_iff]

theorem longest_mem {entries : List (Net × ν)} {a : Addr} {v : ν}
    (h : longest entries a = some v) : ∃ n, (n,v) ∈ entries ∧ n.contains a = true := by
  obtain ⟨⟨n,w⟩,hmax,rfl⟩ := Option.map_eq_some_iff.mp h
  have hmem := List.mem_filter.mp (List.argmax_mem hmax)
  exact ⟨n,hmem.1,hmem.2⟩

theorem findSome?_least {ρ : Type} {rules : List ρ} {priority : ρ → Nat} (answer : ρ → Option ν)
    (h : rules.Pairwise fun r r' => priority r ≤ priority r') {r : ρ} (hr : r ∈ rules)
    (hanswer : (answer r).isSome) : ∃ first ∈ rules, rules.findSome? answer = answer first ∧
      (answer first).isSome ∧ ∀ r ∈ rules, (answer r).isSome → priority first ≤ priority r := by
  have hsome : (rules.findSome? answer).isSome := List.findSome?_isSome_iff.mpr ⟨r,hr,hanswer⟩
  obtain ⟨v,hv⟩ := Option.isSome_iff_exists.mp hsome
  obtain ⟨before,first,after,rfl,hfirst,hbefore⟩ := List.findSome?_eq_some_iff.mp hv
  refine ⟨first,by simp,hv.trans hfirst.symm,by simp [hfirst],fun r' hr' hanswer' => ?_⟩
  have horder := (List.pairwise_append.mp h).2.1
  rcases List.mem_append.mp hr' with hr' | hr'
  · simp [hbefore r' hr'] at hanswer'
  · rcases List.mem_cons.mp hr' with rfl | hr'
    · exact Nat.le_refl _
    · exact (List.pairwise_cons.mp horder).1 r' hr'

end Longest

theorem eq_host_of_contains {n : Net} {a : Addr} (h : n.contains a = true)
    (hlen : n.bits.length = a.family.width) : n = host a := by
  obtain ⟨f,bits,hfits⟩ := n
  obtain ⟨f',bits',hfull⟩ := a
  simp only [contains, Bool.and_eq_true, beq_iff_eq, List.isPrefixOf_iff_prefix] at h
  obtain ⟨rfl,hinitial⟩ := h
  have hbits : bits = bits' := hinitial.eq_of_length (hlen.trans hfull.symm)
  subst hbits
  rfl

section RoundTrip

theorem toBits_append (width n : Nat) (b : Bool) :
    toBits (width + 1) (2 * n + b.toNat) = toBits width n ++ [b] := by
  have htail : ∀ k, (2 * n + b.toNat).testBit (k + 1) = n.testBit k := by
    intro k
    rw [Nat.testBit_succ]
    congr 1
    cases b
    · simp
    · simp
      omega
  have hlast : (2 * n + b.toNat).testBit 0 = b := by cases b <;> simp [Nat.testBit_zero]
  rw [toBits, toBits, List.range_succ, List.map_append, List.map_singleton, Nat.add_sub_cancel,
    Nat.sub_self, hlast]
  refine congrArg (· ++ [b]) (List.map_congr_left fun i hi => ?_)
  rw [List.mem_range] at hi
  rw [← htail]
  congr 1
  omega

theorem toBits_ofBits (bits : List Bool) : toBits bits.length (ofBits bits) = bits := by
  induction bits using List.reverseRecOn with
  | nil => rfl
  | append_singleton bits b ih =>
    have hof : ofBits (bits ++ [b]) = 2 * ofBits bits + b.toNat := by simp [ofBits]
    rw [List.length_append, List.length_singleton, hof, toBits_append, ih]

theorem ofBits_octet {bits : List Bool} (h : bits.length = 8) : ofBits bits < 256 := by
  match bits, h with
  | [a,b,c,d,e,f,g,h], _ =>
    revert a b c d e f g h
    decide

theorem octet_toDigits {n : Nat} (h : n < 256) : Text.octet (Nat.toDigits 10 n) = some n := by
  simp [Text.octet, Text.decimal_toDigits, h]

theorem not_mem_toDigits {c : Char} (hc : c.isDigit = false) (n : Nat) :
    c ∉ Nat.toDigits 10 n := by
  intro hmem
  have hdigit := Nat.isDigit_of_mem_toDigits (by decide) (by decide) hmem
  simp [hc] at hdigit

theorem allowed_of_mem {n : Nat} {c : Char} (h : c ∈ Nat.toDigits 10 n) :
    Text.allowed c = true := by
  simp [Text.allowed, Nat.isDigit_of_mem_toDigits (by decide) (by decide) h]

theorem mem_intercalate {sep c : Char} {css : List (List Char)} (h : c ∈ [sep].intercalate css) :
    c = sep ∨ ∃ cs ∈ css, c ∈ cs := by
  induction css with
  | nil => simp [List.intercalate] at h
  | cons cs css ih =>
    cases css with
    | nil => exact .inr ⟨cs,by simp,by simpa [List.intercalate] using h⟩
    | cons ds css =>
      rw [List.intercalate_cons_cons, List.mem_append, List.mem_append, List.mem_singleton] at h
      rcases h with (h | h) | h
      · exact .inr ⟨cs,by simp,h⟩
      · exact .inl h
      · exact (ih h).imp_right fun ⟨es,hes,hc⟩ => ⟨es,by simp [hes],hc⟩

theorem mem_splitOn (sep : Char) {c : Char} {cs : List Char} (h : c ∈ cs) :
    c = sep ∨ ∃ part ∈ cs.splitOn sep, c ∈ part := by
  have hcs : [sep].intercalate (cs.splitOn sep) = cs := List.intercalate_splitOn sep
  exact mem_intercalate (hcs.symm ▸ h)

theorem mem_quad {ns : List Nat} {c : Char} (h : c ∈ quad ns) :
    c = '.' ∨ ∃ n ∈ ns, c ∈ Nat.toDigits 10 n := by
  refine (mem_intercalate h).imp_right fun ⟨cs,hcs,hc⟩ => ?_
  obtain ⟨n,hn,rfl⟩ := List.mem_map.mp hcs
  exact ⟨n,hn,hc⟩

theorem not_mem_quad {ns : List Nat} {c : Char} (hc : c.isDigit = false) (hdot : c ≠ '.') :
    c ∉ quad ns := by
  intro h
  rcases mem_quad h with h | ⟨n,-,h⟩
  · exact hdot h
  · exact not_mem_toDigits hc n h

theorem allowed_quad {ns : List Nat} {c : Char} (h : c ∈ quad ns) : Text.allowed c = true := by
  rcases mem_quad h with rfl | ⟨n,-,h⟩
  · rfl
  · exact allowed_of_mem h

theorem splitOn_quad {ns : List Nat} (h : ns ≠ []) :
    (quad ns).splitOn '.' = ns.map (Nat.toDigits 10) := by
  refine List.splitOn_intercalate '.' ?_ (by simpa using h)
  intro l hl
  obtain ⟨n,-,rfl⟩ := List.mem_map.mp hl
  exact not_mem_toDigits rfl n

theorem addr_quad {a b c d : Nat} (ha : a < 256) (hb : b < 256) (hc : c < 256) (hd : d < 256) :
    ∃ h, Text.addr (quad [a,b,c,d]) = some ⟨.v4,[a,b,c,d].flatMap (toBits 8),h⟩ := by
  have hcolon : (quad [a,b,c,d]).contains ':' = false := by
    simpa using (not_mem_quad rfl (by decide) : ':' ∉ quad [a,b,c,d])
  have hoctets : ((quad [a,b,c,d]).splitOn '.').mapM Text.octet = some [a,b,c,d] := by
    rw [splitOn_quad (by simp)]
    simp [octet_toDigits, ha, hb, hc, hd]
  refine ⟨by simp [Family.width],?_⟩
  simp only [Text.addr, hcolon, hoctets, Bool.false_eq_true, if_false]

theorem hexChar_spec (a b c d : Bool) : Text.hexDigit (hexChar [a,b,c,d]) = some (ofBits [a,b,c,d]) ∧
    Text.allowed (hexChar [a,b,c,d]) = true ∧ hexChar [a,b,c,d] ≠ ':' ∧ hexChar [a,b,c,d] ≠ '/' := by
  revert a b c d
  decide

theorem hexGroup_hexText {bits : List Bool} (h : bits.length = 16) :
    Text.hexGroup (hexText bits) = some (ofBits bits) ∧
      ∀ c ∈ hexText bits, Text.allowed c = true ∧ c ≠ ':' ∧ c ≠ '/' := by
  match bits, h with
  | [a,b,c,d,e,f,g,h,i,j,k,l,m,n,o,p], _ =>
    have hone := hexChar_spec a b c d
    have htwo := hexChar_spec e f g h
    have hthree := hexChar_spec i j k l
    have hfour := hexChar_spec m n o p
    refine ⟨?_,?_⟩
    · simp [Text.hexGroup, hexText, hone.1, htwo.1, hthree.1, hfour.1, ofBits]
      omega
    · simp only [hexText, List.take, List.drop, List.map_cons, List.map_nil, List.mem_cons,
        List.not_mem_nil, or_false]
      rintro x (rfl | rfl | rfl | rfl)
      · exact hone.2
      · exact htwo.2
      · exact hthree.2
      · exact hfour.2

theorem atGap_append {cs tail : List Char} (h : ':' ∉ cs) (htail : Text.atGap tail = none) :
    Text.atGap (cs ++ tail) = none := by
  induction cs with
  | nil => exact htail
  | cons c cs ih =>
    have hne : c ≠ ':' := fun heq => h (heq ▸ List.mem_cons_self)
    rw [List.cons_append, Text.atGap.eq_2 _ _ (fun _ heq _ => hne heq),
      ih fun hmem => h (List.mem_cons_of_mem _ hmem)]
    rfl

theorem atGap_intercalate {css : List (List Char)} (h : ∀ cs ∈ css, cs ≠ [] ∧ ':' ∉ cs) :
    Text.atGap ([':'].intercalate css) = none := by
  induction css with
  | nil => rfl
  | cons cs css ih =>
    have hcs := (h cs (by simp)).2
    have hrest := ih fun ds hds => h ds (by simp [hds])
    cases css with
    | nil =>
      have hone : [':'].intercalate [cs] = cs ++ [] := by simp [List.intercalate]
      rw [hone]
      exact atGap_append hcs rfl
    | cons ds css =>
      rw [List.intercalate_cons_cons, List.append_assoc]
      refine atGap_append hcs ?_
      obtain ⟨hne,hcolon⟩ := h ds (by simp)
      cases ds with
      | nil => exact absurd rfl hne
      | cons d ds =>
        have hd : d ≠ ':' := fun heq => hcolon (heq ▸ List.mem_cons_self)
        have hstart : ∃ rest, [':'].intercalate ((d :: ds) :: css) = d :: rest := by
          cases css with
          | nil => exact ⟨ds,by simp [List.intercalate]⟩
          | cons es css => exact ⟨_,by rw [List.intercalate_cons_cons, List.cons_append, List.cons_append]⟩
        obtain ⟨rest,hstart⟩ := hstart
        rw [hstart] at hrest ⊢
        rw [List.singleton_append, Text.atGap.eq_2 _ _ fun _ _ heq => hd (List.cons.inj heq).1, hrest]
        rfl

theorem addr_hex {a b c d e f g h : List Bool}
    (hlen : ∀ p ∈ [a,b,c,d,e,f,g,h], p.length = 16) :
    ∃ hfull, Text.addr ([':'].intercalate [hexText a,hexText b,hexText c,hexText d,hexText e,
        hexText f,hexText g,hexText h]) = some ⟨.v6,[ofBits a,ofBits b,ofBits c,ofBits d,ofBits e,
        ofBits f,ofBits g,ofBits h].flatMap (toBits 16),hfull⟩ ∧
      ∀ x ∈ [':'].intercalate [hexText a,hexText b,hexText c,hexText d,hexText e,hexText f,hexText g,
        hexText h], Text.allowed x = true ∧ x ≠ '/' := by
  have hgroup := fun p hp => hexGroup_hexText (hlen p hp)
  have hcss : ∀ cs ∈ [a,b,c,d,e,f,g,h].map hexText, cs ≠ [] ∧ ':' ∉ cs := by
    intro cs hcs
    obtain ⟨p,hp,rfl⟩ := List.mem_map.mp hcs
    exact ⟨by simp [hexText],fun hc => ((hgroup p hp).2 _ hc).2.1 rfl⟩
  have hsplit := List.splitOn_intercalate ':' (fun cs hcs => (hcss cs hcs).2) (by simp)
  have hgap := atGap_intercalate hcss
  simp only [List.map_cons, List.map_nil] at hsplit hgap
  refine ⟨by simp [Family.width],?_,fun x hx => ?_⟩
  · have hcolon : ([':'].intercalate [hexText a,hexText b,hexText c,hexText d,hexText e,hexText f,
        hexText g,hexText h]).contains ':' = true := by simp [List.intercalate_cons_cons]
    have hne : [':'].intercalate [hexText a,hexText b,hexText c,hexText d,hexText e,hexText f,
        hexText g,hexText h] ≠ [] := by simp [List.intercalate_cons_cons]
    have hgroups : [hexText a,hexText b,hexText c,hexText d,hexText e,hexText f,hexText g,
        hexText h].mapM Text.hexGroup = some [ofBits a,ofBits b,ofBits c,ofBits d,ofBits e,ofBits f,
        ofBits g,ofBits h] := by simp [hgroup]
    simp only [Text.addr, hcolon, if_true, Text.groups, hgap, Text.hexGroups, if_neg hne, hsplit, hgroups]
  · rcases mem_intercalate hx with rfl | ⟨cs,hcs,hx⟩
    · exact ⟨rfl,by decide⟩
    · have hcs' : cs ∈ [a,b,c,d,e,f,g,h].map hexText := hcs
      obtain ⟨p,hp,rfl⟩ := List.mem_map.mp hcs'
      obtain ⟨hallowed,-,hslash⟩ := (hgroup p hp).2 x hx
      exact ⟨hallowed,hslash⟩

theorem flatMap_parts (width : Nat) {k : Nat} {bits : List Bool} (h : bits.length = width * k) :
    (List.range k).flatMap (fun i => (bits.drop (width * i)).take width) = bits := by
  induction k generalizing bits with
  | zero => simpa using h
  | succ k ih =>
    have hdrop : (bits.drop width).length = width * k := by
      rw [List.length_drop, h, Nat.mul_succ, Nat.add_sub_cancel]
    rw [List.range_succ_eq_map, List.flatMap_cons, List.flatMap_map, Nat.mul_zero, List.drop_zero]
    have hrest := ih hdrop
    simp only [List.drop_drop] at hrest
    simp only [Nat.succ_eq_add_one, Nat.mul_add, Nat.mul_one, Nat.add_comm _ width, hrest,
      List.take_append_drop]

variable {n : Net}

theorem length_part {width k i : Nat} (h : n.family.width = width * k) (hi : i < k) :
    (n.part width i).length = width := by
  have hfits := n.fits
  have hroom : width * (i + 1) ≤ width * k := Nat.mul_le_mul_left _ hi
  rw [part, List.length_take, List.length_drop, List.length_append, List.length_replicate]
  rw [Nat.mul_add] at hroom
  omega

theorem flatMap_part {width k : Nat} (h : n.family.width = width * k) :
    ((List.range k).flatMap fun i => toBits width (ofBits (n.part width i))) =
      n.bits ++ List.replicate (n.family.width - n.bits.length) false := by
  have hpart : ∀ i ∈ List.range k, toBits width (ofBits (n.part width i)) = n.part width i := by
    intro i hi
    have hlen := length_part h (List.mem_range.mp hi)
    have hbits := toBits_ofBits (n.part width i)
    rwa [hlen] at hbits
  rw [List.flatMap_congr hpart]
  refine flatMap_parts width ?_
  have hfits := n.fits
  rw [List.length_append, List.length_replicate, ← h]
  omega

theorem addr_text (n : Net) : (∃ a, Text.addr n.text = some a ∧ a.family = n.family ∧
      a.bits.take n.bits.length = n.bits) ∧ ∀ c ∈ n.text, Text.allowed c = true ∧ c ≠ '/' := by
  have htake : (n.bits ++ List.replicate (n.family.width - n.bits.length) false).take n.bits.length =
      n.bits := List.take_left
  unfold text
  cases hfamily : n.family with
  | v4 =>
    have hwidth : n.family.width = 8 * 4 := by rw [hfamily]; rfl
    have hpart := fun i hi => ofBits_octet (length_part hwidth (i := i) hi)
    obtain ⟨hfull,haddr⟩ := addr_quad (hpart 0 (by decide)) (hpart 1 (by decide)) (hpart 2 (by decide))
      (hpart 3 (by decide))
    refine ⟨⟨_,haddr,rfl,?_⟩,fun c hc => ⟨allowed_quad hc,?_⟩⟩
    · have hbits := flatMap_part hwidth
      simp only [List.range_succ, List.range_zero, List.nil_append, List.cons_append,
        List.flatMap_cons, List.flatMap_nil] at hbits
      simp only [List.flatMap_cons, List.flatMap_nil, hbits, htake]
    · rintro rfl
      exact not_mem_quad rfl (by decide) hc
  | v6 =>
    have hwidth : n.family.width = 16 * 8 := by rw [hfamily]; rfl
    have hlen : ∀ p ∈ (List.range 8).map fun i => n.part 16 i, p.length = 16 := by
      intro p hp
      obtain ⟨i,hi,rfl⟩ := List.mem_map.mp hp
      exact length_part hwidth (List.mem_range.mp hi)
    have hbits := flatMap_part hwidth
    simp only [List.range_succ, List.range_zero, List.nil_append, List.cons_append, List.map_cons,
      List.map_nil, List.flatMap_cons, List.flatMap_nil] at hlen hbits ⊢
    obtain ⟨hfull,haddr,hchars⟩ := addr_hex hlen
    refine ⟨⟨_,haddr,rfl,?_⟩,hchars⟩
    simp only [List.flatMap_cons, List.flatMap_nil, hbits, htake]

theorem parse_slash {cs : List Char} {a : Addr} {len : Nat} (h : Text.addr cs = some a)
    (hcs : ∀ c ∈ cs, Text.allowed c = true ∧ c ≠ '/') (hlen : len ≤ a.family.width) {s : String}
    (hs : s.toList = cs ++ '/' :: Nat.toDigits 10 len) :
    parse s = some (ofAddr a len) ∧ parseIface s = some (a,ofAddr a len) := by
  have hsplit : s.toList.splitOn '/' = [cs,Nat.toDigits 10 len] := by
    have hparts : s.toList = ['/'].intercalate [cs,Nat.toDigits 10 len] := by
      simp [hs, List.intercalate_cons_cons]
    rw [hparts]
    refine List.splitOn_intercalate '/' ?_ (by simp)
    simp only [List.mem_cons, List.not_mem_nil, or_false]
    rintro l (rfl | rfl)
    · exact fun hmem => (hcs _ hmem).2 rfl
    · exact not_mem_toDigits rfl _
  have hall : s.toList.all Text.allowed = true := by
    rw [hs, List.all_eq_true]
    intro c hc
    rcases List.mem_append.mp hc with hc | hc
    · exact (hcs c hc).1
    · rcases List.mem_cons.mp hc with rfl | hc
      · rfl
      · exact allowed_of_mem hc
  have hfits : (Text.decimal (Nat.toDigits 10 len)).filter (· ≤ a.family.width) = some len := by
    rw [Text.decimal_toDigits, Option.filter_some, if_pos (by simpa using hlen)]
  simp only [parse, parseIface, hall, if_true, hsplit, h, hfits, Option.bind_eq_bind, Option.bind_some,
    and_self]

theorem toList_cidr (n : Net) : n.cidr.toList = n.text ++ '/' :: Nat.toDigits 10 n.bits.length := by
  unfold cidr print
  split <;> simp

theorem parse_cidr (n : Net) : parse n.cidr = some n := by
  obtain ⟨⟨a,haddr,hfamily,hbits⟩,hchars⟩ := addr_text n
  rw [(parse_slash haddr hchars (hfamily ▸ n.fits) (toList_cidr n)).1, Option.some.injEq]
  obtain ⟨f,bits,hfits⟩ := n
  subst hfamily
  simp [ofAddr, hbits]

end RoundTrip

end Net

example : Net.parse "10.2.128.7/32" = (Net.parse "10.2.128.7") := by decide
example : (Net.parse "10.2.0.0/16").map Net.print = some "10.2.0.0/16" := by decide
example : (Net.parse "::/0").isSome = true := by decide
