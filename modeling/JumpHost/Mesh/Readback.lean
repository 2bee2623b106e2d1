import JumpHost.Library.Quad
import JumpHost.Library.Scan
import JumpHost.Mesh.Addresses

namespace JumpHost.Mesh

open AuditEvent (isSpace isDigit_of_isSpace)

section Rules

-- `\s+lookup\s+(\S+)/`
def readLookup (cs : List Char) : Option (List Char) := do
  let cs ← Scan.skip isSpace cs
  let cs ← Scan.lit "lookup".toList cs
  let cs ← Scan.skip isSpace cs
  let (table,_) ← Scan.many (!isSpace ·) cs
  some table

-- `/^(\d+):\s+from\s+(\S+)` and the rest: no run of it can give a character back to the next
def readRule (line : List Char) : Option (List Char × List Char × List Char) := do
  let (priority,cs) ← Scan.many Char.isDigit line
  let cs ← Scan.lit ":".toList cs
  let cs ← Scan.skip isSpace cs
  let cs ← Scan.lit "from".toList cs
  let cs ← Scan.skip isSpace cs
  let (source,cs) ← Scan.many (!isSpace ·) cs
  let table ← readLookup cs
  some (priority,source,table)

-- `/^\d{1,3}(\.\d{1,3}){3}$/`
def quadText (cs : List Char) : Bool :=
  let parts := cs.splitOn '.'
  parts.length == 4 && parts.all fun part => 1 ≤ part.length && part.length ≤ 3 && part.all Char.isDigit

structure LiveRule where
  priority : Nat
  source : String
  table : String
deriving DecidableEq

def liveRule (line : List Char) : Option LiveRule :=
  (readRule (Scan.trim isSpace line)).bind fun (digits,source,table) =>
    let priority := Nat.ofDigitChars 10 digits 0
    if RULE_PRIORITY_BASE ≤ priority ∧ priority ≤ RULE_PRIORITY_BASE + 254 then
      let source := if quadText source then source ++ "/32".toList else source
      some ⟨priority,String.ofList source,String.ofList table⟩
    else none

def rulesOf (out : String) : List LiveRule := (out.toList.splitOn '\n').filterMap liveRule

-- a rule as `ip -o rule show` prints it
def IpRule.line (r : IpRule) : List Char :=
  Nat.toDigits 10 r.priority ++ ":\tfrom ".toList ++ ((r.source.map Net.print).getD "all").toList ++
    r.extra.flatMap (fun selector => ' ' :: selector.toList) ++ " lookup ".toList ++ (tableText r.table).toList

def IpRule.v4 (r : IpRule) : Bool := r.source.all fun net => net.family = .v4

def Box.ruleText (b : Box) : String :=
  String.ofList ((b.rules.filter IpRule.v4).flatMap fun r => r.line ++ [' ','\n'])

def ManagedRule.live (m : ManagedRule) : LiveRule := ⟨m.priority,m.source,tableText m.table⟩

def Selector (text : String) : Prop :=
  '\n' ∉ text.toList ∧ (text.toList.head?.any fun c => !isSpace c && c != 'l') = true

instance : DecidablePred Selector := fun _ => inferInstanceAs (Decidable (_ ∧ _))

variable {r : IpRule} {net : Net} {cs : List Char}

theorem Selector.head {text : String} (h : Selector text) :
    ∃ c cs, text.toList = c :: cs ∧ isSpace c = false ∧ c ≠ 'l' := by
  have hhead := h.2
  cases hcs : text.toList with
  | nil => simp [hcs] at hhead
  | cons c cs =>
    simp only [hcs, List.head?_cons, Option.any_some, Bool.and_eq_true, Bool.not_eq_true', bne_iff_ne] at hhead
    exact ⟨c,cs,rfl,hhead⟩

theorem digit_not_space {c : Char} (h : c.isDigit = true) : isSpace c = false := by
  by_contra hspace
  rw [Bool.not_eq_false] at hspace
  rw [isDigit_of_isSpace hspace] at h
  cases h

theorem toDigits_plain (n : Nat) : ∀ c ∈ Nat.toDigits 10 n, isSpace c = false :=
  fun _ hc => digit_not_space (Nat.isDigit_of_mem_toDigits (by decide) (by decide) hc)

theorem length_toDigits {n : Nat} (h : n < 256) : (Nat.toDigits 10 n).length ≤ 3 := by
  have hall : ∀ m : Fin 256, (Nat.toDigits 10 m).length ≤ 3 := by decide +kernel
  exact hall ⟨n,h⟩

theorem octet_lt (net : Net) (h : net.family = .v4) : ∀ n ∈ net.octets, n < 256 := by
  intro n hn
  obtain ⟨i,hi,rfl⟩ := List.mem_map.mp hn
  exact Net.ofBits_octet (Net.length_part (by rw [h]; rfl) (List.mem_range.mp hi))

theorem toList_print (h : net.family = .v4) : net.print.toList = Net.quad net.octets ++
    if net.bits.length = 32 then [] else '/' :: Nat.toDigits 10 net.bits.length := by
  have hwidth : net.family.width = 32 := by rw [h]; rfl
  have htext : net.text = Net.quad net.octets := by rw [Net.text, h]
  rw [Net.print, hwidth, htext]
  split
  · simp
  · simp

theorem print_plain (h : net.family = .v4) : ∀ c ∈ net.print.toList, isSpace c = false := by
  intro c hc
  rw [toList_print h] at hc
  by_contra hspace
  rw [Bool.not_eq_false] at hspace
  have hdigit := isDigit_of_isSpace hspace
  have hdot : c ≠ '.' := fun heq => by rw [heq] at hspace; exact absurd hspace (by decide)
  rcases List.mem_append.mp hc with hquad | hlength
  · exact Net.not_mem_quad hdigit hdot hquad
  · split at hlength
    · cases hlength
    · rcases List.mem_cons.mp hlength with rfl | hdigits
      · exact absurd hspace (by decide)
      · exact Net.not_mem_toDigits hdigit _ hdigits

theorem quadText_print (h : net.family = .v4) : quadText net.print.toList = decide (net.bits.length = 32) := by
  have hne : net.octets ≠ [] := by simp [Net.octets]
  rw [toList_print h]
  split
  · next hfull =>
    have hpart : ∀ n ∈ net.octets, (1 ≤ (Nat.toDigits 10 n).length && (Nat.toDigits 10 n).length ≤ 3 &&
        (Nat.toDigits 10 n).all Char.isDigit) = true := by
      intro n hn
      have hpos : 1 ≤ (Nat.toDigits 10 n).length := List.length_pos_of_ne_nil Nat.toDigits_ne_nil
      have hlength := length_toDigits (octet_lt net h n hn)
      have hdigits : (Nat.toDigits 10 n).all Char.isDigit = true :=
        List.all_eq_true.mpr fun _ hc => Nat.isDigit_of_mem_toDigits (by decide) (by decide) hc
      simp only [hpos, hlength, hdigits, decide_true, Bool.and_self]
    have hparts : (net.octets.map (Nat.toDigits 10)).all (fun part =>
        1 ≤ part.length && part.length ≤ 3 && part.all Char.isDigit) = true := by
      rw [List.all_map]
      exact List.all_eq_true.mpr hpart
    have hlength : (net.octets.map (Nat.toDigits 10)).length = 4 := by simp [Net.octets]
    simp only [quadText, List.append_nil, Net.splitOn_quad hne, hlength, hparts, hfull, decide_true]
    rfl
  · next hpartial =>
    have hmem : '/' ∈ Net.quad net.octets ++ '/' :: Nat.toDigits 10 net.bits.length := by simp
    obtain ⟨part,hpart,hslash⟩ := (Net.mem_splitOn '.' hmem).resolve_left (by decide)
    rw [decide_eq_false hpartial, quadText, Bool.and_eq_false_iff]
    refine .inr (List.all_eq_false.mpr ⟨part,hpart,fun hall => ?_⟩)
    rw [Bool.and_eq_true] at hall
    exact absurd (List.all_eq_true.mp hall.2 '/' hslash) (by decide)

theorem source_cidr (h : net.family = .v4) :
    (if quadText net.print.toList then net.print.toList ++ "/32".toList else net.print.toList) = net.cidr.toList := by
  have htext : net.text = Net.quad net.octets := by rw [Net.text, h]
  rw [Net.toList_cidr, htext, quadText_print h, toList_print h]
  by_cases hfull : net.bits.length = 32
  · have hlength : Nat.toDigits 10 32 = ['3','2'] := rfl
    simp [hfull, hlength]
  · simp [hfull]

theorem source_all : quadText "all".toList = false := rfl

def sourceText (source : Option Net) : List Char := ((source.map Net.print).getD "all").toList

theorem sourceText_plain {source : Option Net} (h : source.all (fun net => net.family = .v4) = true) :
    ∀ c ∈ sourceText source, isSpace c = false := by
  cases source with
  | none => exact Scan.plain_of_all (by decide)
  | some net => exact print_plain (by simpa using h)

theorem sourceText_ne_nil {source : Option Net} (h : source.all (fun net => net.family = .v4) = true) :
    sourceText source ≠ [] := by
  cases source with
  | none => decide
  | some net =>
    have hfamily : net.family = .v4 := by simpa using h
    have hquad : Net.quad net.octets ≠ [] := by
      intro hnil
      have hne : net.octets ≠ [] := by simp [Net.octets]
      have hsplit := Net.splitOn_quad hne
      rw [hnil] at hsplit
      simpa [Net.octets] using congrArg List.length hsplit
    simp [sourceText, toList_print hfamily, hquad]

theorem normalised_source {source : Option Net} (h : source.all (fun net => net.family = .v4) = true) :
    String.ofList (if quadText (sourceText source) then sourceText source ++ "/32".toList else sourceText source) =
      (source.map Net.cidr).getD "all" := by
  cases source with
  | none =>
    simp only [sourceText, Option.map_none, Option.getD_none, source_all, Bool.false_eq_true, if_false]
    exact String.ofList_toList
  | some net =>
    have hfamily : net.family = .v4 := by simpa using h
    exact (congrArg String.ofList (source_cidr hfamily)).trans String.ofList_toList

theorem tableText_plain (table : Nat) : ∀ c ∈ (tableText table).toList, isSpace c = false := by
  unfold tableText
  split
  · exact Scan.plain_of_all (by decide)
  · split
    · exact Scan.plain_of_all (by decide)
    · split
      · exact Scan.plain_of_all (by decide)
      · rw [Text.toList_toString]
        exact toDigits_plain table

theorem tableText_ne_nil (table : Nat) : (tableText table).toList ≠ [] := by
  unfold tableText
  split
  · decide
  · split
    · decide
    · split
      · decide
      · rw [Text.toList_toString]
        exact Nat.toDigits_ne_nil

def IpRule.rest (r : IpRule) : List Char :=
  r.extra.flatMap (fun selector => ' ' :: selector.toList) ++ " lookup ".toList ++ (tableText r.table).toList

theorem line_eq (r : IpRule) : r.line = Nat.toDigits 10 r.priority ++ (":".toList ++ ("\t".toList ++ ("from".toList ++
    (" ".toList ++ (sourceText r.source ++ r.rest))))) := by
  have htext : ":\tfrom ".toList = ":".toList ++ ("\t".toList ++ ("from".toList ++ " ".toList)) := rfl
  simp only [IpRule.line, IpRule.rest, sourceText, htext, List.append_assoc]

theorem rest_blank (r : IpRule) : ∃ cs, r.rest = ' ' :: cs := by
  unfold IpRule.rest
  cases r.extra with
  | nil => exact ⟨_,rfl⟩
  | cons e es => exact ⟨_,rfl⟩

theorem readLookup_rest (hextra : ∀ e ∈ r.extra, Selector e) :
    readLookup r.rest = if r.extra = [] then some (tableText r.table).toList else none := by
  have hblank : ∀ c ∈ " ".toList, isSpace c = true := List.all_eq_true.mp (by decide)
  unfold IpRule.rest
  cases hes : r.extra with
  | nil =>
    obtain ⟨t,ts,ht⟩ := List.exists_cons_of_ne_nil (tableText_ne_nil r.table)
    have hplain : isSpace t = false := tableText_plain r.table t (by rw [ht]; exact List.mem_cons_self)
    have htext : [].flatMap (fun selector : String => ' ' :: selector.toList) ++ " lookup ".toList ++
        (tableText r.table).toList =
          " ".toList ++ ("lookup".toList ++ (" ".toList ++ (tableText r.table).toList)) := rfl
    have hfirst : Scan.skip isSpace (" ".toList ++ ("lookup".toList ++ (" ".toList ++ (tableText r.table).toList))) =
        some ("lookup".toList ++ (" ".toList ++ (tableText r.table).toList)) :=
      Scan.skip_append (by decide) hblank (Scan.ends_cons (by decide))
    have hsecond : Scan.skip isSpace (" ".toList ++ (tableText r.table).toList) = some (tableText r.table).toList :=
      Scan.skip_append (by decide) hblank (by rw [ht]; exact Scan.ends_cons hplain)
    have hend : Scan.many (!isSpace ·) ((tableText r.table).toList ++ []) = some ((tableText r.table).toList,[]) :=
      Scan.many_append (tableText_ne_nil r.table) (fun c hc => by simp [tableText_plain r.table c hc])
        (by simp [Scan.Ends])
    rw [List.append_nil] at hend
    rw [htext, readLookup, hfirst]
    simp only [Option.bind_eq_bind, Option.bind_some, Scan.lit_append, hsecond, hend, if_true]
  | cons e es =>
    obtain ⟨c,cs,he,hc,hl⟩ := (hextra e (by rw [hes]; exact List.mem_cons_self)).head
    have htext : (e :: es).flatMap (fun selector : String => ' ' :: selector.toList) ++ " lookup ".toList ++
        (tableText r.table).toList = " ".toList ++ (c :: (cs ++ (es.flatMap (fun selector => ' ' :: selector.toList) ++
          " lookup ".toList ++ (tableText r.table).toList))) := by
      rw [List.flatMap_cons, he]
      simp
    have hfirst : Scan.skip isSpace (" ".toList ++ (c :: (cs ++ (es.flatMap (fun selector => ' ' :: selector.toList) ++
        " lookup ".toList ++ (tableText r.table).toList)))) = some (c :: (cs ++
          (es.flatMap (fun selector => ' ' :: selector.toList) ++ " lookup ".toList ++ (tableText r.table).toList))) :=
      Scan.skip_append (by decide) hblank (Scan.ends_cons hc)
    have hlit (more : List Char) : Scan.lit "lookup".toList (c :: more) = none := by
      have hne : ('l' == c) = false := beq_false_of_ne (Ne.symm hl)
      simp [Scan.lit, List.isPrefixOf, hne]
    rw [htext, readLookup, hfirst]
    simp only [Option.bind_eq_bind, Option.bind_some, hlit, Option.bind_none]
    simp

theorem readRule_line (hv4 : r.v4 = true) (hextra : ∀ e ∈ r.extra, Selector e) : readRule r.line =
    if r.extra = [] then some (Nat.toDigits 10 r.priority,sourceText r.source,(tableText r.table).toList)
    else none := by
  obtain ⟨c,cs,hsource⟩ := List.exists_cons_of_ne_nil (sourceText_ne_nil hv4)
  obtain ⟨tail,hrest⟩ := rest_blank r
  have hhead : isSpace c = false := sourceText_plain hv4 c (by rw [hsource]; exact List.mem_cons_self)
  have hpriority : Scan.many Char.isDigit r.line = some (Nat.toDigits 10 r.priority,":".toList ++ ("\t".toList ++
      ("from".toList ++ (" ".toList ++ (sourceText r.source ++ r.rest))))) := by
    rw [line_eq]
    exact Scan.many_append Nat.toDigits_ne_nil (fun _ hc => Nat.isDigit_of_mem_toDigits (by decide) (by decide) hc)
      (Scan.ends_cons rfl)
  have htab : Scan.skip isSpace ("\t".toList ++ ("from".toList ++ (" ".toList ++ (sourceText r.source ++ r.rest)))) =
      some ("from".toList ++ (" ".toList ++ (sourceText r.source ++ r.rest))) :=
    Scan.skip_append (by decide) (List.all_eq_true.mp (by decide)) (Scan.ends_cons (by decide))
  have hblank : Scan.skip isSpace (" ".toList ++ (sourceText r.source ++ r.rest)) =
      some (sourceText r.source ++ r.rest) :=
    Scan.skip_append (by decide) (List.all_eq_true.mp (by decide)) (by rw [hsource]; exact Scan.ends_cons hhead)
  have hword : Scan.many (!isSpace ·) (sourceText r.source ++ r.rest) = some (sourceText r.source,r.rest) :=
    Scan.many_append (sourceText_ne_nil hv4) (fun d hd => by simp [sourceText_plain hv4 d hd])
      (by rw [hrest]; exact Scan.ends_cons rfl)
  rw [readRule, hpriority]
  simp only [Option.bind_eq_bind, Option.bind_some, Scan.lit_append, htab, hblank, hword, readLookup_rest hextra]
  split <;> rfl

theorem trim_line (r : IpRule) : Scan.trim isSpace (r.line ++ [' ']) = r.line := by
  have hdigits := Nat.toDigits_ne_nil (n := r.priority) (b := 10)
  obtain ⟨c,cs,hcs⟩ := List.exists_cons_of_ne_nil hdigits
  have hhead : isSpace c = false := toDigits_plain r.priority c (by rw [hcs]; exact List.mem_cons_self)
  have hline : ∃ front, r.line = front ++ (tableText r.table).toList := ⟨_,rfl⟩
  obtain ⟨front,hfront⟩ := hline
  refine Scan.trim_append ?_ ?_ ?_ (List.all_eq_true.mp (by decide))
  · rw [line_eq, hcs]
    exact Scan.ends_cons hhead
  · rw [hfront, List.reverse_append]
    obtain ⟨t,ts,ht⟩ := List.exists_cons_of_ne_nil (show (tableText r.table).toList.reverse ≠ [] by
      simpa using tableText_ne_nil r.table)
    rw [ht]
    refine Scan.ends_cons (tableText_plain r.table t ?_)
    rw [← List.mem_reverse, ht]
    exact List.mem_cons_self
  · rw [line_eq, hcs]
    exact List.cons_ne_nil _ _

theorem liveRule_line (hv4 : r.v4 = true) (hextra : ∀ e ∈ r.extra, Selector e) :
    liveRule (r.line ++ [' ']) = r.managed.map ManagedRule.live := by
  rw [liveRule, trim_line, readRule_line hv4 hextra]
  by_cases hnone : r.extra = []
  · have hdigits : Nat.ofDigitChars 10 (Nat.toDigits 10 r.priority) 0 = r.priority := Nat.ofDigitChars_ten_toDigits
    simp only [hnone, if_true, Option.bind_some, hdigits, IpRule.managed, true_and]
    have hall : (r.source.all fun net => decide (net.family = .v4)) = true := hv4
    by_cases hband : RULE_PRIORITY_BASE ≤ r.priority ∧ r.priority ≤ RULE_PRIORITY_BASE + 254
    · simp only [hband, hall, and_self, if_true, Option.map_some, ManagedRule.live, normalised_source hv4,
        String.ofList_toList]
    · simp [hband]
  · simp [IpRule.managed, hnone]

theorem line_newline (hv4 : r.v4 = true) (hextra : ∀ e ∈ r.extra, Selector e) : '\n' ∉ r.line ++ [' '] := by
  have hpriority := Addresses.plain_newline (toDigits_plain r.priority)
  have hsource := Addresses.plain_newline (sourceText_plain hv4)
  have htable := Addresses.plain_newline (tableText_plain r.table)
  have hselectors : '\n' ∉ r.extra.flatMap fun selector => ' ' :: selector.toList := by
    intro hmem
    obtain ⟨e,he,hc⟩ := List.mem_flatMap.mp hmem
    exact (hextra e he).1 ((List.mem_cons.mp hc).resolve_left (by decide))
  simp only [line_eq, IpRule.rest, List.mem_append, not_or]
  exact ⟨⟨hpriority,by decide,by decide,by decide,by decide,hsource,⟨hselectors,by decide⟩,htable⟩,by decide⟩

theorem managed_v4 {m : ManagedRule} (h : r.managed = some m) : r.v4 = true := by
  simp only [IpRule.managed, Option.ite_none_right_eq_some] at h
  exact h.1.2.2

theorem rulesOf_ruleText {b : Box} (hextra : ∀ r ∈ b.rules, ∀ e ∈ r.extra, Selector e) :
    rulesOf b.ruleText = (b.rules.filterMap IpRule.managed).map ManagedRule.live := by
  have hsel : ∀ r ∈ b.rules.filter IpRule.v4, r.v4 = true ∧ ∀ e ∈ r.extra, Selector e := fun r hr =>
    ⟨(List.mem_filter.mp hr).2,hextra r (List.mem_filter.mp hr).1⟩
  have htext : b.ruleText.toList =
      ((b.rules.filter IpRule.v4).map fun r => r.line ++ [' ']).flatMap (· ++ ['\n']) := by
    simp [Box.ruleText, List.flatMap_map]
  have hlines : ∀ l ∈ (b.rules.filter IpRule.v4).map fun r => r.line ++ [' '], '\n' ∉ l := by
    intro l hl
    obtain ⟨r,hr,rfl⟩ := List.mem_map.mp hl
    exact line_newline (hsel r hr).1 (hsel r hr).2
  have hempty : [[]].filterMap liveRule = [] := rfl
  have hread : (b.rules.filter IpRule.v4).filterMap (fun r => liveRule (r.line ++ [' '])) =
      (b.rules.filter IpRule.v4).filterMap fun r => r.managed.map ManagedRule.live :=
    List.filterMap_congr fun r hr => liveRule_line (hsel r hr).1 (hsel r hr).2
  rw [rulesOf, htext, Addresses.splitOn_lines _ hlines, List.filterMap_append, hempty, List.append_nil,
    List.filterMap_map]
  refine hread.trans ?_
  rw [List.filterMap_filter, List.map_filterMap]
  refine List.filterMap_congr fun r _ => ?_
  split
  · rfl
  · next hv4 =>
    cases hm : r.managed with
    | none => rfl
    | some m => exact absurd (managed_v4 hm) hv4

end Rules

section Links

-- `(wg-exit-(\d+))[:@]/`
def readName (cs : List Char) : Option (Nat × String) := do
  let cs ← Scan.lit "wg-exit-".toList cs
  let (digits,cs) ← Scan.many Char.isDigit cs
  if cs.head?.any fun c => c = ':' ∨ c = '@' then
    some (Nat.ofDigitChars 10 digits 0,String.ofList ("wg-exit-".toList ++ digits))
  else none

-- `/^\d+:\s+` and the rest
def readLink (line : List Char) : Option (Nat × String) := do
  let (_,cs) ← Scan.many Char.isDigit line
  let cs ← Scan.lit ":".toList cs
  let cs ← Scan.skip isSpace cs
  readName cs

def linksOf (out : String) : OrdMap Nat String :=
  ((out.toList.splitOn '\n').filterMap fun line => readLink (Scan.trim isSpace line)).foldl
    (fun found link => found.set link.1 link.2) .empty

structure LinkShow where
  index : String → Nat
  mark : String → Bool
  rest : String → List Char
  oneLine : ∀ name, '\n' ∉ rest name

def LinkShow.front (shown : LinkShow) (name : String) : List Char :=
  Nat.toDigits 10 (shown.index name) ++ (":".toList ++ (" ".toList ++ (name.toList ++
    [if shown.mark name then '@' else ':'])))

def Box.linkText (b : Box) (shown : LinkShow) : String :=
  String.ofList (b.links.keys.flatMap fun name => (shown.front name ++ shown.rest name) ++ ['\n'])

-- a name the kernel takes for a link; it refuses blanks and `:`, and `@` only sets off a link's parent
def LinkName (name : String) : Prop :=
  name ≠ "" ∧ name.toList.all (fun c => !isSpace c && c != ':' && c != '@') = true

instance : DecidablePred LinkName := fun _ => inferInstanceAs (Decidable (_ ∧ _))

variable {shown : LinkShow} {name : String} {cs : List Char} {c : Char}

theorem LinkName.plain (h : LinkName name) : ∀ c ∈ name.toList, isSpace c = false ∧ c ≠ ':' ∧ c ≠ '@' := by
  intro c hc
  have hplain := List.all_eq_true.mp h.2 c hc
  simp only [Bool.and_eq_true, Bool.not_eq_true', bne_iff_ne] at hplain
  exact ⟨hplain.1.1,hplain.1.2,hplain.2⟩

theorem lit_none (hc : c ∉ "wg-exit-".toList) (h : "wg-exit-".toList.isPrefixOf name.toList = false) :
    Scan.lit "wg-exit-".toList (name.toList ++ c :: cs) = none := by
  rw [Scan.lit, if_neg]
  rw [List.isPrefixOf_iff_prefix]
  intro hstarts
  have hall : name.toList ++ [c] <+: name.toList ++ c :: cs := ⟨cs,by simp⟩
  rcases List.prefix_or_prefix_of_prefix hstarts hall with hname | hlong
  · rcases List.prefix_concat_iff.mp hname with heq | hpre
    · exact hc (heq ▸ List.mem_append_right _ (List.mem_singleton_self c))
    · rw [List.isPrefixOf_iff_prefix.mpr hpre] at h
      cases h
  · exact hc (hlong.subset (List.mem_append_right _ (List.mem_singleton_self c)))

theorem exists_stop {ds : List Char} (cs : List Char) (hc : c.isDigit = false)
    (hds : ¬ (ds ≠ [] ∧ ds.all Char.isDigit = true)) :
    ∃ run d more, ds ++ c :: cs = run ++ d :: more ∧ (∀ x ∈ run, x.isDigit = true) ∧ d.isDigit = false ∧
      (run = [] ∨ d ∈ ds) := by
  by_cases hall : ds.all Char.isDigit = true
  · have hnil : ds = [] := by
      by_contra hne
      exact hds ⟨hne,hall⟩
    subst hnil
    exact ⟨[],c,cs,rfl,by simp,hc,.inl rfl⟩
  · have hrest : ds.dropWhile Char.isDigit ≠ [] := fun hnil =>
      hall (List.all_eq_true.mpr (List.dropWhile_eq_nil_iff.mp hnil))
    obtain ⟨d,more,hdrop⟩ := List.exists_cons_of_ne_nil hrest
    have hsplit : ds = ds.takeWhile Char.isDigit ++ d :: more := by rw [← hdrop, List.takeWhile_append_dropWhile]
    have hd : d.isDigit = false := by
      have hhead := List.head_dropWhile_not Char.isDigit hrest
      simpa [hdrop] using hhead
    refine ⟨ds.takeWhile Char.isDigit,d,more ++ c :: cs,?_,fun x hx => List.mem_takeWhile_imp hx,hd,.inr ?_⟩
    · conv => lhs; rw [hsplit]
      simp
    · rw [hsplit]
      simp

theorem readName_eq (hname : LinkName name) (hc : c = ':' ∨ c = '@') :
    readName (name.toList ++ c :: cs) = (exitIfaceId name).map fun id => (id,name) := by
  have hnot : c.isDigit = false := by rcases hc with rfl | rfl <;> rfl
  have hmark : c ∉ "wg-exit-".toList := by rcases hc with rfl | rfl <;> decide
  cases hstarts : "wg-exit-".toList.isPrefixOf name.toList with
  | false =>
    have hnone : exitIfaceId name = none := if_neg fun h => by
      rw [hstarts] at h
      cases h.1
    rw [readName, lit_none hmark hstarts, hnone]
    rfl
  | true =>
    obtain ⟨ds,hds⟩ := List.isPrefixOf_iff_prefix.mp hstarts
    have hdrop : name.toList.drop "wg-exit-".length = ds := by
      rw [← hds]
      exact List.drop_left
    have htext : String.ofList ("wg-exit-".toList ++ ds) = name := by rw [hds, String.ofList_toList]
    have hlit : Scan.lit "wg-exit-".toList (name.toList ++ c :: cs) = some (ds ++ c :: cs) := by
      rw [← hds, List.append_assoc, Scan.lit_append]
    have hid : exitIfaceId name =
        if ds ≠ [] ∧ ds.all Char.isDigit = true then some (Nat.ofDigitChars 10 ds 0) else none := by
      simp only [exitIfaceId, hstarts, hdrop, true_and]
    rw [readName, hlit, hid, Option.bind_eq_bind, Option.bind_some]
    by_cases hdigits : ds ≠ [] ∧ ds.all Char.isDigit = true
    · have hmany : Scan.many Char.isDigit (ds ++ c :: cs) = some (ds,c :: cs) :=
        Scan.many_append hdigits.1 (List.all_eq_true.mp hdigits.2) (Scan.ends_cons hnot)
      have hstop : ((c :: cs).head?.any fun c => c = ':' ∨ c = '@') = true := by simpa using hc
      simp only [hmany, if_pos hdigits, Option.bind_eq_bind, Option.bind_some, htext, hstop, if_true,
        Option.map_some]
    · obtain ⟨run,d,more,hsplit,hrun,hd,hplace⟩ := exists_stop cs hnot hdigits
      rw [hsplit, if_neg hdigits]
      rcases List.eq_nil_or_concat run with rfl | ⟨_,_,hne⟩
      · rw [List.nil_append, Scan.many_none (Scan.ends_cons hd)]
        rfl
      · have hne : run ≠ [] := by simp [hne]
        have hmem : d ∈ name.toList := hds ▸ List.mem_append_right _ (hplace.resolve_left hne)
        have hstop : ¬ (d = ':' ∨ d = '@') := not_or.mpr (hname.plain d hmem).2
        rw [Scan.many_append hne hrun (Scan.ends_cons hd), Option.bind_eq_bind, Option.bind_some]
        exact if_neg (by simpa using hstop)

theorem readLink_line (shown : LinkShow) (hname : LinkName name) :
    readLink (Scan.trim isSpace (shown.front name ++ shown.rest name)) =
      (exitIfaceId name).map fun id => (id,name) := by
  have hdigits : Nat.toDigits 10 (shown.index name) ≠ [] := Nat.toDigits_ne_nil
  obtain ⟨x,xs,hx⟩ := List.exists_cons_of_ne_nil hdigits
  have hne : shown.front name ≠ [] := by simp [LinkShow.front, hx]
  have hhead : Scan.Ends isSpace (shown.front name) := by
    rw [LinkShow.front, hx]
    exact Scan.ends_cons (toDigits_plain _ x (hx ▸ List.mem_cons_self))
  have hlast : Scan.Ends isSpace (shown.front name).reverse := by
    simp only [LinkShow.front, List.reverse_append, List.reverse_singleton, List.append_assoc]
    refine Scan.ends_cons ?_
    split <;> decide
  obtain ⟨y,ys,hy⟩ := List.exists_cons_of_ne_nil (mt String.toList_eq_nil_iff.mp hname.1)
  rw [Scan.trim_front hhead hlast hne]
  generalize ((shown.rest name).reverse.dropWhile isSpace).reverse = tail
  have hmark : (if shown.mark name then '@' else ':') = ':' ∨ (if shown.mark name then '@' else ':') = '@' := by
    split
    · exact .inr rfl
    · exact .inl rfl
  have htext : shown.front name ++ tail = Nat.toDigits 10 (shown.index name) ++ (":".toList ++ (" ".toList ++
      (name.toList ++ (if shown.mark name then '@' else ':') :: tail))) := by
    simp [LinkShow.front]
  have hindex : Scan.many Char.isDigit (shown.front name ++ tail) = some (Nat.toDigits 10 (shown.index name),
      ":".toList ++ (" ".toList ++ (name.toList ++ (if shown.mark name then '@' else ':') :: tail))) := by
    rw [htext]
    exact Scan.many_append hdigits (fun _ hc => Nat.isDigit_of_mem_toDigits (by decide) (by decide) hc)
      (Scan.ends_cons rfl)
  have hblank : Scan.skip isSpace (" ".toList ++ (name.toList ++ (if shown.mark name then '@' else ':') :: tail)) =
      some (name.toList ++ (if shown.mark name then '@' else ':') :: tail) :=
    Scan.skip_append (by decide) (List.all_eq_true.mp (by decide)) (by
      rw [hy]
      exact Scan.ends_cons (hname.plain y (hy ▸ List.mem_cons_self)).1)
  rw [readLink, hindex]
  simp only [Option.bind_eq_bind, Option.bind_some, Scan.lit_append, hblank, readName_eq hname hmark]

theorem front_newline (shown : LinkShow) (hname : LinkName name) : '\n' ∉ shown.front name ++ shown.rest name := by
  have hindex := Addresses.plain_newline (toDigits_plain (shown.index name))
  have htext := Addresses.plain_newline fun c hc => (hname.plain c hc).1
  have hmark : '\n' ∉ [if shown.mark name then '@' else ':'] := by split <;> decide
  simp only [LinkShow.front, List.mem_append, not_or]
  exact ⟨⟨hindex,by decide,by decide,htext,hmark⟩,shown.oneLine name⟩

theorem addExit_eq (found : OrdMap Nat String) (name : String) : addExit found name =
    ((exitIfaceId name).map fun id => (id,name)).toList.foldl (fun found link => found.set link.1 link.2) found := by
  rw [addExit]
  cases exitIfaceId name <;> rfl

theorem linksOf_linkText {b : Box} (shown : LinkShow) (hnames : ∀ name ∈ b.links.keys, LinkName name) :
    linksOf (b.linkText shown) = b.exitInterfaces := by
  have htext : (b.linkText shown).toList =
      (b.links.keys.map fun name => shown.front name ++ shown.rest name).flatMap (· ++ ['\n']) := by
    simp [Box.linkText, List.flatMap_map]
  have hlines : ∀ l ∈ b.links.keys.map fun name => shown.front name ++ shown.rest name, '\n' ∉ l := by
    intro l hl
    obtain ⟨name,hname,rfl⟩ := List.mem_map.mp hl
    exact front_newline shown (hnames name hname)
  have hempty : [[]].filterMap (fun line => readLink (Scan.trim isSpace line)) = [] := rfl
  have hread : b.links.keys.filterMap (fun name => readLink (Scan.trim isSpace (shown.front name ++ shown.rest name))) =
      b.links.keys.filterMap fun name => (exitIfaceId name).map fun id => (id,name) :=
    List.filterMap_congr fun name hname => readLink_line shown (hnames name hname)
  rw [linksOf, htext, Addresses.splitOn_lines _ hlines, List.filterMap_append, hempty, List.append_nil,
    List.filterMap_map]
  refine (congrArg (List.foldl _ _) hread).trans ?_
  rw [Box.exitInterfaces]
  generalize (OrdMap.empty : OrdMap Nat String) = found
  induction b.links.keys generalizing found with
  | nil => rfl
  | cons name names ih =>
    rw [List.foldl_cons, ← ih, addExit_eq]
    cases hid : exitIfaceId name with
    | none => simp [hid]
    | some id => simp [hid]

end Links

end JumpHost.Mesh
