import JumpHost.Mesh.Changes
import JumpHost.Models.AuditList

namespace JumpHost.Mesh.Addresses

open Effect
open AuditEvent (isSpace isDigit_of_isSpace)

section Reading

-- `(\S+)`
def word (cs : List Char) : Option String :=
  let taken := cs.takeWhile (!isSpace ·)
  if taken = [] then none else some (String.ofList taken)

-- `inet\s+(\S+)` at this place; the blanks give none back, for a word cannot begin with one
def inetHere : List Char → Option String
  | 'i' :: 'n' :: 'e' :: 't' :: c :: cs => if isSpace c then word (cs.dropWhile isSpace) else none
  | _ => none

-- `/\sinet\s+(\S+)/` at its first place
def inet : List Char → Option String
  | [] => none
  | c :: cs => (if isSpace c then inetHere cs else none).or (inet cs)

def presentIn (out : String) : List String := ((out.toList.splitOn '\n').filterMap inet).eraseDups

end Reading

section Source

structure Ip (σ : Type) where
  addrShow : EStateM String σ (Except Failed String)
  addrAdd : String → EStateM String σ (Except Failed Unit)
  addrDel : String → EStateM String σ (Except Failed Unit)
  linkUp : EStateM String σ Unit

variable {σ : Type}

def addMissing (ip : Ip σ) (name : String) (present : List String) (cidr : String) : EStateM String σ Unit := do
  if !present.contains cidr then
    match ← ip.addrAdd cidr with
    | .ok _ => pure ()
    | .error failed =>
        if failed.fileExists then pure ()
        else throw ("failed to add " ++ cidr ++ " to " ++ name ++ ": " ++ failed.err)

def dropUnwanted (ip : Ip σ) (wanted : List String) (cidr : String) : EStateM String σ Unit := do
  if !wanted.contains cidr then
    let _ ← ip.addrDel cidr

def setAddresses (ip : Ip σ) (name : String) (cidrs : List String) : EStateM String σ Unit := do
  let wanted := cidrs.eraseDups
  let shown ← ip.addrShow
  let present := (shown.toOption.map presentIn).getD []
  wanted.forM (addMissing ip name present)
  present.forM (dropUnwanted ip wanted)
  ip.linkUp

end Source

section Interface

structure Addr where
  text : String
  nonempty : text ≠ ""
  plain : ∀ c ∈ text.toList, isSpace c = false

structure Dev where
  index : Nat
  name : String
  rest : String → String
  oneLine : '\n' ∉ name.toList
  restOneLine : ∀ cidr, '\n' ∉ (rest cidr).toList

def Dev.front (dev : Dev) : List Char :=
  (toString dev.index).toList ++ ": ".toList ++ dev.name.toList ++ "    inet".toList

def Dev.line (dev : Dev) (cidr : String) : List Char :=
  dev.front ++ ' ' :: (cidr.toList ++ ' ' :: (dev.rest cidr).toList)

-- `ip -o -4 addr show dev`
def Dev.printed (dev : Dev) (addrs : List String) : String :=
  String.ofList (addrs.flatMap fun cidr => dev.line cidr ++ ['\n'])

structure Iface where
  addrs : List String
  past : List (List String) := []

def Iface.become (s : Iface) (addrs : List String) : Iface := ⟨addrs,s.past ++ [addrs]⟩

def Dev.ip (dev : Dev) : Ip Iface where
  addrShow s := .ok (.ok (dev.printed s.addrs)) (s.become s.addrs)
  addrAdd cidr s := .ok (.ok ()) (s.become (if s.addrs.contains cidr then s.addrs else s.addrs ++ [cidr]))
  addrDel cidr s := .ok (.ok ()) (s.become (s.addrs.filter (· != cidr)))
  linkUp s := .ok () (s.become s.addrs)

end Interface

section Lines

variable {cs tail a more : List Char}

theorem taken_append (cs tail : List Char) :
    (cs ++ ' ' :: tail).takeWhile (!isSpace ·) = cs.takeWhile (!isSpace ·) := by
  induction cs with
  | nil => rfl
  | cons c cs ih => rw [List.cons_append, List.takeWhile_cons, List.takeWhile_cons, ih]

theorem word_append (hcs : ∃ d ∈ cs, isSpace d = false) :
    word ((cs ++ ' ' :: tail).dropWhile isSpace) = word (cs.dropWhile isSpace) := by
  have hne : (cs.dropWhile isSpace).isEmpty = false := by
    obtain ⟨d,hd,hplain⟩ := hcs
    rw [List.isEmpty_eq_false_iff]
    intro hnil
    have hblank := List.dropWhile_eq_nil_iff.mp hnil d hd
    rw [hplain] at hblank
    cases hblank
  rw [List.dropWhile_append, hne, if_neg Bool.false_ne_true, word, word, taken_append]

theorem word_plain (hne : a ≠ []) (hplain : ∀ c ∈ a, isSpace c = false) :
    word ((a ++ ' ' :: tail).dropWhile isSpace) = some (String.ofList a) := by
  have hall : a.takeWhile (!isSpace ·) = a :=
    List.takeWhile_eq_self_iff.mpr fun c hc => by rw [hplain c hc, Bool.not_false]
  have hdrop : (a ++ ' ' :: tail).dropWhile isSpace = a ++ ' ' :: tail := by
    obtain ⟨c,cs,rfl⟩ := List.exists_cons_of_ne_nil hne
    exact List.dropWhile_cons_of_neg (by simp [hplain c List.mem_cons_self])
  simp only [word, hdrop, taken_append, hall, if_neg hne]

theorem inetHere_append (hlong : 5 ≤ cs.length)
    (hmore : ∀ c more, cs = 'i' :: 'n' :: 'e' :: 't' :: c :: more → ∃ d ∈ more, isSpace d = false) :
    inetHere (cs ++ ' ' :: tail) = inetHere cs := by
  match cs, hlong with
  | x₁ :: x₂ :: x₃ :: x₄ :: c :: more, _ =>
    by_cases heq : x₁ = 'i' ∧ x₂ = 'n' ∧ x₃ = 'e' ∧ x₄ = 't'
    · obtain ⟨rfl,rfl,rfl,rfl⟩ := heq
      have hword : word ((more ++ ' ' :: tail).dropWhile isSpace) = word (more.dropWhile isSpace) :=
        word_append (hmore c more rfl)
      simp only [List.cons_append, inetHere, hword]
    · have hnone : ∀ ys, inetHere (x₁ :: x₂ :: x₃ :: x₄ :: c :: ys) = none := by
        intro ys
        unfold inetHere
        split
        · next h =>
          simp only [List.cons.injEq] at h
          exact absurd ⟨h.1,h.2.1,h.2.2.1,h.2.2.2.1⟩ heq
        · rfl
      rw [List.cons_append, List.cons_append, List.cons_append, List.cons_append, List.cons_append, hnone, hnone]

theorem inetHere_keyword (before : List Char) :
    inetHere (before ++ " inet".toList ++ ' ' :: tail) = inetHere (before ++ " inet".toList) := by
  refine inetHere_append (by simp) fun c more heq => ?_
  cases before with
  | nil => cases heq
  | cons x before =>
    have hlast := congrArg List.getLast? heq
    have hlength := congrArg List.length heq
    simp only [List.getLast?_append, List.length_append, List.length_cons] at hlast hlength
    cases more with
    | nil => simp at hlength
    | cons d more =>
      have hmem : 't' ∈ d :: more := List.mem_of_getLast? (by simpa using hlast.symm)
      exact ⟨'t',hmem,by decide⟩

theorem inet_keyword (hne : a ≠ []) (hplain : ∀ c ∈ a, isSpace c = false) (before : List Char) :
    inet (before ++ " inet".toList ++ ' ' :: (a ++ ' ' :: tail)) =
      some ((inet (before ++ " inet".toList)).getD (String.ofList a)) := by
  induction before with
  | nil =>
    have hhere : inetHere ("inet".toList ++ ' ' :: (a ++ ' ' :: tail)) = some (String.ofList a) := word_plain hne hplain
    have hnone : inet " inet".toList = none := by decide
    rw [List.nil_append, hnone]
    change (inetHere ("inet".toList ++ ' ' :: (a ++ ' ' :: tail))).or _ = _
    rw [hhere]
    rfl
  | cons c before ih =>
    have hhere : inetHere (before ++ " inet".toList ++ ' ' :: (a ++ ' ' :: tail)) =
        inetHere (before ++ " inet".toList) := inetHere_keyword before
    rw [List.cons_append, List.cons_append, inet, inet, ih, hhere]
    cases (if isSpace c then inetHere (before ++ " inet".toList) else none) with
    | none => rfl
    | some w => rfl

end Lines

section Printed

variable {dev : Dev} {a : Addr} {cs : List Char} {addrs : List String} {cidr : String}

theorem plain_newline (h : ∀ c ∈ cs, isSpace c = false) : '\n' ∉ cs := fun hmem => absurd (h _ hmem) (by decide)

theorem inet_line (dev : Dev) (a : Addr) : inet (dev.line a.text) = some ((inet dev.front).getD a.text) := by
  have hne : a.text.toList ≠ [] := fun h => a.nonempty (String.toList_eq_nil_iff.mp h)
  have hfront : dev.front =
      (toString dev.index).toList ++ ": ".toList ++ dev.name.toList ++ "   ".toList ++ " inet".toList := by
    simp [Dev.front]
  rw [Dev.line, hfront, inet_keyword hne a.plain, String.ofList_toList]

theorem line_newline (dev : Dev) (a : Addr) : '\n' ∉ dev.line a.text := by
  have hindex : '\n' ∉ (toString dev.index).toList := by
    rw [Text.toList_toString]
    exact Net.not_mem_toDigits rfl dev.index
  have haddr := plain_newline a.plain
  simp only [Dev.line, Dev.front, List.mem_append, List.mem_cons, not_or]
  exact ⟨⟨⟨⟨hindex,by decide⟩,dev.oneLine⟩,by decide⟩,by decide,haddr,by decide,dev.restOneLine a.text⟩

theorem splitOn_lines (ls : List (List Char)) (h : ∀ l ∈ ls, '\n' ∉ l) :
    (ls.flatMap (· ++ ['\n'])).splitOn '\n' = ls ++ [[]] := by
  induction ls with
  | nil => rfl
  | cons l ls ih =>
    rw [List.flatMap_cons, List.append_assoc, List.singleton_append,
      List.splitOn_append_cons_self_of_not_mem (h l List.mem_cons_self),
      ih fun l' hl' => h l' (List.mem_cons_of_mem l hl'), List.cons_append]

theorem presentIn_printed (dev : Dev) (present : List Addr) : presentIn (dev.printed (present.map Addr.text)) =
    (present.map fun a => (inet dev.front).getD a.text).eraseDups := by
  have htext : (dev.printed (present.map Addr.text)).toList =
      (present.map fun a => dev.line a.text).flatMap (· ++ ['\n']) := by
    rw [Dev.printed, String.toList_ofList, List.flatMap_map, List.flatMap_map]
  have hlines : ∀ l ∈ present.map fun a => dev.line a.text, '\n' ∉ l := by
    intro l hl
    obtain ⟨a,-,rfl⟩ := List.mem_map.mp hl
    exact line_newline dev a
  have hempty : [[]].filterMap inet = [] := rfl
  rw [presentIn, htext, splitOn_lines _ hlines, List.filterMap_append, hempty, List.append_nil, List.filterMap_map]
  congr 1
  rw [← List.filterMap_eq_map]
  exact List.filterMap_congr fun a _ => inet_line dev a

end Printed

section Sets

variable {α : Type*} {present read wanted : Set α}

def settled (present read wanted : Set α) : Set α := (present ∪ wanted \ read) \ (read \ wanted)

theorem settled_eq_iff : settled present read wanted = wanted ↔ present \ read ⊆ wanted ∧ read ∩ wanted ⊆ present := by
  constructor
  · intro h
    refine ⟨fun c hc => ?_,fun c hc => ?_⟩
    · rw [← h]
      exact ⟨.inl hc.1,fun hread => hc.2 hread.1⟩
    · have hmem : c ∈ settled present read wanted := h.symm ▸ hc.2
      exact hmem.1.elim id fun hadded => absurd hc.1 hadded.2
  · rintro ⟨hunread,hread⟩
    ext c
    simp only [settled, Set.mem_sdiff, Set.mem_union]
    have hunread' : c ∈ present → c ∉ read → c ∈ wanted := fun hp hr => hunread ⟨hp,hr⟩
    have hread' : c ∈ read → c ∈ wanted → c ∈ present := fun hr hw => hread ⟨hr,hw⟩
    tauto

end Sets

section Loops

variable {dev : Dev} {name : String} {present wanted cidrs : List String} {s t : Iface} {K : Set String}

theorem mem_added {addrs : List String} {a c : String} :
    c ∈ (if addrs.contains a then addrs else addrs ++ [a]) ↔ c ∈ addrs ∨ c = a := by
  split
  · next hmem =>
    rw [List.contains_iff_mem] at hmem
    exact ⟨.inl,fun h => h.elim id fun heq => heq ▸ hmem⟩
  · rw [List.mem_append, List.mem_singleton]

theorem mem_removed {addrs : List String} {a c : String} : c ∈ addrs.filter (· != a) ↔ c ∈ addrs ∧ c ≠ a := by
  rw [List.mem_filter, bne_iff_ne]

theorem addMissing_apply (cidr : String) : addMissing dev.ip name present cidr s = .ok ()
    (if present.contains cidr then s
      else s.become (if s.addrs.contains cidr then s.addrs else s.addrs ++ [cidr])) := by
  unfold addMissing
  cases present.contains cidr with
  | false => rfl
  | true => rfl

theorem dropUnwanted_apply (cidr : String) : dropUnwanted dev.ip wanted cidr s = .ok ()
    (if wanted.contains cidr then s else s.become (s.addrs.filter (· != cidr))) := by
  unfold dropUnwanted
  cases wanted.contains cidr with
  | false => rfl
  | true => rfl

structure Steady (K : Set String) (s : Iface) : Prop where
  now : ∀ c ∈ K, c ∈ s.addrs
  always : ∀ addrs ∈ s.past, ∀ c ∈ K, c ∈ addrs

theorem Steady.become (h : Steady K s) {addrs : List String} (hnow : ∀ c ∈ K, c ∈ addrs) :
    Steady K (s.become addrs) := by
  refine ⟨hnow,fun addrs' hmem => ?_⟩
  rcases List.mem_append.mp hmem with hold | hnew
  · exact h.always addrs' hold
  · obtain rfl := List.mem_singleton.mp hnew
    exact hnow

theorem addLoop (dev : Dev) (name : String) (present : List String) (hs : Steady K s) (todo : List String) :
    ∃ t, todo.forM (addMissing dev.ip name present) s = .ok () t ∧ Steady K t ∧
      ∀ c, c ∈ t.addrs ↔ c ∈ s.addrs ∨ c ∈ todo ∧ c ∉ present := by
  -- an address whose turn has yet to come counts as added
  let I : List String → Iface → Prop := fun rest u =>
    Steady K u ∧ ∀ c, (c ∈ u.addrs ∨ c ∈ rest ∧ c ∉ present) ↔ c ∈ s.addrs ∨ c ∈ todo ∧ c ∉ present
  have hturn : ∀ a rest u, I (a :: rest) u → ∃ v, addMissing dev.ip name present a u = .ok () v ∧ I rest v := by
    rintro a rest u ⟨hu,hmem⟩
    refine ⟨_,addMissing_apply a,?_⟩
    split
    · next hread =>
      rw [List.contains_iff_mem] at hread
      refine ⟨hu,fun c => (or_congr_right ?_).trans (hmem c)⟩
      rw [List.mem_cons]
      exact ⟨fun h => ⟨.inr h.1,h.2⟩,fun h => ⟨h.1.resolve_left fun heq => h.2 (heq ▸ hread),h.2⟩⟩
    · next hnew =>
      rw [List.contains_iff_mem] at hnew
      refine ⟨hu.become fun c hc => mem_added.mpr (.inl (hu.now c hc)),fun c => ?_⟩
      rw [← hmem c, Iface.become, mem_added, List.mem_cons]
      constructor
      · rintro ((hold | rfl) | hrest)
        · exact .inl hold
        · exact .inr ⟨.inl rfl,hnew⟩
        · exact .inr ⟨.inr hrest.1,hrest.2⟩
      · rintro (hold | ⟨rfl | hrest,hnot⟩)
        · exact .inl (.inl hold)
        · exact .inl (.inr rfl)
        · exact .inr ⟨hrest,hnot⟩
  obtain ⟨t,hrun,ht,hall⟩ := forM_ok I hturn ⟨hs,fun _ => Iff.rfl⟩
  refine ⟨t,hrun,ht,fun c => ?_⟩
  rw [← hall c]
  simp

theorem dropLoop (dev : Dev) (hs : Steady K s) (hK : ∀ c ∈ K, c ∈ wanted) (todo : List String) :
    ∃ t, todo.forM (dropUnwanted dev.ip wanted) s = .ok () t ∧ Steady K t ∧
      ∀ c, c ∈ t.addrs ↔ c ∈ s.addrs ∧ ¬(c ∈ todo ∧ c ∉ wanted) := by
  -- an address whose turn has yet to come counts as gone
  let I : List String → Iface → Prop := fun rest u =>
    Steady K u ∧ ∀ c, (c ∈ u.addrs ∧ ¬(c ∈ rest ∧ c ∉ wanted)) ↔ c ∈ s.addrs ∧ ¬(c ∈ todo ∧ c ∉ wanted)
  have hturn : ∀ a rest u, I (a :: rest) u → ∃ v, dropUnwanted dev.ip wanted a u = .ok () v ∧ I rest v := by
    rintro a rest u ⟨hu,hmem⟩
    refine ⟨_,dropUnwanted_apply a,?_⟩
    split
    · next hkept =>
      rw [List.contains_iff_mem] at hkept
      refine ⟨hu,fun c => (and_congr_right fun _ => not_congr ?_).trans (hmem c)⟩
      rw [List.mem_cons]
      exact ⟨fun h => ⟨.inr h.1,h.2⟩,fun h => ⟨h.1.resolve_left fun heq => h.2 (heq ▸ hkept),h.2⟩⟩
    · next hgone =>
      rw [List.contains_iff_mem] at hgone
      refine ⟨hu.become fun c hc => mem_removed.mpr ⟨hu.now c hc,fun heq => hgone (heq ▸ hK c hc)⟩,fun c => ?_⟩
      rw [← hmem c, Iface.become, mem_removed, List.mem_cons]
      constructor
      · rintro ⟨⟨hold,hne⟩,hrest⟩
        exact ⟨hold,fun h => hrest ⟨h.1.resolve_left hne,h.2⟩⟩
      · rintro ⟨hold,hnot⟩
        exact ⟨⟨hold,fun heq => hnot ⟨.inl heq,heq ▸ hgone⟩⟩,fun h => hnot ⟨.inr h.1,h.2⟩⟩
  obtain ⟨t,hrun,ht,hall⟩ := forM_ok I hturn ⟨hs,fun _ => Iff.rfl⟩
  refine ⟨t,hrun,ht,fun c => ?_⟩
  rw [← hall c]
  simp

theorem setAddresses_ok (dev : Dev) (name : String) (cidrs : List String) (s : Iface) (hs : Steady K s)
    (hK : ∀ c ∈ K, c ∈ cidrs) : ∃ t, setAddresses dev.ip name cidrs s = .ok () t ∧ Steady K t ∧
      {c | c ∈ t.addrs} = settled {c | c ∈ s.addrs} {c | c ∈ presentIn (dev.printed s.addrs)} {c | c ∈ cidrs} := by
  have hshown : Steady K (s.become s.addrs) := hs.become hs.now
  have hwanted : ∀ c ∈ K, c ∈ cidrs.eraseDups := fun c hc => List.mem_eraseDups.mpr (hK c hc)
  obtain ⟨u,hadd,hu,hadded⟩ := addLoop dev name (presentIn (dev.printed s.addrs)) hshown cidrs.eraseDups
  obtain ⟨v,hdrop,hv,hdropped⟩ := dropLoop dev hu hwanted (presentIn (dev.printed s.addrs))
  have hshow : dev.ip.addrShow s = .ok (.ok (dev.printed s.addrs)) (s.become s.addrs) := rfl
  refine ⟨v.become v.addrs,?_,hv.become hv.now,Set.ext fun c => ?_⟩
  · rw [setAddresses, bind_of_ok hshow]
    simp only [Except.toOption, Option.map_some, Option.getD_some]
    rw [bind_of_ok hadd, bind_of_ok hdrop]
    rfl
  · change c ∈ v.addrs ↔ _
    rw [hdropped, hadded]
    simp only [List.mem_eraseDups]
    rfl

end Loops

section Names

variable {dev : Dev} {cs tail : List Char}

theorem inet_skip (h : ∀ c ∈ cs, isSpace c = false) (tail : List Char) : inet (cs ++ tail) = inet tail := by
  induction cs with
  | nil => rfl
  | cons c cs ih =>
    rw [List.cons_append, inet, h c List.mem_cons_self, if_neg Bool.false_ne_true, Option.none_or,
      ih fun d hd => h d (List.mem_cons_of_mem c hd)]

theorem inetHere_name (hplain : ∀ c ∈ cs, isSpace c = false) (hname : cs ≠ "inet".toList) (tail : List Char) :
    inetHere (cs ++ ' ' :: tail) = none := by
  unfold inetHere
  split
  · next c more heq =>
    by_cases hblank : isSpace c = true
    · have htaken := congrArg (List.takeWhile (!isSpace ·)) heq
      have hcs : cs.takeWhile (!isSpace ·) = cs :=
        List.takeWhile_eq_self_iff.mpr fun d hd => by rw [hplain d hd, Bool.not_false]
      have hkeyword : ('i' :: 'n' :: 'e' :: 't' :: c :: more).takeWhile (!isSpace ·) = "inet".toList := by
        have hstop : (c :: more).takeWhile (!isSpace ·) = [] := List.takeWhile_cons_of_neg (by simp [hblank])
        change 'i' :: 'n' :: 'e' :: 't' :: (c :: more).takeWhile (!isSpace ·) = _
        rw [hstop]
        rfl
      rw [taken_append, hcs, hkeyword] at htaken
      exact absurd htaken hname
    · rw [if_neg hblank]
  · rfl

theorem inet_front (hplain : ∀ c ∈ dev.name.toList, isSpace c = false) (hname : dev.name ≠ "inet") :
    inet dev.front = none := by
  have hindex : ∀ c ∈ (toString dev.index).toList ++ [':'], isSpace c = false := by
    rw [Text.toList_toString]
    refine List.forall_mem_append.mpr ⟨fun c hc => ?_,List.forall_mem_singleton.mpr (by decide)⟩
    by_contra hblank
    exact Net.not_mem_toDigits (isDigit_of_isSpace (by simpa using hblank)) dev.index hc
  have hfront : dev.front = (toString dev.index).toList ++ [':'] ++ ' ' :: (dev.name.toList ++ "    inet".toList) := by
    simp [Dev.front]
  have hkeyword : dev.name.toList ≠ "inet".toList := fun h => hname (String.toList_injective h)
  have hhere : inetHere (dev.name.toList ++ "    inet".toList) = none := inetHere_name hplain hkeyword "   inet".toList
  have hlast : inet "    inet".toList = none := by decide
  rw [hfront, inet_skip hindex, inet, hhere, inet_skip hplain, hlast]
  rfl

end Names

section Boxes

variable {dev : Dev} {present : List Addr} {cidrs : List String} {w : World}

def Dev.boxIp (dev : Dev) : Ip World where
  addrShow := query (.addrShow dev.name) fun b => dev.printed (b.addrs dev.name)
  addrAdd cidr := tryRun (.addrAdd cidr dev.name)
  addrDel cidr := tryRun (.addrDel cidr dev.name)
  linkUp := run (.linkUp dev.name)

theorem eraseDups_nodup {ls : List String} (h : ls.Nodup) : ls.eraseDups = ls := by
  induction ls with
  | nil => rfl
  | cons l ls ih =>
    obtain ⟨hnot,hrest⟩ := List.nodup_cons.mp h
    have hfilter : ls.filter (fun l' => !l' == l) = ls :=
      List.filter_eq_self.mpr fun l' hl' => by simpa using fun heq : l' = l => hnot (heq ▸ hl')
    rw [List.eraseDups_cons, hfilter, ih hrest]

theorem query_show {α : Type} (d : String) (output : Box → α) (w : World) :
    query (.addrShow d) output w =
      .ok ((w.issue (.addrShow d)).1.map fun _ => output w.box) (w.issue (.addrShow d)).2 := by
  have hbox : (w.issue (.addrShow d)).2.box = w.box := (box_issue w (.addrShow d)).elim id (step_reads rfl)
  change EStateM.Result.ok ((w.issue (.addrShow d)).1.map fun _ => output (w.issue (.addrShow d)).2.box) _ = _
  rw [hbox]

theorem setAddresses_box (hfront : inet dev.front = none) (haddrs : w.box.addrs dev.name = present.map Addr.text)
    (hnodup : (present.map Addr.text).Nodup) :
    setAddresses dev.boxIp dev.name cidrs w = Mesh.setAddresses dev.name cidrs w := by
  have hread : presentIn (dev.printed (w.box.addrs dev.name)) = w.box.addrs dev.name := by
    rw [haddrs, presentIn_printed, hfront]
    exact eraseDups_nodup hnodup
  have hshow : dev.boxIp.addrShow w = _ := query_show dev.name (fun b => dev.printed (b.addrs dev.name)) w
  have hshow' := query_show dev.name (fun b => ((b.links.get? dev.name).map Link.addrs).getD []) w
  rw [setAddresses, Mesh.setAddresses, bind_of_ok hshow, bind_of_ok hshow']
  cases (w.issue (.addrShow dev.name)).1 with
  | error failed => rfl
  | ok _ =>
    simp only [Except.map, Except.toOption, Option.map_some, Option.getD_some, hread]
    rfl

end Boxes

section Convergence

variable {dev : Dev} {present : List Addr} {cidrs : List String}

def Converges (dev : Dev) (present : List Addr) (cidrs : List String) : Prop :=
  ∃ t, setAddresses dev.ip dev.name cidrs { addrs := present.map Addr.text } = .ok () t ∧
    (∀ c, c ∈ t.addrs ↔ c ∈ cidrs) ∧ ∀ addrs ∈ t.past, ∀ a ∈ present, a.text ∈ cidrs → a.text ∈ addrs

def Legible (dev : Dev) (present : List Addr) (cidrs : List String) : Prop :=
  inet dev.front = none ∨ ∃ w, inet dev.front = some w ∧ (∀ a ∈ present, a.text = w ∨ a.text ∈ cidrs) ∧
    (w ∈ cidrs → present = [] ∨ ∃ a ∈ present, a.text = w)

theorem mem_presentIn {c : String} : c ∈ presentIn (dev.printed (present.map Addr.text)) ↔
    ∃ a ∈ present, (inet dev.front).getD a.text = c := by
  rw [presentIn_printed, List.mem_eraseDups, List.mem_map]

theorem legible_iff : Legible dev present cidrs ↔
    settled {c | c ∈ present.map Addr.text} {c | c ∈ presentIn (dev.printed (present.map Addr.text))}
      {c | c ∈ cidrs} = {c | c ∈ cidrs} := by
  rw [settled_eq_iff]
  cases hfront : inet dev.front with
  | none =>
    have hread : ∀ c, c ∈ presentIn (dev.printed (present.map Addr.text)) ↔ c ∈ present.map Addr.text := by
      intro c
      rw [mem_presentIn, hfront, List.mem_map]
      rfl
    refine iff_of_true (.inl hfront) ⟨fun c hc => ?_,fun c hc => (hread c).mp hc.1⟩
    exact absurd ((hread c).mpr hc.1) hc.2
  | some w =>
    have hread : ∀ c, c ∈ presentIn (dev.printed (present.map Addr.text)) ↔ ∃ a ∈ present, w = c := by
      intro c
      rw [mem_presentIn, hfront]
      rfl
    constructor
    · rintro (hnone | ⟨w',hw,hwanted,htaken⟩)
      · rw [hfront] at hnone
        cases hnone
      · obtain rfl := Option.some.inj (hfront.symm.trans hw)
        refine ⟨fun c hc => ?_,fun c hc => ?_⟩
        · obtain ⟨a,ha,rfl⟩ := List.mem_map.mp hc.1
          exact (hwanted a ha).resolve_left fun heq => hc.2 ((hread _).mpr ⟨a,ha,heq.symm⟩)
        · obtain ⟨a,ha,rfl⟩ := (hread c).mp hc.1
          rcases htaken hc.2 with hnil | ⟨b,hb,hbw⟩
          · rw [hnil] at ha
            cases ha
          · exact List.mem_map.mpr ⟨b,hb,hbw⟩
    · rintro ⟨hunread,htaken⟩
      refine .inr ⟨w,hfront,fun a ha => ?_,fun hw => ?_⟩
      · by_cases heq : a.text = w
        · exact .inl heq
        · refine .inr (hunread ⟨List.mem_map_of_mem ha,fun hmem => ?_⟩)
          obtain ⟨-,-,hw⟩ := (hread a.text).mp hmem
          exact heq hw.symm
      · by_cases hnil : present = []
        · exact .inl hnil
        · obtain ⟨a,ha⟩ := List.exists_mem_of_ne_nil present hnil
          exact .inr (List.mem_map.mp (htaken ⟨(hread w).mpr ⟨a,ha,rfl⟩,hw⟩))

theorem converges_iff_settled : Converges dev present cidrs ↔
    settled {c | c ∈ present.map Addr.text} {c | c ∈ presentIn (dev.printed (present.map Addr.text))}
      {c | c ∈ cidrs} = {c | c ∈ cidrs} := by
  let K : Set String := {c | c ∈ present.map Addr.text ∧ c ∈ cidrs}
  have hs : Steady K { addrs := present.map Addr.text } := ⟨fun c hc => hc.1,nofun⟩
  obtain ⟨t,hrun,ht,haddrs⟩ := setAddresses_ok dev dev.name cidrs _ hs fun c hc => hc.2
  rw [← haddrs]
  constructor
  · rintro ⟨t',hrun',hfinal,-⟩
    rw [hrun] at hrun'
    cases hrun'
    exact Set.ext hfinal
  · intro hfinal
    refine ⟨t,hrun,fun c => Set.ext_iff.mp hfinal c,fun addrs hmem a ha hwanted => ?_⟩
    exact ht.always addrs hmem a.text ⟨List.mem_map_of_mem ha,hwanted⟩

theorem converges_of_name (hplain : ∀ c ∈ dev.name.toList, isSpace c = false) (hname : dev.name ≠ "inet")
    (present : List Addr) (cidrs : List String) : Converges dev present cidrs :=
  converges_iff_settled.mpr (legible_iff.mp (.inl (inet_front hplain hname)))

theorem addresses_converge (dev : Dev) (present : List Addr) (cidrs : List String) :
    Converges dev present cidrs ↔ Legible dev present cidrs :=
  converges_iff_settled.trans legible_iff.symm

def inetDev : Dev where
  index := 3
  name := "inet"
  rest _ := "scope global inet"
  oneLine := by decide
  restOneLine _ := by decide

theorem plain_of_all {text : String} (h : text.toList.all (!isSpace ·) = true) :
    ∀ c ∈ text.toList, isSpace c = false := by
  intro c hc
  simpa using List.all_eq_true.mp h c hc

def oldRouter : Addr := ⟨"10.1.0.1/16",by decide,plain_of_all (by decide)⟩

theorem stale_address_stays : ¬ Converges inetDev [oldRouter] [] := by
  have hfront : inet inetDev.front = some "inet" := by decide +kernel
  intro h
  rcases legible_iff.mpr (converges_iff_settled.mp h) with hnone | ⟨w,hw,hwanted,-⟩
  · rw [hfront] at hnone
    cases hnone
  · obtain rfl := Option.some.inj (hfront.symm.trans hw)
    exact absurd (hwanted oldRouter List.mem_cons_self) (by decide)

end Convergence

end JumpHost.Mesh.Addresses
