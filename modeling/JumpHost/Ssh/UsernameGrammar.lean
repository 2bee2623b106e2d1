import JumpHost.Library.Net

namespace UsernameGrammar

def SEP : String := "_-_"

def isDigit (c : Char) : Bool := '0' ≤ c && c ≤ '9'

def isLower (c : Char) : Bool := 'a' ≤ c && c ≤ 'z'

def isUpper (c : Char) : Bool := 'A' ≤ c && c ≤ 'Z'

def isPunct (c : Char) : Bool := c == '.' || c == '_' || c == '-'

-- /^[a-z_][a-z0-9._-]{0,31}$/
def UID_RE : List Char → Bool
  | [] => false
  | c :: cs => (isLower c || c == '_') && cs.length ≤ 31 &&
      cs.all (fun d => isLower d || isDigit d || isPunct d)

-- /^[a-z0-9][a-z0-9._-]{0,127}$/i
def TARGET_RE : List Char → Bool
  | [] => false
  | c :: cs => (isLower c || isUpper c || isDigit c) && cs.length ≤ 127 &&
      cs.all (fun d => isLower d || isUpper d || isDigit d || isPunct d)

def octet (o : List Char) : Bool :=
  1 ≤ o.length && o.length ≤ 3 && o.all isDigit && Nat.ofDigitChars 10 o 0 ≤ 255

def isIPv4 (s : String) : Bool :=
  let parts := s.toList.splitOn '.'
  parts.length == 4 && parts.all octet

def indexOf (sep : List Char) : List Char → Option Nat
  | [] => if sep.isEmpty then some 0 else none
  | c :: cs => if sep.isPrefixOf (c :: cs) then some 0 else (indexOf sep cs).map (· + 1)

structure Parsed where
  uid : String
  target : Option String
deriving DecidableEq, Repr

def parseUsername (username : String) : Except String Parsed :=
  if username.toList.isEmpty then .error "Empty username"
  else match indexOf SEP.toList username.toList with
    | none =>
        if UID_RE username.toList then .ok ⟨username,none⟩
        else .error ("Invalid username: " ++ username)
    | some idx =>
        let uid := String.ofList (username.toList.take idx)
        let target := String.ofList (username.toList.drop (idx + SEP.toList.length))
        if !UID_RE uid.toList then .error ("Invalid uid in username: " ++ uid)
        else if target.toList.isEmpty || (!TARGET_RE target.toList && !isIPv4 target) then
          .error ("Invalid target in username: " ++ target)
        else .ok ⟨uid,some target⟩

theorem parseUsername_ok {username : String} {p : Parsed} (h : parseUsername username = .ok p) :
    UID_RE p.uid.toList = true ∧ ∀ t, p.target = some t →
      t ≠ "" ∧ (TARGET_RE t.toList = true ∨ isIPv4 t = true) := by
  unfold parseUsername at h
  split at h
  · simp at h
  · split at h
    · split at h
      · next hu =>
        cases h
        exact ⟨hu,by simp⟩
      · simp at h
    · dsimp only at h
      split at h
      · simp at h
      · next hu =>
        split at h
        · simp at h
        · next ht =>
          cases h
          simp only [Bool.not_eq_true, Bool.or_eq_false_iff, Bool.and_eq_false_iff,
            Bool.not_eq_false'] at hu ht
          refine ⟨by simpa using hu,?_⟩
          rintro t ⟨⟩
          exact ⟨fun he => by simp [he] at ht,ht.2⟩

example : parseUsername "alice_-_web01" = .ok ⟨"alice",some "web01"⟩ := rfl

def AcceptedUid (uid : String) : Prop := parseUsername uid = .ok ⟨uid,none⟩

def AcceptedTarget (target : String) : Prop := ∃ username uid, parseUsername username = .ok ⟨uid,some target⟩

def Parsed.username (p : Parsed) : String := p.target.elim p.uid fun target => p.uid ++ SEP ++ target

def Parsed.Legal (p : Parsed) : Prop := AcceptedUid p.uid ∧ ∀ target, p.target = some target → AcceptedTarget target

def RoundTrips (uid target : String) : Prop := parseUsername (uid ++ SEP ++ target) = .ok ⟨uid,some target⟩

def Converse : Prop := ∀ username p, parseUsername username = .ok p → username = p.username

def Unambiguous : Prop := ∀ p q : Parsed, p.Legal → q.Legal → p.username = q.username → p = q

def EndsInSep (uid : String) : Prop := "_-".toList <:+ uid.toList

section Splitting

variable {sep cs u t : List Char} {idx : Nat} {uid target username : String} {p q : Parsed}

theorem indexOf_some (h : indexOf sep cs = some idx) :
    cs = cs.take idx ++ sep ++ cs.drop (idx + sep.length) := by
  induction cs generalizing idx with
  | nil =>
    obtain ⟨hsep,h⟩ := Option.ite_none_right_eq_some.mp h
    obtain rfl := Option.some.inj h
    rw [List.isEmpty_iff.mp hsep]
    rfl
  | cons c cs ih =>
    simp only [indexOf] at h
    split at h
    · next hprefix =>
      obtain rfl := Option.some.inj h
      obtain ⟨rest,hrest⟩ := List.isPrefixOf_iff_prefix.mp hprefix
      rw [← hrest]
      simp
    · obtain ⟨i,hi,rfl⟩ := Option.map_eq_some_iff.mp h
      rw [Nat.add_right_comm, List.take_succ_cons, List.drop_succ_cons, List.cons_append, List.cons_append, ← ih hi]

theorem indexOf_append (hno : indexOf SEP.toList u = none) (hend : ¬ "_-".toList <:+ u) :
    indexOf SEP.toList (u ++ SEP.toList ++ t) = some u.length := by
  induction u with
  | nil => simp [indexOf, SEP]
  | cons c cs ih =>
    simp only [indexOf] at hno
    split at hno
    · cases hno
    · next hprefix =>
      have hcs : ¬ "_-".toList <:+ cs := fun h => hend (h.trans (List.suffix_cons c cs))
      have hskip : ¬ SEP.toList.isPrefixOf (c :: (cs ++ SEP.toList ++ t)) = true := by
        cases cs with
        | nil => simp [SEP]
        | cons d cs =>
          cases cs with
          | nil =>
            intro h
            simp [SEP] at h
            obtain ⟨rfl,rfl⟩ := h
            exact hend (List.suffix_refl _)
          | cons e cs => simpa [SEP] using hprefix
      simp only [List.cons_append, indexOf, hskip, ih (Option.map_eq_none_iff.mp hno) hcs]
      rfl

theorem indexOf_le (sep x t : List Char) : ∃ i, indexOf sep (x ++ sep ++ t) = some i ∧ i ≤ x.length := by
  induction x with
  | nil =>
    refine ⟨0,?_,Nat.le_refl 0⟩
    have hprefix : sep.isPrefixOf (sep ++ t) = true := List.isPrefixOf_iff_prefix.mpr (List.prefix_append sep t)
    rw [List.nil_append]
    cases hcs : sep ++ t with
    | nil =>
      rw [List.append_eq_nil_iff.mp hcs |>.1]
      rfl
    | cons c cs =>
      rw [hcs] at hprefix
      rw [indexOf, if_pos hprefix]
  | cons c x ih =>
    obtain ⟨i,hi,hle⟩ := ih
    simp only [List.cons_append, indexOf, hi, Option.map_some, List.length_cons]
    split
    · exact ⟨0,rfl,Nat.zero_le _⟩
    · exact ⟨i + 1,rfl,by omega⟩

theorem isIPv4_chars (h : isIPv4 target = true) {c : Char} (hc : c ∈ target.toList) : c = '.' ∨ isDigit c = true := by
  simp only [isIPv4, Bool.and_eq_true, List.all_eq_true] at h
  refine (Net.mem_splitOn _ hc).imp_right ?_
  rintro ⟨part,hpart,hmem⟩
  have hoctet := h.2 part hpart
  simp only [octet, Bool.and_eq_true, List.all_eq_true] at hoctet
  exact hoctet.1.2 c hmem

theorem parseUsername_some (h : parseUsername username = .ok ⟨uid,some target⟩) :
    ∃ idx, indexOf SEP.toList username.toList = some idx ∧ uid.toList = username.toList.take idx ∧
      target.toList = username.toList.drop (idx + SEP.toList.length) := by
  unfold parseUsername at h
  split at h
  · cases h
  · split at h
    · split at h <;> cases h
    · next idx hidx =>
      dsimp only at h
      split at h
      · cases h
      · split at h
        · cases h
        · cases h
          exact ⟨idx,hidx,String.toList_ofList,String.toList_ofList⟩

theorem parseUsername_none (h : parseUsername username = .ok ⟨uid,none⟩) :
    uid = username ∧ indexOf SEP.toList username.toList = none := by
  unfold parseUsername at h
  split at h
  · cases h
  · split at h
    · next hidx =>
      split at h
      · cases h
        exact ⟨rfl,hidx⟩
      · cases h
    · dsimp only at h
      split at h
      · cases h
      · split at h <;> cases h

theorem username_toList : (uid ++ SEP ++ target).toList = uid.toList ++ SEP.toList ++ target.toList := by
  rw [String.toList_append, String.toList_append]

theorem parseUsername_username (h : parseUsername username = .ok p) : username = p.username := by
  obtain ⟨uid,target⟩ := p
  cases target with
  | none => exact (parseUsername_none h).1.symm
  | some target =>
    obtain ⟨idx,hidx,huid,htarget⟩ := parseUsername_some h
    refine String.toList_inj.mp ?_
    rw [Parsed.username, Option.elim_some, username_toList, huid, htarget]
    exact indexOf_some hidx

end Splitting

section RoundTrip

variable {uid target : String} {p q : Parsed}

theorem AcceptedUid.free (h : AcceptedUid uid) : indexOf SEP.toList uid.toList = none :=
  (parseUsername_none h).2

theorem AcceptedTarget.legal (h : AcceptedTarget target) :
    target ≠ "" ∧ (TARGET_RE target.toList = true ∨ isIPv4 target = true) := by
  obtain ⟨username,uid,hparse⟩ := h
  exact (parseUsername_ok hparse).2 target rfl

theorem AcceptedTarget.head (h : AcceptedTarget target) {cs : List Char} : target.toList ≠ '-' :: cs := by
  intro hcs
  rcases h.legal.2 with hre | hip
  · rw [hcs] at hre
    simp [TARGET_RE, isLower, isUpper, isDigit] at hre
  · rcases isIPv4_chars hip (hcs ▸ List.mem_cons_self) with h | h
    · cases h
    · exact absurd h (by decide)

theorem roundTrips (hu : AcceptedUid uid) (ht : AcceptedTarget target) (hend : ¬ EndsInSep uid) :
    RoundTrips uid target := by
  obtain ⟨hne,hlegal⟩ := ht.legal
  have hre : UID_RE uid.toList = true := (parseUsername_ok hu).1
  have hidx := indexOf_append (t := target.toList) hu.free hend
  have htake : (uid.toList ++ SEP.toList ++ target.toList).take uid.toList.length = uid.toList := by
    rw [List.append_assoc, List.take_left]
  have hdrop : (uid.toList ++ SEP.toList ++ target.toList).drop (uid.toList.length + SEP.toList.length) =
      target.toList := by
    rw [← List.length_append, List.drop_left]
  have hfull : (uid.toList ++ SEP.toList ++ target.toList).isEmpty = false := by simp [SEP]
  have htarget : (target.toList.isEmpty || (!TARGET_RE target.toList && !isIPv4 target)) = false := by
    rcases hlegal with hre | hip
    · simp [hne, hre]
    · simp [hne, hip]
  simp only [RoundTrips, parseUsername, username_toList, hfull, hidx, htake, hdrop, String.ofList_toList, hre, htarget,
    Bool.false_eq_true, if_false, Bool.not_true]

theorem not_roundTrips (hend : EndsInSep uid) : ¬ RoundTrips uid target := by
  intro h
  obtain ⟨x,hx⟩ := hend
  obtain ⟨idx,hidx,huid,-⟩ := parseUsername_some h
  have hearly : (uid ++ SEP ++ target).toList = x ++ SEP.toList ++ ("-_".toList ++ target.toList) := by
    rw [username_toList, ← hx]
    simp [SEP]
  rw [hearly] at hidx huid
  obtain ⟨i,hi,hle⟩ := indexOf_le SEP.toList x ("-_".toList ++ target.toList)
  obtain rfl := Option.some.inj (hi.symm.trans hidx)
  have hlen := congrArg List.length huid
  rw [← hx, List.length_append, List.length_take] at hlen
  have htwo : "_-".toList.length = 2 := rfl
  omega

theorem roundTrips_iff (hu : AcceptedUid uid) (ht : AcceptedTarget target) : RoundTrips uid target ↔ ¬ EndsInSep uid :=
  ⟨fun h hend => not_roundTrips hend h,roundTrips hu ht⟩

theorem append_uid {w t t' : List Char} {u : List Char} (hu : indexOf SEP.toList (u ++ w) = none)
    (ht : ∀ cs, t ≠ '-' :: cs) (h : SEP.toList ++ t = w ++ SEP.toList ++ t') : w = [] := by
  cases w with
  | nil => rfl
  | cons a w =>
    cases w with
    | nil => simp [SEP] at h
    | cons b w =>
      cases w with
      | nil =>
        simp [SEP] at h
        exact absurd h.2.2 (ht _)
      | cons c w =>
        simp [SEP] at h
        obtain ⟨rfl,rfl,rfl,-⟩ := h
        obtain ⟨i,hi,-⟩ := indexOf_le SEP.toList u w
        rw [List.append_assoc] at hi
        cases hi.symm.trans hu

theorem username_injective (hp : p.Legal) (hq : q.Legal) (h : p.username = q.username) : p = q := by
  obtain ⟨uid,target⟩ := p
  obtain ⟨uid',target'⟩ := q
  have hlists := congrArg String.toList h
  have hfree : indexOf SEP.toList uid.toList = none := hp.1.free
  have hfree' : indexOf SEP.toList uid'.toList = none := hq.1.free
  cases target with
  | none => cases target' with
    | none =>
      cases h
      rfl
    | some t' =>
      rw [Parsed.username, Parsed.username, Option.elim_none, Option.elim_some, username_toList] at hlists
      obtain ⟨i,hi,-⟩ := indexOf_le SEP.toList uid'.toList t'.toList
      cases (hlists ▸ hi).symm.trans hfree
  | some t => cases target' with
    | none =>
      rw [Parsed.username, Parsed.username, Option.elim_none, Option.elim_some, username_toList] at hlists
      obtain ⟨i,hi,-⟩ := indexOf_le SEP.toList uid.toList t.toList
      cases (hlists ▸ hi).symm.trans hfree'
    | some t' =>
      rw [Parsed.username, Parsed.username, Option.elim_some, Option.elim_some, username_toList, username_toList,
        List.append_assoc, List.append_assoc, List.append_eq_append_iff] at hlists
      rcases hlists with ⟨w,huid',hrest⟩ | ⟨w,huid,hrest⟩
      · have hw : w = [] := append_uid (huid' ▸ hfree') (fun cs => (hp.2 t rfl).head) (by simpa using hrest)
        subst hw
        rw [List.append_nil] at huid'
        obtain rfl := String.toList_inj.mp huid'
        obtain rfl := String.toList_inj.mp (List.append_cancel_left hrest)
        rfl
      · have hw : w = [] := append_uid (huid ▸ hfree) (fun cs => (hq.2 t' rfl).head) (by simpa using hrest)
        subst hw
        rw [List.append_nil] at huid
        obtain rfl := String.toList_inj.mp huid
        obtain rfl := String.toList_inj.mp (List.append_cancel_left hrest)
        rfl

theorem grammar_iff (uid target : String) (hu : AcceptedUid uid) (ht : AcceptedTarget target) :
    (RoundTrips uid target ↔ ¬ EndsInSep uid) ∧ Converse ∧ Unambiguous :=
  ⟨roundTrips_iff hu ht,fun _ _ => parseUsername_username,fun _ _ => username_injective⟩

theorem roundTrips_alice : RoundTrips "alice" "web01" :=
  (grammar_iff "alice" "web01" rfl ⟨"alice_-_web01","alice",rfl⟩).1.mpr (by unfold EndsInSep; decide)

theorem dash_uid_unparsed : ¬ ((∀ uid target, AcceptedUid uid → AcceptedTarget target → RoundTrips uid target) ∧
    Converse ∧ Unambiguous) := by
  rintro ⟨hclaim,-⟩
  have hparsed : parseUsername "a_-_-_web" = .ok ⟨"a_-",some "web"⟩ :=
    hclaim "a_-" "web" rfl ⟨"alice_-_web","alice",rfl⟩
  cases hparsed

end RoundTrip

end UsernameGrammar
