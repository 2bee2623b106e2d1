import JumpHost.Mesh.Calm
import JumpHost.Mesh.Changes

namespace JumpHost.Mesh

open Effect

section Names

theorem text_int (n : Nat) : (Num.int n).text.toList = Nat.toDigits 10 n := Text.toList_int n

theorem ifaceFor_toList (n : Nat) :
    (ifaceFor (.int n)).toList = "wg-exit-".toList ++ Nat.toDigits 10 n := by
  rw [ifaceFor, String.toList_append, text_int]

theorem exitIfaceId_ifaceFor (n : Nat) : exitIfaceId (ifaceFor (.int n)) = some n := by
  have hdigits : (Nat.toDigits 10 n).all Char.isDigit = true := by
    rw [List.all_eq_true]
    exact fun c hc => Nat.isDigit_of_mem_toDigits (by decide) (by decide) hc
  have hdrop : (ifaceFor (.int n)).toList.drop "wg-exit-".length = Nat.toDigits 10 n := by
    rw [ifaceFor_toList]
    exact List.drop_left
  have hstarts : "wg-exit-".toList.isPrefixOf (ifaceFor (.int n)).toList = true := by
    rw [ifaceFor_toList, List.isPrefixOf_iff_prefix]
    exact List.prefix_append _ _
  simp only [exitIfaceId, hdrop, hstarts, hdigits, Nat.toDigits_ne_nil, ne_eq, not_false_eq_true,
    and_self, if_true, Nat.ofDigitChars_ten_toDigits]

theorem ifaceFor_inj {n m : Nat} (h : ifaceFor (.int n) = ifaceFor (.int m)) : n = m := by
  have hid := congrArg exitIfaceId h
  rw [exitIfaceId_ifaceFor, exitIfaceId_ifaceFor] at hid
  exact Option.some.inj hid

theorem text_neg (n : Nat) : (Num.int (.negSucc n)).text.toList = '-' :: Nat.toDigits 10 (n + 1) := by
  change ("-" ++ toString (n + 1)).toList = _
  rw [String.toList_append]
  exact congrArg (['-'] ++ ·) String.toList_ofList

theorem text_inj {n m : Int} (h : (Num.int n).text = (Num.int m).text) : n = m := by
  have hlist := congrArg String.toList h
  have hsign : ∀ {k l : Nat}, '-' :: Nat.toDigits 10 k ≠ Nat.toDigits 10 l := by
    intro k l heq
    exact Net.not_mem_toDigits rfl l (heq ▸ List.mem_cons_self)
  cases n with
  | ofNat n =>
    cases m with
    | ofNat m => exact congrArg Int.ofNat (Text.toDigits_inj ((text_int n).symm.trans (hlist.trans (text_int m))))
    | negSucc m => exact absurd ((text_neg m).symm.trans (hlist.symm.trans (text_int n))) hsign
  | negSucc n =>
    cases m with
    | ofNat m => exact absurd ((text_neg n).symm.trans (hlist.trans (text_int m))) hsign
    | negSucc m =>
      have heq := (text_neg n).symm.trans (hlist.trans (text_neg m))
      rw [Nat.succ.inj (Text.toDigits_inj (List.cons.inj heq).2)]

theorem mem_text_int {n : Int} {c : Char} (h : c ∈ (Num.int n).text.toList) : c.isDigit = true ∨ c = '-' := by
  have hdigit : ∀ {k : Nat}, c ∈ Nat.toDigits 10 k → c.isDigit = true := fun hc =>
    Nat.isDigit_of_mem_toDigits (by decide) (by decide) hc
  cases n with
  | ofNat n => exact .inl (hdigit (text_int n ▸ h))
  | negSucc n =>
    rw [text_neg] at h
    exact (List.mem_cons.mp h).symm.imp_left hdigit

theorem num_text_inj {a b : Num} (h : a.text = b.text) : a = b := by
  have hmark : ∀ {text : String} {n : Int}, text.toList.any ['.','e','I'].contains = true →
      text ≠ (Num.int n).text := by
    rintro text n hany rfl
    obtain ⟨c,hc,hmarked⟩ := List.any_eq_true.mp hany
    simp only [List.contains_iff_mem, List.mem_cons, List.not_mem_nil, or_false] at hmarked
    rcases mem_text_int hc with hdigit | rfl
    · rcases hmarked with rfl | rfl | rfl <;> cases hdigit
    · rcases hmarked with hmarked | hmarked | hmarked <;> cases hmarked
  have hnan : ∀ {n : Int}, "NaN" ≠ (Num.int n).text := by
    intro n hn
    have hN : 'N' ∈ (Num.int n).text.toList := hn ▸ by decide
    rcases mem_text_int hN with hN | hN <;> cases hN
  have hnan' : ∀ {text : String}, text.toList.any ['.','e','I'].contains = true → "NaN" ≠ text := by
    rintro text hany rfl
    cases hany
  cases a with
  | nan =>
    cases b with
    | nan => rfl
    | int m => exact absurd h hnan
    | frac text inexact => exact absurd h (hnan' inexact)
  | int n =>
    cases b with
    | nan => exact absurd h.symm hnan
    | int m => rw [text_inj h]
    | frac text inexact => exact absurd h.symm (hmark inexact)
  | frac text inexact =>
    cases b with
    | nan => exact absurd h.symm (hnan' inexact)
    | int m => exact absurd h (hmark inexact)
    | frac text' inexact' =>
      obtain rfl : text = text' := h
      rfl

theorem ifaceFor_num_inj {a b : Num} (h : ifaceFor a = ifaceFor b) : a = b := by
  have hlist := congrArg String.toList h
  simp only [ifaceFor, String.toList_append] at hlist
  exact num_text_inj (String.toList_inj.mp (List.append_cancel_left hlist))

theorem ifaceFor_int_inj {n m : Int} (h : ifaceFor (.int n) = ifaceFor (.int m)) : n = m :=
  Num.int.inj (ifaceFor_num_inj h)

theorem ifaceFor_ne_probe (id : Num) (pid : String) : ifaceFor id ≠ "wgprobe" ++ pid := by
  intro h
  have hlist := congrArg (fun s : String => s.toList.take 3) h
  simp [ifaceFor] at hlist

theorem above_eq_iff {id : Num} {base k : Int} (hk : k.natAbs < 2 ^ 53) :
    id.above base = .int k ↔ id = .int (k - base) := by
  cases id with
  | nan => simp [Num.above]
  | int m =>
    rw [Num.above, Num.int.injEq, Num.int.injEq, Num.nearest_eq_iff hk]
    omega
  | frac text inexact => simp [Num.above]

theorem tableFor_eq_int_iff {id : Num} {n : Nat} (hle : n ≤ 254) :
    tableFor id = .int (2400 + n : Nat) ↔ id = .int n := by
  have hbase : ((2400 + n : Nat) : Int) - TABLE_BASE = n := by
    simp only [TABLE_BASE]
    omega
  rw [tableFor, above_eq_iff (by omega), hbase]

theorem tableFor_int {n : Nat} (hle : n ≤ 254) : tableFor (.int n) = .int (2400 + n : Nat) :=
  (tableFor_eq_int_iff hle).mpr rfl

theorem above_int {n : Nat} (hle : n ≤ 254) :
    (Num.int n).above RULE_PRIORITY_BASE = .int (3000 + n : Nat) := by
  have hbase : ((3000 + n : Nat) : Int) - RULE_PRIORITY_BASE = n := by
    simp only [RULE_PRIORITY_BASE]
    omega
  rw [above_eq_iff (by omega), hbase]

end Names

section Up

variable {b b' : Box} {d : String}

def Box.isUp (b : Box) (d : String) : Prop := ∃ link, b.links.get? d = some link ∧ link.up = true

theorem isUp_linkUp (h : b.step (.linkUp d) = .ok b') : b'.isUp d := by
  obtain ⟨link,-,hb⟩ := onLink_ok h
  split at hb <;> cases hb <;> exact ⟨_,OrdMap.get?_set_self _ _ _,rfl⟩

theorem isUp_setAddresses {cidrs : List String} {w w' : World} (h : setAddresses d cidrs w = .ok () w') :
    w'.box.isUp d := by
  obtain ⟨_,_,-,h⟩ := bind_ok h
  obtain ⟨_,_,-,h⟩ := bind_ok h
  obtain ⟨_,_,-,h⟩ := bind_ok h
  exact isUp_linkUp (run_ok h)

end Up

section Links

variable {b b' : Box} {c : Cmd}

structure LinksStep (c : Cmd) (b b' : Box) : Prop where
  added : ∀ name ∈ b'.links.keys, name ∈ b.links.keys ∨ c = .linkAdd name ∨ c = .wireguardGo name
  removed : ∀ name ∈ b.links.keys, name ∈ b'.links.keys ∨ c = .linkDel name

theorem linksStep_of_iff (h : ∀ name, name ∈ b'.links.keys ↔ name ∈ b.links.keys) : LinksStep c b b' :=
  ⟨fun name hname => .inl ((h name).mp hname),fun name hname => .inl ((h name).mpr hname)⟩

theorem linksStep_set {d : String} {link link' : Link} (hlink : b.links.get? d = some link)
    (hb : b'.links = b.links.set d link') : LinksStep c b b' := by
  refine linksStep_of_iff fun name => ?_
  have hd : d ∈ b.links.keys := OrdMap.mem_keys_iff.mpr ⟨link,hlink⟩
  rw [hb, OrdMap.mem_keys_set]
  exact ⟨fun h => h.elim id fun heq => heq ▸ hd,.inl⟩

theorem linksStep_new {d : String} (hb : b'.links = b.links.set d {})
    (hc : c = .linkAdd d ∨ c = .wireguardGo d) : LinksStep c b b' := by
  refine ⟨fun name hname => ?_,fun name hname => .inl ?_⟩
  · rw [hb, OrdMap.mem_keys_set] at hname
    rcases hname with hname | rfl
    · exact .inl hname
    · exact .inr hc
  · rw [hb, OrdMap.mem_keys_set]
    exact .inl hname

theorem links_step (h : b.step c = .ok b') : LinksStep c b b' := by
  cases links_change h with
  | same h => exact linksStep_of_iff fun name => by rw [h]
  | new dev hc _ h => exact linksStep_new h hc
  | gone dev hc h =>
    refine ⟨fun name hname => .inl ?_,fun name hname => ?_⟩
    · rw [h] at hname
      exact (OrdMap.mem_keys_delete.mp hname).1
    · by_cases hd : name = dev
      · exact .inr (by rw [hc, hd])
      · exact .inl (h ▸ OrdMap.mem_keys_delete.mpr ⟨hname,hd⟩)
  | edit dev link link' hlink _ h => exact linksStep_set hlink h

theorem stable_link (name : String) :
    Stable (fun w => name ∈ w.box.links.keys) fun c => c ≠ .linkDel name := by
  refine stable_box (I := fun b => name ∈ b.links.keys) fun b c b' hc h hb => ?_
  exact ((links_step h).removed name hb).resolve_right hc

theorem digits_text {id : Num} (h : id.text.toList.all Char.isDigit = true) : ∃ n : Nat, id = .int n := by
  cases id with
  | nan => simp [Num.text] at h
  | frac text inexact =>
    obtain ⟨c,hc,hmarked⟩ := List.any_eq_true.mp inexact
    have hdigit : c.isDigit = true := List.all_eq_true.mp h c hc
    simp only [List.contains_iff_mem, List.mem_cons, List.not_mem_nil, or_false] at hmarked
    rcases hmarked with rfl | rfl | rfl <;> cases hdigit
  | int m =>
    cases m with
    | ofNat n => exact ⟨n,rfl⟩
    | negSucc n =>
      simp [text_neg] at h

theorem id_of_exitIfaceId {id : Num} {n : Nat} (h : exitIfaceId (ifaceFor id) = some n) :
    id = .int n := by
  have hdrop : (ifaceFor id).toList.drop "wg-exit-".length = id.text.toList := by
    rw [ifaceFor, String.toList_append]
    exact List.drop_left
  have hdigits : id.text.toList.all Char.isDigit = true := by
    unfold exitIfaceId at h
    simp only [hdrop] at h
    split at h
    · next hname => exact hname.2.2
    · cases h
  obtain ⟨k,rfl⟩ := digits_text hdigits
  rw [exitIfaceId_ifaceFor] at h
  rw [Option.some.inj h]

end Links

section Interfaces

variable {b : Box} {w : World}

def NamedExits (b : Box) : Prop :=
  ∀ name ∈ b.links.keys, ∀ n, exitIfaceId name = some n → name = ifaceFor (.int n)

def Cmd.namesExits : Cmd → Prop
  | .linkAdd name | .wireguardGo name => exitIfaceId name = none ∨ ∃ id, name = ifaceFor id
  | _ => True

theorem stable_namedExits : Stable (fun w => NamedExits w.box) Cmd.namesExits := by
  refine stable_box fun b c b' hc h hb name hname n hn => ?_
  rcases (links_step h).added name hname with hold | hnew
  · exact hb name hold n hn
  · have hnamed : exitIfaceId name = none ∨ ∃ id, name = ifaceFor id := by
      rcases hnew with rfl | rfl <;> exact hc
    rcases hnamed with hnone | ⟨id,rfl⟩
    · rw [hnone] at hn
      cases hn
    · rw [id_of_exitIfaceId hn]

theorem exitIfaceId_probe (pid : String) : exitIfaceId ("wgprobe" ++ pid) = none := by
  simp [exitIfaceId]

theorem namesExits_probe (pid : String) :
    Keeps (fun w => NamedExits w.box) (probeKernel ("wgprobe" ++ pid)) :=
  keeps_probeKernel stable_namedExits (.inl (exitIfaceId_probe pid)) trivial

theorem listExit_ok (hw : Quiet w) : listExitInterfaces w = .ok w.box.exitInterfaces w := by
  have hread : w.box.step .linkList = .ok w.box := rfl
  unfold listExitInterfaces query
  rw [bind_apply, bind_of_ok (tryRun_quiet hw hread)]
  rfl

theorem exitInterfaces_complete (hb : NamedExits b) {name : String} {n : Nat} (hname : name ∈ b.links.keys)
    (hn : exitIfaceId name = some n) : (n,name) ∈ b.exitInterfaces.entries := by
  have hfold : ∀ (names : List String) (found : OrdMap Nat String),
      (n ∈ found.keys ∨ name ∈ names) → n ∈ (names.foldl addExit found).keys := by
    intro names
    induction names with
    | nil => exact fun found h => h.resolve_right (by simp)
    | cons next names ih =>
      refine fun found h => ih _ ?_
      unfold addExit
      rcases h with h | h
      · left
        split
        · exact h
        · exact OrdMap.mem_keys_set.mpr (.inl h)
      · rcases List.mem_cons.mp h with rfl | h
        · left
          rw [hn]
          exact OrdMap.mem_keys_set.mpr (.inr rfl)
        · exact .inr h
  obtain ⟨name',hname'⟩ := OrdMap.mem_keys_iff.mp (hfold b.links.keys OrdMap.empty (.inr hname))
  have hentry : (n,name') ∈ b.exitInterfaces.entries := OrdMap.mem_entries_iff.mpr hname'
  obtain ⟨hlink,hn'⟩ := mem_exitInterfaces hentry
  rwa [hb name hname n hn, ← hb name' hlink n hn']

theorem removeExit_ok {wanted : List Num} {n : Nat} (hunwanted : .int n ∉ wanted) (name : String)
    (hw : Quiet w) : ∃ w', removeExit wanted (n,name) w = .ok () w' ∧ Quiet w' ∧
      ∀ name', name' ∈ w'.box.links.keys ↔ name' ∈ w.box.links.keys ∧ name' ≠ name := by
  obtain ⟨res,w₁,hflush,-,hres⟩ := tryRun_cases (.routeFlush (tableFor (.int n))) w
  have hquiet : Quiet w₁ := (keeps_tryRun (stable_quiet fun _ => True) trivial).of_ok hflush hw
  have hlinks : w₁.box.links = w.box.links := by
    rcases hres with ⟨hbox,-⟩ | ⟨-,-,hstep⟩
    · rw [hbox]
    · exact (sameBut_step hstep).links (by simp [Cmd.writes])
  have hrun : ∀ {res : Except Failed Unit} {w₂ : World}, tryRun (.linkDel name) w₁ = .ok res w₂ →
      removeExit wanted (n,name) w = .ok () w₂ := by
    intro res w₂ hdel
    unfold removeExit
    rw [if_pos (by simpa using hunwanted), bind_of_ok hflush, bind_of_ok hdel]
    rfl
  cases hlink : w₁.box.links.get? name with
  | none =>
    have hrefused : w₁.box.step (.linkDel name) =
        .error { err := "Cannot find device \"" ++ name ++ "\"" } := by
      simp only [Box.step, Box.linkDel, Box.onLink, hlink, Box.refuse]
    refine ⟨w₁,hrun (tryRun_refused hquiet hrefused),hquiet,fun name' => ?_⟩
    rw [hlinks] at hlink ⊢
    refine (and_iff_left_of_imp fun hname' heq => ?_).symm
    exact OrdMap.get?_eq_none_iff.mp hlink (heq ▸ hname')
  | some link =>
    have hstep : w₁.box.step (.linkDel name) = .ok { w₁.box with
        links := w₁.box.links.delete name
        routes := w₁.box.routes.filter fun r => r.dev != name
        metered := w₁.box.metered.filter fun r => r.dev != name } := by
      simp only [Box.step, Box.linkDel, Box.onLink, hlink]
    refine ⟨_,hrun (tryRun_quiet hquiet hstep),⟨hquiet.faults⟩,fun name' => ?_⟩
    rw [← hlinks]
    exact OrdMap.mem_keys_delete

theorem removeExits_ok (wanted : List Num) (hw : Quiet w) (hb : NamedExits w.box) :
    ∃ w', w.box.exitInterfaces.entries.forM (removeExit wanted) w = .ok () w' ∧ Quiet w' ∧
      ∀ name, name ∈ w'.box.links.keys ↔
        name ∈ w.box.links.keys ∧ ∀ n, exitIfaceId name = some n → .int n ∈ wanted := by
  let J : World → Prop := fun v => Quiet v ∧ (∀ name ∈ v.box.links.keys, name ∈ w.box.links.keys) ∧
    ∀ name ∈ w.box.links.keys, (∀ n, exitIfaceId name = some n → .int n ∈ wanted) →
      name ∈ v.box.links.keys
  let D : Nat × String → World → Prop := fun entry v =>
    entry.2 ∈ v.box.links.keys → .int entry.1 ∈ wanted
  have hturn : ∀ entry ∈ w.box.exitInterfaces.entries, ∀ v, J v →
      ∃ v', removeExit wanted entry v = .ok () v' ∧ J v' ∧ D entry v' ∧
        ∀ other ∈ w.box.exitInterfaces.entries, D other v → D other v' := by
    rintro ⟨n,name⟩ hentry v ⟨hv,hold,hkept⟩
    by_cases hwanted : .int n ∈ wanted
    · have hrun : removeExit wanted (n,name) v = .ok () v := by
        unfold removeExit
        rw [if_neg (by simpa using hwanted)]
        rfl
      exact ⟨v,hrun,⟨hv,hold,hkept⟩,fun _ => hwanted,fun _ _ h => h⟩
    · obtain ⟨v',hrun,hv',hlinks⟩ := removeExit_ok hwanted name hv
      refine ⟨v',hrun,⟨hv',fun name' hname' => hold name' ((hlinks name').mp hname').1,
        fun name' hname' hall => (hlinks name').mpr ⟨hkept name' hname' hall,?_⟩⟩,fun hname => ?_,
        fun other _ hgone hname => hgone ((hlinks _).mp hname).1⟩
      · rintro rfl
        exact hwanted (hall n (mem_exitInterfaces hentry).2)
      · exact absurd rfl ((hlinks name).mp hname).2
  obtain ⟨w',hrun,⟨hw',hold,hkept⟩,hgone⟩ :=
    forM_each J D hturn (show J w from ⟨hw,fun name h => h,fun name h _ => h⟩)
  refine ⟨w',hrun,hw',fun name => ⟨fun hname => ⟨hold name hname,fun n hn => ?_⟩,
    fun hname => hkept name hname.1 hname.2⟩⟩
  exact hgone _ (exitInterfaces_complete hb (hold name hname) hn) hname

end Interfaces

end JumpHost.Mesh
