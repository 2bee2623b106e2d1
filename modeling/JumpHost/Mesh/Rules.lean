import JumpHost.Mesh.Calm

namespace JumpHost.Mesh

open Effect

section Table

variable {rules : List IpRule} {r rule : IpRule}

theorem insertRule_perm (rules : List IpRule) (rule : IpRule) :
    (Box.insertRule rules rule).Perm (rule :: rules) := by
  refine List.perm_middle.trans (List.Perm.cons rule ?_)
  simpa using List.filter_append_perm (fun r : IpRule => r.priority ≤ rule.priority) rules

theorem mem_insertRule : r ∈ Box.insertRule rules rule ↔ r ∈ rules ∨ r = rule := by
  rw [(insertRule_perm rules rule).mem_iff, List.mem_cons, or_comm]

def InOrder (r r' : IpRule) : Prop := r.priority ≤ r'.priority

theorem insertRule_inOrder (h : rules.Pairwise InOrder) : (Box.insertRule rules rule).Pairwise InOrder := by
  unfold Box.insertRule
  rw [List.pairwise_append, List.pairwise_cons]
  refine ⟨h.filter _,⟨fun r hr => ?_,h.filter _⟩,fun r hr r' hr' => ?_⟩
  · have hafter := (List.mem_filter.mp hr).2
    simp only [Bool.not_eq_true', decide_eq_false_iff_not] at hafter
    exact Nat.le_of_not_le hafter
  · have hbefore : r.priority ≤ rule.priority := by simpa using (List.mem_filter.mp hr).2
    rcases List.mem_cons.mp hr' with rfl | hr'
    · exact hbefore
    · have hafter := (List.mem_filter.mp hr').2
      simp only [Bool.not_eq_true', decide_eq_false_iff_not] at hafter
      exact hbefore.trans (Nat.le_of_not_le hafter)

def kernelRules : List IpRule := [⟨0,none,[],LOCAL⟩,⟨32766,none,[],MAIN⟩,⟨32767,none,[],253⟩]

structure IpRule.Own (r : IpRule) : Prop where
  extra : r.extra = []
  source : ∃ net, r.source = some net ∧ net.bits.length = 32
  table : r.table < 4294967296

structure Ruled (b : Box) : Prop where
  nodup : b.rules.Nodup
  inOrder : b.rules.Pairwise InOrder
  known : ∀ r ∈ b.rules, r ∈ kernelRules ∨ r.Own

def IpRule.inBand (r : IpRule) : Bool :=
  RULE_PRIORITY_BASE ≤ (r.priority : Int) ∧ (r.priority : Int) ≤ RULE_PRIORITY_BASE + 254

theorem inBand_iff : r.inBand = true ↔ 3000 ≤ r.priority ∧ r.priority ≤ 3254 := by
  rw [IpRule.inBand, decide_eq_true_eq, RULE_PRIORITY_BASE]
  omega

structure Regular (b : Box) : Prop where
  nodup : (b.rules.filter IpRule.inBand).Nodup
  own : ∀ r ∈ b.rules, r.inBand = true → r.Own

variable {b b' : Box}

theorem inBand_kernel (h : r ∈ kernelRules) : r.inBand = false := by
  simp only [kernelRules, List.mem_cons, List.not_mem_nil, or_false] at h
  rcases h with rfl | rfl | rfl <;> rfl

theorem Ruled.regular (h : Ruled b) : Regular b := by
  refine ⟨h.nodup.filter _,fun r hr hband => (h.known r hr).resolve_left fun hkernel => ?_⟩
  rw [inBand_kernel hkernel] at hband
  cases hband

theorem Regular.sublist (h : Regular b) (hrules : b'.rules.Sublist b.rules) : Regular b' :=
  ⟨h.nodup.sublist (hrules.filter _),fun r hr => h.own r (hrules.subset hr)⟩

theorem Ruled.sublist (h : Ruled b) (hrules : b'.rules.Sublist b.rules) : Ruled b' :=
  ⟨h.nodup.sublist hrules,h.inOrder.sublist hrules,fun r hr => h.known r (hrules.subset hr)⟩

theorem ruleAdd_ok {source : String} {table priority : Num}
    (h : b.step (.ruleAdd source table priority) = .ok b') : ∃ (net : Net) (t p : Nat),
      Net.parse source = some net ∧ table = .int t ∧ priority = .int p ∧ t < 4294967296 ∧
      ⟨p,some net,[],t⟩ ∉ b.rules ∧ b'.rules = Box.insertRule b.rules ⟨p,some net,[],t⟩ := by
  obtain ⟨net,hnet,h⟩ := onNet_ok h
  obtain ⟨t,ht,hlt,h⟩ := onNumber_ok h
  obtain ⟨p,hp,-,h⟩ := onNumber_ok h
  refine ⟨net,t,p,hnet,ht,hp,hlt,?_⟩
  split at h
  · cases h
  · next hnew =>
    cases h
    exact ⟨by simpa using hnew,rfl⟩

theorem ruleDel_ok {source : String} {table priority : Num}
    (h : b.step (.ruleDel source table priority) = .ok b') : ∃ (net : Option Net) (t p : Nat),
      ((source = "all" ∧ net = none) ∨ ∃ n, Net.parse source = some n ∧ net = some n) ∧
      table = .int t ∧ priority = .int p ∧ b.rules.any (IpRule.named p net t) = true ∧
      b'.rules = b.rules.eraseP (IpRule.named p net t) := by
  simp only [Box.step, Box.ruleDel] at h
  obtain ⟨net,h,hnet⟩ := onSelector_ok h
  obtain ⟨t,ht,-,h⟩ := onNumber_ok h
  obtain ⟨p,hp,-,h⟩ := onNumber_ok h
  refine ⟨net,t,p,hnet,ht,hp,?_⟩
  split at h
  · next hany =>
    cases h
    exact ⟨hany,rfl⟩
  · cases h

theorem rule_origin {c : Cmd} (h : b.step c = .ok b') (hr : r ∈ b'.rules) : r ∈ b.rules ∨
    ∃ source net, ∃ t p : Nat, c = .ruleAdd source (.int t) (.int p) ∧ Net.parse source = some net ∧
      r = ⟨p,some net,[],t⟩ := by
  by_cases hw : .rules ∈ c.writes
  · cases c <;> simp [Cmd.writes] at hw
    case ruleAdd source table priority =>
      obtain ⟨net,t,p,hnet,rfl,rfl,-,-,hrules⟩ := ruleAdd_ok h
      rw [hrules, mem_insertRule] at hr
      exact hr.imp_right fun heq => ⟨source,net,t,p,rfl,hnet,heq⟩
    case ruleDel source table priority =>
      obtain ⟨_,_,_,-,-,-,-,hrules⟩ := ruleDel_ok h
      exact .inl (List.eraseP_subset (hrules ▸ hr))
  · exact .inl ((sameBut_step h).rules hw ▸ hr)

theorem own_added {text : String} {net : Net} {t p : Nat} (hnet : Net.parse (text ++ "/32") = some net)
    (ht : t < 4294967296) : IpRule.Own ⟨p,some net,[],t⟩ := ⟨rfl,⟨net,rfl,Net.length_of_parse hnet⟩,ht⟩

theorem regular_add {text : String} {table priority : Num} (h : Regular b)
    (hadd : b.step (.ruleAdd (text ++ "/32") table priority) = .ok b') : Regular b' := by
  obtain ⟨net,t,p,hnet,-,-,hlt,hnew,hrules⟩ := ruleAdd_ok hadd
  refine ⟨?_,fun r hr hband => ?_⟩
  · rw [hrules, ((insertRule_perm _ _).filter _).nodup_iff]
    by_cases hin : IpRule.inBand ⟨p,some net,[],t⟩ = true
    · rw [List.filter_cons_of_pos hin]
      exact List.nodup_cons.mpr ⟨fun hmem => hnew (List.mem_filter.mp hmem).1,h.nodup⟩
    · rw [List.filter_cons_of_neg hin]
      exact h.nodup
  · rw [hrules, mem_insertRule] at hr
    rcases hr with hr | rfl
    · exact h.own r hr hband
    · exact own_added hnet hlt

theorem ruled_add {text : String} {table priority : Num} (h : Ruled b)
    (hadd : b.step (.ruleAdd (text ++ "/32") table priority) = .ok b') : Ruled b' := by
  obtain ⟨net,t,p,hnet,-,-,hlt,hnew,hrules⟩ := ruleAdd_ok hadd
  refine ⟨?_,?_,fun r hr => ?_⟩
  · rw [hrules, (insertRule_perm _ _).nodup_iff]
    exact List.nodup_cons.mpr ⟨hnew,h.nodup⟩
  · rw [hrules]
    exact insertRule_inOrder h.inOrder
  · rw [hrules, mem_insertRule] at hr
    rcases hr with hr | rfl
    · exact h.known r hr
    · exact .inr (own_added hnet hlt)

theorem ruled_del {source : String} {table priority : Num} (h : Ruled b)
    (hdel : b.step (.ruleDel source table priority) = .ok b') : Ruled b' := by
  obtain ⟨net,t,p,-,-,-,-,hrules⟩ := ruleDel_ok hdel
  exact h.sublist (hrules ▸ List.eraseP_sublist)

theorem ruled_kernel (h : b.rules = kernelRules) : Ruled b := by
  refine ⟨?_,?_,fun r hr => .inl (h ▸ hr)⟩
  · rw [h]
    decide
  · rw [h]
    simp [kernelRules, InOrder]

def Cmd.hostRules : Cmd → Prop
  | .ruleAdd source _ _ => ∃ text, source = text ++ "/32"
  | _ => True

theorem ruled_step {c : Cmd} (hc : c.hostRules) (h : b.step c = .ok b') (hb : Ruled b) :
    Ruled b' := by
  by_cases hw : .rules ∈ c.writes
  · cases c <;> simp [Cmd.writes] at hw
    case ruleAdd source table priority =>
      obtain ⟨text,rfl⟩ := hc
      exact ruled_add hb h
    case ruleDel source table priority => exact ruled_del hb h
  · exact hb.sublist (by rw [(sameBut_step h).rules hw])

theorem regular_step {c : Cmd} (hc : c.hostRules) (h : b.step c = .ok b') (hb : Regular b) :
    Regular b' := by
  by_cases hw : .rules ∈ c.writes
  · cases c <;> simp [Cmd.writes] at hw
    case ruleAdd source table priority =>
      obtain ⟨text,rfl⟩ := hc
      exact regular_add hb h
    case ruleDel source table priority =>
      obtain ⟨_,_,_,-,-,-,-,hrules⟩ := ruleDel_ok h
      exact hb.sublist (hrules ▸ List.eraseP_sublist)
  · exact hb.sublist (by rw [(sameBut_step h).rules hw])

theorem inOrder_step {c : Cmd} (h : b.step c = .ok b') (hb : b.rules.Pairwise InOrder) :
    b'.rules.Pairwise InOrder := by
  by_cases hw : .rules ∈ c.writes
  · cases c <;> simp [Cmd.writes] at hw
    case ruleAdd source table priority =>
      obtain ⟨_,_,_,-,-,-,-,-,hrules⟩ := ruleAdd_ok h
      exact hrules ▸ insertRule_inOrder hb
    case ruleDel source table priority =>
      obtain ⟨_,_,_,-,-,-,-,hrules⟩ := ruleDel_ok h
      exact hb.sublist (hrules ▸ List.eraseP_sublist)
  · rwa [(sameBut_step h).rules hw]

theorem stable_ruled : Stable (fun w => Ruled w.box) Cmd.hostRules :=
  stable_box fun _ _ _ hc h hb => ruled_step hc h hb

theorem managed_of_own {net : Net} (hr : r.Own) (hsource : r.source = some net)
    (hfamily : net.family = .v4) (hband : r.inBand = true) :
    r.managed = some ⟨r.priority,net.cidr,r.table⟩ := by
  rw [IpRule.inBand, decide_eq_true_eq] at hband
  simp [IpRule.managed, hband, hr.extra, hsource, hfamily]

theorem source_kernel (h : r ∈ kernelRules) : r.source = none := by
  simp only [kernelRules, List.mem_cons, List.not_mem_nil, or_false] at h
  rcases h with rfl | rfl | rfl <;> rfl

theorem managed_some {m : ManagedRule} (h : r.managed = some m) :
    r.inBand = true ∧ r.extra = [] ∧ (∀ net, r.source = some net → net.family = .v4) ∧
      m = ⟨r.priority,(r.source.map Net.cidr).getD "all",r.table⟩ := by
  unfold IpRule.managed at h
  simp only at h
  split at h
  · next hlisted =>
    refine ⟨decide_eq_true hlisted.1,hlisted.2.1,fun net hnet => ?_,(Option.some.inj h).symm⟩
    simpa [hnet] using hlisted.2.2
  · cases h

theorem managed_kernel (h : r ∈ kernelRules) : r.managed = none := by
  cases hm : r.managed with
  | none => rfl
  | some m =>
    have hband := (managed_some hm).1
    rw [inBand_kernel h] at hband
    cases hband

theorem own_of_managed {m : ManagedRule} (hb : Regular b) (hr : r ∈ b.rules)
    (hm : r.managed = some m) : r.Own ∧ m.priority = r.priority ∧ m.table = r.table ∧
      ∃ net, r.source = some net ∧ m.source = net.cidr ∧ Net.parse m.source = some net := by
  obtain ⟨hband,-,-,rfl⟩ := managed_some hm
  have hown := hb.own r hr hband
  obtain ⟨net,hsource,-⟩ := hown.source
  refine ⟨hown,rfl,rfl,net,hsource,by simp [hsource],?_⟩
  simp only [hsource, Option.map_some, Option.getD_some]
  exact Net.parse_cidr net

theorem managed_inj {r' : IpRule} {m : ManagedRule} (hb : Regular b) (hr : r ∈ b.rules)
    (hr' : r' ∈ b.rules) (hm : r.managed = some m) (hm' : r'.managed = some m) : r = r' := by
  obtain ⟨hown,hpriority,htable,net,hsource,-,hparse⟩ := own_of_managed hb hr hm
  obtain ⟨hown',hpriority',htable',net',hsource',-,hparse'⟩ := own_of_managed hb hr' hm'
  have hnet : net = net' := Option.some.inj (hparse.symm.trans hparse')
  have hextra := hown.extra.trans hown'.extra.symm
  obtain ⟨rp,rs,re,rt⟩ := r
  obtain ⟨rp',rs',re',rt'⟩ := r'
  simp_all

end Table

section Reconcile

variable {b : Box} {w w' : World} {r : IpRule} {wanted : List String} {m : ManagedRule}
  {installed : List ManagedRule} {rule : ExitRule} {failed failed' : List ExitFailure}

theorem eraseP_congr {α : Type} {l : List α} {p q : α → Bool} (h : ∀ a ∈ l, p a = q a) :
    l.eraseP p = l.eraseP q := by
  induction l with
  | nil => rfl
  | cons a l ih =>
    rw [List.eraseP_cons, List.eraseP_cons, h a (by simp), ih fun a' ha => h a' (by simp [ha])]

def Box.dropRule (b : Box) (r : IpRule) : Box := { b with rules := b.rules.erase r }

theorem Regular.mem_dropRule {r' : IpRule} (h : Regular b) (hband : r.inBand = true) :
    r' ∈ (b.dropRule r).rules ↔ r' ∈ b.rules ∧ r' ≠ r := by
  by_cases heq : r' = r
  · subst heq
    simp only [ne_eq, not_true, and_false, iff_false]
    intro hmem
    have hleft : r' ∈ (b.rules.filter IpRule.inBand).erase r' := by
      rw [List.erase_filter]
      exact List.mem_filter.mpr ⟨hmem,hband⟩
    exact h.nodup.not_mem_erase hleft
  · rw [Box.dropRule, List.mem_erase_of_ne heq, and_iff_left heq]

theorem named_eq {net : Net} (hb : Regular b) (hr : r.Own) (hsource : r.source = some net)
    (hband : r.inBand = true) {x : IpRule} (hx : x ∈ b.rules) :
    IpRule.named r.priority (some net) r.table x = (x == r) := by
  rw [Bool.eq_iff_iff]
  simp only [IpRule.named, Option.elim_some, Bool.and_eq_true, beq_iff_eq]
  constructor
  · rintro ⟨⟨hpriority,htable⟩,hsame⟩
    have hxband : x.inBand = true := by rwa [IpRule.inBand, hpriority]
    have hextra := (hb.own x hx hxband).extra.trans hr.extra.symm
    have hsource' := hsame.trans hsource.symm
    obtain ⟨xp,xs,xe,xt⟩ := x
    obtain ⟨rp,rs,re,rt⟩ := r
    simp_all
  · rintro rfl
    exact ⟨⟨rfl,rfl⟩,hsource⟩

theorem takes_ruleDel (hb : Regular b) (hr : r ∈ w.box.rules) (hw : Regular w.box)
    (hm : r.managed = some m) :
    Takes Quiet World.box (tryRun (.ruleDel m.source (.int m.table) (.int m.priority))) b
      (b.dropRule r) := by
  obtain ⟨hown,hpriority,htable,net,hsource,hcidr,hparse⟩ := own_of_managed hw hr hm
  have hband := (managed_some hm).1
  have hall : m.source ≠ "all" := by
    intro hall
    rw [hall] at hparse
    simp [Net.parse, Text.allowed] at hparse
  have hstep : b.step (.ruleDel m.source (.int m.table) (.int m.priority)) =
      if b.rules.any (IpRule.named r.priority (some net) r.table) then
        .ok { b with rules := b.rules.eraseP (IpRule.named r.priority (some net) r.table) }
      else Box.noSuchProcess := by
    have hp : r.priority < 4294967296 := by
      have := (inBand_iff.mp hband).2
      omega
    simp only [Box.step, Box.ruleDel, Box.onSelector, hall, if_false, Box.onNet, hparse, Box.onNumber,
      htable, hpriority, hown.table, hp, if_true]
  have hnamed := fun x (hx : x ∈ b.rules) => named_eq hb hown hsource hband hx
  have hdrop : { b with rules := b.rules.eraseP (IpRule.named r.priority (some net) r.table) } =
      b.dropRule r := by
    rw [Box.dropRule, List.erase_eq_eraseP', eraseP_congr hnamed]
  by_cases hany : b.rules.any (IpRule.named r.priority (some net) r.table) = true
  · rw [if_pos hany, hdrop] at hstep
    exact (quiet_still.gives_tryRun hstep).takes
  · have hnone : ∀ x ∈ b.rules, ¬ IpRule.named r.priority (some net) r.table x = true := by
      simpa using hany
    rw [if_neg hany, Box.noSuchProcess, Box.refuse] at hstep
    rw [← hdrop, List.eraseP_of_forall_not hnone]
    exact (quiet_still.gives_refused hstep).takes

theorem removeRuleOf_failed (h : removeRuleOf wanted failed m w = .ok failed' w')
    (hnone : failed' = []) : failed = [] := by
  unfold removeRuleOf at h
  split at h
  · cases h
    exact hnone
  · obtain ⟨res,w₁,hdel,-,-⟩ := tryRun_cases (.ruleDel m.source (.int m.table) (.int m.priority)) w
    rw [bind_of_ok hdel] at h
    cases res with
    | ok =>
      cases h
      exact hnone
    | error =>
      cases h
      simp at hnone

theorem removeRules_ok (wanted : List String) (hw : Quiet w) (hb : Regular w.box) (failed : List ExitFailure) :
    ∃ failed' w', (w.box.rules.filterMap IpRule.managed).foldlM (removeRuleOf wanted) failed w =
        .ok failed' w' ∧ Quiet w' ∧ Regular w'.box ∧ (failed' = [] → failed = []) ∧
      ∀ r, r ∈ w'.box.rules ↔ r ∈ w.box.rules ∧ ∀ m, r.managed = some m → m.key ∈ wanted := by
  let J : List ExitFailure → World → Prop := fun failed₁ v => Quiet v ∧ Regular v.box ∧
    (failed₁ = [] → failed = []) ∧ (∀ r ∈ v.box.rules, r ∈ w.box.rules) ∧
    ∀ r ∈ w.box.rules, (∀ m, r.managed = some m → m.key ∈ wanted) → r ∈ v.box.rules
  let D : ManagedRule → List ExitFailure → World → Prop := fun m _ v =>
    ∀ r ∈ v.box.rules, r.managed = some m → m.key ∈ wanted
  have hturn : ∀ m ∈ w.box.rules.filterMap IpRule.managed, ∀ failed₁ v, J failed₁ v →
      ∃ failed₂ v', removeRuleOf wanted failed₁ m v = .ok failed₂ v' ∧ J failed₂ v' ∧ D m failed₂ v' ∧
        ∀ m' ∈ w.box.rules.filterMap IpRule.managed, D m' failed₁ v → D m' failed₂ v' := by
    rintro m hm failed₁ v ⟨hv,hregular,hfailed,hleft,hkept⟩
    obtain ⟨r₀,hr₀,hm₀⟩ := List.mem_filterMap.mp hm
    by_cases hwanted : m.key ∈ wanted
    · have hrun : removeRuleOf wanted failed₁ m v = .ok failed₁ v := by
        unfold removeRuleOf
        rw [if_pos (by simpa using hwanted)]
        rfl
      exact ⟨failed₁,v,hrun,⟨hv,hregular,hfailed,hleft,hkept⟩,fun _ _ _ => hwanted,fun _ _ h => h⟩
    · have htakes : Takes Quiet World.box (removeRuleOf wanted failed₁ m) v.box (v.box.dropRule r₀) := by
        unfold removeRuleOf
        rw [if_neg (by simpa using hwanted)]
        refine (takes_ruleDel hregular hr₀ hb hm₀).bind fun res => ?_
        cases res <;> exact takes_pure _
      obtain ⟨failed₂,v',hrun,hv',hbox⟩ := htakes v hv rfl
      have hmem : ∀ r, r ∈ v'.box.rules ↔ r ∈ v.box.rules ∧ r ≠ r₀ := by
        intro r
        rw [hbox, hregular.mem_dropRule (managed_some hm₀).1]
      refine ⟨failed₂,v',hrun,⟨hv',?_,?_,fun r hr => hleft r ((hmem r).mp hr).1,fun r hr hall => ?_⟩,
        fun r hr hrm => ?_,fun m' _ hm' r hr => hm' r ((hmem r).mp hr).1⟩
      · rw [hbox]
        exact hregular.sublist List.erase_sublist
      · exact fun hnone => hfailed (removeRuleOf_failed hrun hnone)
      · refine (hmem r).mpr ⟨hkept r hr hall,?_⟩
        rintro rfl
        exact hwanted (hall m hm₀)
      · obtain ⟨hr,hne⟩ := (hmem r).mp hr
        exact absurd (managed_inj hb (hleft r hr) hr₀ hrm hm₀) hne
  obtain ⟨failed',w',hrun,⟨hw',hregular,hfailed,hleft,hkept⟩,hgone⟩ :=
    foldlM_each J D hturn (show J failed w from ⟨hw,hb,id,fun r hr => hr,fun r hr _ => hr⟩)
  refine ⟨failed',w',hrun,hw',hregular,hfailed,fun r => ⟨fun hr => ⟨hleft r hr,fun m hm => ?_⟩,fun hr =>
    hkept r hr.1 hr.2⟩⟩
  exact hgone m (List.mem_filterMap.mpr ⟨r,hleft r hr,hm⟩) r hr hm

def ExitRule.kernel (rule : ExitRule) : Option IpRule :=
  match Net.parse rule.source, rule.table, rule.priority with
  | some net, .int (.ofNat t), .int (.ofNat p) => some ⟨p,some net,[],t⟩
  | _, _, _ => none

theorem kernel_of_add {b' : Box} (h : b.step (.ruleAdd rule.source rule.table rule.priority) = .ok b') :
    ∃ r, rule.kernel = some r ∧ b'.rules = Box.insertRule b.rules r := by
  obtain ⟨net,t,p,hnet,ht,hp,-,-,hrules⟩ := ruleAdd_ok h
  refine ⟨_,?_,hrules⟩
  rw [ExitRule.kernel, hnet, ht, hp]

theorem addRuleOf_ok (installed : List ManagedRule) {text : String} (hw : Quiet w) (hb : Regular w.box)
    (htext : rule.source = text ++ "/32") (failed : List ExitFailure) :
    ∃ failed' w', addRuleOf installed failed rule w = .ok failed' w' ∧ Quiet w' ∧ Regular w'.box ∧
      (∀ r ∈ w.box.rules, r ∈ w'.box.rules) ∧
      (∀ r ∈ w'.box.rules, r ∈ w.box.rules ∨ rule.kernel = some r) ∧
      (failed' = [] → failed = [] ∧ (installed.any (·.serves rule) = true ∨
        ∃ r ∈ w'.box.rules, rule.kernel = some r)) := by
  unfold addRuleOf
  by_cases hserved : installed.any (·.serves rule) = true
  · rw [if_pos hserved]
    exact ⟨failed,w,rfl,hw,hb,fun r hr => hr,fun r hr => .inl hr,fun hnone => ⟨hnone,.inl hserved⟩⟩
  · rw [if_neg hserved]
    cases hstep : w.box.step (.ruleAdd rule.source rule.table rule.priority) with
    | error res =>
      rw [bind_of_ok (tryRun_refused hw hstep)]
      exact ⟨_,w,rfl,hw,hb,fun r hr => hr,fun r hr => .inl hr,fun hnone => by simp at hnone⟩
    | ok b' =>
      obtain ⟨r,hkernel,hrules⟩ := kernel_of_add hstep
      have hregular : Regular b' := regular_add hb (htext ▸ hstep)
      rw [bind_of_ok (tryRun_quiet hw hstep)]
      refine ⟨_,_,rfl,⟨hw.faults⟩,hregular,fun r' hr' => ?_,fun r' hr' => ?_,
        fun hnone => ⟨hnone,.inr ⟨r,?_,hkernel⟩⟩⟩
      · exact hrules ▸ mem_insertRule.mpr (.inl hr')
      · rcases mem_insertRule.mp (hrules ▸ hr') with hold | rfl
        · exact .inl hold
        · exact .inr hkernel
      · exact hrules ▸ mem_insertRule.mpr (.inr rfl)

theorem addRules_ok (installed : List ManagedRule) {rules : List ExitRule} (hw : Quiet w) (hb : Regular w.box)
    (htext : ∀ rule ∈ rules, ∃ text, rule.source = text ++ "/32") (failed : List ExitFailure) :
    ∃ failed' w', rules.foldlM (addRuleOf installed) failed w = .ok failed' w' ∧ Quiet w' ∧
      Regular w'.box ∧ (∀ r ∈ w.box.rules, r ∈ w'.box.rules) ∧
      (∀ r ∈ w'.box.rules, r ∈ w.box.rules ∨ ∃ rule ∈ rules, rule.kernel = some r) ∧
      (failed' = [] → failed = [] ∧ ∀ rule ∈ rules, installed.any (·.serves rule) = true ∨
        ∃ r ∈ w'.box.rules, rule.kernel = some r) := by
  let J : List ExitFailure → World → Prop := fun failed₁ v => Quiet v ∧ Regular v.box ∧
    (∀ r ∈ w.box.rules, r ∈ v.box.rules) ∧
    (∀ r ∈ v.box.rules, r ∈ w.box.rules ∨ ∃ rule ∈ rules, rule.kernel = some r) ∧
    (failed₁ = [] → failed = [])
  let D : ExitRule → List ExitFailure → World → Prop := fun rule failed₁ v => failed₁ = [] →
    installed.any (·.serves rule) = true ∨ ∃ r ∈ v.box.rules, rule.kernel = some r
  have hturn : ∀ rule ∈ rules, ∀ failed₁ v, J failed₁ v →
      ∃ failed₂ v', addRuleOf installed failed₁ rule v = .ok failed₂ v' ∧ J failed₂ v' ∧
        D rule failed₂ v' ∧ ∀ q ∈ rules, D q failed₁ v → D q failed₂ v' := by
    rintro rule hrule failed₁ v ⟨hv,hregular,hkept,hknown,hfailed⟩
    obtain ⟨text,htext⟩ := htext rule hrule
    obtain ⟨failed₂,v',hrun,hv',hregular',hold,hnew,hserved⟩ :=
      addRuleOf_ok installed hv hregular htext failed₁
    refine ⟨failed₂,v',hrun,⟨hv',hregular',fun r hr => hold r (hkept r hr),fun r hr => ?_,fun hnone =>
      hfailed (hserved hnone).1⟩,fun hnone => (hserved hnone).2,fun q _ hq hnone => ?_⟩
    · rcases hnew r hr with hr | hkernel
      · exact hknown r hr
      · exact .inr ⟨rule,hrule,hkernel⟩
    · exact (hq (hserved hnone).1).imp_right fun ⟨r,hr,hkernel⟩ => ⟨r,hold r hr,hkernel⟩
  obtain ⟨failed',w',hrun,⟨hw',hregular,hkept,hknown,hfailed⟩,hserved⟩ :=
    foldlM_each J D hturn (show J failed w from ⟨hw,hb,fun r hr => hr,fun r hr => .inl hr,id⟩)
  exact ⟨failed',w',hrun,hw',hregular,hkept,hknown,fun hnone =>
    ⟨hfailed hnone,fun rule hrule => hserved rule hrule hnone⟩⟩

theorem listManaged_ok (hw : Quiet w) :
    listManagedRules w = .ok (w.box.rules.filterMap IpRule.managed) w := by
  have hread : w.box.step .ruleShow = .ok w.box := rfl
  unfold listManagedRules query
  rw [bind_apply, bind_of_ok (tryRun_quiet hw hread)]
  rfl

theorem applyRules_ok {rules : List ExitRule} (hw : Quiet w) (hb : Regular w.box)
    (htext : ∀ rule ∈ rules, ∃ text, rule.source = text ++ "/32") (failed : List ExitFailure) :
    ∃ failed' w', applyRules rules failed w = .ok failed' w' ∧ Quiet w' ∧ Regular w'.box ∧
      (∀ r ∈ w.box.rules, (∀ m, r.managed = some m → m.key ∈ rules.map ExitRule.key) →
        r ∈ w'.box.rules) ∧
      (∀ r ∈ w'.box.rules, (r ∈ w.box.rules ∧
          ∀ m, r.managed = some m → m.key ∈ rules.map ExitRule.key) ∨
        ∃ rule ∈ rules, rule.kernel = some r) ∧
      (failed' = [] → failed = [] ∧ ∀ rule ∈ rules,
        (∃ r ∈ w.box.rules, ∃ m, r.managed = some m ∧ m.serves rule = true) ∨
          ∃ r ∈ w'.box.rules, rule.kernel = some r) := by
  obtain ⟨failed₁,w₁,hremove,hw₁,hb₁,hfailed₁,hleft⟩ :=
    removeRules_ok (rules.map ExitRule.key) hw hb failed
  obtain ⟨failed₂,w₂,hadd,hw₂,hb₂,hkept,hknown,hserved⟩ :=
    addRules_ok (w.box.rules.filterMap IpRule.managed) hw₁ hb₁ htext failed₁
  refine ⟨failed₂,w₂,?_,hw₂,hb₂,fun r hr hall => hkept r ((hleft r).mpr ⟨hr,hall⟩),fun r hr => ?_,
    fun hnone => ?_⟩
  · unfold applyRules
    rw [bind_of_ok (listManaged_ok hw), bind_of_ok hremove]
    exact hadd
  · exact (hknown r hr).imp_left fun hr => (hleft r).mp hr
  · obtain ⟨hnone₁,hall⟩ := hserved hnone
    refine ⟨hfailed₁ hnone₁,fun rule hrule => (hall rule hrule).imp_left fun hany => ?_⟩
    obtain ⟨m,hm,hserves⟩ := List.any_eq_true.mp hany
    obtain ⟨r,hr,hrm⟩ := List.mem_filterMap.mp hm
    exact ⟨r,hr,m,hrm,hserves⟩

theorem key_eq {t : Nat} {net : Net} (hparse : Net.parse m.source = some net)
    (hm : tableText m.table = toString m.table)
    (ht : rule.table = .int t) (h : m.key = rule.key) : m.source = rule.source ∧ m.table = t := by
  have hbar : '|' ∉ m.source.toList := Net.not_mem_of_parse hparse rfl
  have hint : (Num.int t).text.toList = Nat.toDigits 10 t := String.toList_ofList
  have hlist := congrArg String.toList h
  simp only [ManagedRule.key, ExitRule.key, hm, ht, String.toList_append, Text.toList_toString, hint] at hlist
  have hsplit : m.source.toList ++ '|' :: Nat.toDigits 10 m.table =
      rule.source.toList ++ '|' :: Nat.toDigits 10 t := by simpa using hlist
  obtain ⟨hs,-,hd⟩ := (List.append_cons_inj_of_notMem hbar (Net.not_mem_toDigits rfl _)).mp hsplit
  exact ⟨String.toList_inj.mp hs,Text.toDigits_inj hd⟩

end Reconcile

end JumpHost.Mesh
