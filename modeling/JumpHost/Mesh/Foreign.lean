import JumpHost.Mesh.ExitPeers

namespace JumpHost.Mesh

open Effect

section Ours

variable {r : IpRule} {b b' : Box}

def IpRule.ours (r : IpRule) : Bool :=
  r.source.any (fun net => net.bits.length == 32) &&
    (r.priority : Int) - RULE_PRIORITY_BASE == (r.table : Int) - TABLE_BASE

def Box.foreign (b : Box) : List IpRule := b.rules.filter fun r => !r.ours

def Spared (plan : ExitPlan) (rules : List IpRule) : Prop :=
  ∀ r ∈ rules, r.ours = false → ∀ m, r.managed = some m → m.key ∈ plan.rules.map ExitRule.key

theorem ours_named {x : IpRule} {net : Net} {p t : Nat} (hr : r.priority = p) (hsource : r.source = some net)
    (htable : r.table = t) (h : IpRule.named p (some net) t x = true) : x.ours = r.ours := by
  simp only [IpRule.named, Option.elim_some, Bool.and_eq_true, beq_iff_eq] at h
  rw [IpRule.ours, IpRule.ours, h.1.1, h.1.2, h.2, hr, hsource, htable]

theorem ours_added {text : String} {net : Net} {id : Num} {p t : Nat}
    (hnet : Net.parse (text ++ "/32") = some net) (hlt : t < 4294967296) (ht : tableFor id = .int t)
    (hp : id.above RULE_PRIORITY_BASE = .int p) : IpRule.ours ⟨p,some net,[],t⟩ = true := by
  have hlen := Net.length_of_parse hnet
  obtain rfl := (above_eq_iff (by omega)).mp ht
  have hsum : (RULE_PRIORITY_BASE + (t - TABLE_BASE)).natAbs < 2 ^ 53 := by
    simp only [RULE_PRIORITY_BASE, TABLE_BASE]
    omega
  rw [Num.above, Num.nearest_of_lt hsum, Num.int.injEq] at hp
  simp only [IpRule.ours, Option.any_some, hlen, beq_self_eq_true, Bool.true_and, beq_iff_eq]
  omega

def Cmd.sparesForeign : Cmd → Prop
  | .ruleAdd source table priority => (∃ text, source = text ++ "/32") ∧
      ∃ id : Num, table = tableFor id ∧ priority = id.above RULE_PRIORITY_BASE
  | .ruleDel source table priority => ∃ r : IpRule, ∃ net, r.ours = true ∧ r.source = some net ∧
      source = net.cidr ∧ table = .int r.table ∧ priority = .int r.priority
  | _ => True

theorem selector_cidr {net : Net} {selector : Option Net}
    (h : (net.cidr = "all" ∧ selector = none) ∨ ∃ n, Net.parse net.cidr = some n ∧ selector = some n) :
    selector = some net := by
  rcases h with ⟨hall,-⟩ | ⟨n,hn,rfl⟩
  · have hparse := Net.parse_cidr net
    rw [hall] at hparse
    simp [Net.parse, Text.allowed] at hparse
  · rw [← hn, Net.parse_cidr]

theorem foreign_step {c : Cmd} (hc : c.sparesForeign) (h : b.step c = .ok b') :
    b'.foreign.Perm b.foreign := by
  by_cases hw : .rules ∈ c.writes
  · cases c <;> simp [Cmd.writes] at hw
    case ruleAdd source table priority =>
      obtain ⟨⟨text,rfl⟩,id,htable,hpriority⟩ := hc
      obtain ⟨net,t,p,hnet,ht,hp,hlt,-,hrules⟩ := ruleAdd_ok h
      have hours := ours_added hnet hlt (htable.symm.trans ht) (hpriority.symm.trans hp)
      rw [Box.foreign, hrules]
      refine ((insertRule_perm _ _).filter _).trans ?_
      rw [List.filter_cons_of_neg (by simp [hours]), Box.foreign]
    case ruleDel source table priority =>
      obtain ⟨r,net,hours,hsource,rfl,rfl,rfl⟩ := hc
      obtain ⟨selector,t,p,hselector,ht,hp,-,hrules⟩ := ruleDel_ok h
      obtain rfl := selector_cidr hselector
      rw [Box.foreign, hrules, Box.foreign, filter_eraseP fun x hx => ?_]
      have hsame := ours_named (Int.ofNat.inj (Num.int.inj hp)) hsource
        (Int.ofNat.inj (Num.int.inj ht)) hx
      simp [hsame, hours]
  · rw [Box.foreign, (sameBut_step h).rules hw, Box.foreign]

theorem stable_foreign (rules : List IpRule) :
    Stable (fun w => w.box.foreign.Perm rules) Cmd.sparesForeign :=
  stable_box (I := fun b => b.foreign.Perm rules) fun _ _ _ hc h hb => (foreign_step hc h).trans hb

theorem spares_added {plan : ExitPlan} {sites : List SiteDoc} (hplan : plan.Formed sites) {rule : ExitRule}
    (hrule : rule ∈ plan.rules) :
    (Cmd.ruleAdd rule.source rule.table rule.priority).sparesForeign := by
  obtain ⟨-,htable,hpriority,htext⟩ := hplan.rules rule hrule
  exact ⟨htext,_,htable,hpriority⟩

theorem foreign_applyExits {plan : ExitPlan} {sites : List SiteDoc} {privateKey : String}
    {rules : List IpRule} (hplan : plan.Formed sites) (hspared : Spared plan rules) :
    Keeps (fun w => w.box.foreign.Perm (rules.filter fun r => !r.ours)) (applyExits plan privateKey) := by
  have hstable := stable_foreign (rules.filter fun r => !r.ours)
  refine keeps_applyExits hstable (fun pid => keeps_probeKernel hstable trivial trivial)
    (fun entry _ c hc => ?_) (fun rule hrule => spares_added hplan hrule)
    (fun w hw r hr m hm hunwanted => ?_) (fun _ _ => trivial) fun _ _ _ _ => trivial
  · cases c <;> simp_all [Cmd.ofExit, Cmd.sparesForeign]
  · have hours : r.ours = true := by
      by_contra hforeign
      have hforeign : r.ours = false := by simpa using hforeign
      have hmem : r ∈ w.box.foreign := List.mem_filter.mpr ⟨hr,by simp [hforeign]⟩
      have hold := (List.mem_filter.mp (hw.mem_iff.mp hmem)).1
      exact hunwanted (hspared r hold hforeign m hm)
    obtain ⟨-,-,-,rfl⟩ := managed_some hm
    have hsome : ∃ net, r.source = some net := by
      cases hsource : r.source with
      | none => simp [IpRule.ours, hsource] at hours
      | some net => exact ⟨net,rfl⟩
    obtain ⟨net,hsource⟩ := hsome
    exact ⟨r,net,hours,hsource,by simp [hsource],rfl,rfl⟩

end Ours

section Deleted

variable {r x : IpRule} {m : ManagedRule} {rules : List IpRule} {wanted : List String}
  {failed : List ExitFailure} {w v w' : World}

def Unmasked (rules : List IpRule) : Prop :=
  ∀ x r, [x,r].Sublist rules → x.ours = true → r.ours = false → r.source = none →
    ¬ (x.priority = r.priority ∧ x.table = r.table)

theorem named_self (r : IpRule) : IpRule.named r.priority r.source r.table r = true := by
  cases hsource : r.source <;> simp [IpRule.named, hsource]

theorem selector_managed (hm : r.managed = some m) (f : Option Net → Except Failed Box) :
    Box.onSelector m.source f = f r.source := by
  obtain ⟨-,-,-,rfl⟩ := managed_some hm
  cases hsource : r.source with
  | none => simp [Box.onSelector]
  | some net =>
    have hparse := Net.parse_cidr net
    have hall : net.cidr ≠ "all" := by
      intro hall
      rw [hall] at hparse
      simp [Net.parse, Text.allowed] at hparse
    simp [Box.onSelector, hall, Box.onNet, hparse]

theorem ruleDel_managed (hm : r.managed = some m) (htable : r.table < 4294967296)
    (hr : r ∈ v.box.rules) : v.box.step (.ruleDel m.source (.int m.table) (.int m.priority)) =
      .ok { v.box with rules := v.box.rules.eraseP (IpRule.named r.priority r.source r.table) } := by
  have hpriority : r.priority < 4294967296 := by
    have := (inBand_iff.mp (managed_some hm).1).2
    omega
  have hany : v.box.rules.any (IpRule.named r.priority r.source r.table) = true :=
    List.any_eq_true.mpr ⟨r,hr,named_self r⟩
  simp only [Box.step, Box.ruleDel]
  rw [selector_managed hm]
  obtain ⟨-,-,-,rfl⟩ := managed_some hm
  simp [Box.onNumber, htable, hpriority, hany]

theorem foreign_eraseP (hmask : Unmasked rules) (hr : r ∈ rules) (hforeign : r.ours = false) :
    ((rules.eraseP (IpRule.named r.priority r.source r.table)).filter fun x => !x.ours).length <
      (rules.filter fun x => !x.ours).length := by
  obtain ⟨x,before,after,hbefore,hnamed,rfl,herased⟩ := List.exists_of_eraseP hr (named_self r)
  have hx : x.ours = false := by
    cases hsource : r.source with
    | some net => exact (ours_named rfl hsource rfl (hsource ▸ hnamed)).trans hforeign
    | none =>
      rcases List.mem_append.mp hr with hr | hr
      · exact absurd (named_self r) (hbefore r hr)
      · rcases List.mem_cons.mp hr with rfl | hr
        · exact hforeign
        · have hpair : [x,r].Sublist (before ++ x :: after) :=
            (List.Sublist.cons_cons x (List.singleton_sublist.mpr hr)).trans
              (List.sublist_append_right _ _)
          simp only [IpRule.named, Bool.and_eq_true, beq_iff_eq] at hnamed
          by_contra hours
          exact hmask x r hpair (by simpa using hours) hforeign hsource hnamed.1
  rw [herased]
  simp [hx]

theorem removeRuleOf_shrinks (wanted : List String) (failed : List ExitFailure) (m : ManagedRule)
    (hv : Quiet v) : ∃ failed' v', removeRuleOf wanted failed m v = .ok failed' v' ∧ Quiet v' ∧
      v'.box.rules.Sublist v.box.rules := by
  have hshrinks : Stable (fun u => u.box.rules.Sublist v.box.rules) fun c => ∃ s t p, c = .ruleDel s t p := by
    refine stable_box (I := fun b => b.rules.Sublist v.box.rules) fun b c b' hc h hb => ?_
    obtain ⟨s,t,p,rfl⟩ := hc
    obtain ⟨_,_,_,-,-,-,-,hrules⟩ := ruleDel_ok h
    exact (hrules ▸ List.eraseP_sublist).trans hb
  obtain ⟨failed',v',hrun⟩ := returns_removeRuleOf wanted failed m v
  have hquiet : Keeps Quiet (removeRuleOf wanted failed m) :=
    keeps_removeRuleOf (stable_quiet fun _ => True) (fun _ => trivial) failed
  have hkeep : Keeps (fun u => u.box.rules.Sublist v.box.rules) (removeRuleOf wanted failed m) :=
    keeps_removeRuleOf hshrinks (fun _ => ⟨_,_,_,rfl⟩) failed
  exact ⟨failed',v',hrun,hquiet.of_ok hrun hv,hkeep.of_ok hrun (List.Sublist.refl _)⟩

theorem foreign_sublist {b b' : Box} (h : b'.rules.Sublist b.rules) : b'.foreign.Sublist b.foreign :=
  h.filter _

theorem foreign_lost {b b' : Box} (h : b'.rules.Sublist b.rules) (hr : r ∈ b.rules)
    (hforeign : r.ours = false) (hgone : r ∉ b'.rules) : b'.foreign.length < b.foreign.length := by
  have hsub := foreign_sublist h
  refine lt_of_le_of_ne hsub.length_le fun hlength => hgone ?_
  have hmem : r ∈ b.foreign := List.mem_filter.mpr ⟨hr,by simp [hforeign]⟩
  rw [← hsub.eq_of_length hlength] at hmem
  exact (List.mem_filter.mp hmem).1

theorem removeRuleOf_loses (failed : List ExitFailure) (hv : Quiet v) (hmask : Unmasked v.box.rules)
    (hm : r.managed = some m)
    (htable : r.table < 4294967296) (hr : r ∈ v.box.rules) (hforeign : r.ours = false)
    (hunwanted : m.key ∉ wanted) : ∃ v', removeRuleOf wanted failed m v = .ok failed v' ∧
      v'.box.foreign.length < v.box.foreign.length := by
  have hrun : removeRuleOf wanted failed m v = .ok failed
      { v with box := { v.box with
        rules := v.box.rules.eraseP (IpRule.named r.priority r.source r.table) } } := by
    unfold removeRuleOf
    rw [if_neg (by simpa using hunwanted), bind_of_ok (tryRun_quiet hv (ruleDel_managed hm htable hr))]
    rfl
  exact ⟨_,hrun,foreign_eraseP hmask hr hforeign⟩

theorem removeRules_lose (hw : Quiet w) (hmask : Unmasked w.box.rules) (hm : r.managed = some m)
    (htable : r.table < 4294967296) (hr : r ∈ w.box.rules) (hforeign : r.ours = false)
    (hunwanted : m.key ∉ wanted) (failed : List ExitFailure) : ∃ failed' w',
      (w.box.rules.filterMap IpRule.managed).foldlM (removeRuleOf wanted) failed w = .ok failed' w' ∧
        w'.box.foreign.length < w.box.foreign.length := by
  let J : List ExitFailure → World → Prop := fun _ v => Quiet v ∧ v.box.rules.Sublist w.box.rules
  let D : ManagedRule → List ExitFailure → World → Prop := fun m' _ v =>
    m' = m → v.box.foreign.length < w.box.foreign.length
  have hturn : ∀ m' ∈ w.box.rules.filterMap IpRule.managed, ∀ failed₁ v, J failed₁ v →
      ∃ failed₂ v', removeRuleOf wanted failed₁ m' v = .ok failed₂ v' ∧ J failed₂ v' ∧ D m' failed₂ v' ∧
        ∀ other ∈ w.box.rules.filterMap IpRule.managed, D other failed₁ v → D other failed₂ v' := by
    rintro m' - failed₁ v ⟨hv,hsub⟩
    obtain ⟨failed₂,v',hrun,hv',hsub'⟩ := removeRuleOf_shrinks wanted failed₁ m' hv
    refine ⟨failed₂,v',hrun,⟨hv',hsub'.trans hsub⟩,?_,fun other _ hother heq =>
      (foreign_sublist hsub').length_le.trans_lt (hother heq)⟩
    rintro rfl
    by_cases hleft : r ∈ v.box.rules
    · have hmask' : Unmasked v.box.rules := fun x r hpair => hmask x r (hpair.trans hsub)
      obtain ⟨v'',hrun',hlost⟩ :=
        removeRuleOf_loses failed₁ hv hmask' hm htable hleft hforeign hunwanted
      rw [hrun'] at hrun
      cases hrun
      exact hlost.trans_le (foreign_sublist hsub).length_le
    · exact foreign_lost (hsub'.trans hsub) hr hforeign fun hr' => hleft (hsub'.subset hr')
  obtain ⟨failed',w',hrun,-,hlost⟩ :=
    foldlM_each J D hturn (show J failed w from ⟨hw,List.Sublist.refl _⟩)
  exact ⟨failed',w',hrun,hlost m (List.mem_filterMap.mpr ⟨r,hr,hm⟩) rfl⟩

end Deleted

section Pass

variable {plan : ExitPlan} {sites : List SiteDoc} {privateKey : String} {w w' : World}
  {result : ExitsApplied} {r : IpRule} {m : ManagedRule}

theorem applyExits_loses (hplan : plan.Formed sites) (hw : Quiet w) (hmask : Unmasked w.box.rules)
    (h : applyExits plan privateKey w = .ok result w') (hm : r.managed = some m)
    (htable : r.table < 4294967296) (hr : r ∈ w.box.rules) (hforeign : r.ours = false)
    (hunwanted : m.key ∉ plan.rules.map ExitRule.key) :
    w'.box.foreign.length < w.box.foreign.length := by
  obtain ⟨done,w₁,w₂,found,w₃,-,hup,hrules,hfound,hremove⟩ := applyExits_ok h
  have hw₁ : Quiet w₁ := (keeps_foldlM (fun _ _ _ => keeps_applyExit (stable_quiet _) keeps_quiet_probe _) _).of_ok
    hup hw
  have hrules₁ : w₁.box.rules = w.box.rules :=
    (keeps_foldlM (fun _ _ _ => rules_applyExit w.box.rules) _).of_ok hup rfl
  obtain ⟨failed₁,v,hdel,hlost⟩ := removeRules_lose hw₁ (hrules₁ ▸ hmask) hm htable (hrules₁ ▸ hr)
    hforeign hunwanted done.2
  unfold applyRules at hrules
  rw [bind_of_ok (listManaged_ok hw₁), bind_of_ok hdel] at hrules
  have hadds : Keeps (fun u => u.box.foreign.Perm v.box.foreign)
      (plan.rules.foldlM (addRuleOf (w₁.box.rules.filterMap IpRule.managed)) failed₁) :=
    keeps_foldlM (fun failed rule hrule =>
      keeps_addRuleOf (stable_foreign _) (spares_added hplan hrule) failed) _
  have hkept := (hadds.of_ok hrules (List.Perm.refl _)).length_eq
  have hlist : w₃.box.rules = w₂.box.rules :=
    (keeps_listExitInterfaces (stable_rules w₂.box.rules)).of_ok hfound rfl
  have hrules₃ : w'.box.rules = w₂.box.rules := (rules_removeExits _ _ _).of_ok hremove hlist
  have hafter : w'.box.foreign = w₂.box.foreign := by rw [Box.foreign, hrules₃, Box.foreign]
  have hbefore : w₁.box.foreign = w.box.foreign := by rw [Box.foreign, hrules₁, Box.foreign]
  rw [hafter, hkept, ← hbefore]
  exact hlost

def SparesForeign (plan : ExitPlan) (privateKey : String) (w : World) : Prop :=
  (final (applyExits plan privateKey w)).box.foreign.Perm w.box.foreign

theorem operator_rules (clients : List ClientDoc) (sites : List SiteDoc) (siteId : Value)
    (privateKey : String) (w : World) :
    (Spared (planExits clients sites siteId) w.box.rules →
      SparesForeign (planExits clients sites siteId) privateKey w) ∧
    (Quiet w → Unmasked w.box.rules → (∀ r ∈ w.box.rules, r.table < 4294967296) →
      SparesForeign (planExits clients sites siteId) privateKey w →
        Spared (planExits clients sites siteId) w.box.rules) := by
  have hplan := formed_planExits clients sites siteId
  constructor
  · exact fun hspared => foreign_applyExits hplan hspared w (List.Perm.refl _)
  · intro hw hmask htables hsame r hr hforeign m hm
    by_contra hunwanted
    obtain ⟨result,w',hrun⟩ := returns_applyExits (planExits clients sites siteId) privateKey w
    have hlost := applyExits_loses hplan hw hmask hrun hm (htables r hr) hr hforeign hunwanted
    rw [SparesForeign, hrun] at hsame
    exact hlost.ne hsame.length_eq

end Pass

section Operator

def office (priority table : Nat) (extra : List String) : IpRule :=
  ⟨priority,some (Net.ofAddr (Addr.quad 10 9 0 0) 16),extra,table⟩

def operated : World where
  box := { rules := [⟨0,none,[],LOCAL⟩,office 2000 MAIN [],
    ⟨3003,some (Net.host (Addr.quad 10 1 128 7)),[],2403⟩,office 3100 MAIN ["iif","eth0"],⟨32766,none,[],MAIN⟩] }
  faults _ _ := none

theorem operated_foreign {r : IpRule} (hr : r ∈ operated.box.rules) (hforeign : r.ours = false) :
    r.managed = none := by
  simp only [operated, List.mem_cons, List.not_mem_nil, or_false] at hr
  rcases hr with rfl | rfl | rfl | rfl | rfl
  · rfl
  · rfl
  · exact absurd hforeign (by decide)
  · rfl
  · rfl

theorem operated_unmasked : Unmasked operated.box.rules := by
  intro x r hpair hours hforeign hsource
  have hx : x ∈ operated.box.rules := hpair.subset (by simp)
  have hr : r ∈ operated.box.rules := hpair.subset (by simp)
  simp only [operated, List.mem_cons, List.not_mem_nil, or_false] at hx hr
  rcases hr with rfl | rfl | rfl | rfl | rfl <;> rcases hx with rfl | rfl | rfl | rfl | rfl <;>
    revert hours hforeign hsource <;> decide

theorem operator_rules_phone :
    SparesForeign (planExits (phoneThrough 4).clients gateways (.ofInt 1)) "exit key" operated ∧
      Spared (planExits (phoneThrough 4).clients gateways (.ofInt 1)) operated.box.rules := by
  obtain ⟨henough,hneeded⟩ :=
    operator_rules (phoneThrough 4).clients gateways (.ofInt 1) "exit key" operated
  have hspared : Spared (planExits (phoneThrough 4).clients gateways (.ofInt 1)) operated.box.rules := by
    intro r hr hforeign m hm
    rw [operated_foreign hr hforeign] at hm
    cases hm
  have htables : ∀ r ∈ operated.box.rules, r.table < 4294967296 := by decide
  have hsame := henough hspared
  exact ⟨hsame,hneeded ⟨rfl⟩ operated_unmasked htables hsame⟩

theorem operator_rule_deleted : (office 3100 MAIN []).ours = false ∧
    ¬ SparesForeign (planExits [] [] (.ofInt 1)) "exit key"
      { box := { rules := [office 3100 MAIN []] }, faults := fun _ _ => none } := by
  refine ⟨by decide,fun hsame => ?_⟩
  have hlength := hsame.length_eq
  revert hlength
  decide +kernel

end Operator

end JumpHost.Mesh
