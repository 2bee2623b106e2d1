import JumpHost.Library.Quad
import JumpHost.Library.Run
import JumpHost.Mesh.Exits

namespace JumpHost.Mesh

open Effect

section Lookup

variable {plan : ExitPlan} {sites : List SiteDoc} {b : Box}

structure Steered (plan : ExitPlan) (b : Box) : Prop where
  rules : ∀ r net, r.source = some net → net.family = .v4 →
    (r ∈ b.rules ↔ ∃ rule ∈ plan.rules, rule.kernel = some r)
  defaults : ∀ n : Nat, .int n ∈ plan.exits.keys →
    ⟨2400 + n,anywhere,ifaceFor (.int n)⟩ ∈ b.routes

theorem Settled.steered (h : Settled plan b) (hplan : plan.Formed sites) (hsites : SiteIds sites)
    (hbanded : Banded b) : Steered plan b := by
  refine ⟨fun r net hsource hfamily => ?_,fun n hn => ?_⟩
  · constructor
    · intro hr
      rcases hbanded r hr with hkernel | ⟨n,-,hle,hpriority,-⟩
      · rw [source_kernel hkernel] at hsource
        cases hsource
      · exact (h.rules r net (inBand_iff.mpr (by omega)) hsource hfamily).mp hr
    · rintro ⟨rule,hrule,hkernel⟩
      obtain ⟨n,-,hle,hat,-⟩ := rule_at hplan hsites hrule
      exact (h.rules r net (inBand_kernel_at hat hle hkernel) hsource hfamily).mpr ⟨rule,hrule,hkernel⟩
  · obtain ⟨exit,hexit⟩ := OrdMap.mem_keys_iff.mp hn
    obtain ⟨k,-,-,hid,hiface,htable⟩ := exit_at hplan hsites hexit
    obtain rfl : n = k := Int.ofNat.inj (Num.int.inj hid)
    obtain ⟨t,ht,hroute⟩ := (h.exits _ exit hexit).route
    obtain rfl : 2400 + n = t := Int.ofNat.inj (Num.int.inj (htable.symm.trans ht))
    exact hiface ▸ hroute

theorem stable_banded : Stable (fun w => Banded w.box) Cmd.placesRules := by
  refine stable_box (I := Banded) fun b c b' hc h hb r hr => ?_
  rcases rule_origin h hr with hold | ⟨source,net,t,p,rfl,-,rfl⟩
  · exact hb r hold
  · obtain ⟨n,hpos,hle,htable,hpriority⟩ := hc
    exact .inr ⟨n,hpos,hle,Int.ofNat.inj (Num.int.inj hpriority),Int.ofNat.inj (Num.int.inj htable)⟩

structure Packet where
  src : Addr
  dst : Addr
  same : src.family = dst.family

def IpRule.applies (r : IpRule) (src : Addr) : Bool :=
  r.extra = [] ∧ r.source.all fun net => net.contains src

def Box.routeIn (b : Box) (table : Nat) (dst : Addr) : Option String :=
  Net.longest (((b.routes ++ b.metered).filter fun r => r.table = table).map fun r => (r.net,r.dev)) dst

def Box.answer (b : Box) (p : Packet) (r : IpRule) : Option String :=
  if r.applies p.src then b.routeIn r.table p.dst else none

def Box.lookup (b : Box) (p : Packet) : Option String := b.rules.findSome? (b.answer p)

def Box.NonLocal (b : Box) (dst : Addr) : Prop :=
  ∀ r ∈ b.routes ++ b.metered, r.table = LOCAL → r.net.contains dst = false

def OnlyExits (b : Box) : Prop := ∀ r ∈ b.routes ++ b.metered, ∀ n : Nat, 1 ≤ n → n ≤ 254 → r.table = 2400 + n →
  r.net = anywhere ∧ r.dev = ifaceFor (.int n)

theorem routeIn_exit {dst : Addr} {n : Nat} (honly : OnlyExits b) (hn : 1 ≤ n) (hle : n ≤ 254)
    (hdefault : ⟨2400 + n,anywhere,ifaceFor (.int n)⟩ ∈ b.routes) (hdst : dst.family = .v4) :
    b.routeIn (2400 + n) dst = some (ifaceFor (.int n)) := by
  unfold Box.routeIn
  cases hlongest : Net.longest _ dst with
  | none =>
    have hentry : (anywhere,ifaceFor (.int n)) ∈
        ((b.routes ++ b.metered).filter fun r => r.table = 2400 + n).map fun r => (r.net,r.dev) :=
      List.mem_map.mpr ⟨_,List.mem_filter.mpr ⟨List.mem_append_left _ hdefault,by simp⟩,rfl⟩
    have hmiss := Net.longest_eq_none.mp hlongest _ hentry
    simp [anywhere, Net.contains, hdst] at hmiss
  | some dev =>
    obtain ⟨net,hentry,-⟩ := Net.longest_mem hlongest
    obtain ⟨r,hr,heq⟩ := List.mem_map.mp hentry
    obtain ⟨hr,htable⟩ := List.mem_filter.mp hr
    cases heq
    rw [(honly r hr n hn hle (by simpa using htable)).2]

theorem routeIn_local {dst : Addr} (h : b.NonLocal dst) : b.routeIn LOCAL dst = none := by
  unfold Box.routeIn
  rw [Net.longest_eq_none]
  intro e he
  obtain ⟨r,hr,rfl⟩ := List.mem_map.mp he
  obtain ⟨hr,htable⟩ := List.mem_filter.mp hr
  exact h r hr (by simpa using htable)

theorem answer_planned {rule : ExitRule} {p : Packet} {n : Nat} (hplan : plan.Formed sites)
    (hsites : SiteIds sites) (hsteered : Steered plan b) (honly : OnlyExits b)
    (hfamily : p.src.family = .v4) (hrule : rule ∈ plan.rules) (hat : rule.At n)
    (hsource : Net.parse rule.source = some (Net.host p.src)) :
    ⟨3000 + n,some (Net.host p.src),[],2400 + n⟩ ∈ b.rules ∧
      b.answer p ⟨3000 + n,some (Net.host p.src),[],2400 + n⟩ = some (ifaceFor (.int n)) := by
  obtain ⟨k,hpos,hle,hat',exit,hexit⟩ := rule_at hplan hsites hrule
  obtain rfl : n = k := Int.ofNat.inj (Num.int.inj (hat.site.symm.trans hat'.site))
  have hmem := (hsteered.rules _ _ rfl hfamily).mpr ⟨rule,hrule,kernel_of_at hat hsource⟩
  have hself : (Net.host p.src).contains p.src = true := Net.contains_host.mpr rfl
  refine ⟨hmem,?_⟩
  rw [Box.answer, if_pos (by simp [IpRule.applies, hself])]
  exact routeIn_exit honly hpos hle (hsteered.defaults n (OrdMap.mem_keys_iff.mpr ⟨exit,hexit⟩))
    (p.same ▸ hfamily)

theorem lookup_exit {rule : ExitRule} {p : Packet} (hplan : plan.Formed sites)
    (hsites : SiteIds sites) (hb : Ruled b) (hbanded : Banded b) (hsteered : Steered plan b)
    (honly : OnlyExits b) (hrule : rule ∈ plan.rules)
    (hsource : Net.parse rule.source = some (Net.host p.src)) (hlocal : b.NonLocal p.dst) :
    ∃ first ∈ plan.rules, ∃ n, first.At n ∧ Net.parse first.source = some (Net.host p.src) ∧
      b.lookup p = some (ifaceFor (.int n)) ∧ ∀ other ∈ plan.rules, ∀ m, other.At m →
        Net.parse other.source = some (Net.host p.src) → n ≤ m := by
  have hfamily : p.src.family = .v4 := by
    obtain ⟨text,htext⟩ := (hplan.rules rule hrule).2.2.2
    have hlen : p.src.bits.length = 32 := Net.length_of_parse (htext ▸ hsource)
    rw [p.src.full] at hlen
    cases hf : p.src.family with
    | v4 => rfl
    | v6 => simp [hf, Family.width] at hlen
  have hplanned : ∀ other ∈ plan.rules, ∀ m, other.At m →
      Net.parse other.source = some (Net.host p.src) → _ := fun other hother m hat hsame =>
    answer_planned hplan hsites hsteered honly hfamily hother hat hsame
  obtain ⟨k,hpos,hle,hat,-⟩ := rule_at hplan hsites hrule
  obtain ⟨hmem,hanswer⟩ := hplanned rule hrule k hat hsource
  obtain ⟨r,hr,hlookup,hsome,hleast⟩ :=
    Net.findSome?_least (b.answer p) hb.inOrder hmem (by rw [hanswer]; rfl)
  have happlies : r.applies p.src = true := by
    by_contra hnot
    rw [Box.answer, if_neg hnot] at hsome
    cases hsome
  have hband : r.priority ≤ 3000 + k := hleast _ hmem (by rw [hanswer]; rfl)
  rcases hbanded r hr with hkernel | ⟨n,hn,hnle,hpriority,htable⟩
  · simp only [kernelRules, List.mem_cons, List.not_mem_nil, or_false] at hkernel
    rcases hkernel with rfl | rfl | rfl
    · rw [Box.answer, if_pos happlies, routeIn_local hlocal] at hsome
      cases hsome
    · change 32766 ≤ 3000 + k at hband
      omega
    · change 32767 ≤ 3000 + k at hband
      omega
  · have hown := (hb.known r hr).resolve_left fun hkernel => by
      simp only [kernelRules, List.mem_cons, List.not_mem_nil, or_false] at hkernel
      rcases hkernel with rfl | rfl | rfl <;> simp at hpriority <;> omega
    obtain ⟨net,hnet,hlen⟩ := hown.source
    have hhost : net = Net.host p.src := by
      have hcontains : net.contains p.src = true := by simpa [IpRule.applies, hown.extra, hnet] using happlies
      exact Net.eq_host_of_contains hcontains (by rw [hlen, hfamily]; rfl)
    rw [hhost] at hnet
    obtain ⟨first,hfirst,hkernel⟩ := (hsteered.rules r _ hnet hfamily).mp hr
    obtain ⟨j,-,-,hat',-⟩ := rule_at hplan hsites hfirst
    obtain ⟨net',hsame,rfl⟩ := kernel_at hat' hkernel
    obtain rfl : net' = Net.host p.src := Option.some.inj hnet
    refine ⟨first,hfirst,j,hat',hsame,?_,fun other hother m hm hother' => ?_⟩
    · exact hlookup.trans (hplanned first hfirst j hat' hsame).2
    · obtain ⟨hmem',hanswer'⟩ := hplanned other hother m hm hother'
      have hpriorities : 3000 + j ≤ 3000 + m := hleast _ hmem' (by rw [hanswer']; rfl)
      omega

theorem stable_onlyExits : Stable (fun w => OnlyExits w.box) fun c => ∀ dev table,
    c = .routeReplaceDefault dev table → ∃ id, dev = ifaceFor id ∧ table = tableFor id := by
  refine stable_box fun b c b' hc h hb r hr n hn hle htable => ?_
  rcases List.mem_append.mp hr with hr | hr
  case inr => exact hb r (List.mem_append_right _ (mem_metered h hr)) n hn hle htable
  rcases (routes_step h).added r hr with hold | hlocal | hmain | ⟨hreplace,hnet⟩
  · exact hb r (List.mem_append_left _ hold) n hn hle htable
  · rw [LOCAL] at hlocal
    omega
  · rw [MAIN] at hmain
    omega
  · obtain ⟨id,hdev,hid⟩ := hc _ _ hreplace
    rw [htable] at hid
    exact ⟨hnet,by rw [hdev, (tableFor_eq_int_iff hle).mp hid.symm]⟩

end Lookup

section Runs

variable {conf : MeshConf} {w w' : World}

structure MeshPass where
  plan : Plan
  privateKey : String
  exitKey : String
  clients : List ClientDoc
  sites : List SiteDoc

def MeshPass.exits (pass : MeshPass) : ExitPlan :=
  planExits pass.clients pass.sites pass.plan.siteId

def meshPass (conf : MeshConf) (pass : MeshPass) : Shell ExitsApplied := do
  let _ ← applyPlan conf pass.plan pass.privateKey
  applyExits pass.exits pass.exitKey

def meshStep (conf : MeshConf) (w : World) (pass : MeshPass) : Option World :=
  match meshPass conf pass w with
  | .ok _ w' => some w'
  | .error _ _ => none

structure Managed (w : World) : Prop where
  calm : Calm w
  ruled : Ruled w.box
  banded : Banded w.box
  onlyExits : OnlyExits w.box

theorem rules_applyPlan {plan : Plan} {privateKey : String} (rules : List IpRule) :
    Keeps (fun w => w.box.rules = rules) (applyPlan conf plan privateKey) := by
  refine keeps_applyPlan (stable_rules rules) (fun c hc => ?_) (fun c hc => ?_) (fun pid => ?_) privateKey
  · cases c <;> simp_all [Cmd.ofMesh, Cmd.writes]
  · cases c <;> simp_all [Cmd.ofRouting, Cmd.writes]
  · exact keeps_probeKernel (stable_rules rules) (by simp [Cmd.writes]) (by simp [Cmd.writes])

theorem managed_applyPlan {plan : Plan} {privateKey : String} {applied : Applied}
    (h : applyPlan conf plan privateKey w = .ok applied w') (hw : Managed w) : Managed w' := by
  have hcalm : Calm w' := (keeps_applyPlan (stable_calm fun _ => True) (fun _ _ => trivial)
    (fun _ _ => trivial) keeps_calm_probe privateKey).of_ok h hw.calm
  have hrules : w'.box.rules = w.box.rules := (rules_applyPlan w.box.rules).of_ok h rfl
  have honly : OnlyExits w'.box := by
    refine (keeps_applyPlan stable_onlyExits (fun c hc dev table heq => ?_)
      (fun c hc dev table heq => ?_) (fun pid => ?_) privateKey).of_ok h hw.onlyExits
    · subst heq
      exact hc.elim
    · subst heq
      exact hc.elim
    · exact keeps_probeKernel stable_onlyExits (fun _ _ h => (by cases h)) fun _ _ h => (by cases h)
  exact ⟨hcalm,hw.ruled.sublist (by rw [hrules]),fun r hr => hw.banded r (hrules ▸ hr),honly⟩

theorem ruled_applyExits {plan : ExitPlan} {sites : List SiteDoc} {privateKey : String}
    (hplan : plan.Formed sites) : Keeps (fun w => Ruled w.box) (applyExits plan privateKey) := by
  refine keeps_applyExits stable_ruled (fun pid => ?_) (fun entry _ c hc => ?_) (fun rule hrule => ?_)
    (fun _ _ _ _ _ _ _ => trivial) (fun _ _ => trivial) fun _ _ _ _ => trivial
  · exact keeps_probeKernel stable_ruled trivial trivial
  · cases c <;> simp_all [Cmd.ofExit, Cmd.hostRules]
  · exact (hplan.rules rule hrule).2.2.2

theorem managed_applyExits {plan : ExitPlan} {sites : List SiteDoc} {privateKey : String}
    {result : ExitsApplied} (hplan : plan.Formed sites) (hsites : SiteIds sites)
    (h : applyExits plan privateKey w = .ok result w') (hw : Managed w) :
    Managed w' ∧ (result.failed = [] → Steered plan w'.box) := by
  obtain ⟨result',w'',hrun,-,-,-,hsettled⟩ :=
    applyExits_settles hplan hsites hw.calm.quiet hw.ruled.regular hw.banded.sited privateKey
  rw [h] at hrun
  cases hrun
  have hcalm : Calm w' := (keeps_applyExits (stable_calm fun _ => True) keeps_calm_probe
    (fun _ _ _ _ => trivial) (fun _ _ => trivial) (fun _ _ _ _ _ _ _ => trivial) (fun _ _ => trivial)
    fun _ _ _ _ => trivial).of_ok h hw.calm
  have hruled : Ruled w'.box := (ruled_applyExits hplan).of_ok h hw.ruled
  have hbanded : Banded w'.box := by
    refine (keeps_applyExits stable_banded (fun pid => ?_) (fun entry _ c hc => ?_) (fun rule hrule => ?_)
      (fun _ _ _ _ _ _ _ => trivial) (fun _ _ => trivial) fun _ _ _ _ => trivial).of_ok h hw.banded
    · exact keeps_probeKernel stable_banded trivial trivial
    · cases c <;> simp_all [Cmd.ofExit, Cmd.placesRules]
    · obtain ⟨n,hpos,hle,hat,-⟩ := rule_at hplan hsites hrule
      exact ⟨n,hpos,hle,hat.table,hat.priority⟩
  have honly : OnlyExits w'.box := by
    refine (keeps_applyExits stable_onlyExits (fun pid => ?_) (fun entry hentry c hc dev table heq => ?_)
      (fun _ _ _ _ h => (by cases h)) (fun _ _ _ _ _ _ _ _ _ h => (by cases h)) (fun _ _ _ _ h => (by cases h))
      fun _ _ _ _ _ _ h => (by cases h)).of_ok h hw.onlyExits
    · exact keeps_probeKernel stable_onlyExits (fun _ _ h => (by cases h)) fun _ _ h => (by cases h)
    · subst heq
      obtain ⟨hiface,htable,-⟩ := hplan.exits _ _ (OrdMap.mem_entries_iff.mp hentry)
      exact ⟨entry.1,hc.1.trans hiface,hc.2.trans htable⟩
  exact ⟨⟨hcalm,hruled,hbanded,honly⟩,fun hnone => (hsettled hnone).steered hplan hsites hbanded⟩

theorem managed_meshPass {pass : MeshPass} {result : ExitsApplied} (hsites : SiteIds pass.sites)
    (h : meshPass conf pass w = .ok result w') (hw : Managed w) :
    Managed w' ∧ (result.failed = [] → Steered pass.exits w'.box) := by
  obtain ⟨applied,w₁,hplan,hexits⟩ := bind_ok h
  exact managed_applyExits (formed_planExits _ _ _) hsites hexits (managed_applyPlan hplan hw)

structure Unrouted (b : Box) : Prop where
  rules : b.rules = kernelRules
  tables : ∀ r ∈ b.routes ++ b.metered, ∀ n : Nat, 1 ≤ n → n ≤ 254 → r.table ≠ 2400 + n

theorem Unrouted.managed (hcalm : Calm w) (h : Unrouted w.box) : Managed w :=
  ⟨hcalm,ruled_kernel h.rules,fun _ hr => .inl (h.rules ▸ hr),
    fun r hr n hn hle htable => absurd htable (h.tables r hr n hn hle)⟩

theorem managed_run {passes : List MeshPass} (hsites : ∀ pass ∈ passes, SiteIds pass.sites)
    (h : Run.exec (meshStep conf) w passes = some w') (hw : Managed w) : Managed w' := by
  refine Run.invariant_of_mem (fun v pass v' hv hpass hstep => ?_) hw h
  unfold meshStep at hstep
  split at hstep
  · next result v₁ hrun =>
    cases hstep
    exact (managed_meshPass (hsites pass hpass) hrun hv).1
  · cases hstep

def meshBlocks : List Net := ["10.0.0.0/8","172.24.0.0/16"].filterMap Net.parse

def inMesh (dst : Addr) : Bool := meshBlocks.any fun net => net.contains dst

def meant (conf : MeshConf) (rule : ExitRule) (dst : Addr) : String :=
  if inMesh dst then conf.IFACE else ifaceFor rule.exitSiteId

def ExitRule.Before (a b : ExitRule) : Prop :=
  match a.priority, b.priority with
  | .int p, .int q => p < q
  | _, _ => False

theorem before_at {a b : ExitRule} {n m : Nat} (ha : a.At n) (hb : b.At m) : a.Before b ↔ n < m := by
  rw [ExitRule.Before, ha.priority, hb.priority]
  simp only
  omega

theorem exit_routing {passes : List MeshPass} {last : MeshPass} {w₁ w₂ : World}
    {result : ExitsApplied} {rule : ExitRule} {p : Packet} (hcalm : Calm w) (hstart : Unrouted w.box)
    (hsites : ∀ pass ∈ passes ++ [last], SiteIds pass.sites) (hconf : exitIfaceId conf.IFACE = none)
    (hrun : Run.exec (meshStep conf) w passes = some w₁)
    (hlast : meshPass conf last w₁ = .ok result w₂) (hnone : result.failed = [])
    (hrule : rule ∈ last.exits.rules) (hsource : Net.parse rule.source = some (Net.host p.src))
    (hlocal : w₂.box.NonLocal p.dst) :
    w₂.box.lookup p = some (meant conf rule p.dst) ↔ inMesh p.dst = false ∧
      ∀ other ∈ last.exits.rules, Net.parse other.source = Net.parse rule.source →
        ¬ other.Before rule := by
  have hsites' : SiteIds last.sites := hsites last (by simp)
  have hplan := formed_planExits last.clients last.sites last.plan.siteId
  have hw₁ : Managed w₁ := managed_run (fun pass h => hsites pass (by simp [h])) hrun
    (hstart.managed hcalm)
  obtain ⟨hw₂,hsteered⟩ := managed_meshPass hsites' hlast hw₁
  obtain ⟨k,-,-,hat,-⟩ := rule_at hplan hsites' hrule
  obtain ⟨first,hfirst,n,hatn,hsame,hlookup,hleast⟩ := lookup_exit hplan hsites' hw₂.ruled
    hw₂.banded (hsteered hnone) hw₂.onlyExits hrule hsource hlocal
  rw [hlookup, Option.some.injEq, meant]
  constructor
  · intro hmeant
    cases hdst : inMesh p.dst with
    | true =>
      rw [hdst, if_pos rfl] at hmeant
      rw [← hmeant, exitIfaceId_ifaceFor] at hconf
      cases hconf
    | false =>
      rw [hdst, if_neg Bool.false_ne_true, hat.site] at hmeant
      obtain rfl := ifaceFor_inj hmeant
      refine ⟨rfl,fun other hother hsame' hbefore => ?_⟩
      obtain ⟨m,-,-,hatm,-⟩ := rule_at hplan hsites' hother
      have hle := hleast other hother m hatm (hsame'.trans hsource)
      have hlt := (before_at hatm hat).mp hbefore
      omega
  · rintro ⟨hdst,hfirstmost⟩
    have hle : n ≤ k := hleast rule hrule k hat hsource
    have hge : ¬ n < k :=
      fun hlt => hfirstmost first hfirst (hsame.trans hsource.symm) ((before_at hatn hat).mpr hlt)
    obtain rfl : n = k := by omega
    rw [hdst, if_neg Bool.false_ne_true, hat.site]

end Runs

section OneDevice

def booted : World where
  box := { rules := kernelRules }
  faults _ _ := none

def exitPass : MeshPass where
  plan := {
    siteId := .ofInt 1
    addresses := ["172.24.0.1/32","10.1.0.1/16"]
    peers := []
    routes := [⟨"10.0.0.0/8","wg-mesh"⟩,⟨"172.24.0.0/16","wg-mesh"⟩]
    netmaps := []
    siteCidr := "10.1.0.0/16" }
  privateKey := "key"
  exitKey := "exit key"
  clients := [{ assignedIp := some "10.1.128.7", exitSiteId := .ofInt 3 }]
  sites := [{ siteId := .ofInt 3, gatewayPublicKey := some "nl", gatewayEndpoint := some "nl:51820" }]

def throughThree : ExitRule := ⟨"10.1.128.7/32",.int 2403,.int 3003,.int 3⟩

def toInternet : Packet := ⟨Addr.quad 10 1 128 7,Addr.quad 8 8 8 8,rfl⟩

def toMesh : Packet := ⟨Addr.quad 10 1 128 7,Addr.quad 10 2 0 5,rfl⟩

theorem booted_unrouted : Unrouted booted.box := ⟨rfl,fun _ hr => absurd hr List.not_mem_nil⟩

theorem booted_calm : Calm booted := ⟨rfl,nofun⟩

theorem exitPass_sites : SiteIds exitPass.sites := by
  intro site hsite
  obtain rfl := List.mem_singleton.mp hsite
  exact ⟨3,rfl⟩

theorem throughThree_planned : throughThree ∈ exitPass.exits.rules := by decide

theorem throughThree_source : Net.parse throughThree.source = some (Net.host (Addr.quad 10 1 128 7)) := by
  decide

instance (b : Box) (dst : Addr) : Decidable (b.NonLocal dst) :=
  inferInstanceAs (Decidable (∀ r ∈ b.routes ++ b.metered, r.table = LOCAL → r.net.contains dst = false))

theorem exitPass_ok : ∃ result w₂, meshPass wgMesh exitPass booted = .ok result w₂ ∧
    result.failed = [] ∧ w₂.box.NonLocal toInternet.dst ∧ w₂.box.NonLocal toMesh.dst := by
  have hrun : okWith (meshPass wgMesh exitPass booted) (fun result w₂ =>
      decide (result.failed = [] ∧ w₂.box.NonLocal toInternet.dst ∧ w₂.box.NonLocal toMesh.dst)) =
        true := by decide +kernel
  obtain ⟨result,w₂,hlast,hrest⟩ := exists_of_okWith hrun
  exact ⟨result,w₂,hlast,of_decide_eq_true hrest⟩

theorem exit_routing_internet : ∃ result w₂, meshPass wgMesh exitPass booted = .ok result w₂ ∧
    (w₂.box.lookup toInternet = some (meant wgMesh throughThree toInternet.dst) ↔
      inMesh toInternet.dst = false ∧ ∀ other ∈ exitPass.exits.rules,
        Net.parse other.source = Net.parse throughThree.source → ¬ other.Before throughThree) := by
  obtain ⟨result,w₂,hlast,hnone,hlocal,-⟩ := exitPass_ok
  have hsites : ∀ pass ∈ [] ++ [exitPass], SiteIds pass.sites := by
    intro pass hpass
    obtain rfl := List.mem_singleton.mp hpass
    exact exitPass_sites
  exact ⟨result,w₂,hlast,exit_routing booted_calm booted_unrouted hsites rfl rfl hlast hnone
    throughThree_planned throughThree_source hlocal⟩

theorem mesh_through_exit : ∃ result w₂, meshPass wgMesh exitPass booted = .ok result w₂ ∧
    result.failed = [] ∧ throughThree ∈ exitPass.exits.rules ∧ w₂.box.NonLocal toMesh.dst ∧
    inMesh toMesh.dst = true ∧ w₂.box.lookup toMesh = some "wg-exit-3" ∧
    w₂.box.lookup toMesh ≠ some (meant wgMesh throughThree toMesh.dst) := by
  have hrun : okWith (meshPass wgMesh exitPass booted) (fun result w₂ =>
      decide (result.failed = [] ∧ w₂.box.NonLocal toMesh.dst ∧
        w₂.box.lookup toMesh = some "wg-exit-3")) = true := by decide +kernel
  obtain ⟨result,w₂,hlast,hrest⟩ := exists_of_okWith hrun
  obtain ⟨hnone,hlocal,hlookup⟩ := of_decide_eq_true hrest
  refine ⟨result,w₂,hlast,hnone,throughThree_planned,hlocal,by decide,hlookup,?_⟩
  rw [hlookup]
  decide

end OneDevice

end JumpHost.Mesh
