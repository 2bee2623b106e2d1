import JumpHost.Library.Quad
import JumpHost.Library.Run
import JumpHost.Mesh.Exits

namespace JumpHost.Mesh

open Effect

section Plan

variable {clients : List ClientDoc} {sites : List SiteDoc} {siteId : Value}

def ClientDoc.source (client : ClientDoc) : String := shown client.assignedIp ++ "/32"

structure Devices (clients : List ClientDoc) : Prop where
  dotted : ∀ client ∈ clients, Net.Dotted (shown client.assignedIp)
  distinct : (clients.map fun client => shown client.assignedIp).Nodup

theorem sources_planExits (clients : List ClientDoc) (sites : List SiteDoc) (siteId : Value) :
    ((planExits clients sites siteId).rules.map ExitRule.source).Sublist (clients.map ClientDoc.source) := by
  rw [(gathers_planExits clients sites siteId).rules]
  induction clients with
  | nil => exact List.Sublist.refl []
  | cons client clients ih =>
    rw [List.filterMap_cons]
    cases choice sites siteId client with
    | noExit | here | unusable => exact ih.cons client.source
    | routed => exact ih.cons_cons client.source

theorem dotted_planned (hdevices : Devices clients) {rule : ExitRule}
    (h : rule ∈ (planExits clients sites siteId).rules) :
    ∃ client ∈ clients, rule.source = client.source ∧ Net.Dotted (shown client.assignedIp) := by
  have hsource := (sources_planExits clients sites siteId).subset (List.mem_map_of_mem h)
  obtain ⟨client,hclient,hsame⟩ := List.mem_map.mp hsource
  exact ⟨client,hclient,hsame.symm,hdevices.dotted client hclient⟩

theorem parse_planned (hdevices : Devices clients) {rule : ExitRule}
    (h : rule ∈ (planExits clients sites siteId).rules) :
    ∃ x : Addr, x.family = .v4 ∧ Net.parse rule.source = some (Net.host x) := by
  obtain ⟨client,-,hsource,hdotted⟩ := dotted_planned hdevices h
  rw [hsource]
  exact hdotted.parse

theorem kernels_nodup (hdevices : Devices clients) (hsites : SiteIds sites) :
    ((planExits clients sites siteId).rules.map ExitRule.kernel).Nodup := by
  have hplan := formed_planExits clients sites siteId
  have hsources : ((planExits clients sites siteId).rules.map ExitRule.source).Nodup := by
    refine (sources_planExits clients sites siteId).nodup (List.Nodup.map_on ?_ hdevices.distinct.of_map)
    intro client hclient client' hclient' hsame
    have hshown : shown client.assignedIp = shown client'.assignedIp := by
      have happend : shown client.assignedIp ++ "/32" = shown client'.assignedIp ++ "/32" := hsame
      simpa using happend
    exact List.inj_on_of_nodup_map hdevices.distinct hclient hclient' hshown
  refine List.Nodup.map_on (fun rule hrule rule' hrule' hsame => ?_) hsources.of_map
  refine List.inj_on_of_nodup_map hsources hrule hrule' ?_
  obtain ⟨n,-,-,hat,-⟩ := rule_at hplan hsites hrule
  obtain ⟨n',-,-,hat',-⟩ := rule_at hplan hsites hrule'
  obtain ⟨client,-,hsource,hdotted⟩ := dotted_planned hdevices hrule
  obtain ⟨client',-,hsource',hdotted'⟩ := dotted_planned hdevices hrule'
  obtain ⟨x,-,hx⟩ := parse_planned hdevices hrule
  obtain ⟨x',-,hx'⟩ := parse_planned hdevices hrule'
  rw [kernel_of_at hat hx, kernel_of_at hat' hx'] at hsame
  have hnet : Net.host x = Net.host x' :=
    Option.some.inj (congrArg IpRule.source (Option.some.inj hsame))
  have hparse : Net.parse (shown client.assignedIp ++ "/32") =
      Net.parse (shown client'.assignedIp ++ "/32") := by
    change Net.parse client.source = Net.parse client'.source
    rw [← hsource, ← hsource', hx, hx', hnet]
  rw [hsource, hsource', ClientDoc.source, ClientDoc.source, hdotted.inj hdotted' hparse]

end Plan

section Installed

variable {b b' : Box} {r : IpRule}

instance : DecidableRel InOrder := fun r r' => inferInstanceAs (Decidable (r.priority ≤ r'.priority))

def exitNamed (name : String) : Bool := "wg-exit-".toList.isPrefixOf name.toList

theorem exitNamed_of_id {name : String} {n : Nat} (h : exitIfaceId name = some n) :
    exitNamed name = true := by
  unfold exitIfaceId at h
  simp only at h
  split at h
  · next hname => exact hname.1
  · cases h

structure Installed (b : Box) : Prop where
  inOrder : b.rules.Pairwise InOrder
  regular : Regular b
  sited : Sited b
  quads : ∀ r ∈ b.rules, r.inBand = true → ∃ net, r.source = some net ∧ net.family = .v4
  links : ∀ name ∈ b.links.keys, exitNamed name = true →
    ∃ n : Nat, 1 ≤ n ∧ n ≤ 254 ∧ name = ifaceFor (.int n)

theorem Installed.named (h : Installed b) : NamedExits b := by
  intro name hname n hn
  obtain ⟨k,-,-,rfl⟩ := h.links name hname (exitNamed_of_id hn)
  rw [exitIfaceId_ifaceFor] at hn
  rw [Option.some.inj hn]

def Cmd.installs : Cmd → Prop
  | .ruleAdd source table priority => (∃ text, source = text ++ "/32") ∧
      (Cmd.ruleAdd source table priority).placesRules ∧
      ∀ net, Net.parse source = some net → net.family = .v4
  | .linkAdd name | .wireguardGo name => exitNamed name = true →
      ∃ n : Nat, 1 ≤ n ∧ n ≤ 254 ∧ name = ifaceFor (.int n)
  | _ => True

theorem quads_step {c : Cmd} (hc : c.installs) (h : b.step c = .ok b')
    (hb : ∀ r ∈ b.rules, r.inBand = true → ∃ net, r.source = some net ∧ net.family = .v4) :
    ∀ r ∈ b'.rules, r.inBand = true → ∃ net, r.source = some net ∧ net.family = .v4 := by
  intro r hr hband
  rcases rule_origin h hr with hold | ⟨source,net,t,p,rfl,hnet,rfl⟩
  · exact hb r hold hband
  · exact ⟨net,rfl,hc.2.2 net hnet⟩

theorem stable_installed : Stable (fun w => Installed w.box) Cmd.installs := by
  refine stable_box (I := Installed) fun b c b' hc h hb => ?_
  have hhost : c.hostRules := by
    cases c with
    | ruleAdd source table priority => exact hc.1
    | _ => trivial
  have hplaces : c.placesRules := by
    cases c with
    | ruleAdd source table priority => exact hc.2.1
    | _ => trivial
  refine ⟨inOrder_step h hb.inOrder,regular_step hhost h hb.regular,sited_step hplaces h hb.sited,
    quads_step hc h hb.quads,fun name hname hexit => ?_⟩
  rcases (links_step h).added name hname with hold | rfl | rfl
  · exact hb.links name hold hexit
  · exact hc hexit
  · exact hc hexit

theorem inOrder_split {rules : List IpRule} (h : rules.Pairwise InOrder) (p : Nat) :
    (rules.filter fun r => r.priority ≤ p) ++ (rules.filter fun r => !(r.priority ≤ p)) = rules := by
  induction rules with
  | nil => rfl
  | cons r rules ih =>
    obtain ⟨hfirst,hrest⟩ := List.pairwise_cons.mp h
    by_cases hr : r.priority ≤ p
    · rw [List.filter_cons_of_pos (by simpa using hr), List.filter_cons_of_neg (by simpa using hr),
        List.cons_append, ih hrest]
    · have hlater : ∀ r' ∈ r :: rules, ¬ r'.priority ≤ p := by
        intro r' hr'
        rcases List.mem_cons.mp hr' with rfl | hr'
        · exact hr
        · have hle : r.priority ≤ r'.priority := hfirst r' hr'
          omega
      rw [List.filter_eq_nil_iff.mpr (by simpa using hlater), List.filter_eq_self.mpr (by simpa using hlater)]
      rfl

def Box.outside (b : Box) : List IpRule := b.rules.filter fun r => !r.inBand

def Cmd.keepsToBand : Cmd → Prop
  | .ruleAdd _ _ priority | .ruleDel _ _ priority => ∀ p : Nat, priority = .int p → 3000 ≤ p ∧ p ≤ 3254
  | _ => True

theorem outside_step {c : Cmd} (hc : c.keepsToBand) (h : b.step c = .ok b')
    (hb : b.rules.Pairwise InOrder) : b'.outside = b.outside := by
  have hband : ∀ {p : Nat} {rule : IpRule}, rule.priority = p → 3000 ≤ p ∧ p ≤ 3254 →
      (!rule.inBand) = false := by
    rintro p rule rfl hp
    rw [inBand_iff.mpr hp]
    rfl
  by_cases hw : .rules ∈ c.writes
  · cases c <;> simp [Cmd.writes] at hw
    case ruleAdd source table priority =>
      obtain ⟨net,t,p,-,-,hp,-,-,hrules⟩ := ruleAdd_ok h
      have hnew : (!IpRule.inBand ⟨p,some net,[],t⟩) = false := hband rfl (hc p hp)
      rw [Box.outside, hrules, Box.insertRule, List.filter_append,
        List.filter_cons_of_neg (by rw [hnew]; exact Bool.false_ne_true), ← List.filter_append,
        inOrder_split hb, Box.outside]
    case ruleDel source table priority =>
      obtain ⟨net,t,p,-,-,hp,-,hrules⟩ := ruleDel_ok h
      rw [Box.outside, hrules, Box.outside]
      refine filter_eraseP fun r hr => ?_
      simp only [IpRule.named, Bool.and_eq_true, beq_iff_eq] at hr
      exact hband hr.1.1 (hc p hp)
  · rw [Box.outside, (sameBut_step h).rules hw, Box.outside]

theorem stable_outside (rules : List IpRule) : Stable (fun w =>
    w.box.rules.Pairwise InOrder ∧ w.box.outside = rules) Cmd.keepsToBand :=
  stable_box (I := fun b => b.rules.Pairwise InOrder ∧ b.outside = rules) fun _ _ _ hc h hb =>
    ⟨inOrder_step h hb.1,(outside_step hc h hb.1).trans hb.2⟩

end Installed

section Converge

variable {clients : List ClientDoc} {sites : List SiteDoc} {siteId : Value} {privateKey : String}
  {b b' : Box} {w w' : World}

theorem installed_applyExits (hdevices : Devices clients) (hsites : SiteIds sites) :
    Keeps (fun w => Installed w.box) (applyExits (planExits clients sites siteId) privateKey) := by
  have hplan := formed_planExits clients sites siteId
  refine keeps_applyExits stable_installed (fun pid => ?_) (fun entry hentry c hc => ?_)
    (fun rule hrule => ?_) (fun _ _ _ _ _ _ _ => trivial) (fun _ _ => trivial) fun _ _ _ _ => trivial
  · refine keeps_probeKernel stable_installed (fun hexit => ?_) trivial
    simp [exitNamed] at hexit
  · obtain ⟨n,hpos,hle,-,hiface,-⟩ := exit_at hplan hsites (OrdMap.mem_entries_iff.mp hentry)
    cases c <;> simp only [Cmd.ofExit] at hc <;> simp only [Cmd.installs]
    case linkAdd d | wireguardGo d => exact fun _ => ⟨n,hpos,hle,hc.trans hiface⟩
  · obtain ⟨n,hpos,hle,hat,-⟩ := rule_at hplan hsites hrule
    refine ⟨(hplan.rules rule hrule).2.2.2,⟨n,hpos,hle,hat.table,hat.priority⟩,fun net hnet => ?_⟩
    obtain ⟨x,hfamily,hx⟩ := parse_planned hdevices hrule
    obtain rfl : net = Net.host x := Option.some.inj (hnet.symm.trans hx)
    exact hfamily

theorem outside_applyExits (hsites : SiteIds sites) (rules : List IpRule) :
    Keeps (fun w => w.box.rules.Pairwise InOrder ∧ w.box.outside = rules)
      (applyExits (planExits clients sites siteId) privateKey) := by
  have hplan := formed_planExits clients sites siteId
  refine keeps_applyExits (stable_outside rules) (fun pid => ?_) (fun entry _ c hc => ?_)
    (fun rule hrule p hp => ?_) (fun w _ r _ m hm _ p hp => ?_) (fun _ _ => trivial) fun _ _ _ _ => trivial
  · exact keeps_probeKernel (stable_outside rules) trivial trivial
  · cases c <;> simp_all [Cmd.ofExit, Cmd.keepsToBand]
  · obtain ⟨n,-,hle,hat,-⟩ := rule_at hplan hsites hrule
    have heq := Int.ofNat.inj (Num.int.inj (hat.priority.symm.trans hp))
    omega
  · obtain ⟨hband,-,-,rfl⟩ := managed_some hm
    have heq : r.priority = p := Int.ofNat.inj (Num.int.inj hp)
    exact heq ▸ inBand_iff.mp hband

structure AsPlanned (plan : ExitPlan) (b b' : Box) : Prop where
  band : ((b'.rules.filter IpRule.inBand).map some).Perm (plan.rules.map ExitRule.kernel)
  outside : b'.outside = b.outside
  links : ∀ name, exitNamed name = true →
    (name ∈ b'.links.keys ↔ ∃ id ∈ plan.exits.keys, name = ifaceFor id)
  leads : ∀ r ∈ b'.rules, r.inBand = true → ∃ rule ∈ plan.rules, rule.kernel = some r ∧
    ∃ exit, plan.exits.get? rule.exitSiteId = some exit ∧ exit.iface ∈ b'.links.keys ∧
      ⟨r.table,anywhere,exit.iface⟩ ∈ b'.routes ∧ b'.Sole r.table exit.iface

theorem band_settled (hdevices : Devices clients) (hsites : SiteIds sites) (hb : Installed b)
    (hsettled : Settled (planExits clients sites siteId) b) :
    ((b.rules.filter IpRule.inBand).map some).Perm
      ((planExits clients sites siteId).rules.map ExitRule.kernel) := by
  have hplan := formed_planExits clients sites siteId
  have hinj : Function.Injective (some : IpRule → Option IpRule) := Option.some_injective _
  refine (List.perm_ext_iff_of_nodup (hb.regular.nodup.map hinj) (kernels_nodup hdevices hsites)).mpr
    fun kernel => ?_
  rw [List.mem_map, List.mem_map]
  constructor
  · rintro ⟨r,hr,rfl⟩
    obtain ⟨hr,hband⟩ := List.mem_filter.mp hr
    obtain ⟨net,hsource,hfamily⟩ := hb.quads r hr hband
    exact (hsettled.rules r net hband hsource hfamily).mp hr
  · rintro ⟨rule,hrule,rfl⟩
    obtain ⟨n,-,hle,hat,-⟩ := rule_at hplan hsites hrule
    obtain ⟨x,hfamily,hx⟩ := parse_planned hdevices hrule
    have hkernel := kernel_of_at hat hx
    have hband := inBand_kernel_at hat hle hkernel
    have hmem := (hsettled.rules _ (Net.host x) hband rfl hfamily).mpr ⟨rule,hrule,hkernel⟩
    exact ⟨_,List.mem_filter.mpr ⟨hmem,hband⟩,hkernel.symm⟩

theorem leads_settled (hsites : SiteIds sites) (hb : Installed b)
    (hsettled : Settled (planExits clients sites siteId) b) {r : IpRule} (hr : r ∈ b.rules)
    (hband : r.inBand = true) : ∃ rule ∈ (planExits clients sites siteId).rules, rule.kernel = some r ∧
      ∃ exit, (planExits clients sites siteId).exits.get? rule.exitSiteId = some exit ∧
        exit.iface ∈ b.links.keys ∧ ⟨r.table,anywhere,exit.iface⟩ ∈ b.routes ∧
        b.Sole r.table exit.iface := by
  have hplan := formed_planExits clients sites siteId
  obtain ⟨net,hsource,hfamily⟩ := hb.quads r hr hband
  obtain ⟨rule,hrule,hkernel⟩ := (hsettled.rules r net hband hsource hfamily).mp hr
  obtain ⟨n,-,-,hat,exit,hexit⟩ := rule_at hplan hsites hrule
  obtain ⟨k,-,-,hid,-,htable⟩ := exit_at hplan hsites hexit
  obtain rfl : n = k := Int.ofNat.inj (Num.int.inj hid)
  obtain ⟨_,-,rfl⟩ := kernel_at hat hkernel
  have hlead := hsettled.exits _ exit hexit
  obtain ⟨t,ht,hroute⟩ := hlead.route
  obtain rfl : 2400 + n = t := Int.ofNat.inj (Num.int.inj (htable.symm.trans ht))
  exact ⟨rule,hrule,hkernel,exit,hat.site ▸ hexit,hlead.link,hroute,hlead.sole _ ht⟩

theorem applyExits_asPlanned {result : ExitsApplied} (hdevices : Devices clients) (hsites : SiteIds sites)
    (hw : Quiet w) (hb : Installed w.box)
    (h : applyExits (planExits clients sites siteId) privateKey w = .ok result w')
    (hnone : result.failed = []) : AsPlanned (planExits clients sites siteId) w.box w'.box := by
  have hplan := formed_planExits clients sites siteId
  obtain ⟨result',w'',hrun,-,-,-,hsettled⟩ :=
    applyExits_settles hplan hsites hw hb.regular hb.sited privateKey
  rw [h] at hrun
  cases hrun
  have hsettled := hsettled hnone
  have hb' : Installed w'.box := (installed_applyExits hdevices hsites).of_ok h hb
  have houtside := (outside_applyExits hsites w.box.outside).of_ok h ⟨hb.inOrder,rfl⟩
  refine ⟨band_settled hdevices hsites hb' hsettled,houtside.2,fun name hexit => ⟨fun hname => ?_,?_⟩,
    fun r hr hband => leads_settled hsites hb' hsettled hr hband⟩
  · obtain ⟨n,-,-,rfl⟩ := hb'.links name hname hexit
    exact ⟨_,chosen_applyExits hplan hw hb.named h _ hname n (exitIfaceId_ifaceFor n),rfl⟩
  · rintro ⟨id,hid,rfl⟩
    obtain ⟨exit,hexit⟩ := OrdMap.mem_keys_iff.mp hid
    have hlink := (hsettled.exits id exit hexit).link
    rwa [(hplan.exits id exit hexit).1] at hlink

end Converge

section Runs

variable {w w' : World}

structure ExitPass where
  clients : List ClientDoc
  sites : List SiteDoc
  siteId : Value
  privateKey : String
  faults : Nat → Cmd → Option Failed

def ExitPass.plan (pass : ExitPass) : ExitPlan := planExits pass.clients pass.sites pass.siteId

def ExitPass.run (pass : ExitPass) (w : World) : EStateM.Result String World ExitsApplied :=
  applyExits pass.plan pass.privateKey { w with faults := pass.faults }

def Box.AddsNoExit (b b' : Box) : Prop :=
  b'.rules.Pairwise InOrder ∧
    (b'.rules.filter IpRule.inBand).isSublist (b.rules.filter IpRule.inBand) = true ∧
    ∀ name ∈ b'.links.keys, exitNamed name = true → name ∈ b.links.keys

instance (b b' : Box) : Decidable (b.AddsNoExit b') := inferInstanceAs (Decidable (_ ∧ _ ∧ _))

inductive ExitEvent where
  | pass (p : ExitPass)
  | other (w : World)

def exitStep (w : World) : ExitEvent → Option World
  | .pass p => match p.run w with
      | .ok _ w' => some w'
      | .error _ _ => none
  | .other w' => if w.box.AddsNoExit w'.box then some w' else none

structure ExitPass.Valid (pass : ExitPass) : Prop where
  devices : Devices pass.clients
  sites : SiteIds pass.sites

def ExitEvent.Valid : ExitEvent → Prop
  | .pass p => p.Valid
  | .other _ => True

structure Untouched (b : Box) : Prop where
  inOrder : b.rules.Pairwise InOrder
  rules : ∀ r ∈ b.rules, r.inBand = false
  links : ∀ name ∈ b.links.keys, exitNamed name = false

theorem Untouched.installed {b : Box} (h : Untouched b) : Installed b := by
  have hrules : ∀ r ∈ b.rules, ¬ r.inBand = true := fun r hr => by simp [h.rules r hr]
  refine ⟨h.inOrder,⟨?_,fun r hr hband => absurd hband (hrules r hr)⟩,
    fun r hr hband => absurd hband (hrules r hr),fun r hr hband => absurd hband (hrules r hr),
    fun name hname hexit => ?_⟩
  · rw [List.filter_eq_nil_iff.mpr hrules]
    exact List.nodup_nil
  · rw [h.links name hname] at hexit
    cases hexit

theorem Installed.of_addsNoExit {b b' : Box} (hb : Installed b) (h : b.AddsNoExit b') : Installed b' := by
  obtain ⟨hinOrder,hsub,hlinks⟩ := h
  rw [List.isSublist_iff_sublist] at hsub
  have hold : ∀ r ∈ b'.rules, r.inBand = true → r ∈ b.rules := fun r hr hband =>
    (List.mem_filter.mp (hsub.subset (List.mem_filter.mpr ⟨hr,hband⟩))).1
  refine ⟨hinOrder,⟨hb.regular.nodup.sublist hsub,fun r hr hband => hb.regular.own r (hold r hr hband) hband⟩,
    fun r hr hband => hb.sited r (hold r hr hband) hband,
    fun r hr hband => hb.quads r (hold r hr hband) hband,fun name hname hexit => ?_⟩
  exact hb.links name (hlinks name hname hexit) hexit

theorem installed_exitStep {event : ExitEvent} (hvalid : event.Valid) (h : exitStep w event = some w')
    (hb : Installed w.box) : Installed w'.box := by
  unfold exitStep at h
  split at h
  · next p =>
    split at h
    · next result v hrun =>
      cases h
      exact (installed_applyExits hvalid.devices hvalid.sites).of_ok hrun hb
    · cases h
  · split at h
    · next hother =>
      cases h
      exact hb.of_addsNoExit hother
    · cases h

theorem exits_converge {events : List ExitEvent} {last : ExitPass} {w₁ w₂ : World}
    {result : ExitsApplied} (hstart : Untouched w.box) (hvalid : ∀ event ∈ events, event.Valid)
    (hrun : Run.exec exitStep w events = some w₁) (hlast : last.Valid)
    (hcalm : last.faults = fun _ _ => none) (hpass : last.run w₁ = .ok result w₂)
    (hnone : result.failed = []) : AsPlanned last.plan w₁.box w₂.box := by
  have hb₁ : Installed w₁.box := Run.invariant_of_mem (fun v event v' hv hevent hstep =>
    installed_exitStep (hvalid event hevent) hstep hv) hstart.installed hrun
  have hquiet : Quiet { w₁ with faults := last.faults } := ⟨hcalm⟩
  have hplanned := applyExits_asPlanned hlast.devices hlast.sites hquiet hb₁ hpass hnone
  exact hplanned

end Runs

section OneDevice

def gateways : List SiteDoc :=
  [{ siteId := .ofInt 3, gatewayPublicKey := some "nl", gatewayEndpoint := some "nl:51820" },
    { siteId := .ofInt 4, gatewayPublicKey := some "se", gatewayEndpoint := some "se:51820" }]

def phoneThrough (id : Int) : ExitPass where
  clients := [{ assignedIp := some "10.1.128.7", exitSiteId := .ofInt id }]
  sites := gateways
  siteId := .ofInt 1
  privateKey := "exit key"
  faults _ _ := none

def untouched : World where
  box := { rules := kernelRules }
  faults _ _ := none

theorem untouched_start : Untouched untouched.box := by
  refine ⟨?_,?_,nofun⟩
  · simp [untouched, kernelRules, InOrder]
  · decide

theorem phoneThrough_valid (id : Int) : (phoneThrough id).Valid := by
  refine ⟨⟨fun client hclient => ?_,List.nodup_singleton _⟩,fun site hsite => ?_⟩
  · obtain rfl := List.mem_singleton.mp hclient
    have hphone : "10.1.128.7".toList = Net.quad [10,1,128,7] := by decide
    exact ⟨10,1,128,7,⟨by decide,by decide,by decide,by decide⟩,hphone⟩
  · simp only [phoneThrough, gateways, List.mem_cons, List.not_mem_nil, or_false] at hsite
    rcases hsite with rfl | rfl
    · exact ⟨3,rfl⟩
    · exact ⟨4,rfl⟩

theorem exits_converge_phone : ∃ w₁ result w₂,
    Run.exec exitStep untouched [.pass (phoneThrough 3)] = some w₁ ∧
    (phoneThrough 4).run w₁ = .ok result w₂ ∧ w₁.box.rules ≠ kernelRules ∧
    AsPlanned (phoneThrough 4).plan w₁.box w₂.box := by
  obtain ⟨w₁,hrun⟩ : ∃ w₁, Run.exec exitStep untouched [.pass (phoneThrough 3)] = some w₁ := ⟨_,rfl⟩
  have hcheck : (Run.exec exitStep untouched [.pass (phoneThrough 3)]).any (fun w =>
      decide (w.box.rules ≠ kernelRules) &&
        okWith ((phoneThrough 4).run w) fun result _ => decide (result.failed = [])) = true := by
    decide +kernel
  rw [hrun, Option.any_some, Bool.and_eq_true_iff] at hcheck
  obtain ⟨result,w₂,hpass,hnone⟩ := exists_of_okWith hcheck.2
  have hvalid : ∀ event ∈ [ExitEvent.pass (phoneThrough 3)], event.Valid := by
    intro event hevent
    obtain rfl := List.mem_singleton.mp hevent
    exact phoneThrough_valid 3
  exact ⟨w₁,result,w₂,hrun,hpass,of_decide_eq_true hcheck.1,exits_converge untouched_start hvalid hrun
    (phoneThrough_valid 4) rfl hpass (of_decide_eq_true hnone)⟩

end OneDevice

end JumpHost.Mesh
