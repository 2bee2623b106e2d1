import JumpHost.Mesh.ExitLinks
import JumpHost.Mesh.ExitPlans
import JumpHost.Mesh.Rules

namespace JumpHost.Mesh

open Effect

section Routes

variable {b b' : Box}

structure RoutesStep (c : Cmd) (b b' : Box) : Prop where
  added : ∀ r ∈ b'.routes, r ∈ b.routes ∨ r.table = LOCAL ∨ r.table = MAIN ∨
    c = .routeReplaceDefault r.dev (.int r.table) ∧ r.net = anywhere
  removed : ∀ r ∈ b.routes, r ∉ b'.routes → r.table = LOCAL ∨ r.table = MAIN ∨ c = .linkDel r.dev ∨
    c = .routeFlush (.int r.table) ∨ (∃ cidr, c = .addrDel cidr r.dev) ∨
    ∃ dev, c = .routeReplaceDefault dev (.int r.table) ∧ r.net = anywhere

theorem RoutesStep.of_eq {c : Cmd} (h : b'.routes = b.routes) : RoutesStep c b b' where
  added _ hr := .inl (h ▸ hr)
  removed _ hr hgone := absurd (h ▸ hr) hgone

theorem table_ownRoutes {r : Route} {dev cidr : String} (h : r ∈ Box.ownRoutes dev cidr) :
    r.table = LOCAL ∨ r.table = MAIN := by
  unfold Box.ownRoutes at h
  split at h
  · cases h
  · next address net _ =>
    rcases List.mem_cons.mp h with rfl | h
    · exact .inl rfl
    · split at h
      · cases h
      · obtain rfl := List.mem_singleton.mp h
        exact .inr rfl

theorem routesStep_addRoutes {c : Cmd} {routes : List Route} (hb : b'.routes = (b.addRoutes routes).routes)
    (h : ∀ r ∈ routes, r.table = LOCAL ∨ r.table = MAIN) : RoutesStep c b b' where
  added r hr := by
    rw [hb] at hr
    rcases List.mem_append.mp hr with hr | hr
    · exact .inl hr
    · exact .inr ((h r (List.mem_filter.mp hr).1).imp_right .inl)
  removed r hr hgone := by
    rw [hb] at hgone
    exact absurd (List.mem_append_left _ hr) hgone

theorem routesStep_addRoute {c : Cmd} {route : Route} (h : b.addRoute route = .ok b')
    (htable : route.table = LOCAL ∨ route.table = MAIN) : RoutesStep c b b' := by
  obtain ⟨-,hroutes⟩ := addRoute_ok h
  refine ⟨fun r hr => ?_,fun r hr hgone => absurd (hroutes ▸ List.mem_append_left _ hr) hgone⟩
  rw [hroutes] at hr
  rcases List.mem_append.mp hr with hr | hr
  · exact .inl hr
  · obtain rfl := List.mem_singleton.mp hr
    exact .inr (htable.imp_right .inl)

theorem routesStep_delRoute {c : Cmd} {route : Route} (h : b.delRoute route = .ok b')
    (htable : route.table = LOCAL ∨ route.table = MAIN) : RoutesStep c b b' := by
  have hroutes := delRoute_ok h
  refine ⟨fun r hr => .inl (List.mem_of_mem_erase (hroutes ▸ hr)),fun r hr hgone => ?_⟩
  by_cases heq : r = route
  · exact heq ▸ htable.imp_right .inl
  · exact absurd (hroutes ▸ (List.mem_erase_of_ne heq).mpr hr) hgone

theorem routes_step {c : Cmd} (h : b.step c = .ok b') : RoutesStep c b b' := by
  have hfiltered : ∀ {keep : Route → Bool}, b'.routes = b.routes.filter keep → ∀ r ∈ b'.routes, r ∈ b.routes :=
    fun h r hr => (List.mem_filter.mp (h ▸ hr)).1
  have hlost : ∀ {keep : Route → Bool} {r : Route}, b'.routes = b.routes.filter keep → r ∈ b.routes →
      r ∉ b'.routes → keep r = false := by
    intro keep r h hr hgone
    by_contra hkept
    exact hgone (h ▸ List.mem_filter.mpr ⟨hr,by simpa using hkept⟩)
  cases routes_change h with
  | same h => exact .of_eq h
  | unlinked dev hc h =>
    refine ⟨fun r hr => .inl (hfiltered h r hr),fun r hr hgone => .inr (.inr (.inl ?_))⟩
    have hdev : r.dev = dev := by simpa using hlost h hr hgone
    rw [hc, hdev]
  | own dev routes _ hown h =>
    refine routesStep_addRoutes h fun r hr => ?_
    obtain ⟨cidr,-,hr⟩ := hown r hr
    exact table_ownRoutes hr
  | disowned cidr dev kept hc _ h =>
    refine ⟨fun r hr => .inl (hfiltered h r hr),fun r hr hgone => ?_⟩
    by_cases hown : r ∈ Box.ownRoutes dev cidr
    · exact (table_ownRoutes hown).imp_right .inl
    · have hdev : r.dev = dev := by
        have hboth := hlost h hr hgone
        simp only [Box.strippedOf, Bool.and_eq_false_iff, Bool.not_eq_false', Bool.and_eq_true, beq_iff_eq] at hboth
        exact (hboth.resolve_left (by simp [hown])).2.1
      subst hdev
      exact .inr (.inr (.inr (.inr (.inl ⟨cidr,hc⟩))))
  | added cidr dev net _ _ h => exact routesStep_addRoute h (.inr rfl)
  | deleted cidr dev net _ _ h => exact routesStep_delRoute h (.inr rfl)
  | claimed net h => exact routesStep_addRoute h (.inl rfl)
  | unclaimed net h => exact routesStep_delRoute h (.inl rfl)
  | default dev t hc _ h =>
    refine ⟨fun r hr => ?_,fun r hr hgone => ?_⟩
    · rw [h] at hr
      rcases List.mem_append.mp hr with hr | hr
      · exact .inl (List.mem_filter.mp hr).1
      · obtain rfl := List.mem_singleton.mp hr
        exact .inr (.inr (.inr ⟨hc,rfl⟩))
    · have hgone' : r.table = t ∧ r.net = anywhere := by
        by_contra hne
        have hkept : (!(r.table == t && r.net == anywhere)) = true := by
          rcases not_and_or.mp hne with h | h <;> simp [h]
        exact hgone (h ▸ List.mem_append_left _ (List.mem_filter.mpr ⟨hr,hkept⟩))
      obtain ⟨rfl,hnet⟩ := hgone'
      exact .inr (.inr (.inr (.inr (.inr ⟨dev,hc,hnet⟩))))
  | flushed t hc _ h =>
    refine ⟨fun r hr => .inl (hfiltered h r hr),fun r hr hgone => .inr (.inr (.inr (.inl ?_)))⟩
    have htable : r.table = t := by simpa using hlost h hr hgone
    rw [hc, htable]

theorem stable_route {r : Route} (hlocal : r.table ≠ LOCAL) (hmain : r.table ≠ MAIN) :
    Stable (fun w => r ∈ w.box.routes) fun c => c ≠ .linkDel r.dev ∧ c ≠ .routeFlush (.int r.table) ∧
      (∀ cidr, c ≠ .addrDel cidr r.dev) ∧ ∀ dev, c ≠ .routeReplaceDefault dev (.int r.table) := by
  refine stable_box (I := fun b => r ∈ b.routes) fun b c b' hc h hr => ?_
  by_contra hgone
  rcases (routes_step h).removed r hr hgone with h | h | h | h | ⟨cidr,h⟩ | ⟨dev,h,-⟩
  · exact hlocal h
  · exact hmain h
  · exact hc.1 h
  · exact hc.2.1 h
  · exact hc.2.2.1 cidr h
  · exact hc.2.2.2 dev h

def Box.Sole (b : Box) (table : Nat) (dev : String) : Prop :=
  ∀ r ∈ b.routes, r.table = table → r.net = anywhere → r.dev = dev

theorem stable_sole {table : Nat} (hlocal : table ≠ LOCAL) (hmain : table ≠ MAIN) (dev : String) :
    Stable (fun w => w.box.Sole table dev) fun c => ∀ d, c ≠ .routeReplaceDefault d (.int table) := by
  refine stable_box (I := fun b => b.Sole table dev) fun b c b' hc h hb r hr htable hnet => ?_
  rcases (routes_step h).added r hr with hold | hr | hr | ⟨hreplace,-⟩
  · exact hb r hold htable hnet
  · exact absurd (htable.symm.trans hr) hlocal
  · exact absurd (htable.symm.trans hr) hmain
  · exact absurd (htable ▸ hreplace) (hc _)

theorem stable_rules (rules : List IpRule) :
    Stable (fun w => w.box.rules = rules) fun c => .rules ∉ c.writes :=
  stable_box (I := fun b => b.rules = rules) fun _ _ _ hc h hb => ((sameBut_step h).rules hc).trans hb

theorem stable_routes (routes : List Route) :
    Stable (fun w => w.box.routes = routes) fun c => .routes ∉ c.writes :=
  stable_box (I := fun b => b.routes = routes) fun _ _ _ hc h hb => ((sameBut_step h).routes hc).trans hb

theorem stable_links (links : OrdMap String Link) :
    Stable (fun w => w.box.links = links) fun c => .links ∉ c.writes :=
  stable_box (I := fun b => b.links = links) fun _ _ _ hc h hb => ((sameBut_step h).links hc).trans hb

end Routes

section Plan

variable {sites : List SiteDoc}

def SiteIds (sites : List SiteDoc) : Prop :=
  ∀ site ∈ sites, ∃ id, assertSiteId site.siteId = .ok id

structure ExitPlan.Formed (sites : List SiteDoc) (plan : ExitPlan) : Prop where
  exits : ∀ id exit, plan.exits.get? id = some exit →
    exit.iface = ifaceFor id ∧ exit.table = tableFor id ∧ ∃ site ∈ sites, site.siteId.number = id
  rules : ∀ rule ∈ plan.rules, plan.exits.has rule.exitSiteId = true ∧
    rule.table = tableFor rule.exitSiteId ∧
    rule.priority = rule.exitSiteId.above RULE_PRIORITY_BASE ∧ ∃ text, rule.source = text ++ "/32"

theorem siteById_mem {id : Num} {site : SiteDoc} (h : siteById sites id = some site) :
    site ∈ sites ∧ site.siteId.number = id := by
  have hmem := List.mem_of_getLast? h
  simpa using hmem

theorem formed_planExits (clients : List ClientDoc) (sites : List SiteDoc) (siteId : Value) :
    (planExits clients sites siteId).Formed sites := by
  refine ⟨fun id exit hget => ?_,fun rule hrule => ?_⟩
  · obtain ⟨rfl,client,-,hrouted,rfl⟩ := ((gathers_planExits clients sites siteId).exits id exit).mp hget
    have husable := usable_of_routed hrouted
    refine ⟨rfl,rfl,?_⟩
    cases hsite : siteById sites client.exitSiteId.number with
    | none =>
      rw [hsite] at husable
      cases husable
    | some site => exact ⟨site,siteById_mem hsite⟩
  · obtain ⟨client,hclient,hrouted,rfl⟩ := mem_rules.mp hrule
    exact ⟨has_routed hclient hrouted,rfl,rfl,_,rfl⟩

end Plan

section BringUp

variable {w w' : World} {name privateKey : String} {exit : Exit}

theorem up_wgSetPeer {b b' : Box} {key : String} {ips : List String} {endpoint : Option String}
    {keepalive : Option Nat} (h : b.step (.wgSetPeer name key ips endpoint keepalive) = .ok b')
    (hup : ∃ link, b.links.get? name = some link ∧ link.up = true) :
    ∃ link, b'.links.get? name = some link ∧ link.up = true := by
  obtain ⟨link,hlink,hb⟩ := onLink_ok h
  obtain ⟨link',hlink',hup⟩ := hup
  obtain rfl : link = link' := Option.some.inj (hlink.symm.trans hlink')
  split at hb <;> cases hb
  exact ⟨_,OrdMap.get?_set_self _ _ _,hup⟩

theorem step_routeReplaceDefault {b : Box} {t : Nat} (ht : t < 4294967296)
    (hup : ∃ link, b.links.get? name = some link ∧ link.up = true) :
    ∃ b', b.step (.routeReplaceDefault name (.int t)) = .ok b' ∧ ⟨t,anywhere,name⟩ ∈ b'.routes ∧
      b'.Sole t name ∧ name ∈ b'.links.keys := by
  obtain ⟨link,hlink,hup⟩ := hup
  have hstep : b.step (.routeReplaceDefault name (.int t)) = .ok { b with
      routes := (b.routes.filter fun r => !(r.table == t && r.net == anywhere)) ++
        [⟨t,anywhere,name⟩] } := by
    simp only [Box.step, Box.routeReplaceDefault, Box.onNumber, ht, if_true, Box.onUp, Box.onLink,
      hlink, hup]
  refine ⟨_,hstep,by simp,fun r hr htable hnet => ?_,OrdMap.mem_keys_iff.mpr ⟨link,hlink⟩⟩
  rcases List.mem_append.mp hr with hr | hr
  · have hkept := (List.mem_filter.mp hr).2
    simp [htable, hnet] at hkept
  · obtain rfl := List.mem_singleton.mp hr
    rfl

theorem keeps_quiet_probe (pid : String) : Keeps Quiet (probeKernel ("wgprobe" ++ pid)) :=
  keeps_probeKernel (stable_quiet fun _ => True) trivial trivial

theorem keeps_calm_probe (pid : String) : Keeps Calm (probeKernel ("wgprobe" ++ pid)) :=
  keeps_probeKernel (stable_calm fun _ => True) trivial trivial

theorem prepareExit_ok (h : prepareExit privateKey exit w = .ok () w') :
    w'.box.isUp exit.iface ∧ ∃ (b : Box) (endpoint : Option String) (keepalive : Option Nat),
      b.step (.wgSetPeer exit.iface exit.publicKey exit.allowedIPs endpoint keepalive) = .ok w'.box := by
  obtain ⟨_,w₁,-,h⟩ := bind_ok h
  obtain ⟨_,w₂,-,h⟩ := bind_ok h
  obtain ⟨_,w₃,haddr,hpeer⟩ := bind_ok h
  exact ⟨up_wgSetPeer (run_ok hpeer) (isUp_setAddresses haddr),_,_,_,run_ok hpeer⟩

theorem bringUpExit_ok (h : bringUpExit privateKey exit w = .ok () w') :
    ∃ v, prepareExit privateKey exit w = .ok () v ∧ steerExit exit v = .ok () w' := by
  rw [bringUpExit_eq] at h
  obtain ⟨_,v,hprepare,hsteer⟩ := bind_ok h
  exact ⟨v,hprepare,hsteer⟩

def Exit.HasDefault (exit : Exit) (b : Box) : Prop :=
  ∃ t : Nat, exit.table = .int t ∧ ⟨t,anywhere,exit.iface⟩ ∈ b.routes

structure Exit.Leads (exit : Exit) (b : Box) : Prop where
  route : exit.HasDefault b
  sole : ∀ t : Nat, exit.table = .int t → b.Sole t exit.iface
  link : exit.iface ∈ b.links.keys

structure Exit.Tabled (exit : Exit) : Prop where
  table : ∃ t : Nat, exit.table = .int t ∧ t < 4294967296 ∧ t ≠ LOCAL ∧ t ≠ MAIN
  iface : ∀ pid, exit.iface ≠ "wgprobe" ++ pid

theorem leads_bringUpExit (hexit : exit.Tabled) (hw : Quiet w)
    (h : bringUpExit privateKey exit w = .ok () w') : exit.Leads w'.box := by
  obtain ⟨t,htable,ht,-,-⟩ := hexit.table
  obtain ⟨v,hprepare,h⟩ := bringUpExit_ok h
  have hv : Quiet v := (keeps_prepareExit (stable_quiet _) keeps_quiet_probe).of_ok hprepare hw
  obtain ⟨b',hstep,hroute,hsole,hlink⟩ := step_routeReplaceDefault ht (prepareExit_ok hprepare).1
  rw [← htable] at hstep
  unfold steerExit at h
  rw [bind_of_ok (tryRun_quiet hv hstep)] at h
  obtain ⟨_,w₅,hsysctls,h⟩ := bind_ok h
  cases h
  have hroutes : w'.box.routes = b'.routes := (keeps_applySysctls (stable_routes b'.routes)
    (fun _ _ => by simp [Cmd.writes]) (fun _ _ => by simp [Cmd.writes]) _).of_ok hsysctls rfl
  have hlinks : w'.box.links = b'.links := (keeps_applySysctls (stable_links b'.links)
    (fun _ _ => by simp [Cmd.writes]) (fun _ _ => by simp [Cmd.writes]) _).of_ok hsysctls rfl
  refine ⟨⟨t,htable,hroutes ▸ hroute⟩,fun t' ht' => ?_,hlinks ▸ hlink⟩
  obtain rfl : t = t' := Int.ofNat.inj (Num.int.inj (htable.symm.trans ht'))
  rw [Box.Sole, hroutes]
  exact hsole

theorem leads_other {other : Exit} (hexit : exit.Tabled) (hne : other.table ≠ exit.table)
    (hdev : other.iface ≠ exit.iface) (privateKey : String) (done : List String × List ExitFailure) :
    Keeps (fun v => exit.Leads v.box) (applyExit privateKey done other) := by
  obtain ⟨t,htable,-,hlocal,hmain⟩ := hexit.table
  have hprobe : ∀ pid, "wgprobe" ++ pid ≠ exit.iface := fun pid => (hexit.iface pid).symm
  have hroute : Keeps (fun v => ⟨t,anywhere,exit.iface⟩ ∈ v.box.routes) (applyExit privateKey done other) := by
    have hstable := stable_route (r := ⟨t,anywhere,exit.iface⟩) hlocal hmain
    refine keeps_applyExit (hstable.mono fun c hc => ?_) (fun pid => ?_) done
    · cases c <;> simp_all [Cmd.ofExit]
    · exact keeps_probeKernel hstable (by simp) (by simpa using hprobe pid)
  have hsole : Keeps (fun v => v.box.Sole t exit.iface) (applyExit privateKey done other) := by
    have hstable := stable_sole hlocal hmain exit.iface
    refine keeps_applyExit (hstable.mono fun c hc => ?_) (fun pid => ?_) done
    · cases c <;> simp_all [Cmd.ofExit]
    · exact keeps_probeKernel hstable (by simp) (by simp)
  have hlink : Keeps (fun v => exit.iface ∈ v.box.links.keys) (applyExit privateKey done other) := by
    refine keeps_applyExit ((stable_link _).mono fun c hc => ?_) (fun pid => ?_) done
    · cases c <;> simp_all [Cmd.ofExit]
    · exact keeps_probeKernel (stable_link _) (by simp) (by simpa using hprobe pid)
  rintro v ⟨⟨t',htable',hold⟩,hsole',hlink'⟩
  obtain rfl : t = t' := Int.ofNat.inj (Num.int.inj (htable.symm.trans htable'))
  refine ⟨⟨t,htable,hroute v hold⟩,fun t' ht' => ?_,hlink v hlink'⟩
  obtain rfl : t = t' := Int.ofNat.inj (Num.int.inj (htable.symm.trans ht'))
  exact hsole v (hsole' t htable)

theorem applyExits_each (privateKey : String) {exits : List Exit} (Q : Exit → Box → Prop)
    (hset : ∀ exit ∈ exits, ∀ v v', Quiet v → bringUpExit privateKey exit v = .ok () v' → Q exit v'.box)
    (hkept : ∀ exit ∈ exits, ∀ other ∈ exits, other ≠ exit → ∀ done,
      Keeps (fun v => Q exit v.box) (applyExit privateKey done other)) (hw : Quiet w) :
    ∃ done w', exits.foldlM (applyExit privateKey) ([],[]) w = .ok done w' ∧ Quiet w' ∧
      (done.2 = [] → ∀ exit ∈ exits, Q exit w'.box) := by
  let D : Exit → List String × List ExitFailure → World → Prop := fun exit done v =>
    done.2 = [] → Q exit v.box
  have hone : ∀ exit ∈ exits, ∀ done v, Quiet v → ∃ done' v', applyExit privateKey done exit v =
      .ok done' v' ∧ Quiet v' ∧ (done'.2 = [] → done.2 = [] ∧ Q exit v'.box) := by
    intro exit hexit done v hv
    have hquiet : Quiet (final (bringUpExit privateKey exit v)) :=
      keeps_bringUpExit (stable_quiet _) keeps_quiet_probe v hv
    unfold applyExit
    rw [tryCatch_apply, bind_apply]
    cases hup : bringUpExit privateKey exit v with
    | ok _ v' =>
      rw [hup] at hquiet
      exact ⟨_,v',rfl,hquiet,fun hnone => ⟨hnone,hset exit hexit v v' hv hup⟩⟩
    | error err v' =>
      rw [hup] at hquiet
      exact ⟨_,v',rfl,hquiet,fun hnone => by simp at hnone⟩
  have hturn : ∀ exit ∈ exits, ∀ done v, Quiet v → ∃ done' v', applyExit privateKey done exit v =
      .ok done' v' ∧ Quiet v' ∧ D exit done' v' ∧ ∀ other ∈ exits, D other done v → D other done' v' := by
    intro exit hexit done v hv
    obtain ⟨done',v',hrun,hv',hthis⟩ := hone exit hexit done v hv
    refine ⟨done',v',hrun,hv',fun hnone => (hthis hnone).2,fun other hother hold hnone => ?_⟩
    obtain ⟨hnone',hQ⟩ := hthis hnone
    by_cases heq : exit = other
    · exact heq ▸ hQ
    · exact (hkept other hother exit hexit heq done).of_ok hrun (hold hnone')
  obtain ⟨done,w',hrun,hw',hall⟩ := foldlM_each (fun _ => Quiet) D hturn hw
  exact ⟨done,w',hrun,hw',fun hnone exit hexit => hall exit hexit hnone⟩

theorem applyExits_lead (privateKey : String) {exits : List Exit} (hexits : ∀ exit ∈ exits, exit.Tabled)
    (htables : (exits.map Exit.table).Nodup) (hifaces : (exits.map Exit.iface).Nodup) (hw : Quiet w) :
    ∃ done w', exits.foldlM (applyExit privateKey) ([],[]) w = .ok done w' ∧ Quiet w' ∧
      (done.2 = [] → ∀ exit ∈ exits, exit.Leads w'.box) := by
  refine applyExits_each privateKey Exit.Leads (fun exit hexit v v' hv hup => ?_)
    (fun exit hexit other hother hne done => ?_) hw
  · exact leads_bringUpExit (hexits exit hexit) hv hup
  · exact leads_other (hexits exit hexit) (fun heq => hne (List.inj_on_of_nodup_map htables hother hexit heq))
      (fun heq => hne (List.inj_on_of_nodup_map hifaces hother hexit heq)) privateKey done

end BringUp

section Steering

variable {plan : ExitPlan} {sites : List SiteDoc} {b : Box} {w w' : World} {r : IpRule}

def Banded (b : Box) : Prop :=
  ∀ r ∈ b.rules, r ∈ kernelRules ∨ ∃ n : Nat, 1 ≤ n ∧ n ≤ 254 ∧ r.priority = 3000 + n ∧ r.table = 2400 + n

def Sited (b : Box) : Prop :=
  ∀ r ∈ b.rules, r.inBand = true → ∃ n : Nat, 1 ≤ n ∧ n ≤ 254 ∧ r.priority = 3000 + n ∧ r.table = 2400 + n

theorem Banded.sited (h : Banded b) : Sited b := by
  refine fun r hr hband => (h r hr).resolve_left fun hkernel => ?_
  rw [inBand_kernel hkernel] at hband
  cases hband

def Cmd.placesRules : Cmd → Prop
  | .ruleAdd _ table priority => ∃ n : Nat, 1 ≤ n ∧ n ≤ 254 ∧ table = .int (2400 + n : Nat) ∧
      priority = .int (3000 + n : Nat)
  | _ => True

theorem sited_step {b' : Box} {c : Cmd} (hc : c.placesRules) (h : b.step c = .ok b') (hb : Sited b) :
    Sited b' := by
  intro r hr hband
  rcases rule_origin h hr with hold | ⟨source,net,t,p,rfl,-,rfl⟩
  · exact hb r hold hband
  · obtain ⟨n,hpos,hle,htable,hpriority⟩ := hc
    exact ⟨n,hpos,hle,Int.ofNat.inj (Num.int.inj hpriority),Int.ofNat.inj (Num.int.inj htable)⟩

structure ExitRule.At (rule : ExitRule) (n : Nat) : Prop where
  site : rule.exitSiteId = .int n
  table : rule.table = .int (2400 + n : Nat)
  priority : rule.priority = .int (3000 + n : Nat)

theorem exit_at (hplan : plan.Formed sites) (hsites : SiteIds sites) {id : Num} {exit : Exit}
    (h : plan.exits.get? id = some exit) : ∃ n : Nat, 1 ≤ n ∧ n ≤ 254 ∧ id = .int n ∧
      exit.iface = ifaceFor (.int n) ∧ exit.table = .int (2400 + n : Nat) := by
  obtain ⟨hiface,htable,site,hsite,rfl⟩ := hplan.exits id exit h
  obtain ⟨_,hid⟩ := hsites site hsite
  obtain ⟨n,hpos,hle,-,hn⟩ := assertSiteId_ok hid
  rw [hn] at hiface htable
  exact ⟨n,hpos,hle,hn,hiface,htable.trans (tableFor_int hle)⟩

theorem rule_at (hplan : plan.Formed sites) (hsites : SiteIds sites) {rule : ExitRule}
    (h : rule ∈ plan.rules) : ∃ n : Nat, 1 ≤ n ∧ n ≤ 254 ∧ rule.At n ∧
      ∃ exit, plan.exits.get? (.int n) = some exit := by
  obtain ⟨hhas,htable,hpriority,-⟩ := hplan.rules rule h
  obtain ⟨exit,hexit⟩ := OrdMap.mem_keys_iff.mp (OrdMap.has_iff.mp hhas)
  obtain ⟨n,hpos,hle,hid,-,-⟩ := exit_at hplan hsites hexit
  rw [hid] at htable hpriority hexit
  exact ⟨n,hpos,hle,⟨hid,htable.trans (tableFor_int hle),hpriority.trans (above_int hle)⟩,exit,hexit⟩

theorem kernel_at {rule : ExitRule} {n : Nat} (hrule : rule.At n) (h : rule.kernel = some r) :
    ∃ net, Net.parse rule.source = some net ∧ r = ⟨3000 + n,some net,[],2400 + n⟩ := by
  unfold ExitRule.kernel at h
  rw [hrule.table, hrule.priority] at h
  cases hnet : Net.parse rule.source with
  | none => simp [hnet] at h
  | some net =>
    rw [hnet] at h
    exact ⟨net,rfl,(Option.some.inj h).symm⟩

theorem kernel_of_at {rule : ExitRule} {n : Nat} {net : Net} (hrule : rule.At n)
    (h : Net.parse rule.source = some net) :
    rule.kernel = some ⟨3000 + n,some net,[],2400 + n⟩ := by
  rw [ExitRule.kernel, h, hrule.table, hrule.priority]

theorem tableText_band {n : Nat} (h : 1 ≤ n) : tableText (2400 + n) = toString (2400 + n) := by
  unfold tableText
  rw [if_neg (by omega), if_neg (by omega), if_neg (by omega)]

theorem inBand_kernel_at {rule : ExitRule} {n : Nat} (hrule : rule.At n) (hle : n ≤ 254)
    (h : rule.kernel = some r) : r.inBand = true := by
  obtain ⟨net,-,rfl⟩ := kernel_at hrule h
  exact inBand_iff.mpr ⟨by simp,by simp only; omega⟩

theorem planned_of_wanted (hplan : plan.Formed sites) (hsites : SiteIds sites) {m : ManagedRule}
    (hb : Regular b) (hsited : Sited b) (hr : r ∈ b.rules) (hm : r.managed = some m)
    (hwanted : m.key ∈ plan.rules.map ExitRule.key) : ∃ rule ∈ plan.rules, rule.kernel = some r := by
  obtain ⟨hown,-,hmtable,net,hsource,-,hparse⟩ := own_of_managed hb hr hm
  obtain ⟨n,hn,-,hpriority,htable⟩ := hsited r hr (managed_some hm).1
  obtain ⟨rule,hrule,hkey⟩ := List.mem_map.mp hwanted
  obtain ⟨k,-,-,hat,-⟩ := rule_at hplan hsites hrule
  have htext : tableText m.table = toString m.table := by
    rw [hmtable, htable]
    exact tableText_band hn
  obtain ⟨hsame,hk⟩ := key_eq hparse htext hat.table hkey.symm
  obtain rfl : n = k := by omega
  refine ⟨rule,hrule,(kernel_of_at hat (hsame ▸ hparse)).trans ?_⟩
  have hextra := hown.extra
  obtain ⟨rp,rs,re,rt⟩ := r
  simp_all

theorem served_rule {m : ManagedRule} {rule : ExitRule} {k : Nat} (hb : Regular b) (hsited : Sited b)
    (hr : r ∈ b.rules) (hm : r.managed = some m) (hserves : m.serves rule = true) (hat : rule.At k) :
    rule.kernel = some r ∧ m.key = rule.key := by
  obtain ⟨hown,-,hmtable,net,hsource,-,hparse⟩ := own_of_managed hb hr hm
  simp only [ManagedRule.serves, Bool.decide_and, Bool.and_eq_true, decide_eq_true_eq] at hserves
  obtain ⟨hsame,htext,htable⟩ := hserves
  have hkey : m.key = rule.key := by
    rw [ManagedRule.key, ExitRule.key, hsame, htext, htable]
    rfl
  obtain ⟨n,-,-,hpriority,hrtable⟩ := hsited r hr (managed_some hm).1
  obtain rfl : n = k := by
    have heq := htable.symm.trans hat.table
    rw [hmtable, hrtable, Num.int.injEq] at heq
    omega
  refine ⟨(kernel_of_at hat (hsame ▸ hparse)).trans ?_,hkey⟩
  have hextra := hown.extra
  obtain ⟨rp,rs,re,rt⟩ := r
  simp_all

def Steers (plan : ExitPlan) (b : Box) : Prop :=
  ∀ r net, r.inBand = true → r.source = some net → net.family = .v4 →
    (r ∈ b.rules ↔ ∃ rule ∈ plan.rules, rule.kernel = some r)

theorem applyRules_steers (hplan : plan.Formed sites) (hsites : SiteIds sites) (hw : Quiet w)
    (hb : Regular w.box) (hsited : Sited w.box) (failed : List ExitFailure) :
    ∃ failed' w', applyRules plan.rules failed w = .ok failed' w' ∧ Quiet w' ∧ Regular w'.box ∧
      Sited w'.box ∧ (failed' = [] → failed = [] ∧ Steers plan w'.box) := by
  have htext : ∀ rule ∈ plan.rules, ∃ text, rule.source = text ++ "/32" :=
    fun rule hrule => (hplan.rules rule hrule).2.2.2
  obtain ⟨failed',w',hrun,hw',hregular,hkept,hknown,hserved⟩ := applyRules_ok hw hb htext failed
  refine ⟨failed',w',hrun,hw',hregular,fun r hr hband => ?_,fun hnone => ⟨(hserved hnone).1,?_⟩⟩
  · rcases hknown r hr with ⟨hr,-⟩ | ⟨rule,hrule,hkernel⟩
    · exact hsited r hr hband
    · obtain ⟨n,hpos,hle,hat,-⟩ := rule_at hplan hsites hrule
      obtain ⟨net,-,rfl⟩ := kernel_at hat hkernel
      exact ⟨n,hpos,hle,rfl,rfl⟩
  · intro r net hband hsource hfamily
    constructor
    · intro hr
      rcases hknown r hr with ⟨hold,hwanted⟩ | hplanned
      · have hm := managed_of_own (hb.own r hold hband) hsource hfamily hband
        exact planned_of_wanted hplan hsites hb hsited hold hm (hwanted _ hm)
      · exact hplanned
    · rintro ⟨rule,hrule,hkernel⟩
      obtain ⟨n,-,-,hat,-⟩ := rule_at hplan hsites hrule
      rcases (hserved hnone).2 rule hrule with ⟨r',hr',m,hm,hserves⟩ | ⟨r',hr',hkernel'⟩
      · obtain ⟨hkernel',hkey⟩ := served_rule hb hsited hr' hm hserves hat
        obtain rfl : r = r' := Option.some.inj (hkernel.symm.trans hkernel')
        refine hkept r hr' fun m' hm' => ?_
        obtain rfl : m = m' := Option.some.inj (hm.symm.trans hm')
        exact hkey ▸ List.mem_map_of_mem hrule
      · obtain rfl : r = r' := Option.some.inj (hkernel.symm.trans hkernel')
        exact hr'

theorem rules_applyExit {privateKey : String} {exit : Exit} {done : List String × List ExitFailure}
    (rules : List IpRule) : Keeps (fun w => w.box.rules = rules) (applyExit privateKey done exit) := by
  refine keeps_applyExit ((stable_rules rules).mono fun c hc => ?_) (fun pid => ?_) done
  · cases c <;> simp_all [Cmd.ofExit, Cmd.writes]
  · exact keeps_probeKernel (stable_rules rules) (by simp [Cmd.writes]) (by simp [Cmd.writes])

theorem exit_tabled {id : Num} {exit : Exit} (hplan : plan.Formed sites) (hsites : SiteIds sites)
    (h : plan.exits.get? id = some exit) : exit.Tabled := by
  obtain ⟨n,hpos,hle,-,hiface,htable⟩ := exit_at hplan hsites h
  refine ⟨⟨2400 + n,htable,by omega,?_,?_⟩,fun pid => ?_⟩
  · rw [LOCAL]
    omega
  · rw [MAIN]
    omega
  · rw [hiface]
    exact ifaceFor_ne_probe _ pid

theorem mem_exits {plan : ExitPlan} {exit : Exit} :
    exit ∈ plan.exits.entries.map Prod.snd ↔ ∃ id, plan.exits.get? id = some exit := OrdMap.mem_values_iff

theorem exit_ifaces (hplan : plan.Formed sites) : ((plan.exits.entries.map Prod.snd).map Exit.iface).Nodup := by
  have hiface : (plan.exits.entries.map Prod.snd).map Exit.iface = plan.exits.keys.map ifaceFor := by
    rw [OrdMap.keys, List.map_map, List.map_map]
    refine List.map_congr_left fun entry hentry => ?_
    exact (hplan.exits _ _ (OrdMap.mem_entries_iff.mp hentry)).1
  rw [hiface]
  exact List.Nodup.map (fun _ _ => ifaceFor_num_inj) plan.exits.keys_nodup

theorem exit_tables (hplan : plan.Formed sites) (hsites : SiteIds sites) :
    ((plan.exits.entries.map Prod.snd).map Exit.table).Nodup := by
  have htable : (plan.exits.entries.map Prod.snd).map Exit.table = plan.exits.keys.map tableFor := by
    rw [OrdMap.keys, List.map_map, List.map_map]
    refine List.map_congr_left fun entry hentry => ?_
    exact (hplan.exits _ _ (OrdMap.mem_entries_iff.mp hentry)).2.1
  rw [htable]
  refine List.Nodup.map_on (fun id hid id' hid' heq => ?_) plan.exits.keys_nodup
  obtain ⟨exit,hexit⟩ := OrdMap.mem_keys_iff.mp hid
  obtain ⟨exit',hexit'⟩ := OrdMap.mem_keys_iff.mp hid'
  obtain ⟨n,-,-,rfl,-,-⟩ := exit_at hplan hsites hexit
  obtain ⟨n',-,hle,rfl,-,-⟩ := exit_at hplan hsites hexit'
  rw [tableFor_int hle] at heq
  exact (tableFor_eq_int_iff hle).mp heq

theorem leads_removeExit {n : Nat} (hle : n ≤ 254) {exit : Exit} (hiface : exit.iface = ifaceFor (.int n))
    (htable : exit.table = .int (2400 + n : Nat)) (hchosen : .int n ∈ plan.exits.keys)
    {entry : Nat × String} (hentry : exitIfaceId entry.2 = some entry.1) :
    Keeps (fun w => exit.Leads w.box) (removeExit plan.exits.keys entry) := by
  have hlocal : 2400 + n ≠ LOCAL := by rw [LOCAL]; omega
  have hmain : 2400 + n ≠ MAIN := by rw [MAIN]; omega
  have hother : .int entry.1 ∉ plan.exits.keys → entry.1 ≠ n := fun hnot heq => hnot (heq ▸ hchosen)
  have hname : .int entry.1 ∉ plan.exits.keys → entry.2 ≠ exit.iface := by
    intro hnot heq
    rw [heq, hiface, exitIfaceId_ifaceFor] at hentry
    exact hother hnot (Option.some.inj hentry).symm
  have htables : .int entry.1 ∉ plan.exits.keys → tableFor (.int entry.1) ≠ .int (2400 + n : Nat) := by
    intro hnot heq
    exact hother hnot (Int.ofNat.inj (Num.int.inj ((tableFor_eq_int_iff hle).mp heq)))
  have hroute : Keeps (fun v => ⟨2400 + n,anywhere,exit.iface⟩ ∈ v.box.routes)
      (removeExit plan.exits.keys entry) := by
    refine keeps_removeExit (stable_route hlocal hmain) (fun hnot => ⟨by simp,?_,by simp⟩)
      fun hnot => ⟨?_,by simp,by simp⟩
    · simpa using htables hnot
    · simpa using hname hnot
  have hsole : Keeps (fun v => v.box.Sole (2400 + n) exit.iface) (removeExit plan.exits.keys entry) :=
    keeps_removeExit (stable_sole hlocal hmain _) (fun _ => by simp) fun _ => by simp
  have hlink : Keeps (fun v => exit.iface ∈ v.box.links.keys) (removeExit plan.exits.keys entry) :=
    keeps_removeExit (stable_link _) (fun _ => by simp) fun hnot => by simpa using hname hnot
  have htable_inj : ∀ t : Nat, exit.table = .int t → 2400 + n = t := fun t ht =>
    Int.ofNat.inj (Num.int.inj (htable.symm.trans ht))
  rintro v ⟨⟨t,ht,hold⟩,hsole',hlink'⟩
  obtain rfl := htable_inj t ht
  refine ⟨⟨_,ht,hroute v hold⟩,fun t' ht' => ?_,hlink v hlink'⟩
  obtain rfl := htable_inj t' ht'
  exact hsole v (hsole' _ ht)

structure Settled (plan : ExitPlan) (b : Box) : Prop where
  rules : Steers plan b
  exits : ∀ id exit, plan.exits.get? id = some exit → exit.Leads b

theorem applyExits_stages {plan : ExitPlan} {privateKey : String} {done : List String × List ExitFailure}
    {failed : List ExitFailure} {w w₁ w₂ w₃ : World} {found : OrdMap Nat String}
    (hup : (plan.exits.entries.map Prod.snd).foldlM (applyExit privateKey) ([],[]) w = .ok done w₁)
    (hrules : applyRules plan.rules done.2 w₁ = .ok failed w₂)
    (hfound : listExitInterfaces w₂ = .ok found w₂)
    (hremove : found.entries.forM (removeExit plan.exits.keys) w₂ = .ok () w₃) :
    applyExits plan privateKey w = .ok ⟨done.1,failed,plan.rules.length,plan.unusable⟩ w₃ := by
  unfold applyExits
  rw [bind_of_ok hup]
  simp only
  rw [bind_of_ok hrules, bind_of_ok hfound, bind_of_ok hremove]
  rfl

theorem applyExits_ok {plan : ExitPlan} {privateKey : String} {result : ExitsApplied} {w w' : World}
    (h : applyExits plan privateKey w = .ok result w') :
    ∃ done w₁ w₂ found w₃, result.applied = done.1 ∧
      (plan.exits.entries.map Prod.snd).foldlM (applyExit privateKey) ([],[]) w = .ok done w₁ ∧
      applyRules plan.rules done.2 w₁ = .ok result.failed w₂ ∧
      listExitInterfaces w₂ = .ok found w₃ ∧
      found.entries.forM (removeExit plan.exits.keys) w₃ = .ok () w' := by
  obtain ⟨⟨applied,failed⟩,w₁,hup,h⟩ := bind_ok h
  obtain ⟨failed',w₂,hrules,h⟩ := bind_ok h
  obtain ⟨found,w₃,hfound,h⟩ := bind_ok h
  obtain ⟨_,w₄,hremove,h⟩ := bind_ok h
  cases h
  exact ⟨_,w₁,w₂,found,w₃,rfl,hup,hrules,hfound,hremove⟩

theorem chosen_applyExits {plan : ExitPlan} {sites : List SiteDoc} {privateKey : String}
    {result : ExitsApplied} {w w' : World} (hplan : plan.Formed sites) (hw : Quiet w)
    (hb : NamedExits w.box) (h : applyExits plan privateKey w = .ok result w') :
    ∀ name ∈ w'.box.links.keys, ∀ n, exitIfaceId name = some n → .int n ∈ plan.exits.keys := by
  obtain ⟨done,w₁,w₂,found,w₃,-,hup,hrules,hfound,hremove⟩ := applyExits_ok h
  have hquiet : ∀ C, Stable Quiet C := stable_quiet
  have hw₁ : Quiet w₁ := (keeps_foldlM (fun _ _ _ => keeps_applyExit (hquiet _) keeps_quiet_probe _) _).of_ok
    hup hw
  have hw₂ : Quiet w₂ := (keeps_applyRules (hquiet fun _ => True) (fun _ _ => trivial)
    (fun _ _ _ _ _ _ _ => trivial) _).of_ok hrules hw₁
  have hb₁ : NamedExits w₁.box := by
    refine (keeps_foldlM (fun _ exit hexit => keeps_applyExit (stable_namedExits.mono fun c hc => ?_)
      namesExits_probe _) _).of_ok hup hb
    obtain ⟨entry,hentry,rfl⟩ := List.mem_map.mp hexit
    have hiface := (hplan.exits _ _ (OrdMap.mem_entries_iff.mp hentry)).1
    cases c <;> simp only [Cmd.ofExit] at hc <;> simp only [Cmd.namesExits]
    case linkAdd d | wireguardGo d => exact .inr ⟨_,hc.trans hiface⟩
  have hb₂ : NamedExits w₂.box := (keeps_applyRules stable_namedExits (fun _ _ => trivial)
    (fun _ _ _ _ _ _ _ => trivial) _).of_ok hrules hb₁
  rw [listExit_ok hw₂] at hfound
  cases hfound
  obtain ⟨w₄,hrun,-,hlinks⟩ := removeExits_ok plan.exits.keys hw₂ hb₂
  rw [hremove] at hrun
  cases hrun
  exact fun name hname => ((hlinks name).mp hname).2

theorem rules_removeExits (wanted : List Num) (entries : List (Nat × String)) (rules : List IpRule) :
    Keeps (fun w => w.box.rules = rules) (entries.forM (removeExit wanted)) :=
  keeps_forM fun _ _ => keeps_removeExit (stable_rules _) (fun _ => by simp [Cmd.writes])
    fun _ => by simp [Cmd.writes]

theorem quiet_removeExits (wanted : List Num) (entries : List (Nat × String)) :
    Keeps Quiet (entries.forM (removeExit wanted)) :=
  keeps_forM fun _ _ => keeps_removeExit (stable_quiet fun _ => True) (fun _ => trivial) fun _ => trivial

theorem applyExits_settles (hplan : plan.Formed sites) (hsites : SiteIds sites) (hw : Quiet w)
    (hb : Regular w.box) (hsited : Sited w.box) (privateKey : String) :
    ∃ result w', applyExits plan privateKey w = .ok result w' ∧ Quiet w' ∧ Regular w'.box ∧
      Sited w'.box ∧ (result.failed = [] → Settled plan w'.box) := by
  have htabled : ∀ exit ∈ plan.exits.entries.map Prod.snd, exit.Tabled := by
    intro exit hexit
    obtain ⟨id,hget⟩ := mem_exits.mp hexit
    exact exit_tabled hplan hsites hget
  obtain ⟨done,w₁,hup,hw₁,hlead₁⟩ :=
    applyExits_lead privateKey htabled (exit_tables hplan hsites) (exit_ifaces hplan) hw
  have hrules₁ : w₁.box.rules = w.box.rules :=
    (keeps_foldlM (fun _ _ _ => rules_applyExit w.box.rules) _).of_ok hup rfl
  have hb₁ : Regular w₁.box := hb.sublist (by rw [hrules₁])
  have hsited₁ : Sited w₁.box := fun r hr => hsited r (hrules₁ ▸ hr)
  obtain ⟨failed,w₂,happly,hw₂,hb₂,hsited₂,hsteers⟩ :=
    applyRules_steers hplan hsites hw₁ hb₁ hsited₁ done.2
  have hroutes₂ : w₂.box.routes = w₁.box.routes :=
    (keeps_applyRules (stable_routes _) (fun _ _ => by simp [Cmd.writes])
      (fun _ _ _ _ _ _ _ => by simp [Cmd.writes]) done.2).of_ok happly rfl
  have hlinks₂ : w₂.box.links = w₁.box.links :=
    (keeps_applyRules (stable_links _) (fun _ _ => by simp [Cmd.writes])
      (fun _ _ _ _ _ _ _ => by simp [Cmd.writes]) done.2).of_ok happly rfl
  obtain ⟨_,w₃,hremove⟩ : ∃ u w₃,
      (w₂.box.exitInterfaces.entries.forM (removeExit plan.exits.keys)) w₂ = .ok u w₃ :=
    returns_forM (fun entry _ => returns_removeExit plan.exits.keys entry) w₂
  have hw₃ : Quiet w₃ := (quiet_removeExits _ _).of_ok hremove hw₂
  have hrules₃ : w₃.box.rules = w₂.box.rules := (rules_removeExits _ _ _).of_ok hremove rfl
  refine ⟨_,w₃,applyExits_stages hup happly (listExit_ok hw₂) hremove,hw₃,
    hb₂.sublist (by rw [hrules₃]),fun r hr => hsited₂ r (hrules₃ ▸ hr),fun hnone => ?_⟩
  obtain ⟨hnone',hsame⟩ := hsteers hnone
  refine ⟨fun r net => ?_,fun id exit hexit => ?_⟩
  · rw [hrules₃]
    exact hsame r net
  · obtain ⟨k,-,hle,rfl,hiface,htable⟩ := exit_at hplan hsites hexit
    have hentry : exit ∈ plan.exits.entries.map Prod.snd := mem_exits.mpr ⟨_,hexit⟩
    have hlead := hlead₁ hnone' exit hentry
    have hlead₂ : exit.Leads w₂.box := by
      refine ⟨?_,fun t ht => ?_,hlinks₂ ▸ hlead.link⟩
      · rw [Exit.HasDefault, hroutes₂]
        exact hlead.route
      · rw [Box.Sole, hroutes₂]
        exact hlead.sole t ht
    have hkeep : Keeps (fun v => exit.Leads v.box)
        (w₂.box.exitInterfaces.entries.forM (removeExit plan.exits.keys)) :=
      keeps_forM fun entry hentry => leads_removeExit hle hiface htable
        (OrdMap.mem_keys_iff.mpr ⟨exit,hexit⟩) (mem_exitInterfaces hentry).2
    exact hkeep.of_ok hremove hlead₂

end Steering

end JumpHost.Mesh
