import JumpHost.Mesh.MainTable
import JumpHost.Mesh.Requests

namespace JumpHost.Mesh

open Effect

section Steps

variable (conf : MeshConf) (plan : Plan)

def mapStep (map : Netmap) : Shell Unit := do
  let _ ← applyNetmap conf.IFACE map.shadow map.physical
  recordAppliedNetmap map.shadow map.physical

def unmapStep (applied : String) : Shell Unit :=
  if (plan.netmaps.map fun m => recorded m.shadow m.physical).contains applied then pure ()
  else do
    let (shadow,physical) := splitRecorded applied
    let _ ← removeNetmap conf.IFACE shadow (physical.getD "")
    removeAppliedNetmap shadow (shown physical)

def natSteps : Shell Unit := do
  let wan ← detectWanInterface
  attempt (applySysctls (([some conf.IFACE,wan].filter truthy).filterMap id))
  attempt (applyForwarding wan [conf.IFACE])
  plan.netmaps.forM fun map => attempt (mapStep conf map)
  let members ← tryCatch listAppliedNetmaps fun _ => pure []
  members.forM fun applied => attempt (unmapStep conf plan applied)

def routerSteps : Shell Unit := do
  plan.routes.forM fun route => attempt (do let _ ← ensureRoute route.cidr route.dev)
  natSteps conf plan

end Steps

section Nat

variable {conf : MeshConf} {plan : Plan} {F : Cmd → Option Failed} {w : World}

theorem returns_applySysctls (interfaces : List String) : Returns (applySysctls interfaces) := by
  refine returns_foldlM (fun applied setting _ => ?_) _
  refine returns_bind (returns_bind (returns_tryRun _) fun res => ?_) fun set => ?_
  · cases res with
    | ok => exact returns_pure _
    | error failed =>
      change Returns (if failed.missing = true then _ else _)
      split
      · exact returns_bind (returns_tryRun _) fun _ => returns_pure _
      · exact returns_pure _
  · split <;> exact returns_pure _

theorem removeStale_ok (failed : List Failure) (applied : String) (w : World) : ∃ failed',
    removeStale conf (plan.netmaps.map fun m => recorded m.shadow m.physical) failed applied w =
      .ok failed' (final (unmapStep conf plan applied w)) := by
  unfold removeStale unmapStep
  split
  · exact ⟨failed,rfl⟩
  · exact noting_ok failed _ _ w

theorem stable_failures (F : Cmd → Option Failed) (C : Cmd → Prop) :
    Stable (fun w => w.faults = fun _ => F) C :=
  stable_faults (Q := fun faults => faults = fun _ => F) (fun _ h => by rw [h]) C

theorem listAppliedNetmaps_ok (hw : w.faults = fun _ => F) (hread : F .sMembers = none) :
    ∃ w', listAppliedNetmaps w = .ok w.box.applied w' := by
  have hrun := tryRun_ok (c := .sMembers) (b := w.box) (by rw [hw]; exact hread) rfl
  refine ⟨{ w with faults := fun n => w.faults (n + 1) },?_⟩
  unfold listAppliedNetmaps query
  rw [bind_apply, bind_of_ok hrun]
  rfl

theorem listAppliedNetmaps_throws {failed : Failed} (hw : w.faults = fun _ => F)
    (hread : F .sMembers = some failed) : ∃ w', listAppliedNetmaps w = .error failed.err w' := by
  have hrun : tryRun .sMembers w = .ok (.error failed) { w with faults := fun n => w.faults (n + 1) } := by
    simp [tryRun, World.issue, hw, hread]
  refine ⟨{ w with faults := fun n => w.faults (n + 1) },?_⟩
  unfold listAppliedNetmaps query
  rw [bind_apply, bind_of_ok hrun]
  rfl

theorem returns_detectWanInterface : Returns detectWanInterface :=
  returns_bind (returns_query _ _) fun _ => returns_pure _

theorem failures_mapStep (map : Netmap) : Keeps (fun v => v.faults = fun _ => F) (attempt (mapStep conf map)) := by
  have hstable := stable_failures F fun _ => True
  refine keeps_tryCatch (keeps_bind ?_ fun _ => keeps_pure _) fun _ => keeps_pure _
  refine keeps_bind (keeps_applyNetmap hstable (fun _ _ _ _ => trivial) trivial) fun _ => ?_
  exact keeps_bind (keeps_tryRun hstable trivial) fun _ => keeps_pure _

theorem afterRoutes_upTo (conf : MeshConf) (plan : Plan) (failed : List Failure) (hw : w.faults = fun _ => F) :
    ∃ wan failed' v, v.faults = (fun _ => F) ∧
      afterRoutes conf plan failed w = ((do
        let failed ← (← listAppliedNetmaps).foldlM
          (removeStale conf (plan.netmaps.map fun m => recorded m.shadow m.physical)) failed'
        return ⟨plan.peers.length - failed.length,failed,wan⟩ : Shell Applied) v) ∧
      natSteps conf plan w = (do
        let members ← tryCatch listAppliedNetmaps fun _ => pure []
        members.forM fun applied => attempt (unmapStep conf plan applied) : Shell Unit) v := by
  have hstable := stable_failures F fun _ => True
  obtain ⟨wan,w₁,hwan⟩ := returns_detectWanInterface w
  have hw₁ := (keeps_detectWanInterface hstable).of_ok hwan hw
  obtain ⟨set,w₂,hset⟩ := returns_applySysctls (([some conf.IFACE,wan].filter truthy).filterMap id) w₁
  have hw₂ := (keeps_applySysctls hstable (fun _ _ => trivial) (fun _ _ => trivial) _).of_ok hset hw₁
  obtain ⟨failed₁,hforward⟩ := noting_ok failed "forwarding/NAT" (applyForwarding wan [conf.IFACE]) w₂
  have hforwarding : Keeps (fun v => v.faults = fun _ => F) (applyForwarding wan [conf.IFACE]) :=
    keeps_applyForwarding hstable fun _ _ _ _ _ _ => trivial
  obtain ⟨failed₂,hmaps⟩ := foldlM_attempt (f := applyMap conf) (m := mapStep conf)
    (fun failed map v => noting_ok failed _ _ v) plan.netmaps failed₁ (final (applyForwarding wan [conf.IFACE] w₂))
  have hmapping : Keeps (fun v => v.faults = fun _ => F) (plan.netmaps.forM fun map => attempt (mapStep conf map)) :=
    keeps_forM fun map _ => failures_mapStep map
  refine ⟨wan,failed₂,_,hmapping _ (hforwarding w₂ hw₂),?_,?_⟩
  · unfold afterRoutes
    rw [bind_of_ok hwan, bind_of_ok hset]
    unfold forward
    rw [bind_of_ok hforward]
    unfold applyNetmaps
    rw [bind_assoc, bind_of_ok hmaps, bind_assoc]
  · obtain ⟨_,hloop⟩ : ∃ u, plan.netmaps.forM (fun map => attempt (mapStep conf map))
        (final (applyForwarding wan [conf.IFACE] w₂)) = .ok u (final (plan.netmaps.forM
          (fun map => attempt (mapStep conf map)) (final (applyForwarding wan [conf.IFACE] w₂)))) := by
      have hreturns : Returns (plan.netmaps.forM fun map => attempt (mapStep conf map)) :=
        returns_forM fun map _ => returns_attempt (mapStep conf map)
      obtain ⟨u,v,hrun⟩ := hreturns (final (applyForwarding wan [conf.IFACE] w₂))
      exact ⟨u,by rw [hrun]; rfl⟩
    unfold natSteps
    rw [bind_of_ok hwan, attempt_bind, hset, final_ok, attempt_bind, bind_of_ok hloop]

theorem afterRoutes_iff (conf : MeshConf) (plan : Plan) (failed : List Failure) (hw : w.faults = fun _ => F) :
    (∃ applied, afterRoutes conf plan failed w = .ok applied (final (natSteps conf plan w))) ↔
      F .sMembers = none := by
  obtain ⟨wan,failed',v,hv,hpass,hsteps⟩ := afterRoutes_upTo conf plan failed hw
  rw [hpass, hsteps]
  cases hread : F .sMembers with
  | some f =>
    obtain ⟨v',hlist⟩ := listAppliedNetmaps_throws hv hread
    simp only [bind_apply, hlist]
    simp
  | none =>
    obtain ⟨v',hlist⟩ := listAppliedNetmaps_ok hv hread
    obtain ⟨failed₁,hloop⟩ := foldlM_attempt
      (f := removeStale conf (plan.netmaps.map fun m => recorded m.shadow m.physical))
      (m := unmapStep conf plan) (fun failed applied u => removeStale_ok failed applied u) v.box.applied failed' v'
    have hcatch : (tryCatch listAppliedNetmaps fun _ => pure [] : Shell (List String)) v = .ok v.box.applied v' := by
      rw [tryCatch_apply, hlist]
    refine ⟨fun _ => rfl,fun _ => ⟨⟨plan.peers.length - failed₁.length,failed₁,wan⟩,?_⟩⟩
    rw [bind_of_ok hcatch, bind_of_ok hlist, bind_of_ok hloop]
    rfl

theorem afterRoutes_ok {failed : List Failure} {applied : Applied} {w' : World} (hw : w.faults = fun _ => F)
    (h : afterRoutes conf plan failed w = .ok applied w') : F .sMembers = none := by
  obtain ⟨wan,failed',v,hv,hpass,-⟩ := afterRoutes_upTo conf plan failed hw
  rw [hpass] at h
  cases hread : F .sMembers with
  | some f =>
    obtain ⟨v',hlist⟩ := listAppliedNetmaps_throws hv hread
    rw [bind_apply, hlist] at h
    cases h
  | none => rfl

end Nat

section MeshRoutes

variable {F : Cmd → Option Failed} {b b' : Box} {c : Cmd} {d : String} {net : Net} {w w' : World}

theorem up_set {dev : String} {link link' : Link} (hlink : b.links.get? dev = some link)
    (hb : b'.links = b.links.set dev link') (hup : link.up = true → link'.up = true) (h : b.isUp d) :
    b'.isUp d := by
  obtain ⟨l,hl,hlup⟩ := h
  by_cases hd : d = dev
  · subst hd
    obtain rfl := Option.some.inj (hl.symm.trans hlink)
    exact ⟨link',by rw [hb, OrdMap.get?_set_self],hup hlup⟩
  · exact ⟨l,by rw [hb, OrdMap.get?_set_of_ne _ hd, hl],hlup⟩

theorem up_new {dev : String} (hdev : b.links.has dev = false) (hb : b'.links = b.links.set dev {})
    (h : b.isUp d) : b'.isUp d := by
  obtain ⟨l,hl,hlup⟩ := h
  have hd : d ≠ dev := by
    rintro rfl
    rw [OrdMap.has_iff.mpr (OrdMap.mem_keys_iff.mpr ⟨l,hl⟩)] at hdev
    cases hdev
  exact ⟨l,by rw [hb, OrdMap.get?_set_of_ne _ hd, hl],hlup⟩

theorem up_step (hc : c ≠ .linkDel d) (h : b.step c = .ok b') (hb : b.isUp d) : b'.isUp d := by
  cases links_change h with
  | same h => rwa [Box.isUp, h]
  | new dev _ hdev h => exact up_new hdev h hb
  | gone dev hdel h =>
    obtain ⟨link,hlink,hup⟩ := hb
    have hd : d ≠ dev := fun heq => hc (heq ▸ hdel)
    exact ⟨link,by rw [h, OrdMap.get?_delete_of_ne hd, hlink],hup⟩
  | edit dev link link' hlink hedit h =>
    refine up_set hlink h ?_ hb
    cases hedit with
    | up => exact fun _ => rfl
    | addrAdd | addrDel | key | setPeer | removePeer => exact id

theorem stable_isUp (d : String) : Stable (fun w => w.box.isUp d) fun c => c ≠ .linkDel d :=
  stable_box (I := fun b => b.isUp d) fun _ _ _ hc h hb => up_step hc h hb

def Passable (F : Cmd → Option Failed) (b : Box) (cidr d : String) (net : Net) : Prop :=
  F (.routeShow cidr d) = none ∧ b.routed d net ∨ ∀ failed, F (.routeAdd cidr d) = some failed →
    failed.fileExists = true

theorem tryRun_failed {failed : Failed} (hw : w.faults = fun _ => F) (hc : F c = some failed) :
    tryRun c w = .ok (.error failed) { w with faults := fun n => w.faults (n + 1) } := by
  simp [tryRun, World.issue, hw, hc]

theorem addRoute_iff {cidr message : String} (hw : w.faults = fun _ => F) (hnet : Net.parse cidr = some net)
    (hbits : Box.hostBits cidr = false) (hup : w.box.isUp d) : (∃ new w', addRoute cidr d message w = .ok new w') ↔
      ∀ failed, F (.routeAdd cidr d) = some failed → failed.fileExists = true := by
  obtain ⟨link,hlink,hup⟩ := hup
  have hstep : w.box.step (.routeAdd cidr d) = w.box.addRoute (mainRoute d net) := by
    simp only [Box.step, Box.onPrefix, Box.onNet, hnet, hbits, Bool.false_eq_true, if_false, Box.onUp, Box.onLink,
      hlink, hup, if_true, mainRoute]
  unfold addRoute
  cases hF : F (.routeAdd cidr d) with
  | some failed =>
    rw [bind_of_ok (tryRun_failed hw hF)]
    by_cases hexists : failed.fileExists = true
    · simp only [hexists, if_true]
      exact ⟨fun _ f hf => Option.some.inj hf ▸ hexists,fun _ => ⟨_,_,rfl⟩⟩
    · simp only [hexists]
      refine ⟨?_,fun h => absurd (h failed rfl) hexists⟩
      rintro ⟨_,_,h⟩
      cases h
  | none =>
    refine ⟨fun _ _ hf => (by cases hf),fun _ => ?_⟩
    have hnone : w.faults 0 (.routeAdd cidr d) = none := by rw [hw]; exact hF
    cases hres : w.box.step (.routeAdd cidr d) with
    | ok b' =>
      rw [bind_of_ok (tryRun_ok hnone hres)]
      exact ⟨_,_,rfl⟩
    | error failed =>
      have hrun : tryRun (.routeAdd cidr d) w =
          .ok (.error failed) { w with faults := fun n => w.faults (n + 1) } := by
        simp [tryRun, World.issue, hnone, hres]
      have hexists : failed.fileExists = true := by
        rw [hstep, Box.addRoute] at hres
        split at hres
        · cases hres
          decide
        · cases hres
      rw [bind_of_ok hrun]
      simp only [hexists, if_true]
      exact ⟨_,_,rfl⟩

theorem ensureRoute_iff {cidr : String} (hw : w.faults = fun _ => F) (hnet : Net.parse cidr = some net)
    (hbits : Box.hostBits cidr = false) (hup : w.box.isUp d) : (∃ new w', ensureRoute cidr d w = .ok new w') ↔ Passable F w.box cidr d net := by
  let later : World := { w with faults := fun n => w.faults (n + 1) }
  have hlater : later.faults = fun _ => F := by
    change (fun n => w.faults (n + 1)) = _
    rw [hw]
  have hadd : (∃ new w', addRoute cidr d ("failed to add route " ++ cidr ++ " via " ++ d ++ ": ") later =
      .ok new w') ↔ ∀ failed, F (.routeAdd cidr d) = some failed → failed.fileExists = true :=
    addRoute_iff hlater hnet hbits hup
  have hfound : ∀ r, r ∈ (w.box.routesTo MAIN cidr).filter (fun r => r.dev = d) ↔
      r ∈ w.box.routes ∧ r = mainRoute d net := by
    intro r
    obtain ⟨table,net',dev⟩ := r
    simp only [Box.routesTo, List.mem_filter, decide_eq_true_eq, hnet, Option.some.injEq, mainRoute,
      Route.mk.injEq, and_assoc]
    exact and_congr_right fun _ => and_congr_right fun _ => and_congr_left fun _ => eq_comm
  unfold ensureRoute Passable
  cases hF : F (.routeShow cidr d) with
  | some failed =>
    have hshow : query (.routeShow cidr d) (fun b => (b.routesTo MAIN cidr).filter fun r => r.dev = d) w =
        .ok (.error failed) later := by
      rw [query, bind_of_ok (tryRun_failed hw hF)]
      rfl
    rw [bind_of_ok hshow]
    simpa using hadd
  | none =>
    obtain ⟨link,hlink,-⟩ := hup
    have hstep : w.box.step (.routeShow cidr d) = .ok w.box := by
      simp only [Box.step, Box.onNet, hnet, Box.onLink, hlink]
    have hshow : query (.routeShow cidr d) (fun b => (b.routesTo MAIN cidr).filter fun r => r.dev = d) w =
        .ok (.ok ((w.box.routesTo MAIN cidr).filter fun r => r.dev = d)) later := by
      rw [query, bind_of_ok (tryRun_ok (by rw [hw]; exact hF) hstep)]
      rfl
    rw [bind_of_ok hshow]
    cases hlist : (w.box.routesTo MAIN cidr).filter fun r => r.dev = d with
    | nil =>
      have hnone : ¬ w.box.routed d net := fun hr => by
        have hmem := (hfound (mainRoute d net)).mpr ⟨hr,rfl⟩
        rw [hlist] at hmem
        cases hmem
      simpa [hnone] using hadd
    | cons r rest =>
      have hmem : r ∈ (w.box.routesTo MAIN cidr).filter fun r => r.dev = d := by
        rw [hlist]
        exact List.mem_cons_self
      obtain ⟨hr,rfl⟩ := (hfound r).mp hmem
      exact ⟨fun _ => .inl ⟨rfl,hr⟩,fun _ => ⟨_,_,rfl⟩⟩

theorem stable_otherRoute (d : String) (net : Net) (X : Prop) : Stable (fun w => w.box.routed d net ↔ X)
    fun c => ∃ cidr, c = .routeAdd cidr d ∧ Net.parse cidr ≠ some net := by
  refine stable_box (I := fun b => b.routed d net ↔ X) fun b c b' hc h hb => ?_
  obtain ⟨cidr,rfl,hother⟩ := hc
  refine Iff.trans ⟨fun hr => ?_,fun hr => ?_⟩ hb
  · rcases main_step d net h with hfewer | ⟨hc | ⟨_,hc⟩,-⟩ | ⟨cidr',heq,hnet,-⟩ | ⟨table,heq⟩
    · exact routed_of_fewer hfewer hr
    · cases hc
    · cases hc
    · cases heq
      exact absurd hnet hother
    · cases heq
  · by_contra hgone
    rcases main_gone h hr hgone with hc | ⟨_,hc,-⟩ | ⟨_,hc,-⟩ | ⟨_,hc,-,-⟩ | hc | ⟨_,hc⟩ <;> cases hc

theorem passable_congr {cidr : String} (h : b'.routed d net ↔ b.routed d net) :
    Passable F b' cidr d net ↔ Passable F b cidr d net := by
  rw [Passable, Passable, h]

theorem addMeshRoutes_iff {routes : List MeshRoute} {netOf : MeshRoute → Net} (hw : w.faults = fun _ => F)
    (hup : w.box.isUp d) (hroutes : ∀ route ∈ routes, route.dev = d ∧ Net.parse route.cidr = some (netOf route))
    (hbits : ∀ route ∈ routes, Box.hostBits route.cidr = false)
    (hdistinct : routes.Pairwise fun route route' => netOf route ≠ netOf route') :
    (∃ w', addMeshRoutes routes w = .ok () w') ↔
      ∀ route ∈ routes, Passable F w.box route.cidr d (netOf route) := by
  induction routes generalizing w with
  | nil => exact ⟨fun _ _ hroute => absurd hroute List.not_mem_nil,fun _ => ⟨w,rfl⟩⟩
  | cons first routes ih =>
    obtain ⟨hother,hdistinct⟩ := List.pairwise_cons.mp hdistinct
    obtain ⟨rfl,hfirst⟩ := hroutes first (by simp)
    have hensure := ensureRoute_iff hw hfirst (hbits first (by simp)) hup
    have hrest : ∀ new w₁, ensureRoute first.cidr first.dev w = .ok new w₁ →
        ((∃ w', addMeshRoutes routes w₁ = .ok () w') ↔
          ∀ route ∈ routes, Passable F w.box route.cidr first.dev (netOf route)) := by
      intro new w₁ hrun
      have hw₁ := (keeps_ensureRoute (stable_failures F fun _ => True) trivial).of_ok hrun hw
      have hup₁ := (keeps_ensureRoute (stable_isUp first.dev) (by simp)).of_ok hrun hup
      refine (ih hw₁ hup₁ (fun route hroute => hroutes route (by simp [hroute]))
        (fun route hroute => hbits route (by simp [hroute])) hdistinct).trans ?_
      refine forall₂_congr fun route hroute => passable_congr ?_
      have hnet : Net.parse first.cidr ≠ some (netOf route) := by
        rw [hfirst]
        exact fun heq => hother route hroute (Option.some.inj heq)
      exact (keeps_ensureRoute (stable_otherRoute first.dev (netOf route) _) ⟨_,rfl,hnet⟩).of_ok hrun Iff.rfl
    constructor
    · rintro ⟨w',h⟩
      obtain ⟨_,w₁,hturn,hlast⟩ := bind_ok h
      obtain ⟨new,w₂,hrun,hdone⟩ := bind_ok hturn
      cases hdone
      exact List.forall_mem_cons.mpr ⟨hensure.mp ⟨new,_,hrun⟩,(hrest new _ hrun).mp ⟨w',hlast⟩⟩
    · intro hall
      obtain ⟨hpass,hall⟩ := List.forall_mem_cons.mp hall
      obtain ⟨new,w₁,hrun⟩ := hensure.mpr hpass
      obtain ⟨w',hlast⟩ := (hrest new w₁ hrun).mpr hall
      refine ⟨w',?_⟩
      have hturn : (do let _ ← ensureRoute first.cidr first.dev : Shell Unit) w = .ok () w₁ := by
        rw [bind_of_ok hrun]
        rfl
      exact (bind_of_ok hturn).trans hlast

end MeshRoutes

section Pass

variable {conf : MeshConf} {q : Requests} {peersDoc : PeersDoc} {plan : Plan} {failed : List Failure}
  {F : Cmd → Option Failed} {w w₁ w₂ : World}

theorem up_applyPeers : Keeps (fun v => v.box.isUp conf.IFACE) (applyPeers conf plan.peers) :=
  keeps_applyPeers ((stable_isUp conf.IFACE).mono fun c hc => by cases c <;> simp_all [Cmd.ofLinks, Cmd.ofMesh])

theorem up_after_bringUp {privateKey : String} (h : bringUp conf plan privateKey w = .ok () w₁) :
    w₁.box.isUp conf.IFACE := by
  obtain ⟨_,_,-,h⟩ := bind_ok h
  obtain ⟨_,_,-,h⟩ := bind_ok h
  exact isUp_setAddresses h

def CarriesOn (conf : MeshConf) (q : Requests) (plan : Plan) (w w₂ : World) : Prop :=
  ∃ applied exits w₃, applyPlan conf plan q.privateKey w = .ok applied (final (routerSteps conf plan w₂)) ∧
    applyExits (q.exits plan.siteId) q.exitKey (final (routerSteps conf plan w₂)) = .ok exits w₃ ∧
    reconcile conf q w = .ok (.ready plan.siteId applied exits q.peers.result.stale) w₃

def meshNet (route : MeshRoute) : Net := (Net.parse route.cidr).getD anywhere

theorem parse_meshNet {route : MeshRoute} (h : (Net.parse route.cidr).isSome = true) :
    Net.parse route.cidr = some (meshNet route) := by
  obtain ⟨net,hnet⟩ := Option.isSome_iff_exists.mp h
  rw [meshNet, hnet]
  rfl

theorem meshNets {iface : String} {routes : List MeshRoute}
    (h : routes = [⟨"10.0.0.0/8",iface⟩,⟨"172.24.0.0/16",iface⟩]) :
    (∀ route ∈ routes, route.dev = iface ∧ Net.parse route.cidr = some (meshNet route)) ∧
      routes.Pairwise fun route route' => meshNet route ≠ meshNet route' := by
  have hten : (Net.parse "10.0.0.0/8").isSome = true := by decide +kernel
  have hservices : (Net.parse "172.24.0.0/16").isSome = true := by decide +kernel
  have hdiffer : (Net.parse "10.0.0.0/8").getD anywhere ≠ (Net.parse "172.24.0.0/16").getD anywhere := by
    decide +kernel
  subst h
  refine ⟨fun route hroute => ?_,List.pairwise_pair.mpr hdiffer⟩
  simp only [List.mem_cons, List.not_mem_nil, or_false] at hroute
  rcases hroute with rfl | rfl
  · exact ⟨rfl,parse_meshNet hten⟩
  · exact ⟨rfl,parse_meshNet hservices⟩

theorem meshNets_plain {iface : String} {routes : List MeshRoute}
    (h : routes = [⟨"10.0.0.0/8",iface⟩,⟨"172.24.0.0/16",iface⟩]) : ∀ route ∈ routes, Box.hostBits route.cidr = false := by
  have hten : Box.hostBits "10.0.0.0/8" = false := by decide +kernel
  have hservices : Box.hostBits "172.24.0.0/16" = false := by decide +kernel
  subst h
  exact List.forall_mem_cons.mpr ⟨hten,List.forall_mem_cons.mpr ⟨hservices,nofun⟩⟩

theorem exits_reached (hpeers : q.peers.result.value = some peersDoc)
    (hplan : q.planned conf peersDoc = .ok (.ready plan))
    (hup : bringUp conf plan q.privateKey w = .ok () w₁)
    (hset : applyPeers conf plan.peers w₁ = .ok failed w₂) (hF : w₂.faults = fun _ => F) :
    CarriesOn conf q plan w w₂ ↔ F .sMembers = none ∧
      ∀ route ∈ plan.routes, Passable F w₂.box route.cidr conf.IFACE (meshNet route) := by
  have hpass : applyPlan conf plan q.privateKey w =
      (addMeshRoutes plan.routes >>= fun _ => afterRoutes conf plan failed) w₂ := by
    unfold applyPlan
    rw [bind_of_ok hup, bind_of_ok hset, applyRouting_eq]
  obtain ⟨hroutes,hdistinct⟩ := meshNets (planReconcile_routes hplan)
  have hbits := meshNets_plain (planReconcile_routes hplan)
  have hadd := addMeshRoutes_iff hF (up_applyPeers.of_ok hset (up_after_bringUp hup)) hroutes hbits hdistinct
  have hlater : ∀ w₃, addMeshRoutes plan.routes w₂ = .ok () w₃ → w₃.faults = fun _ => F := fun w₃ hrun =>
    (keeps_addMeshRoutes (stable_failures F fun _ => True) fun _ _ => trivial).of_ok hrun hF
  constructor
  · rintro ⟨applied,exits,w₃,hok,-⟩
    rw [hpass] at hok
    obtain ⟨_,w₄,hrun,hafter⟩ := bind_ok hok
    exact ⟨afterRoutes_ok (hlater w₄ hrun) hafter,hadd.mp ⟨w₄,hrun⟩⟩
  · rintro ⟨hread,hpassable⟩
    obtain ⟨w₄,hrun⟩ := hadd.mpr hpassable
    obtain ⟨applied,hafter⟩ := (afterRoutes_iff conf plan failed (hlater w₄ hrun)).mpr hread
    have hsteps : final (routerSteps conf plan w₂) = final (natSteps conf plan w₄) := by
      have hreturns : Returns (plan.routes.forM fun route =>
          attempt (do let _ ← ensureRoute route.cidr route.dev : Shell Unit)) :=
        returns_forM fun route _ => returns_attempt _
      obtain ⟨_,v,hloop⟩ := hreturns w₂
      have hend := forM_attempt hrun
      rw [hloop, final_ok] at hend
      subst hend
      unfold routerSteps
      rw [bind_of_ok hloop]
    have hok : applyPlan conf plan q.privateKey w = .ok applied (final (routerSteps conf plan w₂)) := by
      rw [hpass, bind_of_ok hrun, hafter, hsteps]
    obtain ⟨exits,w₅,hexits⟩ := returns_applyExits (q.exits plan.siteId) q.exitKey
      (final (routerSteps conf plan w₂))
    refine ⟨applied,exits,w₅,hok,hexits,?_⟩
    rw [reconcile_eq hpeers hplan, bind_of_ok hok, bind_of_ok hexits]
    rfl

end Pass

section OneExit

def joined : PeersDoc := { localSiteId := .ofInt 1 }

def abroad : ClientDoc where
  uid := some "alice"
  name := some "phone"
  publicKey := some "phone"
  assignedIp := some "10.1.128.7"
  exitSiteId := .ofInt 3

def nl : SiteDoc where
  siteId := .ofInt 3
  gatewayPublicKey := some "nl"
  gatewayEndpoint := some "nl:51820"

def phoneAbroad : Requests where
  privateKey := "key"
  exitKey := "exit key"
  peers := { fetched := .ok joined }
  clients := { fetched := .ok { clients := some [abroad] } }
  roster := { fetched := .ok { sites := some [nl] } }

def abroadPlan : Plan where
  siteId := .ofInt 1
  addresses := ["172.24.0.1/32","10.1.0.1/16"]
  peers := [{
    kind := .client
    label := "alice/phone"
    publicKey := "phone"
    endpoint := ""
    allowedIPs := ["10.1.128.7/32"]
    keepalive := 0
    exitSiteId := .ofInt 3 }]
  routes := [⟨"10.0.0.0/8","wg-mesh"⟩,⟨"172.24.0.0/16","wg-mesh"⟩]
  netmaps := []
  siteCidr := "10.1.0.0/16"

def failing (F : Cmd → Option Failed) : World where
  box := {}
  faults _ := F

theorem planned_phoneAbroad : phoneAbroad.planned wgMesh joined = .ok (.ready abroadPlan) := rfl

theorem failures_bringUp {F : Cmd → Option Failed} {plan : Plan} {conf : MeshConf} {privateKey : String}
    {w w₁ : World} (hw : w.faults = fun _ => F) (h : bringUp conf plan privateKey w = .ok () w₁) :
    w₁.faults = fun _ => F :=
  (keeps_bringUp (stable_failures F fun _ => True)
    (fun _ => keeps_probeKernel (stable_failures F fun _ => True) trivial trivial)
    trivial trivial (fun _ _ => trivial) (fun _ _ => trivial) (fun _ _ => trivial) trivial).of_ok h hw

def noNat : Cmd → Option Failed
  | .iptables .. => some { err := "spawnSync iptables ENOENT", missing := true }
  | .sysctl .. => some { err := "permission denied" }
  | .procSys .. => some { err := "EROFS: read-only file system" }
  | .routeAdd .. => some { err := "RTNETLINK answers: File exists" }
  | _ => none

theorem exits_reached_noNat : ∃ w₁ failed w₂, bringUp wgMesh abroadPlan "key" (failing noNat) = .ok () w₁ ∧
    applyPeers wgMesh abroadPlan.peers w₁ = .ok failed w₂ ∧
    (CarriesOn wgMesh phoneAbroad abroadPlan (failing noNat) w₂ ↔ noNat .sMembers = none ∧
      ∀ route ∈ abroadPlan.routes, Passable noNat w₂.box route.cidr wgMesh.IFACE (meshNet route)) ∧
    CarriesOn wgMesh phoneAbroad abroadPlan (failing noNat) w₂ := by
  have hcheck : okWith (bringUp wgMesh abroadPlan "key" (failing noNat)) (fun _ w₁ =>
      okWith (applyPeers wgMesh abroadPlan.peers w₁) fun _ _ => true) = true := by
    decide +kernel
  obtain ⟨_,w₁,hup,hcheck⟩ := exists_of_okWith hcheck
  obtain ⟨failed,w₂,hset,-⟩ := exists_of_okWith hcheck
  have hF : w₂.faults = fun _ => noNat :=
    (keeps_applyPeers (stable_failures noNat _)).of_ok hset (failures_bringUp rfl hup)
  have hiff := exits_reached (q := phoneAbroad) rfl planned_phoneAbroad hup hset hF
  refine ⟨w₁,failed,w₂,hup,hset,hiff,hiff.mpr ⟨rfl,fun route _ => .inr fun failed hfailed => ?_⟩⟩
  cases hfailed
  decide

def noRedis : Cmd → Option Failed
  | .sMembers => some { err := "The client is closed" }
  | _ => none

theorem exits_skipped : ∃ w₁ failed w₂ w₃, bringUp wgMesh abroadPlan "key" (failing noRedis) = .ok () w₁ ∧
    applyPeers wgMesh abroadPlan.peers w₁ = .ok failed w₂ ∧
    reconcile wgMesh phoneAbroad (failing noRedis) = .error "The client is closed" w₃ ∧
    (phoneAbroad.exits (.ofInt 1)).exits.has (.int 3) = true ∧ w₃.box.links.has "wg-exit-3" = false ∧
    ¬ CarriesOn wgMesh phoneAbroad abroadPlan (failing noRedis) w₂ := by
  have hcheck : okWith (bringUp wgMesh abroadPlan "key" (failing noRedis)) (fun _ w₁ =>
      okWith (applyPeers wgMesh abroadPlan.peers w₁) fun _ _ => true) = true := by
    decide +kernel
  obtain ⟨_,w₁,hup,hcheck⟩ := exists_of_okWith hcheck
  obtain ⟨failed,w₂,hset,-⟩ := exists_of_okWith hcheck
  have hthrown : (match reconcile wgMesh phoneAbroad (failing noRedis) with
      | .error err w₃ => err == "The client is closed" && !w₃.box.links.has "wg-exit-3"
      | .ok _ _ => false) = true := by
    decide +kernel
  cases hrun : reconcile wgMesh phoneAbroad (failing noRedis) with
  | ok result w₃ =>
    rw [hrun] at hthrown
    cases hthrown
  | error err w₃ =>
    rw [hrun] at hthrown
    simp only [Bool.and_eq_true, beq_iff_eq, Bool.not_eq_true'] at hthrown
    obtain ⟨rfl,hnone⟩ := hthrown
    refine ⟨w₁,failed,w₂,w₃,hup,hset,rfl,by decide +kernel,hnone,?_⟩
    rintro ⟨_,_,_,-,-,hdone⟩
    rw [hrun] at hdone
    cases hdone

end OneExit

end JumpHost.Mesh
