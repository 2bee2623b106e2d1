import JumpHost.Library.Quad
import JumpHost.Mesh.Netmaps
import JumpHost.Mesh.PeerRoutes

namespace JumpHost.Mesh

open Effect

section Up

variable {conf : MeshConf} {plan : Plan} {net : Net} {w w' : World}

def Plan.wants (plan : Plan) (net : Net) : Prop :=
  (∃ p ∈ plan.peers, p.lists net) ∨ ∃ route ∈ plan.routes, Net.parse route.cidr = some net

def Plan.keys (plan : Plan) : List String := plan.peers.map Peer.publicKey

structure Up (conf : MeshConf) (plan : Plan) (w : World) : Prop where
  quiet : Quiet w
  link : conf.IFACE ∈ w.box.links.keys
  addrs : ∀ cidr ∈ w.box.addrs conf.IFACE, cidr ∈ plan.addresses
  free : ∀ net : {net // plan.wants net}, w.box.clearFor conf.IFACE net

def Cmd.afterUp (d : String) (c : Cmd) : Prop :=
  c ≠ .linkDel d ∧ (∀ cidr, c ≠ .addrAdd cidr d) ∧ c.routesOn d

theorem stable_up (conf : MeshConf) (plan : Plan) : Stable (Up conf plan) (Cmd.afterUp conf.IFACE) := by
  have hall := (stable_quiet fun _ => True).both ((stable_link conf.IFACE).both
    ((stable_addrs (d := conf.IFACE) fun cidr => cidr ∈ plan.addresses).both
      (Stable.all fun net : {net // plan.wants net} => stable_clearFor conf.IFACE net.1)))
  have hstable : Stable (Up conf plan) _ := {
    issue := fun w c hc hw => by
      obtain ⟨hquiet,hlink,haddrs,hfree⟩ := hall.issue w c hc ⟨hw.quiet,hw.link,hw.addrs,hw.free⟩
      exact ⟨hquiet,hlink,haddrs,hfree⟩
    remember := fun w k p hw => by
      obtain ⟨hquiet,hlink,haddrs,hfree⟩ := hall.remember w k p ⟨hw.quiet,hw.link,hw.addrs,hw.free⟩
      exact ⟨hquiet,hlink,haddrs,hfree⟩
    ends := fun w d hc hw => by
      obtain ⟨hquiet,hlink,haddrs,hfree⟩ := hall.ends w d hc ⟨hw.quiet,hw.link,hw.addrs,hw.free⟩
      exact ⟨hquiet,hlink,haddrs,hfree⟩
    tools := fun w hw => by
      obtain ⟨hquiet,hlink,haddrs,hfree⟩ := hall.tools w ⟨hw.quiet,hw.link,hw.addrs,hw.free⟩
      exact ⟨hquiet,hlink,haddrs,hfree⟩ }
  exact hstable.mono fun c hc => ⟨trivial,hc.1,fun cidr heq => absurd heq (hc.2.1 cidr),hc.2.2⟩

theorem Up.not_connected (hw : Up conf plan w) (hown : ¬ Connected conf.IFACE plan.addresses net) :
    ¬ Connected conf.IFACE (w.box.addrs conf.IFACE) net := by
  intro hconnected
  obtain ⟨cidr,hcidr,hmem⟩ := connected_iff.mp hconnected
  exact hown (connected_iff.mpr ⟨cidr,hw.addrs cidr hcidr,hmem⟩)

def Plan.Outward (conf : MeshConf) (plan : Plan) : Prop :=
  ∀ net, plan.wants net → ¬ Connected conf.IFACE plan.addresses net

theorem sparesRoute_add (cidr d : String) (net : Net) : Cmd.sparesRoute d net (.routeAdd cidr d) := by
  simp [Cmd.sparesRoute, Cmd.leavesRoute]

theorem addPeerRoutes_added {cidrs : List String} (hw : Up conf plan w) (hplan : plan.Outward conf)
    (hwants : ∀ cidr ∈ cidrs, ∀ net, Net.parse cidr = some net → plan.wants net)
    (h : addPeerRoutes conf.IFACE cidrs w = .ok () w') :
    ∀ cidr ∈ cidrs, ∀ net, Net.parse cidr = some net → w'.box.added conf.IFACE net := by
  induction cidrs generalizing w with
  | nil => exact fun _ hcidr => by cases hcidr
  | cons first cidrs ih =>
    obtain ⟨_,w₁,hfirst,hrest⟩ := bind_ok h
    obtain ⟨new,w₂,hadd,hdone⟩ := bind_ok hfirst
    cases hdone
    have hup : ∀ message, Keeps (Up conf plan) (addRoute first conf.IFACE message) := fun _ =>
      keeps_addRoute (stable_up conf plan) (by simp [Cmd.afterUp, Cmd.routesOn])
    have hw₁ := (hup _).of_ok hadd hw
    intro cidr hcidr net hnet
    rcases List.mem_cons.mp hcidr with rfl | hcidr
    · have hnet' := hwants cidr (by simp) net hnet
      have hadded : w₁.box.added conf.IFACE net :=
        ⟨addRoute_routed hw.quiet hw.link hnet (hw.free ⟨net,hnet'⟩) hadd,hw₁.not_connected (hplan net hnet')⟩
      exact (keeps_addPeerRoutes (stable_added conf.IFACE net) fun cidr _ => sparesRoute_add _ _ _).of_ok hrest hadded
    · exact ih hw₁ (fun c hc => hwants c (by simp [hc])) hrest cidr hcidr net hnet

def Settles (conf : MeshConf) (plan : Plan) (net : Net) (w : World) : Prop :=
  w.box.added conf.IFACE net ∧ w.box.freeOf conf.IFACE plan.keys net

theorem stable_settles (conf : MeshConf) (plan : Plan) (net : Net) : Stable (Settles conf plan net)
    fun c => c.sparesRoute conf.IFACE net ∧ c.setsIn conf.IFACE plan.keys :=
  (stable_added conf.IFACE net).both (stable_freeOf conf.IFACE plan.keys net)

theorem applyPeer_settles {q : Peer} (hq : q ∈ plan.peers) (failed : List Failure) :
    Keeps (Settles conf plan net) (applyPeer conf failed q) := by
  refine keeps_noting (keeps_setPeer (stable_settles conf plan net) (fun _ _ => ?_) fun cidr _ => ?_) _ _
  · refine ⟨by simp [Cmd.sparesRoute, Cmd.leavesRoute],fun key ips endpoint keepalive heq => ?_⟩
    obtain rfl : q.publicKey = key := by simp_all
    exact List.mem_map_of_mem hq
  · exact ⟨sparesRoute_add _ _ _,by simp [Cmd.setsIn]⟩

theorem freeOf_wgSetPeer {p : Peer} {nets : List Net} {endpoint : Option String} {keepalive : Option Nat}
    {b b' : Box} (hp : p ∈ plan.peers) (hnets : p.allowedIPs.mapM Net.parse = some nets)
    (hpeers : b'.peers conf.IFACE = assignPeer (b.peers conf.IFACE) p.publicKey nets endpoint keepalive)
    (hnet : p.lists net) : b'.freeOf conf.IFACE plan.keys net := by
  rintro key hkey ⟨peer,hget,hmem⟩
  have hother : key ≠ p.publicKey := by
    rintro rfl
    exact hkey (List.mem_map_of_mem hp)
  rw [hpeers, get?_assignPeer_of_ne hother] at hget
  obtain ⟨old,-,rfl⟩ := Option.map_eq_some_iff.mp hget
  have hleft := (List.mem_filter.mp hmem).2
  have hin : net ∈ nets := (mem_mapM hnets net).mpr hnet
  simp [hin] at hleft

theorem setPeer_settles {p : Peer} (hp : p ∈ plan.peers) (hw : Up conf plan w) (hplan : plan.Outward conf)
    (h : setPeer conf.IFACE p.publicKey p.endpoint p.allowedIPs p.keepalive w = .ok () w')
    (hnet : p.lists net) : Settles conf plan net w' := by
  obtain ⟨_,w₁,hset,hroutes⟩ := bind_ok h
  have hw₁ : Up conf plan w₁ :=
    (keeps_run (stable_up conf plan) (by simp [Cmd.afterUp, Cmd.routesOn])).of_ok hset hw
  obtain ⟨nets,hnets,hpeers⟩ := peers_wgSetPeer (run_ok hset)
  have hfree : w₁.box.freeOf conf.IFACE plan.keys net := freeOf_wgSetPeer hp hnets hpeers hnet
  have hwants : ∀ cidr ∈ p.allowedIPs, ∀ n, Net.parse cidr = some n → plan.wants n :=
    fun cidr hcidr n hn => .inl ⟨p,hp,cidr,hcidr,hn⟩
  obtain ⟨cidr,hcidr,hparse⟩ := hnet
  refine ⟨addPeerRoutes_added hw₁ hplan hwants hroutes cidr hcidr net hparse,?_⟩
  exact (keeps_addPeerRoutes (stable_freeOf conf.IFACE plan.keys net) (by simp [Cmd.setsIn])).of_ok hroutes hfree

theorem up_applyPeer (failed : List Failure) (p : Peer) : Keeps (Up conf plan) (applyPeer conf failed p) :=
  keeps_noting (keeps_setPeer (stable_up conf plan) (by simp [Cmd.afterUp, Cmd.routesOn])
    (by simp [Cmd.afterUp, Cmd.routesOn])) _ _

theorem setPeers_settle {failed : List Failure} (hw : Up conf plan w) (hplan : plan.Outward conf)
    (h : plan.peers.foldlM (applyPeer conf) [] w = .ok failed w') :
    Up conf plan w' ∧ (failed = [] → ∀ p ∈ plan.peers, ∀ net, p.lists net → Settles conf plan net w') := by
  let D : Peer → List Failure → World → Prop := fun p failed v =>
    failed = [] → ∀ net, p.lists net → Settles conf plan net v
  have hturn : ∀ p ∈ plan.peers, ∀ (failed : List Failure) v, Up conf plan v → ∃ failed' v',
      applyPeer conf failed p v = .ok failed' v' ∧ Up conf plan v' ∧ D p failed' v' ∧
        ∀ q ∈ plan.peers, D q failed v → D q failed' v' := by
    intro p hp failed v hv
    obtain ⟨failed',happly⟩ := noting_ok failed p.label
      (setPeer conf.IFACE p.publicKey p.endpoint p.allowedIPs p.keepalive) v
    refine ⟨failed',_,happly,(up_applyPeer failed p).of_ok happly hv,?_,?_⟩
    · rintro rfl net hnet
      obtain ⟨-,_,hset⟩ := noting_nil happly
      exact setPeer_settles hp hv hplan hset hnet
    · rintro q hq hold rfl net hnet
      exact (applyPeer_settles hp failed).of_ok happly (hold (noting_nil happly).1 net hnet)
  obtain ⟨failed',v,hrun,hv,hall⟩ := foldlM_each (fun _ v => Up conf plan v) D hturn hw
  rw [h] at hrun
  cases hrun
  exact ⟨hv,fun hnone p hp => hall p hp hnone⟩

theorem listPeers_up (hw : Up conf plan w) :
    listPeers conf.IFACE w = .ok (w.box.peers conf.IFACE).keys w := by
  obtain ⟨link,hlink⟩ := OrdMap.mem_keys_iff.mp hw.link
  have hstep : w.box.step (.wgShowPeers conf.IFACE) = .ok w.box := by
    simp only [Box.step, Box.onLink, hlink]
  unfold listPeers query
  rw [bind_apply, bind_of_ok (tryRun_quiet hw.quiet hstep)]
  change EStateM.Result.ok (((w.box.links.get? conf.IFACE).map (·.peers.keys)).getD []) _ = _
  simp [Box.peers, Box.peersOn, hlink]

theorem meshRoutes_added {routes : List MeshRoute} (hw : Up conf plan w) (hplan : plan.Outward conf)
    (hroutes : ∀ route ∈ routes, route ∈ plan.routes ∧ route.dev = conf.IFACE)
    (h : addMeshRoutes routes w = .ok () w') :
    ∀ route ∈ routes, ∀ net, Net.parse route.cidr = some net → w'.box.added conf.IFACE net := by
  induction routes generalizing w with
  | nil => exact fun _ hroute => by cases hroute
  | cons first routes ih =>
    obtain ⟨_,w₁,hfirst,hrest⟩ := bind_ok h
    obtain ⟨new,w₂,hensure,hdone⟩ := bind_ok hfirst
    cases hdone
    have hdev := (hroutes first (by simp)).2
    have hup : Keeps (Up conf plan) (ensureRoute first.cidr first.dev) :=
      keeps_ensureRoute (stable_up conf plan) (by simp [Cmd.afterUp, Cmd.routesOn, hdev])
    have hw₁ := hup.of_ok hensure hw
    intro route hroute net hnet
    rcases List.mem_cons.mp hroute with rfl | hroute
    · have hnet' : plan.wants net := .inr ⟨route,(hroutes route (by simp)).1,hnet⟩
      have hadded : w₁.box.added conf.IFACE net := by
        refine ⟨?_,hw₁.not_connected (hplan net hnet')⟩
        rw [hdev] at hensure
        exact ensureRoute_routed hw.quiet hw.link hnet (hw.free ⟨net,hnet'⟩) hensure
      have hkeep : Keeps (fun v => v.box.added conf.IFACE net) (addMeshRoutes routes) :=
        keeps_addMeshRoutes (stable_added conf.IFACE net) fun r hr => by
          rw [(hroutes r (by simp [hr])).2]
          exact sparesRoute_add _ _ _
      exact hkeep.of_ok hrest hadded
    · exact ih hw₁ (fun r hr => hroutes r (by simp [hr])) hrest route hroute net hnet

theorem applyPlan_stages {privateKey : String} {applied : Applied}
    (h : applyPlan conf plan privateKey w = .ok applied w') : ∃ w₁ failed w₂ w₃ keys w₄ w₅,
      bringUp conf plan privateKey w = .ok () w₁ ∧
      plan.peers.foldlM (applyPeer conf) [] w₁ = .ok failed w₂ ∧
      listPeers conf.IFACE w₂ = .ok keys w₃ ∧
      keys.forM (removeUnlisted conf plan.keys) w₃ = .ok () w₄ ∧
      addMeshRoutes plan.routes w₄ = .ok () w₅ ∧ afterRoutes conf plan failed w₅ = .ok applied w' := by
  obtain ⟨_,w₁,hup,h⟩ := bind_ok h
  obtain ⟨failed',w₄',hpeers,h⟩ := bind_ok h
  obtain ⟨failed,w₂,hset,hpeers⟩ := bind_ok hpeers
  obtain ⟨keys,w₃,hlist,hpeers⟩ := bind_ok hpeers
  obtain ⟨_,w₄,hremove,hpeers⟩ := bind_ok hpeers
  cases hpeers
  rw [applyRouting_eq] at h
  obtain ⟨_,w₅,hroutes,h⟩ := bind_ok h
  exact ⟨w₁,_,w₂,w₃,keys,_,w₅,hup,hset,hlist,hremove,hroutes,h⟩

end Up

section Bring

variable {conf : MeshConf} {plan : Plan} {privateKey : String} {net : Net} {w w' : World}

theorem probe_spares {P : World → Prop} {C : Cmd → Prop} {d name : String} (h : Stable P C)
    (hlink : ∀ v, P v → d ∈ v.box.links.keys) (hadd : C (.linkAdd name)) (hdel : name ≠ d → C (.linkDel name)) :
    Keeps P (probeKernel name) := by
  intro w hw
  obtain ⟨res,w₁,hrun,-,hres⟩ := tryRun_cases (.linkAdd name) w
  have hw₁ := (keeps_tryRun h hadd).of_ok hrun hw
  unfold probeKernel
  rw [bind_of_ok hrun]
  rcases hres with ⟨-,failed,rfl⟩ | ⟨rfl,-,hstep⟩
  · exact hw₁
  · have hne : name ≠ d := by
      rintro rfl
      have hhas := OrdMap.has_iff.mpr (hlink w hw)
      simp [Box.step, Box.linkAdd, hhas, Box.fileExists, Box.refuse] at hstep
    exact keeps_bind (keeps_tryRun h (hdel hne)) (fun _ => keeps_pure _) w₁ hw₁

theorem single_bringUp (net : Net) : Keeps (fun v => Single conf.IFACE net v.box) (bringUp conf plan privateKey) := by
  have hstable := stable_single conf.IFACE net
  exact keeps_bringUp hstable (fun _ => keeps_probeKernel hstable (by simp) (by simp)) (by simp) (by simp)
    (by simp) (by simp) (by simp) (by simp)

theorem quiet_bringUp : Keeps Quiet (bringUp conf plan privateKey) :=
  keeps_bringUp (stable_quiet fun _ => True)
    (fun _ => keeps_probeKernel (stable_quiet fun _ => True) trivial trivial)
    trivial trivial (fun _ _ => trivial) (fun _ _ => trivial) (fun _ _ => trivial) trivial

theorem up_bringUp (hw : Quiet w) (hfree : ∀ net : {net // plan.wants net}, w.box.clearFor conf.IFACE net)
    (h : bringUp conf plan privateKey w = .ok () w') : Up conf plan w' := by
  have hstable := Stable.all fun net : {net // plan.wants net} => stable_clearFor conf.IFACE net.1
  have hclear : Keeps (fun v => ∀ net : {net // plan.wants net}, v.box.clearFor conf.IFACE net)
      (bringUp conf plan privateKey) :=
    keeps_bringUp hstable (fun _ => keeps_probeKernel hstable trivial trivial) trivial trivial
      (fun _ _ => trivial) (fun _ _ => rfl) (fun _ _ => trivial) rfl
  refine ⟨quiet_bringUp.of_ok h hw,?_,bringUp_addrs hw h,hclear.of_ok h hfree⟩
  obtain ⟨link,hlink,-⟩ := Option.map_eq_some_iff.mp (peers_bringUp h)
  exact OrdMap.mem_keys_iff.mpr ⟨link,hlink⟩

theorem peers_same (h : bringUp conf plan privateKey w = .ok () w') :
    w'.box.peers conf.IFACE = w.box.peers conf.IFACE := by
  rw [Box.peers, peers_bringUp h]
  rfl

theorem added_bringUp (hw : Quiet w) (hsingle : Single conf.IFACE net w.box)
    (hown : ¬ Connected conf.IFACE plan.addresses net)
    (hnot : ¬ Strips plan.addresses (w.box.addrs conf.IFACE) net) (hadded : w.box.added conf.IFACE net)
    (h : bringUp conf plan privateKey w = .ok () w') : w'.box.added conf.IFACE net := by
  have hstable := ((stable_quiet fun _ => True).both
    (stable_addrs (d := conf.IFACE) fun cidr => cidr ∈ w.box.addrs conf.IFACE)).both
      ((stable_added conf.IFACE net).both (stable_link conf.IFACE))
  obtain ⟨_,w₁,hensure,h⟩ := bind_ok h
  obtain ⟨_,w₂,hkey,h⟩ := bind_ok h
  have hw₁ := (keeps_ensureInterface hstable
    (fun pid => probe_spares hstable (fun _ hv => hv.2.2) (by simp [Cmd.sparesRoute, Cmd.leavesRoute])
      (by simp [Cmd.sparesRoute, Cmd.leavesRoute]))
    (by simp [Cmd.sparesRoute, Cmd.leavesRoute]) (by simp [Cmd.sparesRoute, Cmd.leavesRoute])).of_ok hensure
    ⟨⟨hw,fun _ hcidr => hcidr⟩,hadded,hsingle.hosted hadded.1⟩
  obtain ⟨⟨hw₂,hsub⟩,hadded₂,hlink₂⟩ := (keeps_setPrivateKey hstable
    (by simp [Cmd.sparesRoute, Cmd.leavesRoute])).of_ok hkey hw₁
  exact added_setAddresses hw₂ hlink₂ hadded₂ hown (fun hstrips => hnot (hstrips.mono hsub)) h

theorem added_before (hw : Up conf plan w') (hown : ¬ Connected conf.IFACE plan.addresses net)
    (h : bringUp conf plan privateKey w = .ok () w') (hrouted : w'.box.routed conf.IFACE net) :
    w.box.added conf.IFACE net := by
  have hstable : Stable (fun v => v.box.routed conf.IFACE net → Connected conf.IFACE (v.box.addrs conf.IFACE) net ∨
      w.box.added conf.IFACE net) (Cmd.addsNot conf.IFACE net) := stable_notAdded (w.box.added conf.IFACE net)
  have hkeep : Keeps (fun v => v.box.routed conf.IFACE net → Connected conf.IFACE (v.box.addrs conf.IFACE) net ∨
      w.box.added conf.IFACE net) (bringUp conf plan privateKey) :=
    keeps_bringUp hstable (fun _ => keeps_probeKernel hstable (by simp [Cmd.addsNot]) (by simp [Cmd.addsNot]))
      (by simp [Cmd.addsNot]) (by simp [Cmd.addsNot]) (by simp [Cmd.addsNot]) (by simp [Cmd.addsNot])
      (by simp [Cmd.addsNot]) (by simp [Cmd.addsNot])
  have hstart : w.box.routed conf.IFACE net → Connected conf.IFACE (w.box.addrs conf.IFACE) net ∨
      w.box.added conf.IFACE net := fun hr => (em _).imp_right fun hnot => ⟨hr,hnot⟩
  exact (hkeep.of_ok h hstart hrouted).resolve_left (hw.not_connected hown)

theorem stripped_bringUp (hw : Up conf plan w') (hown : ¬ Connected conf.IFACE plan.addresses net)
    (hstrips : Strips plan.addresses (w.box.addrs conf.IFACE) net)
    (h : bringUp conf plan privateKey w = .ok () w') : ¬ w'.box.routed conf.IFACE net := by
  obtain ⟨hfamily,hsome,hnone⟩ := hstrips
  have hstable := stable_fed (d := conf.IFACE) hfamily
  have hkeep : Keeps (fun v => v.box.routed conf.IFACE net → Connected conf.IFACE (v.box.addrs conf.IFACE) net ∨
      ∃ cidr ∈ v.box.addrs conf.IFACE, Box.isV4 cidr = true) (bringUp conf plan privateKey) := keeps_bringUp hstable
    (fun _ => keeps_probeKernel hstable (by simp [Cmd.addsNot]) (by simp [Cmd.addsNot]))
    (by simp [Cmd.addsNot]) (by simp [Cmd.addsNot]) (by simp [Cmd.addsNot]) (by simp [Cmd.addsNot])
    (by simp [Cmd.addsNot]) (by simp [Cmd.addsNot])
  intro hrouted
  rcases hkeep.of_ok h (fun _ => .inr hsome) hrouted with hconnected | ⟨cidr,hcidr,hv4⟩
  · exact hw.not_connected hown hconnected
  · rw [hnone cidr (hw.addrs cidr hcidr)] at hv4
    cases hv4

end Bring

section Pass

variable {conf : MeshConf} {plan : Plan} {privateKey : String} {net : Net} {w w' : World} {applied : Applied}

def RoutesFollow (conf : MeshConf) (plan : Plan) (b : Box) : Prop :=
  ∀ net, b.routed conf.IFACE net ∧ ¬ Connected conf.IFACE plan.addresses net ↔ plan.wants net

def Released (conf : MeshConf) (plan : Plan) (b : Box) : Prop :=
  ∀ net, b.added conf.IFACE net → ¬ Connected conf.IFACE plan.addresses net →
    plan.wants net ∨ (∃ key, key ∉ plan.keys ∧ b.holds conf.IFACE key net) ∨
      Strips plan.addresses (b.addrs conf.IFACE) net

structure Undisputed (conf : MeshConf) (plan : Plan) (b : Box) : Prop where
  own : plan.Outward conf
  free : ∀ net, plan.wants net → b.clearFor conf.IFACE net

theorem afterRoutes_spares (c : Cmd) (hc : c.afterRoutes) : c.sparesRoute conf.IFACE net := by
  cases c <;> simp_all [Cmd.afterRoutes, Cmd.ofRouting, Cmd.sparesRoute, Cmd.leavesRoute]

theorem afterRoutes_addsNot (c : Cmd) (hc : c.afterRoutes) : c.addsNot conf.IFACE net := by
  cases c <;> simp_all [Cmd.afterRoutes, Cmd.ofRouting, Cmd.addsNot]

theorem afterRoutes_up (c : Cmd) (hc : c.afterRoutes) : c.afterUp conf.IFACE := by
  cases c <;> simp_all [Cmd.afterRoutes, Cmd.ofRouting, Cmd.afterUp, Cmd.routesOn]

theorem up_removeAll (keys : List String) : Keeps (Up conf plan) (keys.forM (removeUnlisted conf plan.keys)) :=
  keeps_forM fun _ _ => keeps_removeUnlisted (stable_up conf plan) (by simp [Cmd.afterUp, Cmd.routesOn])
    (by simp [Cmd.afterUp, Cmd.routesOn])

theorem up_meshRoutes (hdev : ∀ route ∈ plan.routes, route.dev = conf.IFACE) :
    Keeps (Up conf plan) (addMeshRoutes plan.routes) :=
  keeps_addMeshRoutes (stable_up conf plan) fun route hroute => by
    simp [Cmd.afterUp, Cmd.routesOn, hdev route hroute]

theorem added_meshRoutes (hdev : ∀ route ∈ plan.routes, route.dev = conf.IFACE) :
    Keeps (fun v => v.box.added conf.IFACE net) (addMeshRoutes plan.routes) :=
  keeps_addMeshRoutes (stable_added conf.IFACE net) fun route hroute =>
    hdev route hroute ▸ sparesRoute_add _ _ _

theorem added_afterRoutes (failed : List Failure) :
    Keeps (fun v => v.box.added conf.IFACE net) (afterRoutes conf plan failed) :=
  keeps_afterRoutes ((stable_added conf.IFACE net).mono afterRoutes_spares) plan failed

theorem settles_removeAll (keys : List String) :
    Keeps (Settles conf plan net) (keys.forM (removeUnlisted conf plan.keys)) :=
  keeps_forM fun key _ => removeUnlisted_spares plan.keys key

theorem wanted_added (hw : Quiet w) (hplan : Undisputed conf plan w.box)
    (hdev : ∀ route ∈ plan.routes, route.dev = conf.IFACE)
    (h : applyPlan conf plan privateKey w = .ok applied w') (hnone : applied.failed = [])
    (hnet : plan.wants net) : w'.box.added conf.IFACE net := by
  obtain ⟨w₁,failed,w₂,w₃,keys,w₄,w₅,hup,hset,hlist,hremove,hroutes,hafter⟩ := applyPlan_stages h
  have hw₁ : Up conf plan w₁ := up_bringUp hw (fun net => hplan.free net net.2) hup
  obtain ⟨hw₂,hsettled⟩ := setPeers_settle hw₁ hplan.own hset
  rw [listPeers_up hw₂] at hlist
  cases hlist
  have hw₄ := (up_removeAll _).of_ok hremove hw₂
  have hlast : w₅.box.added conf.IFACE net := by
    rcases hnet with ⟨p,hp,hlists⟩ | ⟨route,hroute,hparse⟩
    · have hw₂ := hsettled (afterRoutes_nil hafter hnone) p hp net hlists
      exact (added_meshRoutes hdev).of_ok hroutes ((settles_removeAll _).of_ok hremove hw₂).1
    · exact meshRoutes_added hw₄ hplan.own (fun r hr => ⟨hr,hdev r hr⟩) hroutes route hroute net hparse
  exact (added_afterRoutes failed).of_ok hafter hlast

theorem holds_setPeers {key : String} (hkey : key ∉ plan.keys) (hnot : ¬ plan.wants net) :
    Keeps (fun v => v.box.holds conf.IFACE key net) (plan.peers.foldlM (applyPeer conf) []) := by
  refine keeps_foldlM (fun failed p hp => keeps_noting (keeps_setPeer (stable_holds conf.IFACE key net)
    (fun _ _ => ?_) fun _ _ => trivial) _ _) _
  refine fun _ => ⟨?_,fun cidr hcidr hparse => hnot (.inl ⟨p,hp,cidr,hcidr,hparse⟩)⟩
  rintro rfl
  exact hkey (List.mem_map_of_mem hp)

theorem single_setPeers : Keeps (fun v => Single conf.IFACE net v.box)
    (plan.peers.foldlM (applyPeer conf) []) :=
  keeps_foldlM (fun failed p _ => keeps_noting (keeps_setPeer (stable_single conf.IFACE net)
    (by simp) (by simp)) _ _) _

theorem addsNot_setPeers {X : Prop} (hnot : ¬ plan.wants net) :
    Keeps (fun v => v.box.routed conf.IFACE net → Connected conf.IFACE (v.box.addrs conf.IFACE) net ∨ X)
      (plan.peers.foldlM (applyPeer conf) []) := by
  refine keeps_foldlM (fun failed p hp => keeps_noting (keeps_setPeer (stable_notAdded X)
    (by simp [Cmd.addsNot]) fun cidr hcidr => ?_) _ _) _
  refine ⟨fun cidr' heq hparse => hnot (.inl ⟨p,hp,cidr,hcidr,?_⟩),by simp⟩
  obtain rfl : cidr = cidr' := by simpa using heq
  exact hparse

theorem unwanted_gone (hw : Quiet w) (hplan : Undisputed conf plan w.box)
    (hdev : ∀ route ∈ plan.routes, route.dev = conf.IFACE) (hsingle : Single conf.IFACE net w.box)
    (h : applyPlan conf plan privateKey w = .ok applied w') (hreleased : Released conf plan w.box)
    (hown : ¬ Connected conf.IFACE plan.addresses net) (hnot : ¬ plan.wants net) :
    ¬ w'.box.routed conf.IFACE net := by
  obtain ⟨w₁,failed,w₂,w₃,keys,w₄,w₅,hup,hset,hlist,hremove,hroutes,hafter⟩ := applyPlan_stages h
  have hw₁ : Up conf plan w₁ := up_bringUp hw (fun net => hplan.free net net.2) hup
  have hw₂ := (setPeers_settle hw₁ hplan.own hset).1
  rw [listPeers_up hw₂] at hlist
  cases hlist
  have hw₄ := (up_removeAll _).of_ok hremove hw₂
  have hw₅ := (up_meshRoutes hdev).of_ok hroutes hw₄
  have hw' := (keeps_afterRoutes ((stable_up conf plan).mono afterRoutes_up) plan failed).of_ok hafter hw₅
  have hgone : ¬ w₄.box.routed conf.IFACE net := by
    have hold : w₂.box.routed conf.IFACE net → w.box.added conf.IFACE net := fun hrouted =>
      ((addsNot_setPeers hnot).of_ok hset
        (fun hrouted => .inr (added_before hw₁ hown hup hrouted)) hrouted).resolve_left (hw₂.not_connected hown)
    have hsingle₂ := single_setPeers.of_ok hset ((single_bringUp net).of_ok hup hsingle)
    have hdropping : Dropping conf.IFACE net w₂ :=
      ⟨hw₂.quiet,hw₂.link,hsingle₂.once.resolve_right (hw₂.not_connected hown)⟩
    by_cases hrouted : w₂.box.routed conf.IFACE net
    · obtain ⟨key,hkey,hholds⟩ := ((hreleased net (hold hrouted) hown).resolve_left hnot).resolve_right fun hstrips =>
        stripped_bringUp hw₁ hown hstrips hup (((addsNot_setPeers hnot).of_ok hset (fun hr => .inr hr)
          hrouted).resolve_left (hw₂.not_connected hown))
      have hholds₁ : w₁.box.holds conf.IFACE key net := by rwa [Box.holds, peers_same hup]
      have hholds₂ := (holds_setPeers hkey hnot).of_ok hset hholds₁
      exact removeAll_gone hdropping (key_of_holds hholds₂) hkey hholds₂ hremove
    · have hnone : Keeps (fun v => v.box.routes.count (mainRoute conf.IFACE net) ≤ 0)
          ((w₂.box.peers conf.IFACE).keys.forM (removeUnlisted conf plan.keys)) := keeps_forM fun key _ =>
        keeps_removeUnlisted (stable_count conf.IFACE net 0) (by simp [Cmd.addsNot]) (by simp [Cmd.addsNot])
      exact not_routed_iff.mp (hnone.of_ok hremove (not_routed_iff.mpr hrouted))
  have hroutes' : Keeps (fun v => v.box.routed conf.IFACE net →
      Connected conf.IFACE (v.box.addrs conf.IFACE) net ∨ False) (addMeshRoutes plan.routes) := by
    refine keeps_addMeshRoutes (stable_notAdded False) fun route hroute => ⟨fun cidr heq hparse => ?_,by simp⟩
    obtain ⟨rfl,-⟩ : route.cidr = cidr ∧ route.dev = conf.IFACE := by simpa using heq
    exact hnot (.inr ⟨route,hroute,hparse⟩)
  have hafter' : Keeps (fun v => v.box.routed conf.IFACE net →
      Connected conf.IFACE (v.box.addrs conf.IFACE) net ∨ False) (afterRoutes conf plan failed) :=
    keeps_afterRoutes ((stable_notAdded False).mono afterRoutes_addsNot) plan failed
  intro hrouted
  have hlast := hafter'.of_ok hafter (hroutes'.of_ok hroutes fun hr => absurd hr hgone) hrouted
  exact hlast.elim (hw'.not_connected hown) id

theorem unreleased_stays (hw : Quiet w) (hplan : Undisputed conf plan w.box)
    (hdev : ∀ route ∈ plan.routes, route.dev = conf.IFACE) (hsingle : Single conf.IFACE net w.box)
    (h : applyPlan conf plan privateKey w = .ok applied w') (hadded : w.box.added conf.IFACE net)
    (hown : ¬ Connected conf.IFACE plan.addresses net) (hfree : w.box.freeOf conf.IFACE plan.keys net)
    (hstrips : ¬ Strips plan.addresses (w.box.addrs conf.IFACE) net) : w'.box.added conf.IFACE net := by
  obtain ⟨w₁,failed,w₂,w₃,keys,w₄,w₅,hup,hset,hlist,hremove,hroutes,hafter⟩ := applyPlan_stages h
  have hw₁ : Up conf plan w₁ := up_bringUp hw (fun net => hplan.free net net.2) hup
  have hw₂ := (setPeers_settle hw₁ hplan.own hset).1
  rw [listPeers_up hw₂] at hlist
  cases hlist
  have hsettles₁ : Settles conf plan net w₁ := by
    refine ⟨added_bringUp hw hsingle hown hstrips hadded hup,?_⟩
    simpa [Box.freeOf, Box.holds, peers_same hup] using hfree
  have hsettles₂ : Settles conf plan net w₂ :=
    (keeps_foldlM (fun failed p hp => applyPeer_settles hp failed) _).of_ok hset hsettles₁
  have hadded₄ := ((settles_removeAll _).of_ok hremove hsettles₂).1
  exact (added_afterRoutes failed).of_ok hafter ((added_meshRoutes hdev).of_ok hroutes hadded₄)

theorem routesFollow_iff (hw : Quiet w) (hplan : Undisputed conf plan w.box)
    (hdev : ∀ route ∈ plan.routes, route.dev = conf.IFACE) (hsingle : ∀ net, Single conf.IFACE net w.box)
    (h : applyPlan conf plan privateKey w = .ok applied w') (hnone : applied.failed = []) :
    RoutesFollow conf plan w'.box ↔ Released conf plan w.box := by
  constructor
  · intro hfollow net hadded hown
    by_contra hnot
    rw [not_or, not_or] at hnot
    have hfree : w.box.freeOf conf.IFACE plan.keys net := fun key hkey hholds =>
      hnot.2.1 ⟨key,hkey,hholds⟩
    have hstays := unreleased_stays hw hplan hdev (hsingle net) h hadded hown hfree hnot.2.2
    exact hnot.1 ((hfollow net).mp ⟨hstays.1,hown⟩)
  · intro hreleased net
    constructor
    · rintro ⟨hrouted,hown⟩
      by_contra hnot
      exact unwanted_gone hw hplan hdev (hsingle net) h hreleased hown hnot hrouted
    · exact fun hnet => ⟨(wanted_added hw hplan hdev h hnone hnet).1,hplan.own net hnet⟩

theorem single_passStep {pass : Pass} (hw : Quiet w ∧ ∀ net, Single conf.IFACE net w.box)
    (h : passStep conf w pass = some w') : Quiet w' ∧ ∀ net, Single conf.IFACE net w'.box := by
  unfold passStep at h
  split at h
  · next applied v happly =>
    cases h
    have hstable := ((stable_quiet _).and (Stable.all (stable_single conf.IFACE)))
    have hkeep : Keeps (fun v => Quiet v ∧ ∀ net, Single conf.IFACE net v.box)
        (applyPlan conf pass.plan pass.privateKey) := keeps_applyPlan hstable
      (fun c hc => by cases c <;> simp_all [Cmd.ofMesh]) (fun c hc => by cases c <;> simp_all [Cmd.ofRouting])
      (fun _ => keeps_probeKernel hstable (by simp) (by simp)) pass.privateKey
    exact hkeep.of_ok happly hw
  · cases h

theorem routes_follow {passes : List Pass} {last : Pass} {w₁ w₂ : World} (hquiet : Quiet w)
    (hstart : ∀ net, ¬ w.box.routed conf.IFACE net)
    (hrun : Run.exec (passStep conf) w passes = some w₁)
    (hlast : applyPlan conf last.plan last.privateKey w₁ = .ok applied w₂) (hnone : applied.failed = [])
    (hdev : ∀ route ∈ last.plan.routes, route.dev = conf.IFACE)
    (hplan : Undisputed conf last.plan w₁.box) :
    RoutesFollow conf last.plan w₂.box ↔ Released conf last.plan w₁.box := by
  have hsingle : ∀ net, Single conf.IFACE net w.box := fun net => by
    refine ⟨.inl ?_,fun hrouted => absurd hrouted (hstart net)⟩
    exact (not_routed_iff.mpr (hstart net)).trans (Nat.zero_le 1)
  obtain ⟨hw₁,hsingle₁⟩ := Run.invariant_of_mem (P := fun v => Quiet v ∧ ∀ net, Single conf.IFACE net v.box)
    (fun _ _ _ hv _ hstep => single_passStep hv hstep) ⟨hquiet,hsingle⟩ hrun
  exact routesFollow_iff hw₁ hplan hdev hsingle₁ hlast hnone

end Pass

section OneDevice

def siteDoc : PeersDoc := { localSiteId := .ofInt 1 }

def devicesAt (devices : List (String × String)) : ClientsDoc where
  clients := some (devices.map fun (publicKey,assignedIp) =>
    { uid := some "alice", name := some publicKey, publicKey := some publicKey, assignedIp := some assignedIp })

def devicePlan (devices : List (String × String)) : Plan where
  siteId := .ofInt 1
  addresses := ["172.24.0.1/32","10.1.0.1/16"]
  peers := devices.map fun (publicKey,assignedIp) => {
    kind := .client
    label := "alice/" ++ publicKey
    publicKey := publicKey
    endpoint := ""
    allowedIPs := [assignedIp ++ "/32"]
    keepalive := 0
    exitSiteId := .null }
  routes := [⟨"10.0.0.0/8","wg-mesh"⟩,⟨"172.24.0.0/16","wg-mesh"⟩]
  netmaps := []
  siteCidr := "10.1.0.0/16"

def devicePass (devices : List (String × String)) : Pass := ⟨devicePlan devices,"key"⟩

theorem undisputed_device {devices : List (String × String)} {b : Box} (hfree : ∀ r ∈ b.routes, r.dev = "wg-mesh")
    (hown : ∀ cidr ∈ ["10.0.0.0/8","172.24.0.0/16"] ++ devices.map fun device => device.2 ++ "/32",
      ∀ net, Net.parse cidr = some net → ¬ Connected "wg-mesh" ["172.24.0.1/32","10.1.0.1/16"] net) :
    Undisputed wgMesh (devicePlan devices) b := by
  refine ⟨fun net hnet => ?_,fun net _ r hr _ _ => hfree r hr⟩
  rcases hnet with ⟨p,hp,cidr,hcidr,hparse⟩ | ⟨route,hroute,hparse⟩
  · obtain ⟨device,hdevice,rfl⟩ := List.mem_map.mp hp
    obtain rfl := List.mem_singleton.mp hcidr
    exact hown _ (List.mem_append_right _ (List.mem_map.mpr ⟨device,hdevice,rfl⟩)) net hparse
  · simp only [devicePlan, List.mem_cons, List.not_mem_nil, or_false] at hroute
    rcases hroute with rfl | rfl
    · exact hown _ (by simp) net hparse
    · exact hown _ (by simp) net hparse

def phoneAt7 : Net := Net.host (Addr.quad 10 1 128 7)

theorem routes_follow_gone : ∃ w₁ applied w₂,
    Run.exec (passStep wgMesh) bare [devicePass [("phone","10.1.128.7"),("laptop","10.1.128.8")]] = some w₁ ∧
    applyPlan wgMesh (devicePlan [("laptop","10.1.128.8")]) "key" w₁ = .ok applied w₂ ∧
    w₁.box.routed "wg-mesh" phoneAt7 ∧ ¬ w₂.box.routed "wg-mesh" phoneAt7 ∧
    (RoutesFollow wgMesh (devicePlan [("laptop","10.1.128.8")]) w₂.box ↔
      Released wgMesh (devicePlan [("laptop","10.1.128.8")]) w₁.box) := by
  have hcheck : (Run.exec (passStep wgMesh) bare
      [devicePass [("phone","10.1.128.7"),("laptop","10.1.128.8")]]).any (fun w₁ =>
        (w₁.box.routes.all fun r => r.dev == "wg-mesh") && w₁.box.routes.contains (mainRoute "wg-mesh" phoneAt7) &&
        okWith (applyPlan wgMesh (devicePlan [("laptop","10.1.128.8")]) "key" w₁) fun applied w₂ =>
          applied.failed.isEmpty && !w₂.box.routes.contains (mainRoute "wg-mesh" phoneAt7)) = true := by
    decide +kernel
  obtain ⟨w₁,hrun,hcheck⟩ := (Option.any_eq_true _ _).mp hcheck
  simp only [Bool.and_eq_true, List.all_eq_true, beq_iff_eq] at hcheck
  obtain ⟨⟨hfree,hbefore⟩,hpass⟩ := hcheck
  obtain ⟨applied,w₂,hlast,hafter⟩ := exists_of_okWith hpass
  simp only [Bool.and_eq_true, List.isEmpty_iff, Bool.not_eq_true'] at hafter
  have hown : ∀ cidr ∈ ["10.0.0.0/8","172.24.0.0/16","10.1.128.8/32"], ((Net.parse cidr).all fun net =>
      decide (¬ Connected "wg-mesh" ["172.24.0.1/32","10.1.0.1/16"] net)) = true := by
    decide +kernel
  have hplan : Undisputed wgMesh (devicePlan [("laptop","10.1.128.8")]) w₁.box := by
    refine undisputed_device hfree fun cidr hcidr net hparse => ?_
    have hall := hown cidr hcidr
    rw [hparse] at hall
    exact of_decide_eq_true hall
  have hdev : ∀ route ∈ (devicePlan [("laptop","10.1.128.8")]).routes, route.dev = wgMesh.IFACE := by decide
  have hafter₂ : ¬ w₂.box.routed "wg-mesh" phoneAt7 := fun hrouted => by
    rw [List.contains_iff_mem.mpr hrouted] at hafter
    exact absurd hafter.2 (by decide)
  have hlast' : applyPlan wgMesh (devicePass [("laptop","10.1.128.8")]).plan
      (devicePass [("laptop","10.1.128.8")]).privateKey w₁ = .ok applied w₂ := hlast
  exact ⟨w₁,applied,w₂,hrun,hlast,List.contains_iff_mem.mp hbefore,hafter₂,
    routes_follow bare_calm.quiet (fun _ hrouted => by cases hrouted) hrun hlast' hafter.1 hdev hplan⟩

theorem routes_left :
    planReconcile wgMesh (some siteDoc) (some (devicesAt [("phone","10.1.128.7")])) none =
      .ok (.ready (devicePlan [("phone","10.1.128.7")])) ∧
    planReconcile wgMesh (some siteDoc) (some (devicesAt [("phone","10.1.128.9")])) none =
      .ok (.ready (devicePlan [("phone","10.1.128.9")])) ∧
    ∃ w₁ applied w₂, Run.exec (passStep wgMesh) bare [devicePass [("phone","10.1.128.7")]] = some w₁ ∧
      applyPlan wgMesh (devicePlan [("phone","10.1.128.9")]) "key" w₁ = .ok applied w₂ ∧ applied.failed = [] ∧
      w₂.box.routed "wg-mesh" phoneAt7 ∧ ¬ RoutesFollow wgMesh (devicePlan [("phone","10.1.128.9")]) w₂.box := by
  have hcheck : (Run.exec (passStep wgMesh) bare [devicePass [("phone","10.1.128.7")]]).any (fun w₁ =>
      okWith (applyPlan wgMesh (devicePlan [("phone","10.1.128.9")]) "key" w₁) fun applied w₂ =>
        applied.failed.isEmpty && w₂.box.routes.contains (mainRoute "wg-mesh" phoneAt7)) = true := by
    decide +kernel
  obtain ⟨w₁,hrun,hpass⟩ := (Option.any_eq_true _ _).mp hcheck
  obtain ⟨applied,w₂,hlast,hafter⟩ := exists_of_okWith hpass
  simp only [Bool.and_eq_true, List.isEmpty_iff] at hafter
  have hrouted : w₂.box.routed "wg-mesh" phoneAt7 := List.contains_iff_mem.mp hafter.2
  refine ⟨rfl,rfl,w₁,applied,w₂,hrun,hlast,hafter.1,hrouted,fun hfollow => ?_⟩
  have hown : ¬ Connected "wg-mesh" ["172.24.0.1/32","10.1.0.1/16"] phoneAt7 := by
    unfold Connected
    decide +kernel
  rcases (hfollow phoneAt7).mp ⟨hrouted,hown⟩ with ⟨p,hp,cidr,hcidr,hparse⟩ | ⟨route,hroute,hparse⟩
  · obtain rfl := List.mem_singleton.mp hp
    obtain rfl := List.mem_singleton.mp hcidr
    revert hparse
    decide +kernel
  · simp only [devicePlan, List.mem_cons, List.not_mem_nil, or_false] at hroute
    rcases hroute with rfl | rfl
    · revert hparse
      decide +kernel
    · revert hparse
      decide +kernel

end OneDevice

end JumpHost.Mesh
