import JumpHost.Mesh.Raised
import JumpHost.Mesh.Router

namespace JumpHost.Mesh

open Effect

section Settings

variable {ps ps' : OrdMap String WgPeer} {p : Peer} {peers : List Peer} {key : String}

def Peer.setIn (ps : OrdMap String WgPeer) (p : Peer) : OrdMap String WgPeer :=
  match p.allowedIPs.mapM Net.parse with
  | none => ps
  | some nets => assignPeer ps p.publicKey nets (firstTruthy [some p.endpoint])
      (if p.keepalive = 0 then none else some p.keepalive)

inductive Reset (f : Option WgPeer → Option WgPeer) : Prop
  | loses (keep : Net → Bool)
      (h : ∀ x, f x = x.map fun peer => { peer with allowedIPs := peer.allowedIPs.filter keep }) : Reset f
  | given (nets : List Net) (endpoint : Option String) (keepalive : Option Nat)
      (h : ∀ x, f x = some ⟨nets,endpoint.or (x.bind WgPeer.endpoint),keepalive.getD ((x.map WgPeer.keepalive).getD 0)⟩) :
      Reset f

theorem Reset.again {f : Option WgPeer → Option WgPeer} (h : Reset f) (x : Option WgPeer) : f (f x) = f x := by
  cases h with
  | loses keep h =>
    rw [h, h, Option.map_map]
    cases x <;> simp
  | given nets endpoint keepalive h =>
    rw [h (f x), h x]
    cases keepalive <;> simp [or_again]

theorem Reset.comp {f g : Option WgPeer → Option WgPeer} (hf : Reset f) (hg : Reset g) : Reset fun x => g (f x) := by
  cases hg with
  | loses keep hg =>
    cases hf with
    | loses keep' hf =>
      refine .loses (fun net => keep net && keep' net) fun x => ?_
      rw [hg, hf]
      cases x <;> simp
    | given nets endpoint keepalive hf =>
      refine .given (nets.filter keep) endpoint keepalive fun x => ?_
      rw [hg, hf]
      rfl
  | given nets endpoint keepalive hg =>
    cases hf with
    | loses keep hf =>
      refine .given nets endpoint keepalive fun x => ?_
      rw [hg, hf]
      cases x <;> rfl
    | given nets' endpoint' keepalive' hf =>
      refine .given nets (endpoint.or endpoint') (keepalive.or keepalive') fun x => ?_
      rw [hg, hf]
      cases keepalive <;> simp [Option.or_assoc]

theorem reset_setIn (p : Peer) (key : String) : ∃ f, Reset f ∧ ∀ ps, (p.setIn ps).get? key = f (ps.get? key) := by
  unfold Peer.setIn
  cases p.allowedIPs.mapM Net.parse with
  | none =>
    refine ⟨id,.loses (fun _ => true) fun x => ?_,fun _ => rfl⟩
    cases x <;> simp
  | some nets =>
    by_cases hkey : key = p.publicKey
    · subst hkey
      refine ⟨_,.given nets.dedup (firstTruthy [some p.endpoint]) (if p.keepalive = 0 then none else some p.keepalive)
        fun _ => rfl,fun ps => ?_⟩
      simp only [assignPeer, OrdMap.get?_set_self]
      cases ps.get? p.publicKey <;> rfl
    · exact ⟨_,.loses (fun net => !nets.contains net) fun _ => rfl,fun ps => get?_assignPeer_of_ne hkey⟩

theorem reset_setAll (peers : List Peer) (key : String) :
    ∃ f, Reset f ∧ ∀ ps, (peers.foldl Peer.setIn ps).get? key = f (ps.get? key) := by
  induction peers with
  | nil =>
    refine ⟨id,.loses (fun _ => true) fun x => ?_,fun _ => rfl⟩
    cases x <;> simp
  | cons p peers ih =>
    obtain ⟨f,hf,hp⟩ := reset_setIn p key
    obtain ⟨g,hg,hrest⟩ := ih
    exact ⟨_,hf.comp hg,fun ps => by rw [List.foldl_cons, hrest, hp]⟩

theorem mem_keys_setIn (h : key ∈ ps.keys) : key ∈ (p.setIn ps).keys := by
  unfold Peer.setIn
  split
  · exact h
  · exact mem_keys_assignPeer.mpr (.inl h)

theorem mem_keys_setAll (h : key ∈ ps.keys) : key ∈ (peers.foldl Peer.setIn ps).keys := by
  induction peers generalizing ps with
  | nil => exact h
  | cons p peers ih => exact ih (mem_keys_setIn h)

theorem setAll_known (h : ∀ p ∈ peers, (p.allowedIPs.mapM Net.parse).isSome = true →
    p.publicKey ∈ ps.keys) : (peers.foldl Peer.setIn ps).keys = ps.keys := by
  induction peers generalizing ps with
  | nil => rfl
  | cons p peers ih =>
    have hsame : (p.setIn ps).keys = ps.keys := by
      have hp := h p (by simp)
      unfold Peer.setIn
      cases hparse : p.allowedIPs.mapM Net.parse with
      | none => rfl
      | some nets =>
        rw [hparse] at hp
        simp only [assignPeer]
        rw [OrdMap.keys_set (by rw [OrdMap.keys_mapValues]; exact hp rfl), OrdMap.keys_mapValues]
    rw [List.foldl_cons, ih fun q hq hparse => hsame ▸ h q (by simp [hq]) hparse, hsame]

theorem setAll_names (ps : OrdMap String WgPeer) (hp : p ∈ peers)
    (hparse : (p.allowedIPs.mapM Net.parse).isSome = true) : p.publicKey ∈ (peers.foldl Peer.setIn ps).keys := by
  induction peers generalizing ps with
  | nil => cases hp
  | cons q peers ih =>
    rw [List.foldl_cons]
    rcases List.mem_cons.mp hp with rfl | hp
    · refine mem_keys_setAll ?_
      obtain ⟨nets,hnets⟩ := Option.isSome_iff_exists.mp hparse
      unfold Peer.setIn
      rw [hnets]
      exact mem_keys_assignPeer.mpr (.inr rfl)
    · exact ih _ hp

theorem setAll_again (h : Pruned (peers.map Peer.publicKey) (peers.foldl Peer.setIn ps) ps') :
    peers.foldl Peer.setIn ps' = ps' := by
  have hkeys : (peers.foldl Peer.setIn ps').keys = ps'.keys := by
    refine setAll_known fun p hp hparse => ?_
    have hmem : p.publicKey ∈ peers.map Peer.publicKey := List.mem_map_of_mem hp
    obtain ⟨peer,hpeer⟩ := OrdMap.mem_keys_iff.mp (setAll_names ps hp hparse)
    exact OrdMap.mem_keys_iff.mpr ⟨peer,by rw [h.kept _ hmem, hpeer]⟩
  refine OrdMap.ext_get? hkeys fun key => ?_
  by_cases hkey : key ∈ peers.map Peer.publicKey
  · obtain ⟨f,hf,hall⟩ := reset_setAll peers key
    rw [hall, h.kept key hkey, hall, hf.again]
  · have hnot : key ∉ ps'.keys := fun hmem => hkey (h.listed key hmem)
    rw [OrdMap.get?_eq_none_iff.mpr (hkeys ▸ hnot), OrdMap.get?_eq_none_iff.mpr hnot]

end Settings

section Routed

variable {conf : MeshConf} {plan : Plan} {b b' : Box} {d cidr : String} {net : Net} {w w' : World}

def Box.taken (b : Box) (net : Net) : Prop := ∃ d, b.routed d net

def Cmd.keepsMain (net : Net) (c : Cmd) : Prop :=
  (∀ d, c ≠ .linkDel d) ∧ (∀ cidr d, c = .routeDel cidr d → Net.parse cidr ≠ some net) ∧
    (∀ cidr d, c ≠ .addrDel cidr d) ∧ c ≠ .routeFlush (.int MAIN) ∧ ∀ d, c ≠ .routeReplaceDefault d (.int MAIN)

theorem stable_taken (net : Net) : Stable (fun w => w.box.taken net) (Cmd.keepsMain net) := by
  refine stable_box (I := fun b => b.taken net) fun b c b' hc h hb => ?_
  obtain ⟨d,hrouted⟩ := hb
  obtain ⟨hlink,hdel,haddr,hflush,hdefault⟩ := hc
  refine ⟨d,by_contra fun hgone => ?_⟩
  rcases main_gone h hrouted hgone with hc | ⟨cidr,hc,hnet⟩ | ⟨cidr,hc,-⟩ | ⟨cidr,hc,-,-⟩ | hc | ⟨dev,hc⟩
  · exact hlink d hc
  · exact hdel cidr d hc hnet
  · exact haddr cidr d hc
  · exact haddr cidr d hc
  · exact hflush hc
  · exact hdefault dev hc

theorem step_routeAdd (hup : b.isUp d) (hnet : Net.parse cidr = some net) (hbits : Box.hostBits cidr = false) :
    b.step (.routeAdd cidr d) = b.addRoute (mainRoute d net) := by
  obtain ⟨link,hlink,hup⟩ := hup
  simp only [Box.step, Box.onPrefix, Box.onNet, hnet, hbits, Bool.false_eq_true, if_false, Box.onUp, Box.onLink, hlink,
    hup, if_true, mainRoute]

theorem fails_addRoute (message : String) (hnet : Net.parse cidr = some net) (hbits : Box.hostBits cidr = true) :
    Fails Calm World.box (addRoute cidr d message) b := by
  have hstep : b.step (.routeAdd cidr d) = .error { err := "RTNETLINK answers: Invalid argument" } := by
    simp only [Box.step, Box.onPrefix, Box.onNet, hnet, hbits, if_true, Box.refuse]
  have hother : Failed.fileExists { err := "RTNETLINK answers: Invalid argument" } = false := by decide
  refine (gives_refused hstep).fails_bind ?_
  simp only [hother, Bool.false_eq_true, if_false]
  exact fun w hw hbox => ⟨_,w,rfl,hw,hbox⟩

theorem addRoute_taken (htaken : b.taken net) : b.addRoute (mainRoute d net) = Box.fileExists := by
  obtain ⟨dev,hrouted⟩ := htaken
  have hany : (b.routes.any fun r => r.table = (mainRoute d net).table ∧ r.net = (mainRoute d net).net) = true :=
    List.any_eq_true.mpr ⟨mainRoute dev net,hrouted,by simp [mainRoute]⟩
  rw [Box.addRoute, if_pos hany]

theorem takes_addRoute (message : String) (hup : b.isUp d) (hnet : Net.parse cidr = some net)
    (hbits : Box.hostBits cidr = false) :
    ∃ b', Takes Calm World.box (addRoute cidr d message) b b' ∧ b'.taken net ∧ (b.taken net → b' = b) := by
  have hstep := step_routeAdd hup hnet hbits
  by_cases htaken : b.taken net
  · rw [addRoute_taken htaken] at hstep
    refine ⟨b,(gives_refused hstep).takes_bind ?_,htaken,fun _ => rfl⟩
    have hexists : Failed.fileExists { err := "RTNETLINK answers: File exists" } = true := by decide
    simp only [hexists, if_true]
    exact takes_pure _
  · have hfree : (b.routes.any fun r => r.table = (mainRoute d net).table ∧ r.net = (mainRoute d net).net) = false := by
      rw [List.any_eq_false]
      intro r hr hsame
      obtain ⟨htable,hnet'⟩ := of_decide_eq_true hsame
      refine htaken ⟨r.dev,?_⟩
      obtain ⟨table,net',dev⟩ := r
      obtain rfl : table = MAIN := htable
      obtain rfl : net' = net := hnet'
      exact hr
    rw [Box.addRoute, hfree] at hstep
    refine ⟨_,(gives_tryRun hstep).takes_bind (takes_pure _),⟨d,?_⟩,fun h => absurd h htaken⟩
    simp [Box.routed]

theorem takes_ensureRoute (hup : b.isUp d) (hnet : Net.parse cidr = some net) (hbits : Box.hostBits cidr = false) :
    ∃ b', Takes Calm World.box (ensureRoute cidr d) b b' ∧ b'.taken net ∧ (b.taken net → b' = b) := by
  obtain ⟨link,hlink,-⟩ := id hup
  have hshow : b.step (.routeShow cidr d) = .ok b := by simp only [Box.step, Box.onNet, hnet, Box.onLink, hlink]
  cases hlist : (b.routesTo MAIN cidr).filter fun r => r.dev = d with
  | nil =>
    obtain ⟨b',hadd,htaken,hsame⟩ :=
      takes_addRoute ("failed to add route " ++ cidr ++ " via " ++ d ++ ": ") hup hnet hbits
    exact ⟨b',(gives_query hshow).takes_bind (by rw [hlist]; exact hadd),htaken,hsame⟩
  | cons r rest =>
    refine ⟨b,(gives_query hshow).takes_bind (by rw [hlist]; exact takes_pure _),⟨r.dev,?_⟩,fun _ => rfl⟩
    have hr : r ∈ (b.routesTo MAIN cidr).filter fun r => r.dev = d := hlist ▸ List.mem_cons_self
    obtain ⟨hr,htable,hparse⟩ := by simpa [Box.routesTo] using (List.mem_filter.mp hr).1
    obtain rfl := Option.some.inj (hnet.symm.trans hparse)
    obtain ⟨table,net,dev⟩ := r
    obtain rfl : table = MAIN := htable
    exact hr

theorem takes_addMeshRoutes {routes : List MeshRoute} (hup : b.isUp d)
    (hroutes : ∀ route ∈ routes, route.dev = d ∧ ∃ net, Net.parse route.cidr = some net ∧ b.taken net)
    (hbits : ∀ route ∈ routes, Box.hostBits route.cidr = false) :
    Takes Calm World.box (addMeshRoutes routes) b b := by
  refine takes_forM fun route hroute => ?_
  obtain ⟨rfl,net,hnet,htaken⟩ := hroutes route hroute
  obtain ⟨b',hensure,-,hsame⟩ := takes_ensureRoute hup hnet (hbits route hroute)
  obtain rfl := hsame htaken
  exact hensure.bind fun _ => takes_pure _

theorem addMeshRoutes_taken {routes : List MeshRoute} (hw : Calm w) (hup : w.box.isUp d)
    (hroutes : ∀ route ∈ routes, route.dev = d ∧ (Net.parse route.cidr).isSome = true)
    (hbits : ∀ route ∈ routes, Box.hostBits route.cidr = false) :
    ∃ w', addMeshRoutes routes w = .ok () w' ∧ (Calm w' ∧ w'.box.isUp d) ∧
      ∀ route ∈ routes, ∀ net, Net.parse route.cidr = some net → w'.box.taken net := by
  let D : MeshRoute → World → Prop := fun route v => ∀ net, Net.parse route.cidr = some net → v.box.taken net
  refine forM_each (fun v => Calm v ∧ v.box.isUp d) D (fun route hroute v hv => ?_) ⟨hw,hup⟩
  obtain ⟨rfl,hparse⟩ := hroutes route hroute
  obtain ⟨net,hnet⟩ := Option.isSome_iff_exists.mp hparse
  obtain ⟨b',hensure,htaken,-⟩ := takes_ensureRoute hv.2 hnet (hbits route hroute)
  obtain ⟨new,v',hrun,hcalm,rfl⟩ := hensure v hv.1 rfl
  have hup' := (keeps_ensureRoute (stable_isUp route.dev) (by simp)).of_ok hrun hv.2
  refine ⟨v',by rw [bind_of_ok hrun]; rfl,⟨hcalm,hup'⟩,fun net' hnet' => ?_,fun other _ hother net' hnet' => ?_⟩
  · rwa [← Option.some.inj (hnet.symm.trans hnet')]
  · exact (keeps_ensureRoute (stable_taken net') (by simp [Cmd.keepsMain])).of_ok hrun (hother net' hnet')

end Routed

section Peers

variable {conf : MeshConf} {plan : Plan} {p q : Peer} {peers : List Peer} {ps : OrdMap String WgPeer} {nets : List Net}
  {b : Box} {d : String} {w w' : World}

theorem isUp_of_raised {privateKey : String} (h : b.linked conf.IFACE (Raised conf plan privateKey)) :
    b.isUp conf.IFACE := by
  obtain ⟨link,hlink,hraised⟩ := h
  exact ⟨link,hlink,hraised.up⟩

def Box.withPeers (b : Box) (d : String) (ps : OrdMap String WgPeer) : Box :=
  match b.links.get? d with
  | none => b
  | some link => { b with links := b.links.set d { link with peers := ps } }

theorem withPeers_eq {link : Link} (h : b.links.get? d = some link) :
    b.withPeers d ps = { b with links := b.links.set d { link with peers := ps } } := by
  unfold Box.withPeers
  rw [h]

theorem link_withPeers {link : Link} (h : b.links.get? d = some link) :
    (b.withPeers d ps).links.get? d = some { link with peers := ps } := by
  rw [withPeers_eq h, OrdMap.get?_set_self]

theorem isUp_withPeers (h : b.isUp d) : (b.withPeers d ps).isUp d := by
  obtain ⟨link,hlink,hup⟩ := h
  exact ⟨_,link_withPeers hlink,hup⟩

theorem withPeers_self (h : b.isUp d) : b.withPeers d (b.peers d) = b := by
  obtain ⟨link,hlink,-⟩ := h
  rw [withPeers_eq hlink, Box.peers, Box.peersOn, hlink]
  exact links_same hlink

@[simp] theorem routes_withPeers : (b.withPeers d ps).routes = b.routes := by
  unfold Box.withPeers
  split <;> rfl

theorem taken_withPeers {net : Net} : (b.withPeers d ps).taken net ↔ b.taken net := by
  simp [Box.taken, Box.routed]

theorem step_setPeer (ps : OrdMap String WgPeer) (hup : b.isUp conf.IFACE) (p : Peer) :
    match p.allowedIPs.mapM Net.parse with
    | none => ∃ failed, (b.withPeers conf.IFACE ps).step (p.setCmd conf.IFACE) = .error failed
    | some _ => (b.withPeers conf.IFACE ps).step (p.setCmd conf.IFACE) = .ok (b.withPeers conf.IFACE (p.setIn ps)) := by
  obtain ⟨link,hlink,-⟩ := hup
  have hstep : (b.withPeers conf.IFACE ps).step (p.setCmd conf.IFACE) =
      (b.withPeers conf.IFACE ps).wgSetPeer conf.IFACE p.publicKey p.allowedIPs (firstTruthy [some p.endpoint])
        (if p.keepalive = 0 then none else some p.keepalive) := rfl
  rw [hstep]
  simp only [Box.wgSetPeer, Box.onLink, link_withPeers hlink]
  cases hnets : p.allowedIPs.mapM Net.parse with
  | none => exact ⟨_,rfl⟩
  | some nets =>
    simp only [withPeers_eq hlink, OrdMap.set_set, Link.setPeer, Peer.setIn, hnets]

theorem isSome_of_mapM {cidrs : List String} (h : cidrs.mapM Net.parse = some nets) :
    ∀ cidr ∈ cidrs, (Net.parse cidr).isSome = true := by
  intro cidr hcidr
  by_contra hnone
  have hnone : Net.parse cidr = none := by simpa using hnone
  induction cidrs generalizing nets with
  | nil => cases hcidr
  | cons first cidrs ih =>
    rw [List.mapM_cons] at h
    rcases List.mem_cons.mp hcidr with rfl | hcidr
    · simp [hnone] at h
    · cases hfirst : Net.parse first with
      | none => simp [hfirst] at h
      | some net =>
        cases hrest : cidrs.mapM Net.parse with
        | none => simp [hfirst, hrest] at h
        | some nets => exact ih hrest hcidr

theorem addPeerRoutes_taken {cidrs : List String} (hw : Calm w) (hup : w.box.isUp d)
    (hparse : ∀ cidr ∈ cidrs, (Net.parse cidr).isSome = true) :
    ∀ cidr ∈ cidrs.takeWhile (!Box.hostBits ·), ∀ net, Net.parse cidr = some net →
      (final (addPeerRoutes d cidrs w)).box.taken net := by
  induction cidrs generalizing w with
  | nil => exact nofun
  | cons cidr cidrs ih =>
    cases hbits : Box.hostBits cidr with
    | true => simp [hbits]
    | false =>
      rw [List.takeWhile_cons_of_pos (by simp [hbits]), List.forall_mem_cons]
      obtain ⟨net,hnet⟩ := Option.isSome_iff_exists.mp (hparse cidr List.mem_cons_self)
      obtain ⟨b',hadd,htaken,-⟩ := takes_addRoute
        ("failed to add kernel route " ++ cidr ++ " via " ++ d ++ ": ") hup hnet hbits
      obtain ⟨new,v,hrun,hv,rfl⟩ := hadd w hw rfl
      have hup' := (keeps_addRoute (stable_isUp d) (by simp)).of_ok hrun hup
      have hrest : addPeerRoutes d (cidr :: cidrs) w = addPeerRoutes d cidrs v := by
        change ((addRoute cidr d _ >>= fun _ => pure ()) >>= fun _ => addPeerRoutes d cidrs) w = _
        rw [bind_assoc, bind_of_ok hrun]
        rfl
      rw [hrest]
      refine ⟨fun net' hnet' => ?_,ih hv hup' fun cidr' hcidr' => hparse cidr' (List.mem_cons_of_mem cidr hcidr')⟩
      obtain rfl := Option.some.inj (hnet.symm.trans hnet')
      exact keeps_addPeerRoutes (stable_taken net) (fun _ _ => by simp [Cmd.keepsMain]) v htaken

def Peer.Routed (conf : MeshConf) (plan : Plan) (b : Box) (p : Peer) : Prop :=
  ∀ nets, p.allowedIPs.mapM Net.parse = some nets → ∀ cidr ∈ p.allowedIPs.takeWhile (!Box.hostBits ·),
    ∀ net, Net.parse cidr = some net → b.taken net ∧ b.freeOf conf.IFACE plan.keys net

theorem refused_setCmd (hw : Calm w) (hup : w.box.isUp conf.IFACE) (hnets : p.allowedIPs.mapM Net.parse = none) :
    ∃ err, run (p.setCmd conf.IFACE) w = .error err w := by
  have hset := step_setPeer (w.box.peers conf.IFACE) hup p
  rw [withPeers_self hup, hnets] at hset
  obtain ⟨failed,hrefused⟩ := hset
  refine ⟨"Command failed: " ++ failed.err,?_⟩
  unfold run
  rw [bind_of_ok (tryRun_refused hw.quiet hrefused)]
  rfl

theorem keeps_reached (hp : p ∈ plan.peers) (net : Net) (failed : List Failure) :
    Keeps (fun v => v.box.taken net ∧ v.box.freeOf conf.IFACE plan.keys net) (applyPeer conf failed p) := by
  refine keeps_noting (keeps_setPeer ((stable_taken net).both (stable_freeOf conf.IFACE plan.keys net))
    (fun _ _ => ⟨by simp [Cmd.keepsMain],fun key ips endpoint keepalive heq => ?_⟩)
    fun _ _ => ⟨by simp [Cmd.keepsMain],by simp [Cmd.setsIn]⟩) _ _
  obtain rfl : p.publicKey = key := by simp_all
  exact List.mem_map_of_mem hp

theorem applyPeer_turn (hp : p ∈ plan.peers) (hw : Calm w) (hup : w.box.isUp conf.IFACE) (failed : List Failure) :
    ∃ failed' w', applyPeer conf failed p w = .ok failed' w' ∧ (Calm w' ∧ w'.box.isUp conf.IFACE) ∧
      w'.box.peers conf.IFACE = p.setIn (w.box.peers conf.IFACE) ∧ p.Routed conf plan w'.box := by
  obtain ⟨failed',happly⟩ := noting_ok failed p.label
    (setPeer conf.IFACE p.publicKey p.endpoint p.allowedIPs p.keepalive) w
  refine ⟨failed',_,happly,?_⟩
  have hrun : setPeer conf.IFACE p.publicKey p.endpoint p.allowedIPs p.keepalive w =
      (run (p.setCmd conf.IFACE) >>= fun _ => addPeerRoutes conf.IFACE p.allowedIPs) w := rfl
  rw [hrun]
  cases hnets : p.allowedIPs.mapM Net.parse with
  | none =>
    obtain ⟨err,herror⟩ := refused_setCmd hw hup hnets
    rw [bind_of_error herror, final_error]
    refine ⟨⟨hw,hup⟩,by simp only [Peer.setIn, hnets],fun nets h => ?_⟩
    rw [hnets] at h
    cases h
  | some nets =>
    have hset := step_setPeer (w.box.peers conf.IFACE) hup p
    rw [withPeers_self hup, hnets] at hset
    obtain ⟨_,w₁,hrun₁,hw₁,hbox⟩ := takes_run hset w hw rfl
    have hup₁ : w₁.box.isUp conf.IFACE := by
      rw [hbox]
      exact isUp_withPeers hup
    have hpeers : w₁.box.peers conf.IFACE = p.setIn (w.box.peers conf.IFACE) := by
      obtain ⟨link,hlink,-⟩ := id hup
      rw [hbox, Box.peers, Box.peersOn, link_withPeers hlink]
      rfl
    have htaken := addPeerRoutes_taken hw₁ hup₁ (isSome_of_mapM hnets)
    have hkeeps : Keeps (fun v => Calm v ∧ v.box.isUp conf.IFACE) (addPeerRoutes conf.IFACE p.allowedIPs) :=
      keeps_addPeerRoutes ((stable_calm fun _ => True).both (stable_isUp conf.IFACE)) fun _ _ => ⟨trivial,by simp⟩
    have hw₂ := hkeeps w₁ ⟨hw₁,hup₁⟩
    have hsame : (final (addPeerRoutes conf.IFACE p.allowedIPs w₁)).box.peers conf.IFACE = w₁.box.peers conf.IFACE :=
      keeps_addPeerRoutes (stable_peers conf.IFACE (w₁.box.peers conf.IFACE)) (fun _ _ => trivial) w₁ rfl
    rw [bind_of_ok hrun₁]
    refine ⟨hw₂,hsame.trans hpeers,fun nets' hnets' cidr hcidr net hparse => ?_⟩
    have hcidr' : cidr ∈ p.allowedIPs := (List.takeWhile_sublist _).subset hcidr
    have hassign : (final (addPeerRoutes conf.IFACE p.allowedIPs w₁)).box.peers conf.IFACE = assignPeer (w.box.peers conf.IFACE) p.publicKey nets
        (firstTruthy [some p.endpoint]) (if p.keepalive = 0 then none else some p.keepalive) := by
      rw [hsame, hpeers]
      simp only [Peer.setIn, hnets]
    exact ⟨htaken cidr hcidr net hparse,freeOf_wgSetPeer hp hnets hassign ⟨cidr,hcidr',hparse⟩⟩

theorem setPeers_ok (hpeers : ∀ p ∈ peers, p ∈ plan.peers) (hw : Calm w) (hup : w.box.isUp conf.IFACE)
    (failed : List Failure) : ∃ failed' w', peers.foldlM (applyPeer conf) failed w = .ok failed' w' ∧
      (Calm w' ∧ w'.box.isUp conf.IFACE) ∧
      w'.box.peers conf.IFACE = peers.foldl Peer.setIn (w.box.peers conf.IFACE) ∧
      (∀ net, w.box.taken net ∧ w.box.freeOf conf.IFACE plan.keys net →
        w'.box.taken net ∧ w'.box.freeOf conf.IFACE plan.keys net) ∧ ∀ p ∈ peers, p.Routed conf plan w'.box := by
  induction peers generalizing w failed with
  | nil => exact ⟨failed,w,rfl,⟨hw,hup⟩,rfl,fun _ h => h,by simp⟩
  | cons p peers ih =>
    obtain ⟨failed₁,w₁,happly,⟨hw₁,hup₁⟩,hset,hrouted⟩ := applyPeer_turn (hpeers p (by simp)) hw hup failed
    obtain ⟨failed₂,w₂,hrest,hw₂,hset₂,hkept,hall⟩ := ih (fun q hq => hpeers q (by simp [hq])) hw₁ hup₁ failed₁
    refine ⟨failed₂,w₂,?_,hw₂,?_,fun net hnet => ?_,List.forall_mem_cons.mpr ⟨fun nets hnets cidr hcidr net hnet => ?_,hall⟩⟩
    · rw [List.foldlM_cons, bind_of_ok happly, hrest]
    · rw [hset₂, hset, List.foldl_cons]
    · exact hkept net ((keeps_reached (hpeers p (by simp)) net failed).of_ok happly hnet)
    · exact hkept net (hrouted nets hnets cidr hcidr net hnet)

theorem takes_applyPeer (hup : b.isUp conf.IFACE) (hrouted : p.Routed conf plan b) (failed : List Failure) :
    Takes Calm World.box (applyPeer conf failed p) (b.withPeers conf.IFACE ps)
      (b.withPeers conf.IFACE (p.setIn ps)) := by
  have hset := step_setPeer ps hup p
  unfold applyPeer noting
  cases hnets : p.allowedIPs.mapM Net.parse with
  | none =>
    have hsame : p.setIn ps = ps := by simp only [Peer.setIn, hnets]
    have hfails : Fails Calm World.box (run (p.setCmd conf.IFACE)) (b.withPeers conf.IFACE ps) := by
      intro w hw hbox
      obtain ⟨err,herror⟩ := refused_setCmd hw (hbox ▸ isUp_withPeers hup) hnets
      exact ⟨err,w,herror,hw,hbox⟩
    rw [hsame]
    exact (hfails.bind _).caught failed fun err => failed ++ [Failure.mk p.label err]
  | some nets =>
    rw [hnets] at hset
    have hroutes : Leaves Calm World.box (addPeerRoutes conf.IFACE p.allowedIPs)
        (b.withPeers conf.IFACE (p.setIn ps)) (b.withPeers conf.IFACE (p.setIn ps)) := by
      refine leaves_forM (p := (!Box.hostBits ·)) (fun cidr hcidr => ?_) fun cidr hcidr hbits => ?_
      · have hcidr' : cidr ∈ p.allowedIPs := (List.takeWhile_sublist _).subset hcidr
        obtain ⟨net,hnet⟩ := Option.isSome_iff_exists.mp (isSome_of_mapM hnets cidr hcidr')
        have hbits : Box.hostBits cidr = false := by simpa using List.all_eq_true.mp List.all_takeWhile cidr hcidr
        obtain ⟨b',hadd,-,hsame⟩ := takes_addRoute
          ("failed to add kernel route " ++ cidr ++ " via " ++ conf.IFACE ++ ": ") (isUp_withPeers hup) hnet hbits
        obtain rfl := hsame (taken_withPeers.mpr (hrouted nets hnets cidr hcidr net hnet).1)
        exact hadd.bind fun _ => takes_pure _
      · obtain ⟨net,hnet⟩ := Option.isSome_iff_exists.mp (isSome_of_mapM hnets cidr hcidr)
        exact (fails_addRoute _ hnet (by simpa using hbits)).bind _
    have hall : Leaves Calm World.box (setPeer conf.IFACE p.publicKey p.endpoint p.allowedIPs p.keepalive)
        (b.withPeers conf.IFACE ps) (b.withPeers conf.IFACE (p.setIn ps)) :=
      (takes_run hset).leaves_bind fun _ => hroutes
    exact hall.caught failed fun err => failed ++ [Failure.mk p.label err]

theorem takes_setPeers (ps : OrdMap String WgPeer) (hup : b.isUp conf.IFACE)
    (hrouted : ∀ p ∈ peers, p.Routed conf plan b) (failed : List Failure) : Takes Calm World.box (peers.foldlM (applyPeer conf) failed)
      (b.withPeers conf.IFACE ps) (b.withPeers conf.IFACE (peers.foldl Peer.setIn ps)) := by
  induction peers generalizing ps failed with
  | nil => exact takes_pure _
  | cons p peers ih =>
    rw [List.foldlM_cons, List.foldl_cons]
    exact (takes_applyPeer hup (hrouted p (by simp)) failed).bind fun failed' =>
      ih _ (fun q hq => hrouted q (by simp [hq])) failed'

theorem gives_listPeers (hup : b.isUp d) : Gives Calm World.box (listPeers d) b (b.peers d).keys b := by
  obtain ⟨link,hlink,-⟩ := hup
  have hstep : b.step (.wgShowPeers d) = .ok b := by simp only [Box.step, Box.onLink, hlink]
  refine (gives_query hstep).bind ?_
  have hkeys : (Except.ok (((b.links.get? d).map (·.peers.keys)).getD []) :
      Except Failed (List String)).toOption.getD [] = (b.peers d).keys := by
    simp [Except.toOption, Box.peers, Box.peersOn, hlink]
  rw [hkeys]
  exact gives_pure _

structure Peered (conf : MeshConf) (plan : Plan) (b : Box) : Prop where
  again : plan.peers.foldl Peer.setIn (b.peers conf.IFACE) = b.peers conf.IFACE
  only : ∀ key ∈ (b.peers conf.IFACE).keys, key ∈ plan.keys
  routed : ∀ p ∈ plan.peers, p.Routed conf plan b

theorem takes_applyPeers (hup : b.isUp conf.IFACE) (h : Peered conf plan b) :
    Takes Calm World.box (applyPeers conf plan.peers) b b := by
  have hset := takes_setPeers (b.peers conf.IFACE) hup h.routed []
  rw [h.again, withPeers_self hup] at hset
  refine hset.bind fun failed => ?_
  refine (gives_listPeers hup).takes_bind ((takes_forM fun key hkey => ?_).bind fun _ => takes_pure _)
  have hwanted : (!(plan.peers.map Peer.publicKey).contains key) = false := by
    simpa [Plan.keys] using h.only key hkey
  unfold removeUnlisted
  rw [hwanted]
  exact takes_pure _

theorem carries_calm (peers : List Peer) (hw : Calm w) (hup : w.box.isUp conf.IFACE) : Carries conf.IFACE peers
    (fun p => (p.allowedIPs.mapM Net.parse).isNone) (w.box.peers conf.IFACE) w := by
  obtain ⟨link,hlink,-⟩ := hup
  refine ⟨by simp [Box.peers, Box.peersOn, hlink],fun n p _ => ?_,fun n => ?_,fun n key => ?_⟩ <;>
    simp [hw.faults]

theorem applyPeers_peered (plan : Plan) (hw : Calm w) (hup : w.box.isUp conf.IFACE) :
    ∃ failed w', applyPeers conf plan.peers w = .ok failed w' ∧ (Calm w' ∧ w'.box.isUp conf.IFACE) ∧
      Peered conf plan w'.box := by
  obtain ⟨failed,w₁,hset,⟨hw₁,hup₁⟩,hpeers,-,hrouted⟩ :=
    setPeers_ok (fun p (hp : p ∈ plan.peers) => hp) hw hup []
  obtain ⟨w₂,hlist,hw₂,hbox⟩ := gives_listPeers hup₁ w₁ hw₁ rfl
  rw [← hbox] at hrouted hup₁ hlist hpeers
  obtain ⟨w₃,ps,hremove,hcarries,hpruned⟩ := pruned_all plan.keys (carries_calm plan.peers hw₂ hup₁)
  have hcalm : Keeps Calm ((w₂.box.peers conf.IFACE).keys.forM (removeUnlisted conf plan.keys)) :=
    keeps_forM fun _ _ => keeps_removeUnlisted (stable_calm fun _ => True) trivial fun _ => trivial
  have hstill : Keeps (fun v => v.box.isUp conf.IFACE) ((w₂.box.peers conf.IFACE).keys.forM
      (removeUnlisted conf plan.keys)) :=
    keeps_forM fun _ _ => keeps_removeUnlisted (stable_isUp conf.IFACE) (by simp) (by simp)
  have hps : w₃.box.peers conf.IFACE = ps := by rw [Box.peers, hcarries.1, Option.getD_some]
  rw [hpeers] at hpruned
  refine ⟨failed,w₃,?_,⟨hcalm.of_ok hremove hw₂,hstill.of_ok hremove hup₁⟩,?_,fun key hkey => ?_,
    fun p hp nets hnets cidr hcidr net hnet => ?_⟩
  · unfold applyPeers
    rw [bind_of_ok hset, bind_of_ok hlist]
    change ((w₂.box.peers conf.IFACE).keys.forM (removeUnlisted conf plan.keys) >>= _) w₂ = _
    rw [bind_of_ok hremove]
    rfl
  · rw [hps]
    exact setAll_again hpruned
  · exact hpruned.listed key (hps ▸ hkey)
  · have hkeep : Keeps (fun v => v.box.taken net ∧ v.box.freeOf conf.IFACE plan.keys net)
        ((w₂.box.peers conf.IFACE).keys.forM (removeUnlisted conf plan.keys)) :=
      keeps_forM fun key _ => removeUnlisted_keeps (stable_taken net) plan.keys key (by simp [Cmd.keepsMain])
        fun cidr hother => by simpa [Cmd.keepsMain] using hother
    exact hkeep.of_ok hremove (hrouted p hp nets hnets cidr hcidr net hnet)

end Peers

end JumpHost.Mesh
