import JumpHost.Mesh.ExitReport
import JumpHost.Mesh.ExitRouting
import JumpHost.Mesh.ExitRules
import JumpHost.Mesh.Fabric
import JumpHost.Mesh.PeerRoutes
import JumpHost.Mesh.Raised

namespace JumpHost.Mesh

open Effect

section Tunnels

variable {b b' : Box} {d key key' : String} {net : Net} {exit : Exit} {a : Addr} {ips : List String}
  {endpoint : Option String} {keepalive : Option Nat}

theorem holds_set (h : b.step (.wgSetPeer d key ips endpoint keepalive) = .ok b') (hb : b'.holds d key' net) :
    (key' = key ∧ ∃ cidr ∈ ips, Net.parse cidr = some net) ∨
      (b.holds d key' net ∧ ∀ cidr ∈ ips, Net.parse cidr ≠ some net) := by
  obtain ⟨nets,hnets,hpeers⟩ := peers_wgSetPeer h
  obtain ⟨peer,hget,hnet⟩ := hb
  rw [hpeers] at hget
  by_cases hkey : key' = key
  · subst hkey
    have hself : ∃ own, (assignPeer (b.peers d) key' nets endpoint keepalive).get? key' = some own ∧
        own.allowedIPs = nets.dedup := get?_assignPeer_self
    obtain ⟨own,hget',hips⟩ := hself
    obtain rfl := Option.some.inj (hget.symm.trans hget')
    rw [hips, List.mem_dedup] at hnet
    exact .inl ⟨rfl,(mem_mapM hnets net).mp hnet⟩
  · rw [get?_assignPeer_of_ne hkey] at hget
    obtain ⟨old,hold,rfl⟩ := Option.map_eq_some_iff.mp hget
    obtain ⟨hnet,hother⟩ := List.mem_filter.mp hnet
    refine .inr ⟨⟨old,hold,hnet⟩,fun cidr hcidr hparse => ?_⟩
    have hmem := (mem_mapM hnets net).mpr ⟨cidr,hcidr,hparse⟩
    simp [hmem] at hother

def Box.Exclusive (b : Box) (d : String) : Prop := ∀ key key' net, b.holds d key net → b.holds d key' net → key = key'

theorem stable_exclusive (d : String) : Stable (fun w => w.box.Exclusive d) fun _ => True := by
  refine stable_box (I := fun b => b.Exclusive d) fun b c b' _ h hb key key' net hkey hkey' => ?_
  rcases holds_step h hkey with hold | ⟨_,_,_,rfl⟩
  · rcases holds_step h hkey' with hold' | ⟨_,_,_,rfl⟩
    · exact hb key key' net hold hold'
    · rcases holds_set h hkey with ⟨heq,-⟩ | ⟨-,hfree⟩
      · exact heq
      · rcases holds_set h hkey' with ⟨-,cidr,hcidr,hparse⟩ | ⟨hold',-⟩
        · exact absurd hparse (hfree cidr hcidr)
        · exact hb key key' net hold hold'
  · rcases holds_set h hkey' with ⟨heq,-⟩ | ⟨hold',hfree⟩
    · exact heq.symm
    · rcases holds_set h hkey with ⟨-,cidr,hcidr,hparse⟩ | ⟨hold,-⟩
      · exact absurd hparse (hfree cidr hcidr)
      · exact hb key key' net hold hold'

def Tunnels (b : Box) : Prop := ∀ (n : Nat) (key : String) (net : Net), b.holds (ifaceFor (.int n)) key net →
  net = anywhere ∨ net = anywhere6

def Cmd.tunnels (c : Cmd) : Prop := ∀ (n : Nat) (key : String) (ips : List String) (endpoint : Option String)
  (keepalive : Option Nat), c = .wgSetPeer (ifaceFor (.int n)) key ips endpoint keepalive → ips = tunnelIPs

theorem stable_tunnels : Stable (fun w => Tunnels w.box) Cmd.tunnels := by
  refine stable_box (I := Tunnels) fun b c b' hc h hb n key net hkey => ?_
  rcases holds_step h hkey with hold | ⟨ips,_,_,rfl⟩
  · exact hb n key net hold
  · obtain rfl := hc n key ips _ _ rfl
    rcases holds_set h hkey with ⟨-,cidr,hcidr,hparse⟩ | ⟨hold,-⟩
    · simp only [tunnelIPs, List.mem_cons, List.not_mem_nil, or_false] at hcidr
      rcases hcidr with rfl | rfl
      · exact .inl (Option.some.inj (hparse.symm.trans (by decide)))
      · exact .inr (Option.some.inj (hparse.symm.trans (by decide)))
    · exact hb n key net hold

theorem mem_listed {ps : OrdMap String WgPeer} :
    (net,key) ∈ (ps.entries.flatMap fun e => e.2.allowedIPs.map fun net => (net,e.1)) ↔
      ∃ peer, ps.get? key = some peer ∧ net ∈ peer.allowedIPs := by
  simp only [List.mem_flatMap, List.mem_map, Prod.mk.injEq]
  constructor
  · rintro ⟨⟨key,peer⟩,hentry,net,hnet,rfl,rfl⟩
    exact ⟨peer,OrdMap.mem_entries_iff.mp hentry,hnet⟩
  · rintro ⟨peer,hget,hnet⟩
    exact ⟨(key,peer),OrdMap.mem_entries_iff.mpr hget,net,hnet,rfl,rfl⟩

theorem wgRoute_tunnel (hpeered : exit.Peered b) (hexclusive : b.Exclusive exit.iface)
    (htunnels : ∀ key net, b.holds exit.iface key net → net = anywhere ∨ net = anywhere6) (ha : a.family = .v4) :
    wgRoute (b.peers exit.iface) a = some exit.publicKey := by
  obtain ⟨ps,peer,hps,hget,hips⟩ := hpeered
  have hpeers : b.peers exit.iface = ps := by rw [Box.peers, hps]; rfl
  refine Net.longest_eq_some (n := anywhere) (fun net key key' hkey hkey' => ?_) (mem_listed.mpr ⟨peer,?_,?_⟩) ?_
    fun net key hkey hin => ?_
  · exact hexclusive key key' net (mem_listed.mp hkey) (mem_listed.mp hkey')
  · rw [hpeers, hget]
  · rw [hips]
    exact List.mem_cons_self
  · simp [anywhere, Net.contains, ha]
  · rcases htunnels key net (mem_listed.mp hkey) with rfl | rfl <;> exact Nat.le_refl 0

end Tunnels

section Passes

variable {conf : MeshConf} {w w' : World} {plan : ExitPlan} {sites : List SiteDoc} {privateKey : String}

structure Tunnelled (w : World) : Prop where
  tunnels : Tunnels w.box
  exclusive : ∀ n : Nat, w.box.Exclusive (ifaceFor (.int n))

theorem iface_ne_exit (hconf : exitIfaceId conf.IFACE = none) (n : Nat) : ifaceFor (.int n) ≠ conf.IFACE := by
  intro heq
  rw [← heq, exitIfaceId_ifaceFor] at hconf
  cases hconf

theorem tunnels_applyPlan {plan : Plan} (hconf : exitIfaceId conf.IFACE = none) :
    Keeps (fun w => Tunnels w.box) (applyPlan conf plan privateKey) := by
  refine keeps_applyPlan stable_tunnels (fun c hc n key ips endpoint keepalive heq => ?_)
    (fun c hc n key ips endpoint keepalive heq => ?_) (fun pid => ?_) privateKey
  · subst heq
    exact absurd hc (iface_ne_exit hconf n)
  · subst heq
    exact hc.elim
  · exact keeps_probeKernel stable_tunnels nofun nofun

theorem tunnels_applyExits (hplan : plan.AllChosen sites) :
    Keeps (fun w => Tunnels w.box) (applyExits plan privateKey) := by
  refine keeps_applyExits_of stable_tunnels (fun entry hentry => ?_) (fun _ _ => nofun) (fun _ _ _ _ _ _ _ => nofun)
    (fun _ _ => nofun) fun _ _ _ _ => nofun
  refine keeps_bringUpExit_of (stable_tunnels.mono fun c hc n key ips endpoint keepalive heq => ?_)
    fun pid => keeps_probeKernel stable_tunnels nofun nofun
  rw [hc.2 _ _ _ _ _ heq]
  exact (hplan _ _ (OrdMap.mem_entries_iff.mp hentry)).allowedIPs

theorem exclusive_applyPlan {plan : Plan} (d : String) :
    Keeps (fun w => w.box.Exclusive d) (applyPlan conf plan privateKey) :=
  keeps_applyPlan (stable_exclusive d) (fun _ _ => trivial) (fun _ _ => trivial)
    (fun _ => keeps_probeKernel (stable_exclusive d) trivial trivial) privateKey

theorem exclusive_applyExits (d : String) : Keeps (fun w => w.box.Exclusive d) (applyExits plan privateKey) :=
  keeps_applyExits (stable_exclusive d) (fun _ => keeps_probeKernel (stable_exclusive d) trivial trivial)
    (fun _ _ _ _ => trivial) (fun _ _ => trivial) (fun _ _ _ _ _ _ _ => trivial) (fun _ _ => trivial)
    fun _ _ _ _ => trivial

theorem tunnelled_meshPass {pass : MeshPass} {result : ExitsApplied} (hconf : exitIfaceId conf.IFACE = none)
    (h : meshPass conf pass w = .ok result w') (hw : Tunnelled w) : Tunnelled w' := by
  obtain ⟨applied,w₁,hplan,hexits⟩ := bind_ok h
  have hchosen := chosen_planExits pass.clients pass.sites pass.plan.siteId
  refine ⟨(tunnels_applyExits hchosen).of_ok hexits ((tunnels_applyPlan hconf).of_ok hplan hw.tunnels),fun n => ?_⟩
  exact (exclusive_applyExits _).of_ok hexits ((exclusive_applyPlan _).of_ok hplan (hw.exclusive n))

theorem tunnelled_run {passes : List MeshPass} (hconf : exitIfaceId conf.IFACE = none)
    (h : Run.exec (meshStep conf) w passes = some w') (hw : Tunnelled w) : Tunnelled w' := by
  refine Run.invariant_of_mem (fun v pass v' hv _ hstep => ?_) hw h
  unfold meshStep at hstep
  split at hstep
  · next result v₁ hrun =>
    cases hstep
    exact tunnelled_meshPass hconf hrun hv
  · cases hstep

theorem Tunnelled.of_absent (h : ∀ n : Nat, ifaceFor (.int n) ∉ w.box.links.keys) : Tunnelled w := by
  have hnone : ∀ n : Nat, ∀ key net, ¬ w.box.holds (ifaceFor (.int n)) key net := by
    rintro n key net ⟨peer,hget,-⟩
    have habsent : w.box.links.get? (ifaceFor (.int n)) = none := OrdMap.get?_eq_none_iff.mpr (h n)
    rw [Box.peers, Box.peersOn, habsent] at hget
    cases hget
  exact ⟨fun n key net hkey => absurd hkey (hnone n key net),
    fun n key key' net hkey => absurd hkey (hnone n key net)⟩

theorem meshPeers_applyExits (hconf : exitIfaceId conf.IFACE = none) (hplan : plan.Formed sites)
    (hsites : SiteIds sites) (ps : OrdMap String WgPeer) :
    Keeps (fun w => w.box.peers conf.IFACE = ps) (applyExits plan privateKey) := by
  refine keeps_applyExits (stable_peers conf.IFACE ps) (fun pid => keeps_probeKernel_peers _ _ _)
    (fun entry hentry c hc => ?_) (fun _ _ => trivial) (fun _ _ _ _ _ _ _ => trivial) (fun _ _ => trivial)
    fun name n hname _ heq => ?_
  · obtain ⟨n,-,-,-,hiface,-⟩ := exit_at hplan hsites (OrdMap.mem_entries_iff.mp hentry)
    have hne : entry.2.iface ≠ conf.IFACE := hiface ▸ iface_ne_exit hconf n
    cases c <;> simp_all [Cmd.ofExit, Cmd.sparesPeers]
  · rw [heq, hconf] at hname
    cases hname

end Passes

section Key

variable {plan : ExitPlan} {sites : List SiteDoc} {exitKey : String} {w w' : World} {result : ExitsApplied}
  {exit : Exit} {id : Num}

def Exit.Signs (exit : Exit) (exitKey : String) (b : Box) : Prop :=
  b.linked exit.iface fun link => link.privateKey = some exitKey

theorem signs_view {b b' : Box} (h : exit.view b' = exit.view b) : exit.Signs exitKey b' ↔ exit.Signs exitKey b := by
  have hlink : b'.links.get? exit.iface = b.links.get? exit.iface := congrArg Prod.fst h
  rw [Exit.Signs, Exit.Signs, Box.linked, Box.linked, hlink]

theorem stable_signs : Stable (fun w => exit.Signs exitKey w.box) (Cmd.keepsKey exit.iface) := by
  refine stable_linked (fun hdel => hdel.1 rfl) fun c link link' hc hedit hkey => ?_
  cases hedit with
  | key key port heq => exact absurd heq (hc.2 key port)
  | up | addrAdd | addrDel | setPeer | removePeer => exact hkey

theorem signs_bringUpExit (h : bringUpExit exitKey exit w = .ok () w') : exit.Signs exitKey w'.box := by
  obtain ⟨v,hprepare,hsteer⟩ := bringUpExit_ok h
  obtain ⟨_,w₁,-,h⟩ := bind_ok hprepare
  obtain ⟨_,w₂,hkey,h⟩ := bind_ok h
  obtain ⟨_,w₃,haddr,hpeer⟩ := bind_ok h
  have hstable : Stable (fun u => exit.Signs exitKey u.box) (Cmd.keepsKey exit.iface) := stable_signs
  have hset : exit.Signs exitKey w₂.box := by
    obtain ⟨link,-,hb⟩ := onLink_ok (run_ok hkey)
    injection hb with hb
    exact ⟨_,by rw [← hb, OrdMap.get?_set_self],rfl⟩
  have haddressed : exit.Signs exitKey w₃.box :=
    (keeps_setAddresses hstable (fun _ _ => ⟨nofun,nofun⟩) (fun _ _ => ⟨nofun,nofun⟩) ⟨nofun,nofun⟩).of_ok haddr hset
  have hpeered : exit.Signs exitKey v.box :=
    Keeps.of_ok (keeps_run hstable (c := .wgSetPeer _ _ _ _ _) ⟨nofun,nofun⟩) hpeer haddressed
  have hsteers : Keeps (fun u => exit.Signs exitKey u.box) (steerExit exit) := by
    refine keeps_bind (keeps_tryRun hstable ⟨nofun,nofun⟩) fun _ => keeps_bind ?_ fun _ => keeps_pure _
    exact keeps_applySysctls hstable (fun _ _ => ⟨nofun,nofun⟩) (fun _ _ => ⟨nofun,nofun⟩) _
  exact hsteers.of_ok hsteer hpeered

theorem signs_applyExits (hplan : plan.Formed sites) (hchosen : plan.AllChosen sites) (hw : Quiet w)
    (h : applyExits plan exitKey w = .ok result w') (hnone : result.failed = [])
    (hexit : plan.exits.get? id = some exit) : exit.Signs exitKey w'.box := by
  obtain ⟨done,w₁,w₂,found,w₃,-,hup,hrules,hfound,hremove⟩ := applyExits_ok h
  have hkept : ∀ exit ∈ plan.exits.entries.map Prod.snd, ∀ other ∈ plan.exits.entries.map Prod.snd, other ≠ exit →
      ∀ done, Keeps (fun v => exit.Signs exitKey v.box) (applyExit exitKey done other) := by
    intro exit hmem other hmem' hne done
    obtain ⟨id,hget⟩ := mem_exits.mp hmem
    have hiface : other.iface ≠ exit.iface := fun heq =>
      hne (List.inj_on_of_nodup_map (exit_ifaces hplan) hmem' hmem heq)
    refine keeps_applyExit (stable_signs.mono fun c hc => ?_) (fun pid => ?_) done
    · cases c <;> simp_all [Cmd.ofExit, Cmd.keepsKey]
    · refine keeps_probeKernel stable_signs ⟨by simp,by simp⟩ ⟨fun heq => ?_,by simp⟩
      exact iface_ne_probe hchosen hget pid (Cmd.linkDel.inj heq).symm
  obtain ⟨done',w₁',hrun,-,hsigned⟩ := applyExits_each exitKey (fun exit b => exit.Signs exitKey b)
    (fun exit _ v v' _ hok => signs_bringUpExit hok) hkept hw
  rw [hup] at hrun
  cases hrun
  have hnone' := (applyRules_tables hrules hnone).1
  refine (signs_view (view_afterwards hplan hchosen hexit hrules hfound hremove)).mpr ?_
  exact hsigned hnone' exit (mem_exits.mpr ⟨id,hexit⟩)

end Key

section Devices

variable {peersDoc : PeersDoc} {clientsDoc : Option ClientsDoc} {id : PeerDoc → Value} {hub : PeerDoc → Bool}
  {client client' : ClientDoc} {siteId : Value} {ip ip' : String} {net : Net} {a : Addr}

theorem inMesh_of_pooled (hpool : Pooled siteId ip) (ha : Net.parse (ip ++ "/32") = some (Net.host a)) : InMesh a := by
  obtain ⟨n,c,d,-,-,hparse,hoctets⟩ := pooled_block hpool
  have hnet : Net.block [10,n,c,d] = Net.host a := Option.some.inj (hparse.symm.trans ha)
  have hin : (Net.block [10,n,c,d]).contains a = true := by
    rw [hnet]
    exact Net.contains_host.mpr rfl
  have hv4 : a.family = .v4 := (eq_of_beq (Bool.and_eq_true_iff.mp hin).1).symm
  obtain ⟨w,x,y,z,haddr,rfl⟩ := Addr.eq_quad hv4
  refine ⟨"10.0.0.0/8",by simp [hubAllowedIps],_,parse_hub.1,(contains_block (by simp) (by simp) haddr).mpr ?_⟩
  exact List.IsPrefix.trans ⟨[n,c,d],rfl⟩ ((contains_block (by simp) hoctets haddr).mp hin)

theorem source_client (h : Net.parse client.rule.source = some net) :
    ∃ ip, firstTruthy [client.assignedIp] = some ip ∧ client.rule.source = ip ++ "/32" := by
  cases hip : client.assignedIp with
  | none =>
    have hnone : Net.parse (shown none ++ "/32") = none := by decide
    rw [ClientDoc.rule, hip, hnone] at h
    cases h
  | some ip =>
    by_cases hempty : ip = ""
    · subst hempty
      have hnone : Net.parse (shown (some "") ++ "/32") = none := by decide
      rw [ClientDoc.rule, hip, hnone] at h
      cases h
    · exact ⟨ip,by simp [firstTruthy, truthy, hempty],by rw [ClientDoc.rule, hip]; rfl⟩

theorem client_of_address (hscheme : Scheme peersDoc clientsDoc id hub) (hclient : client ∈ clientsOf clientsDoc)
    (hclient' : client' ∈ clientsOf clientsDoc) (hip : firstTruthy [client.assignedIp] = some ip)
    (hip' : firstTruthy [client'.assignedIp] = some ip')
    (hsame : Net.parse (ip ++ "/32") = Net.parse (ip' ++ "/32")) : client = client' := by
  obtain ⟨n,c,d,-,htext,hparse,hoctets⟩ := pooled_block (hscheme.devices client hclient ip hip)
  obtain ⟨n',c',d',-,htext',hparse',hoctets'⟩ := pooled_block (hscheme.devices client' hclient' ip' hip')
  have hnet := Option.some.inj (hparse.symm.trans (hsame.trans hparse'))
  obtain rfl := device_inj htext htext' hoctets hoctets' hnet
  by_contra hne
  have hsymm : Std.Symm fun client client' : ClientDoc => ∀ ip, firstTruthy [client.assignedIp] = some ip →
      firstTruthy [client'.assignedIp] ≠ some ip := ⟨fun _ _ h ip hip hip' => h ip hip' hip⟩
  exact hscheme.devicesDistinct.forall hclient hclient' hne ip hip hip'

end Devices

section RoundTrip

structure Leaving where
  gateway : Gateway
  sites : List SiteDoc
  exitKey : String
  start : World
  passes : List MeshPass
  result : ExitsApplied
  after : World

def Leaving.pass (l : Leaving) : MeshPass :=
  ⟨l.gateway.plan,l.gateway.privateKey,l.exitKey,clientsOf l.gateway.clientsDoc,l.sites⟩

structure Leaving.Passed (l : Leaving) : Prop where
  gateway : l.gateway.Passed
  iface : exitIfaceId l.gateway.conf.IFACE = none
  calm : Calm l.start
  unrouted : Unrouted l.start.box
  absent : ∀ n : Nat, ifaceFor (.int n) ∉ l.start.box.links.keys
  history : ∀ pass ∈ l.passes, SiteIds pass.sites
  roster : SiteIds l.sites
  run : Run.exec (meshStep l.gateway.conf) l.start l.passes = some l.gateway.before
  applied : applyExits l.pass.exits l.exitKey l.gateway.after = .ok l.result l.after
  clean : l.result.failed = []

structure Through (pub : String → String) (l : Leaving) (far : Gateway) (client : ClientDoc) (n : Nat)
    (key farKey : String) (a : Addr) : Prop where
  listed : client ∈ clientsOf l.gateway.clientsDoc
  key : firstTruthy [client.publicKey] = some key
  address : ∃ ip, firstTruthy [client.assignedIp] = some ip ∧ Net.parse (ip ++ "/32") = some (Net.host a) ∧
    ∃ peer ∈ far.peersDoc.exitPeers.getD [], ∃ ips, peer.keyed = some (pub l.exitKey,ips) ∧ ip ++ "/32" ∈ ips
  routed : choice l.sites l.gateway.plan.siteId client = .routed
  exit : client.exitSiteId.number = .int n
  published : ∃ site, siteById l.sites (.int n) = some site ∧ site.gatewayPublicKey = some farKey

structure OutAndBack (pub : String → String) (l : Leaving) (far : Gateway) (n : Nat) (key farKey : String)
    (p : Packet) : Prop where
  device : wgRoute (l.after.box.peers l.gateway.conf.IFACE) p.src = some key
  steered : l.after.box.lookup p = some (ifaceFor (.int n))
  tunnel : wgRoute (l.after.box.peers (ifaceFor (.int n))) p.dst = some farKey
  signed : l.after.box.linked (ifaceFor (.int n)) fun link => link.privateKey = some l.exitKey
  accepted : far.choose p.src = some (pub l.exitKey)

variable {pub : String → String} {l : Leaving} {far : Gateway} {client : ClientDoc} {n : Nat} {key farKey : String}
  {a : Addr} {p : Packet}

theorem Leaving.Passed.meshPass (h : l.Passed) :
    meshPass l.gateway.conf l.pass l.gateway.before = .ok l.result l.after := by
  have hplan : applyPlan l.gateway.conf l.pass.plan l.pass.privateKey l.gateway.before =
      .ok l.gateway.applied l.gateway.after := h.gateway.passed
  unfold JumpHost.Mesh.meshPass
  rw [bind_of_ok hplan]
  exact h.applied

theorem Leaving.Passed.peers (h : l.Passed) :
    l.after.box.peers l.gateway.conf.IFACE = l.gateway.after.box.peers l.gateway.conf.IFACE :=
  (meshPeers_applyExits h.iface (formed_planExits _ _ _) h.roster _).of_ok h.applied rfl

theorem out_and_back (h : l.Passed) (hfar : far.Passed) (hthrough : Through pub l far client n key farKey p.src)
    (hlocal : l.after.box.NonLocal p.dst) : OutAndBack pub l far n key farKey p := by
  obtain ⟨ip,hip,ha,peer,hpeer,ips,hkeyed,hlisted⟩ := hthrough.address
  have hscheme := h.gateway.scheme
  have hmesh := inMesh_of_pooled (hscheme.devices client hthrough.listed ip hip) ha
  obtain ⟨hv4,-⟩ := inMesh_cases hmesh
  have hplan : l.pass.exits.Formed l.sites := formed_planExits _ _ _
  have hchosen : l.pass.exits.AllChosen l.sites := chosen_planExits _ _ _
  have hbefore : Managed l.gateway.before := managed_run h.history h.run (h.unrouted.managed h.calm)
  obtain ⟨hafter,hsteered⟩ := managed_meshPass h.roster h.meshPass hbefore
  have htunnelled : Tunnelled l.after :=
    tunnelled_meshPass h.iface h.meshPass (tunnelled_run h.iface h.run (.of_absent h.absent))
  have hquiet : Quiet l.gateway.after := (managed_applyPlan h.gateway.passed hbefore).calm.quiet
  have hrule : client.rule ∈ l.pass.exits.rules := mem_rules.mpr ⟨client,hthrough.listed,hthrough.routed,rfl⟩
  obtain ⟨site,hsite,hpublic⟩ := hthrough.published
  have hexit : l.pass.exits.exits.get? (.int n) = some (exitAt l.sites (.int n)) :=
    ((gathers_planExits _ _ _).exits _ _).mpr ⟨rfl,client,hthrough.listed,hthrough.routed,hthrough.exit⟩
  have hfarKey : (exitAt l.sites (.int n)).publicKey = farKey := by simp [exitAt, hsite, hpublic]
  have hsource : Net.parse client.rule.source = some (Net.host p.src) := by
    rw [ClientDoc.rule, (firstTruthy_one.mp hip).2]
    exact ha
  obtain ⟨first,hfirst,k,hat,hsame,hlookup,-⟩ := lookup_exit hplan h.roster hafter.ruled hafter.banded
    (hsteered h.clean) hafter.onlyExits hrule hsource hlocal
  have hk : k = n := by
    obtain ⟨client',hclient',-,rfl⟩ := mem_rules.mp hfirst
    obtain ⟨ip',hip',hshown⟩ := source_client hsame
    rw [hshown] at hsame
    obtain rfl := client_of_address hscheme hthrough.listed hclient' hip hip' (ha.trans hsame.symm)
    exact Int.ofNat.inj (Num.int.inj (hat.site.symm.trans hthrough.exit))
  subst hk
  refine ⟨?device,hlookup,?tunnel,?signed,?accepted⟩
  case device =>
    obtain ⟨q,hq,hkey,hips⟩ : ∃ q, clientPeer client = some q ∧ q.publicKey = key ∧ q.allowedIPs = [ip ++ "/32"] :=
      ⟨_,by rw [clientPeer, hthrough.key, hip],rfl,rfl⟩
    have hmem : q ∈ PlannedPeers l.gateway.peersDoc l.gateway.clientsDoc :=
      List.mem_append_right _ (List.mem_filterMap.mpr ⟨client,hthrough.listed,hq⟩)
    have hhost : q.hasHost p.src = true := hasHost_of_mem (by rw [hips]; exact List.mem_cons_self) ha
    have hchoose := h.gateway.choose_eq hmesh
    rw [route_host hscheme (.refl _) hmem hv4 hhost, Option.map_some, hkey] at hchoose
    rw [h.peers]
    exact hchoose
  case tunnel =>
    have hpeered := peered_applyExits hchosen hquiet h.applied h.clean _ _ hexit
    have hdst : p.dst.family = .v4 := p.same.symm.trans hv4
    have hroute := wgRoute_tunnel hpeered (htunnelled.exclusive k) (htunnelled.tunnels k) hdst
    rw [hfarKey] at hroute
    exact hroute
  case signed => exact signs_applyExits hplan hchosen hquiet h.applied h.clean hexit
  case accepted =>
    obtain ⟨q,hq,hkey,hips⟩ : ∃ q, exitPeer peer = some q ∧ q.publicKey = pub l.exitKey ∧ q.allowedIPs = ips :=
      ⟨_,by rw [exitPeer, hkeyed]; rfl,rfl,rfl⟩
    have hmem : q ∈ PlannedPeers far.peersDoc far.clientsDoc :=
      List.mem_append_left _ (List.mem_append_right _ (List.mem_filterMap.mpr ⟨peer,hpeer,hq⟩))
    have hhost : q.hasHost p.src = true := hasHost_of_mem (hips ▸ hlisted) ha
    rw [hfar.choose_eq hmesh, route_host hfar.scheme (.refl _) hmem hv4 hhost, Option.map_some, hkey]

def traveller : ClientDoc := { publicKey := some "phone", assignedIp := some "10.2.128.5", exitSiteId := .ofInt 1 }

def phoneDoc : ClientsDoc where
  clients := some [traveller]

def branchDoc : PeersDoc where
  localSiteId := .ofInt 2
  peers := some [mainSite]

def mainDoc : PeersDoc where
  localSiteId := .ofInt 1
  exitPeers := some [{ siteId := .ofInt 2, publicKey := some "exit key!", allowedIps := some ["10.2.128.5/32"] }]

def mainOffer : SiteDoc := { siteId := .ofInt 1, gatewayPublicKey := some "one", gatewayEndpoint := some "one:51820" }

theorem phone_pooled : Pooled (.ofInt 2) "10.2.128.5" :=
  pooled_of_quad (n := 2) (c := 128) (d := 5) rfl (by decide) (by decide +kernel) (by decide +kernel)

theorem branch_scheme : Scheme branchDoc (some phoneDoc) PeerDoc.siteId PeerDoc.isMain where
  sites := by
    intro peer hpeer
    obtain rfl := List.mem_singleton.mp hpeer
    exact mainSite_lists
  remote := by decide
  distinct := by decide
  oneHub := by decide
  exits := nofun
  exitsDistinct := List.Pairwise.nil
  devices := by
    intro client hclient ip hip
    obtain rfl := List.mem_singleton.mp hclient
    obtain rfl : "10.2.128.5" = ip := Option.some.inj hip
    exact phone_pooled
  devicesDistinct := List.pairwise_singleton _ _

theorem main_scheme : Scheme mainDoc none PeerDoc.siteId PeerDoc.isMain where
  sites := nofun
  remote := nofun
  distinct := List.Pairwise.nil
  oneHub := List.Pairwise.nil
  exits := by
    intro peer hpeer ips hips cidr hcidr
    obtain rfl := List.mem_singleton.mp hpeer
    obtain rfl := Option.some.inj hips
    obtain rfl := List.mem_singleton.mp hcidr
    exact ⟨.ofInt 2,"10.2.128.5",by decide,phone_pooled,rfl⟩
  exitsDistinct := List.pairwise_singleton _ _
  devices := nofun
  devicesDistinct := List.Pairwise.nil

def phoneToInternet : Packet := ⟨Addr.quad 10 2 128 5,Addr.quad 8 8 8 8,rfl⟩

theorem out_and_back_phone : ∃ l far, l.gateway.peersDoc = branchDoc ∧ far.peersDoc = mainDoc ∧
    OutAndBack (· ++ "!") l far 1 "phone" "one" phoneToInternet := by
  obtain ⟨plan,hplan,hkeys,hrouted,hok⟩ : ∃ plan,
      planReconcile wgMesh (some branchDoc) (some phoneDoc) none = .ok (.ready plan) ∧
      (plan.peers.map Peer.publicKey).Nodup ∧ choice [mainOffer] plan.siteId traveller = .routed ∧
      okWith (meshPass wgMesh ⟨plan,"key","exit key",clientsOf (some phoneDoc),[mainOffer]⟩ booted) (fun result w =>
        decide (result.failed = [] ∧ w.box.NonLocal phoneToInternet.dst)) = true :=
    ⟨_,rfl,by decide,by decide,by decide +kernel⟩
  obtain ⟨farPlan,hfarPlan,hfarKeys,hfar⟩ : ∃ plan, planReconcile wgMesh (some mainDoc) none none = .ok (.ready plan) ∧
      (plan.peers.map Peer.publicKey).Nodup ∧ okWith (applyPlan wgMesh plan "key" bare) (fun _ _ => true) = true :=
    ⟨_,rfl,by decide,by decide +kernel⟩
  obtain ⟨result,w,hpass,hrest⟩ := exists_of_okWith hok
  obtain ⟨hclean,hlocal⟩ := of_decide_eq_true hrest
  obtain ⟨applied,v,happly,hexits⟩ := bind_ok hpass
  obtain ⟨done,farWorld,hdone,-⟩ := exists_of_okWith hfar
  let near : Gateway :=
    ⟨wgMesh,branchDoc,some phoneDoc,none,PeerDoc.siteId,PeerDoc.isMain,plan,"key",booted,applied,v⟩
  let far : Gateway := ⟨wgMesh,mainDoc,none,none,PeerDoc.siteId,PeerDoc.isMain,farPlan,"key",bare,done,farWorld⟩
  let l : Leaving := ⟨near,[mainOffer],"exit key",booted,[],result,w⟩
  have hiface : exitIfaceId wgMesh.IFACE = none := rfl
  have hl : l.Passed := by
    refine ⟨⟨branch_scheme,hplan,hkeys,booted_calm,happly⟩,?_,booted_calm,booted_unrouted,?_,nofun,?_,rfl,hexits,hclean⟩
    · exact hiface
    · exact fun n => List.not_mem_nil
    · intro site hsite
      obtain rfl := List.mem_singleton.mp hsite
      exact ⟨1,rfl⟩
  have hthrough : Through (· ++ "!") l far traveller 1 "phone" "one" phoneToInternet.src := by
    refine ⟨List.mem_singleton_self _,rfl,?_,hrouted,rfl,mainOffer,rfl,rfl⟩
    exact ⟨"10.2.128.5",rfl,by decide +kernel,_,List.mem_singleton_self _,_,rfl,List.mem_singleton_self _⟩
  exact ⟨l,far,rfl,rfl,out_and_back hl ⟨main_scheme,hfarPlan,hfarKeys,bare_calm,hdone⟩ hthrough hlocal⟩

end RoundTrip

end JumpHost.Mesh
