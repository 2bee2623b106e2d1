import JumpHost.Mesh.Calm
import JumpHost.Mesh.Crypto
import JumpHost.Mesh.Netmaps

namespace JumpHost.Mesh

open Effect

section Site

variable {peersDoc : PeersDoc} {clientsDoc : Option ClientsDoc} {id : PeerDoc → Value} {hub : PeerDoc → Bool}
  {p : Peer} {peer : PeerDoc} {a : Addr} {n m : Nat} {ns : List Nat}

def InSite (n : Nat) (a : Addr) : Prop :=
  (Net.block [172,24,0,n]).contains a = true ∨ (Net.block [10,n]).contains a = true

def PeersDoc.Exiting (d : PeersDoc) (a : Addr) : Prop :=
  ∃ peer ∈ d.exitPeers.getD [], ∃ ips, peer.allowedIps = some ips ∧ ∃ cidr ∈ ips, Net.parse cidr = some (Net.host a)

theorem inSite_prefix (hn : n < 256) (h : InSite n a) : ∃ w x y z, Octets w x y z ∧ a = .quad w x y z ∧
    ([172,24,0,n] = [w,x,y,z] ∨ [10,n] <+: [w,x,y,z]) := by
  have hv4 : a.family = .v4 := by
    rcases h with h | h <;> exact (eq_of_beq (Bool.and_eq_true_iff.mp h).1).symm
  obtain ⟨w,x,y,z,haddr,rfl⟩ := Addr.eq_quad hv4
  refine ⟨w,x,y,z,haddr,rfl,h.imp (fun h => ?_) fun h => ?_⟩
  · exact ((contains_block (by simp) (by simp; omega) haddr).mp h).eq_of_length rfl
  · exact (contains_block (by simp) (by simp; omega) haddr).mp h

theorem inMesh_of_inSite (hn : n < 256) (h : InSite n a) : InMesh a := by
  obtain ⟨w,x,y,z,haddr,rfl,heq | hten⟩ := inSite_prefix hn h
  · refine ⟨"172.24.0.0/16",by simp [hubAllowedIps],_,parse_hub.2,?_⟩
    exact (contains_block (by simp) (by simp) haddr).mpr (heq ▸ ⟨[0,n],rfl⟩)
  · refine ⟨"10.0.0.0/8",by simp [hubAllowedIps],_,parse_hub.1,?_⟩
    exact (contains_block (by simp) (by simp) haddr).mpr (List.IsPrefix.trans ⟨[n],rfl⟩ hten)

theorem inSite_block (hn : n < 256) (h : InSite n a) (hblock : SiteBlock (.int m) false ns)
    (hoctets : ∀ k ∈ ns, k < 256) (hin : (Net.block ns).contains a = true) : m = n := by
  obtain ⟨w,x,y,z,haddr,rfl,hstart⟩ := inSite_prefix hn h
  have hprefix := (contains_block hblock.short hoctets haddr).mp hin
  cases hblock with
  | gateway k hk =>
    obtain rfl : m = k := Int.ofNat.inj (Num.int.inj hk)
    obtain heq := hprefix.eq_of_length rfl
    rcases hstart with hsame | ⟨_,hten⟩
    · have hboth := heq.trans hsame.symm
      simp only [List.cons.injEq, and_true, true_and] at hboth
      exact hboth
    · rw [← heq] at hten
      cases hten
  | network k hk =>
    obtain rfl : m = k := Int.ofNat.inj (Num.int.inj hk)
    obtain ⟨_,hnet⟩ := hprefix
    rcases hstart with hsame | ⟨_,hten⟩
    · rw [← hsame] at hnet
      cases hnet
    · have hboth := hnet.trans hten.symm
      simp only [List.cons_append, List.nil_append, List.cons.injEq, true_and] at hboth
      exact hboth.1
  | ten hhub => cases hhub
  | services hhub => cases hhub

end Site

section Choice

variable {peersDoc : PeersDoc} {clientsDoc : Option ClientsDoc} {id : PeerDoc → Value} {hub : PeerDoc → Bool}
  {p q : Peer} {peer : PeerDoc} {a : Addr} {n : Nat}

theorem not_exitClient (hexit : ¬ peersDoc.Exiting a) (hq : q ∈ PlannedPeers peersDoc clientsDoc) :
    ¬ q.isExitClient a = true := by
  intro h
  obtain ⟨hkind,-⟩ := Bool.and_eq_true_iff.mp h
  obtain ⟨cidr,hcidr,hparse⟩ := hasHost_bits (hasHost_of_exitClient h)
  rcases mem_planned hq with ⟨peer,-,hsite⟩ | ⟨peer,hpeer,hexit'⟩ | ⟨client,-,hclient⟩
  · rw [(sitePeer_ips hsite).1] at hkind
    cases hkind
  · exact hexit ⟨peer,hpeer,_,(exitPeer_ips hexit').2,cidr,hcidr,hparse⟩
  · rw [(clientPeer_ips hclient).1] at hkind
    cases hkind

theorem not_device (hscheme : Scheme peersDoc clientsDoc id hub) (hn : n < 256) (ha : InSite n a)
    (hlocal : peersDoc.localSiteId.number ≠ .int n) (hq : q ∈ PlannedPeers peersDoc clientsDoc) :
    ¬ q.isDevice a = true := by
  intro h
  obtain ⟨hkind,-⟩ := Bool.and_eq_true_iff.mp h
  obtain ⟨cidr,hcidr,hparse⟩ := hasHost_bits (hasHost_of_device h)
  rcases mem_planned hq with ⟨peer,-,hsite⟩ | ⟨peer,-,hexit⟩ | ⟨client,hclient,hdevice⟩
  · rw [(sitePeer_ips hsite).1] at hkind
    cases hkind
  · rw [(exitPeer_ips hexit).1] at hkind
    cases hkind
  · obtain ⟨ip,m,c,d,-,hips,hblock,hoctets,hnumber,-⟩ := device_block hscheme hclient hdevice
    rw [hips] at hcidr
    obtain rfl := List.mem_singleton.mp hcidr
    have hnet : Net.block [10,m,c,d] = Net.host a := Option.some.inj (hblock.symm.trans hparse)
    have hin : (Net.block [10,m,c,d]).contains a = true := by
      rw [hnet]
      exact Net.contains_host.mpr rfl
    obtain ⟨w,x,y,z,haddr,rfl,hstart⟩ := inSite_prefix hn ha
    have heq := ((contains_block (by simp) hoctets haddr).mp hin).eq_of_length rfl
    rcases hstart with hsame | ⟨_,hten⟩
    · rw [← heq] at hsame
      cases hsame
    · rw [← heq] at hten
      obtain rfl : n = m := (List.cons.inj (List.cons.inj hten).2).1
      exact hlocal hnumber

theorem route_listed (hscheme : Scheme peersDoc clientsDoc id hub) (hn : n < 256) (ha : InSite n a)
    (hlocal : peersDoc.localSiteId.number ≠ .int n) (hexit : ¬ peersDoc.Exiting a)
    (hpeer : peer ∈ peersDoc.peers.getD []) (hid : (id peer).number = .int n) (hp : sitePeer peer = some p) :
    cryptoRoute (PlannedPeers peersDoc clientsDoc) a = some p := by
  obtain ⟨hv4,-⟩ := inMesh_cases (inMesh_of_inSite hn ha)
  have hmem : p ∈ PlannedPeers peersDoc clientsDoc :=
    List.mem_append_left _ (List.mem_append_left _ (List.mem_filterMap.mpr ⟨peer,hpeer,hp⟩))
  refine route_site hscheme (.refl _) hv4 (fun q hq => not_device hscheme hn ha hlocal hq)
    (fun q hq => not_exitClient hexit hq) hmem ?_
  obtain ⟨own,ips,hown,hips,hlists⟩ := hscheme.sites peer hpeer
  obtain ⟨m,hm,hnumber,rfl⟩ := peerAllowedIps_ok hown
  obtain rfl : m = n := Int.ofNat.inj (Num.int.inj (hnumber.symm.trans hid))
  obtain rfl := Option.some.inj (hips.symm.trans (sitePeer_ips hp).2)
  rcases ha with hin | hin
  · refine hasSite_of_mem ((hlists _).mpr (.inl List.mem_cons_self)) (fun hhub => ?_) (parse_gateway hm) hin
    exact absurd (hub_octets hhub (parse_gateway hm) (by simp) (by simp; omega)) (by simp)
  · refine hasSite_of_mem ((hlists _).mpr (.inl (List.mem_cons_of_mem _ List.mem_cons_self))) (fun hhub => ?_)
      (parse_site hm) hin
    exact absurd (hub_octets hhub (parse_site hm) (by simp) (by simp; omega)) (by simp)

theorem route_unlisted (hscheme : Scheme peersDoc clientsDoc id hub) (hn : n < 256) (ha : InSite n a)
    (hlocal : peersDoc.localSiteId.number ≠ .int n) (hexit : ¬ peersDoc.Exiting a)
    (hnone : ∀ peer ∈ peersDoc.peers.getD [], (id peer).number ≠ .int n) (hpeer : peer ∈ peersDoc.peers.getD [])
    (hhub : hub peer = true) (hp : sitePeer peer = some p) :
    cryptoRoute (PlannedPeers peersDoc clientsDoc) a = some p := by
  obtain ⟨hv4,hmesh⟩ := inMesh_cases (inMesh_of_inSite hn ha)
  have hmem : p ∈ PlannedPeers peersDoc clientsDoc :=
    List.mem_append_left _ (List.mem_append_left _ (List.mem_filterMap.mpr ⟨peer,hpeer,hp⟩))
  have hnosite : ∀ q ∈ PlannedPeers peersDoc clientsDoc, ¬ q.isSite a = true := by
    intro q hq h
    obtain ⟨hkind,-⟩ := Bool.and_eq_true_iff.mp h
    obtain ⟨cidr,hcidr,hother,net,hparse,hin⟩ := hasSite_bits (hasSite_of_site h)
    rcases mem_planned hq with ⟨peer',hpeer',hsite⟩ | ⟨peer',-,hexit'⟩ | ⟨client,-,hclient⟩
    · obtain ⟨ns,hblock,hoctets,hsiteBlock,htext⟩ := site_block hscheme hpeer' hsite hcidr
      obtain rfl := Option.some.inj (hblock.symm.trans hparse)
      cases hsiteBlock with
      | gateway m hm =>
        refine hnone peer' hpeer' (hm.trans ?_)
        rw [inSite_block hn ha (.gateway m rfl) hoctets hin]
      | network m hm =>
        refine hnone peer' hpeer' (hm.trans ?_)
        rw [inSite_block hn ha (.network m rfl) hoctets hin]
      | ten _ => exact hother (htext (.inl rfl))
      | services _ => exact hother (htext (.inr rfl))
    · rw [(exitPeer_ips hexit').1] at hkind
      cases hkind
    · rw [(clientPeer_ips hclient).1] at hkind
      cases hkind
  refine route_hub hscheme (.refl _) hv4 hmesh (fun q hq cidr hcidr m hparse hm => ?_) hmem
    (isHub_of_hub hscheme hpeer hp hhub)
  exact ((claim_cases hscheme hq hcidr hparse hm hv4).of_unanswered (not_device hscheme hn ha hlocal hq)
    (not_exitClient hexit hq) (hnosite q hq)).2

end Choice

section Fabric

structure Gateway where
  conf : MeshConf
  peersDoc : PeersDoc
  clientsDoc : Option ClientsDoc
  site : Option SiteDoc
  id : PeerDoc → Value
  hub : PeerDoc → Bool
  plan : Plan
  privateKey : String
  before : World
  applied : Applied
  after : World

structure Gateway.Passed (g : Gateway) : Prop where
  scheme : Scheme g.peersDoc g.clientsDoc g.id g.hub
  planned : planReconcile g.conf (some g.peersDoc) g.clientsDoc g.site = .ok (.ready g.plan)
  keys : (g.plan.peers.map Peer.publicKey).Nodup
  calm : Calm g.before
  passed : applyPlan g.conf g.plan g.privateKey g.before = .ok g.applied g.after

def Gateway.choose (g : Gateway) (a : Addr) : Option String := wgRoute (g.after.box.peers g.conf.IFACE) a

variable {ι : Type} (g : ι → Gateway) (number : ι → Nat) (key : ι → String) (hub : ι)

def Lists (i j : ι) : Prop := ∃ peer ∈ (g i).peersDoc.peers.getD [], ((g i).id peer).number = .int (number j)

structure Fabric : Prop where
  passed : ∀ i, (g i).Passed
  here : ∀ i, (g i).peersDoc.localSiteId.number = .int (number i)
  distinct : ∀ i j, number i = number j → i = j
  keyed : ∀ i, key i ≠ ""
  listed : ∀ i, ∀ peer ∈ (g i).peersDoc.peers.getD [], ∃ j, ((g i).id peer).number = .int (number j) ∧
    peer.publicKey = some (key j) ∧ ((g i).hub peer = true ↔ j = hub)
  back : ∀ i j, Lists g number i j → Lists g number j i
  hubbed : ∀ i, i ≠ hub → Lists g number i hub

def Hop (src dst : Addr) (i j : ι) : Prop := (g i).choose dst = some (key j) ∧ (g j).choose src = some (key i)

variable {g number key hub} {i j : ι} {a src dst : Addr}

theorem mapM_parses {cidrs : List String} (h : ∀ cidr ∈ cidrs, ∃ net, Net.parse cidr = some net) :
    (cidrs.mapM Net.parse).isNone = false := by
  induction cidrs with
  | nil => rfl
  | cons cidr cidrs ih =>
    obtain ⟨net,hnet⟩ := h cidr List.mem_cons_self
    have hrest := ih fun cidr' hcidr' => h cidr' (List.mem_cons_of_mem _ hcidr')
    cases hnets : cidrs.mapM Net.parse with
    | none =>
      rw [hnets] at hrest
      cases hrest
    | some nets =>
      rw [List.mapM_cons, hnet, hnets]
      rfl

theorem Gateway.Passed.choose_eq {g : Gateway} (h : g.Passed) (hmesh : InMesh a) :
    g.choose a = (cryptoRoute (PlannedPeers g.peersDoc g.clientsDoc) a).map Peer.publicKey := by
  have hpeers : g.plan.peers = PlannedPeers g.peersDoc g.clientsDoc := (planReconcile_ready h.planned).1
  obtain ⟨_,w₁,hup,-⟩ := bind_ok h.passed
  have hrejects : RejectsExactly g.conf.IFACE g.plan.peers (fun _ => false) g.before.faults := by
    refine ⟨fun n p hp => ?_,fun n => by rw [h.calm.faults],fun n key => by rw [h.calm.faults]⟩
    have hparse : (p.allowedIPs.mapM Net.parse).isNone = false := by
      refine mapM_parses fun cidr hcidr => ?_
      obtain ⟨ns,hblock,-⟩ := block_planned h.scheme (hpeers ▸ hp) hcidr
      exact ⟨_,hblock⟩
    rw [h.calm.faults, hparse]
    rfl
  have hroute := wgRoute_applyPlan h.scheme h.planned h.keys hup hrejects hmesh
  rw [h.passed, hpeers] at hroute
  rw [Gateway.choose, route_addressee h.scheme (.refl _) hmesh]
  exact hroute

theorem Fabric.number_lt (h : Fabric g number key hub) (hlists : Lists g number i j) : number j < 256 := by
  obtain ⟨peer,hpeer,hid⟩ := hlists
  obtain ⟨own,-,hown,-⟩ := (h.passed i).scheme.sites peer hpeer
  obtain ⟨n,hn,hnumber,-⟩ := peerAllowedIps_ok hown
  obtain heq := Int.ofNat.inj (Num.int.inj (hid.symm.trans hnumber))
  omega

theorem Fabric.peer (h : Fabric g number key hub) {peer : PeerDoc} (hpeer : peer ∈ (g i).peersDoc.peers.getD [])
    (hid : ((g i).id peer).number = .int (number j)) :
    ∃ p, sitePeer peer = some p ∧ p.publicKey = key j ∧ ((g i).hub peer = true ↔ j = hub) := by
  obtain ⟨k,hid',hkey,hhub⟩ := h.listed i peer hpeer
  obtain rfl : j = k := h.distinct j k (Int.ofNat.inj (Num.int.inj (hid.symm.trans hid')))
  obtain ⟨own,ips,hown,hips,hlists⟩ := (h.passed i).scheme.sites peer hpeer
  obtain ⟨n,-,-,rfl⟩ := peerAllowedIps_ok hown
  have hne : ips ≠ [] := List.ne_nil_of_mem ((hlists _).mpr (.inl List.mem_cons_self))
  have hkeyed : peer.keyed = some (key j,ips) := by simp [PeerDoc.keyed, hkey, hips, h.keyed j, hne]
  exact ⟨_,by rw [sitePeer, hkeyed]; rfl,rfl,hhub⟩

theorem Fabric.elsewhere (h : Fabric g number key hub) (hij : i ≠ j) :
    (g i).peersDoc.localSiteId.number ≠ .int (number j) := by
  rw [h.here i]
  exact fun heq => hij (h.distinct i j (Int.ofNat.inj (Num.int.inj heq)))

theorem Fabric.choose_listed (h : Fabric g number key hub) (hij : i ≠ j) (hlists : Lists g number i j)
    (ha : InSite (number j) a) (hexit : ¬ (g i).peersDoc.Exiting a) : (g i).choose a = some (key j) := by
  have hn := h.number_lt hlists
  obtain ⟨peer,hpeer,hid⟩ := hlists
  obtain ⟨p,hp,hkey,-⟩ := h.peer hpeer hid
  rw [(h.passed i).choose_eq (inMesh_of_inSite hn ha),
    route_listed (h.passed i).scheme hn ha (h.elsewhere hij) hexit hpeer hid hp, Option.map_some, hkey]

theorem Fabric.choose_unlisted (h : Fabric g number key hub) (hij : i ≠ j) (hi : i ≠ hub)
    (hnot : ¬ Lists g number i j) (hn : number j < 256) (ha : InSite (number j) a)
    (hexit : ¬ (g i).peersDoc.Exiting a) : (g i).choose a = some (key hub) := by
  obtain ⟨peer,hpeer,hid⟩ := h.hubbed i hi
  obtain ⟨p,hp,hkey,hhub⟩ := h.peer hpeer hid
  rw [(h.passed i).choose_eq (inMesh_of_inSite hn ha), route_unlisted (h.passed i).scheme hn ha (h.elsewhere hij) hexit
    (fun peer hpeer hid => hnot ⟨peer,hpeer,hid⟩) hpeer (hhub.mpr rfl) hp, Option.map_some, hkey]

theorem delivered (h : Fabric g number key hub) (hij : i ≠ j) (hsrc : InSite (number i) src)
    (hdst : InSite (number j) dst) (hleaves : ∀ k, ¬ (g k).peersDoc.Exiting src)
    (hreturns : ∀ k, ¬ (g k).peersDoc.Exiting dst) :
    (Lists g number i j → Hop g key src dst i j) ∧
      (¬ Lists g number i j → Hop g key src dst i hub ∧ Hop g key src dst hub j) := by
  constructor
  · intro hlists
    exact ⟨h.choose_listed hij hlists hdst (hreturns i),
      h.choose_listed hij.symm (h.back i j hlists) hsrc (hleaves j)⟩
  · intro hnot
    have hi : i ≠ hub := by
      rintro rfl
      exact hnot (h.back j i (h.hubbed j hij.symm))
    have hj : j ≠ hub := by
      rintro rfl
      exact hnot (h.hubbed i hij)
    have hlistsi := h.back i hub (h.hubbed i hi)
    have hlistsj := h.back j hub (h.hubbed j hj)
    have hnot' : ¬ Lists g number j i := fun hlists => hnot (h.back j i hlists)
    refine ⟨⟨?_,?_⟩,?_,?_⟩
    · exact h.choose_unlisted hij hi hnot (h.number_lt hlistsj) hdst (hreturns i)
    · exact h.choose_listed hi.symm hlistsi hsrc (hleaves hub)
    · exact h.choose_listed hj.symm hlistsj hdst (hreturns hub)
    · exact h.choose_unlisted hij.symm hj hnot' (h.number_lt hlistsi) hsrc (hleaves j)

end Fabric

section Star

inductive Star where
  | main
  | left
  | right

def Star.number : Star → Nat
  | .main => 1
  | .left => 2
  | .right => 3

def Star.key : Star → String
  | .main => "one"
  | .left => "two"
  | .right => "three"

def mainSite : PeerDoc :=
  { siteId := .ofInt 1, publicKey := some "one",
    allowedIps := some ["172.24.0.1/32","10.1.0.0/16","10.0.0.0/8","172.24.0.0/16"] }

def Star.doc : Star → PeersDoc
  | .main => { localSiteId := .ofInt 1
               peers := some [
                 { siteId := .ofInt 2, publicKey := some "two", allowedIps := some ["172.24.0.2/32","10.2.0.0/16"] },
                 { siteId := .ofInt 3, publicKey := some "three",
                   allowedIps := some ["172.24.0.3/32","10.3.0.0/16"] }] }
  | .left => { localSiteId := .ofInt 2, peers := some [mainSite] }
  | .right => { localSiteId := .ofInt 3, peers := some [mainSite] }

def PeerDoc.isMain (peer : PeerDoc) : Bool := peer.publicKey == some "one"

theorem mainSite_lists : ∃ own ips, peerAllowedIps mainSite.siteId = .ok own ∧ mainSite.allowedIps = some ips ∧
    ∀ cidr, cidr ∈ ips ↔ cidr ∈ own ∨ mainSite.isMain = true ∧ cidr ∈ hubAllowedIps :=
  ⟨["172.24.0.1/32","10.1.0.0/16"],_,rfl,rfl,fun cidr => by simp [PeerDoc.isMain, mainSite, hubAllowedIps, or_assoc]⟩

theorem star_scheme (i : Star) : Scheme (i.doc) none PeerDoc.siteId PeerDoc.isMain where
  sites := by
    cases i
    · simp only [Star.doc, Option.getD_some, List.forall_mem_cons, List.not_mem_nil, IsEmpty.forall_iff, implies_true,
        and_true]
      exact ⟨⟨["172.24.0.2/32","10.2.0.0/16"],_,rfl,rfl,fun cidr => by simp [PeerDoc.isMain]⟩,
        ["172.24.0.3/32","10.3.0.0/16"],_,rfl,rfl,fun cidr => by simp [PeerDoc.isMain]⟩
    · intro peer hpeer
      obtain rfl := List.mem_singleton.mp hpeer
      exact mainSite_lists
    · intro peer hpeer
      obtain rfl := List.mem_singleton.mp hpeer
      exact mainSite_lists
  remote := by cases i <;> decide
  distinct := by cases i <;> decide
  oneHub := by cases i <;> decide
  exits := by cases i <;> exact nofun
  exitsDistinct := by cases i <;> exact List.Pairwise.nil
  devices := nofun
  devicesDistinct := List.Pairwise.nil

theorem star_passes (i : Star) : ∃ plan applied after,
    planReconcile wgMesh (some (i.doc)) none none = .ok (.ready plan) ∧
    (plan.peers.map Peer.publicKey).Nodup ∧ applyPlan wgMesh plan "key" bare = .ok applied after := by
  have hpass : ∃ plan, planReconcile wgMesh (some (i.doc)) none none = .ok (.ready plan) ∧
      (plan.peers.map Peer.publicKey).Nodup ∧ okWith (applyPlan wgMesh plan "key" bare) (fun _ _ => true) = true := by
    cases i <;> exact ⟨_,rfl,by decide,by decide +kernel⟩
  obtain ⟨plan,hplan,hkeys,hok⟩ := hpass
  obtain ⟨applied,after,happly,-⟩ := exists_of_okWith hok
  exact ⟨plan,applied,after,hplan,hkeys,happly⟩

theorem delivered_star : ∃ g : Star → Gateway, (∀ i, (g i).peersDoc = i.doc) ∧
    Hop g Star.key (.quad 10 2 128 5) (.quad 10 3 0 9) .left .main ∧
    Hop g Star.key (.quad 10 2 128 5) (.quad 10 3 0 9) .main .right := by
  choose plan applied after hplan hkeys happly using star_passes
  let g : Star → Gateway := fun i =>
    ⟨wgMesh,i.doc,none,none,PeerDoc.siteId,PeerDoc.isMain,plan i,"key",bare,applied i,after i⟩
  have hfabric : Fabric g Star.number Star.key .main := by
    refine ⟨fun i => ⟨star_scheme i,hplan i,hkeys i,bare_calm,happly i⟩,?_,?_,?_,?_,?_,?_⟩
    · intro i
      cases i <;> rfl
    · intro i j h
      cases i <;> cases j <;> first | rfl | cases h
    · intro i
      cases i <;> decide
    · intro i
      cases i
      · simp only [g, Star.doc, Option.getD_some, List.forall_mem_cons, List.not_mem_nil, IsEmpty.forall_iff,
          implies_true, and_true]
        exact ⟨⟨.left,rfl,rfl,by simp [PeerDoc.isMain]⟩,.right,rfl,rfl,by simp [PeerDoc.isMain]⟩
      · intro peer hpeer
        obtain rfl := List.mem_singleton.mp hpeer
        exact ⟨.main,rfl,rfl,by simp [g, PeerDoc.isMain, mainSite]⟩
      · intro peer hpeer
        obtain rfl := List.mem_singleton.mp hpeer
        exact ⟨.main,rfl,rfl,by simp [g, PeerDoc.isMain, mainSite]⟩
    · have hlists : ∀ i j, Lists g Star.number i j ↔ (i = .main ∧ j ≠ .main ∨ i ≠ .main ∧ j = .main) := by
        intro i j
        cases i <;> cases j <;> simp [Lists, g, Star.doc, Star.number, mainSite, Value.ofInt]
      intro i j h
      rw [hlists] at h ⊢
      tauto
    · intro i hi
      cases i
      · exact absurd rfl hi
      · exact ⟨mainSite,by simp [g, Star.doc],rfl⟩
      · exact ⟨mainSite,by simp [g, Star.doc],rfl⟩
  have hnone : ∀ k a, ¬ (g k).peersDoc.Exiting a := by
    rintro k a ⟨peer,hpeer,-⟩
    cases k <;> cases hpeer
  have hnot : ¬ Lists g Star.number .left .right := by
    rintro ⟨peer,hpeer,hid⟩
    obtain rfl := List.mem_singleton.mp hpeer
    have hone : Num.int 1 = Num.int 3 := hid
    cases hone
  exact ⟨g,fun _ => rfl,(delivered hfabric (i := .left) (j := .right) nofun (.inr (by decide +kernel))
    (.inr (by decide +kernel)) (fun k => hnone k _) fun k => hnone k _).2 hnot⟩

end Star

end JumpHost.Mesh
