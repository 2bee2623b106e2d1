import Mathlib.Data.List.Pairwise
import JumpHost.Library.Trie
import JumpHost.Mesh.Blocks
import JumpHost.Mesh.Peers
import JumpHost.Mesh.Requests

namespace JumpHost.Mesh

open Effect

section Scheme

structure Scheme (peersDoc : PeersDoc) (clientsDoc : Option ClientsDoc) (id : PeerDoc → Value)
    (hub : PeerDoc → Bool) : Prop where
  sites : ∀ peer ∈ peersDoc.peers.getD [], ∃ own ips, peerAllowedIps (id peer) = .ok own ∧
    peer.allowedIps = some ips ∧ ∀ cidr, cidr ∈ ips ↔ cidr ∈ own ∨ hub peer = true ∧ cidr ∈ hubAllowedIps
  remote : ∀ peer ∈ peersDoc.peers.getD [], (id peer).number ≠ peersDoc.localSiteId.number
  distinct : (peersDoc.peers.getD []).Pairwise fun peer peer' => (id peer).number ≠ (id peer').number
  oneHub : (peersDoc.peers.getD []).Pairwise fun peer peer' => ¬ (hub peer = true ∧ hub peer' = true)
  exits : ∀ peer ∈ peersDoc.exitPeers.getD [], ∀ ips, peer.allowedIps = some ips → ∀ cidr ∈ ips, ∃ siteId ip,
    siteId.number ≠ peersDoc.localSiteId.number ∧ Pooled siteId ip ∧ cidr = ip ++ "/32"
  exitsDistinct : (peersDoc.exitPeers.getD []).Pairwise fun peer peer' => ∀ ips ips', peer.allowedIps = some ips →
    peer'.allowedIps = some ips' → ∀ cidr ∈ ips, cidr ∉ ips'
  devices : ∀ client ∈ clientsOf clientsDoc, ∀ ip, firstTruthy [client.assignedIp] = some ip →
    Pooled peersDoc.localSiteId ip
  devicesDistinct : (clientsOf clientsDoc).Pairwise fun client client' => ∀ ip,
    firstTruthy [client.assignedIp] = some ip → firstTruthy [client'.assignedIp] ≠ some ip

end Scheme

section Routing

def Peer.claims (p : Peer) : List (Net × Peer) :=
  p.allowedIPs.filterMap fun cidr => (Net.parse cidr).map fun net => (net,p)

def cryptoRoute (peers : List Peer) (a : Addr) : Option Peer := Net.longest (Net.claimAll (peers.flatMap Peer.claims)) a

def InMesh (a : Addr) : Prop := ∃ cidr ∈ hubAllowedIps, ∃ net, Net.parse cidr = some net ∧ net.contains a = true

def Peer.hasHost (p : Peer) (a : Addr) : Bool := p.allowedIPs.any fun cidr => Net.parse cidr = some (Net.host a)

def Peer.hasSite (p : Peer) (a : Addr) : Bool :=
  p.allowedIPs.any fun cidr => !hubAllowedIps.contains cidr && (Net.parse cidr).any (·.contains a)

def Peer.isDevice (a : Addr) (p : Peer) : Bool := p.kind = .client && p.hasHost a

def Peer.isExitClient (a : Addr) (p : Peer) : Bool := p.kind = .exitClient && p.hasHost a

def Peer.isSite (a : Addr) (p : Peer) : Bool := p.kind = .site && p.hasSite a

def Peer.isHub (p : Peer) : Bool := p.kind = .site && hubAllowedIps.all (p.allowedIPs.contains ·)

def addressee (peers : List Peer) (a : Addr) : Option Peer :=
  (peers.find? (Peer.isDevice a)).or ((peers.find? (Peer.isExitClient a)).or
    ((peers.find? (Peer.isSite a)).or (peers.find? Peer.isHub)))

end Routing

section Shapes

variable {peersDoc : PeersDoc} {clientsDoc : Option ClientsDoc} {id : PeerDoc → Value} {hub : PeerDoc → Bool}
  {here : Num} {kind kind' : PeerKind} {ns : List Nat} {p q : Peer} {net : Net}

inductive Shape (here : Num) : PeerKind → List Nat → Prop
  | device (n c d : Nat) : here = .int n → Shape here .client [10,n,c,d]
  | exitClient (n c d : Nat) : here ≠ .int n → Shape here .exitClient [10,n,c,d]
  | gateway (n : Nat) : Shape here .site [172,24,0,n]
  | network (n : Nat) : Shape here .site [10,n]
  | ten : Shape here .site [10]
  | services : Shape here .site [172,24]

theorem Shape.short (h : Shape here kind ns) : ns.length ≤ 4 := by
  cases h <;> simp

theorem Shape.kind_unique (h : Shape here kind ns) (h' : Shape here kind' ns) : kind = kind' := by
  cases h <;> cases h' <;> first | rfl | contradiction

structure Block (here : Num) (p : Peer) (net : Net) (ns : List Nat) : Prop where
  shape : Shape here p.kind ns
  octets : ∀ n ∈ ns, n < 256
  net : net = Net.block ns

theorem Block.octets_eq {ns' : List Nat} (h : Block here p net ns) (h' : Block here q net ns') : ns = ns' :=
  block_inj h.shape.short h'.shape.short h.octets h'.octets (h.net.symm.trans h'.net)

theorem peerAllowedIps_ok {siteId : Value} {own : List String} (h : peerAllowedIps siteId = .ok own) :
    ∃ n : Nat, n ≤ 254 ∧ siteId.number = .int n ∧
      own = [MESH_PREFIX ++ "." ++ toString (n : Int) ++ "/32","10." ++ toString (n : Int) ++ ".0.0/16"] := by
  rw [peerAllowedIps_eq] at h
  exact map_assertSiteId_ok h

inductive SiteBlock (siteId : Num) (hub : Bool) : List Nat → Prop
  | gateway (n : Nat) : siteId = .int n → SiteBlock siteId hub [172,24,0,n]
  | network (n : Nat) : siteId = .int n → SiteBlock siteId hub [10,n]
  | ten : hub = true → SiteBlock siteId hub [10]
  | services : hub = true → SiteBlock siteId hub [172,24]

theorem SiteBlock.short {siteId : Num} {hub : Bool} (h : SiteBlock siteId hub ns) : ns.length ≤ 4 := by
  cases h <;> simp

theorem SiteBlock.shape {siteId : Num} {hub : Bool} (h : SiteBlock siteId hub ns) : Shape here .site ns := by
  cases h with
  | gateway n => exact .gateway n
  | network n => exact .network n
  | ten => exact .ten
  | services => exact .services

theorem site_block (hscheme : Scheme peersDoc clientsDoc id hub) {peer : PeerDoc}
    (hpeer : peer ∈ peersDoc.peers.getD []) (hp : sitePeer peer = some p) {cidr : String}
    (hcidr : cidr ∈ p.allowedIPs) :
    ∃ ns, Net.parse cidr = some (Net.block ns) ∧ (∀ n ∈ ns, n < 256) ∧
      SiteBlock (id peer).number (hub peer) ns ∧ (ns = [10] ∨ ns = [172,24] → cidr ∈ hubAllowedIps) := by
  obtain ⟨own,ips,hown,hips,hmem⟩ := hscheme.sites peer hpeer
  obtain ⟨n,hn,hnumber,rfl⟩ := peerAllowedIps_ok hown
  obtain rfl := Option.some.inj (hips.symm.trans (sitePeer_ips hp).2)
  rcases (hmem cidr).mp hcidr with hown | ⟨hhub,hcidr⟩
  · simp only [List.mem_cons, List.not_mem_nil, or_false] at hown
    rcases hown with rfl | rfl
    · exact ⟨_,parse_gateway hn,by simp; omega,.gateway n hnumber,by simp⟩
    · exact ⟨_,parse_site hn,by simp; omega,.network n hnumber,by simp⟩
  · have htext := hcidr
    simp only [hubAllowedIps, List.mem_cons, List.not_mem_nil, or_false] at hcidr
    rcases hcidr with rfl | rfl
    · exact ⟨_,parse_hub.1,by simp,.ten hhub,fun _ => htext⟩
    · exact ⟨_,parse_hub.2,by simp,.services hhub,fun _ => htext⟩

theorem pooled_block {siteId : Value} {ip : String} (h : Pooled siteId ip) : ∃ n c d : Nat,
    siteId.number = .int n ∧ ip.toList = Net.quad [10,n,c,d] ∧ Net.parse (ip ++ "/32") = some (Net.block [10,n,c,d]) ∧
      ∀ m ∈ [10,n,c,d], m < 256 := by
  obtain ⟨n,c,d,-,hnumber,hoctets,htext⟩ := h.quad
  exact ⟨n,c,d,hnumber,htext,parse_device hoctets htext,hoctets.all⟩

theorem exit_block (hscheme : Scheme peersDoc clientsDoc id hub) {peer : PeerDoc}
    (hpeer : peer ∈ peersDoc.exitPeers.getD []) (hp : exitPeer peer = some p) {cidr : String}
    (hcidr : cidr ∈ p.allowedIPs) : ∃ n c d : Nat, Net.parse cidr = some (Net.block [10,n,c,d]) ∧
      (∀ m ∈ [10,n,c,d], m < 256) ∧ peersDoc.localSiteId.number ≠ .int n ∧
      ∃ ip, cidr = ip ++ "/32" ∧ ip.toList = Net.quad [10,n,c,d] := by
  obtain ⟨siteId,ip,hremote,hpool,rfl⟩ := hscheme.exits peer hpeer _ (exitPeer_ips hp).2 cidr hcidr
  obtain ⟨n,c,d,hnumber,htext,hparse,hoctets⟩ := pooled_block hpool
  exact ⟨n,c,d,hparse,hoctets,fun hlocal => hremote (hnumber.trans hlocal.symm),ip,rfl,htext⟩

theorem device_block (hscheme : Scheme peersDoc clientsDoc id hub) {client : ClientDoc}
    (hclient : client ∈ clientsOf clientsDoc) (hp : clientPeer client = some p) : ∃ ip, ∃ n c d : Nat,
      firstTruthy [client.assignedIp] = some ip ∧ p.allowedIPs = [ip ++ "/32"] ∧
      Net.parse (ip ++ "/32") = some (Net.block [10,n,c,d]) ∧ (∀ m ∈ [10,n,c,d], m < 256) ∧
      peersDoc.localSiteId.number = .int n ∧ ip.toList = Net.quad [10,n,c,d] := by
  obtain ⟨-,ip,hip,hips⟩ := clientPeer_ips hp
  obtain ⟨n,c,d,hnumber,htext,hparse,hoctets⟩ := pooled_block (hscheme.devices client hclient ip hip)
  exact ⟨ip,n,c,d,hip,hips,hparse,hoctets,hnumber,htext⟩

theorem isHub_of_hub (hscheme : Scheme peersDoc clientsDoc id hub) {peer : PeerDoc}
    (hpeer : peer ∈ peersDoc.peers.getD []) (hp : sitePeer peer = some p) (hhub : hub peer = true) :
    p.isHub = true := by
  obtain ⟨own,ips,-,hips,hmem⟩ := hscheme.sites peer hpeer
  obtain ⟨hkind,hips'⟩ := sitePeer_ips hp
  obtain rfl := Option.some.inj (hips.symm.trans hips')
  simp only [Peer.isHub, hkind, decide_true, Bool.true_and, List.all_eq_true, List.contains_iff_mem]
  exact fun cidr hcidr => (hmem cidr).mpr (.inr ⟨hhub,hcidr⟩)

theorem block_planned (hscheme : Scheme peersDoc clientsDoc id hub) (hp : p ∈ PlannedPeers peersDoc clientsDoc)
    {cidr : String} (hcidr : cidr ∈ p.allowedIPs) : ∃ ns, Net.parse cidr = some (Net.block ns) ∧
      Block peersDoc.localSiteId.number p (Net.block ns) ns ∧
      ((ns = [10] ∨ ns = [172,24]) → p.isHub = true ∧ cidr ∈ hubAllowedIps) := by
  rcases mem_planned hp with ⟨peer,hpeer,hsite⟩ | ⟨peer,hpeer,hexit⟩ | ⟨client,hclient,hdevice⟩
  · obtain ⟨ns,hparse,hoctets,hblock,htext⟩ := site_block hscheme hpeer hsite hcidr
    refine ⟨ns,hparse,⟨?_,hoctets,rfl⟩,fun hns => ⟨?_,htext hns⟩⟩
    · rw [(sitePeer_ips hsite).1]
      exact hblock.shape
    · refine isHub_of_hub hscheme hpeer hsite ?_
      rcases hns with rfl | rfl
      · cases hblock with
        | ten hhub => exact hhub
      · cases hblock with
        | services hhub => exact hhub
  · obtain ⟨n,c,d,hparse,hoctets,hremote,-⟩ := exit_block hscheme hpeer hexit hcidr
    refine ⟨_,hparse,⟨?_,hoctets,rfl⟩,fun hns => ?_⟩
    · rw [(exitPeer_ips hexit).1]
      exact .exitClient n c d hremote
    · simp at hns
  · obtain ⟨ip,n,c,d,-,hips,hparse,hoctets,hlocal,-⟩ := device_block hscheme hclient hdevice
    rw [hips] at hcidr
    obtain rfl := List.mem_singleton.mp hcidr
    refine ⟨_,hparse,⟨?_,hoctets,rfl⟩,fun hns => ?_⟩
    · rw [(clientPeer_ips hdevice).1]
      exact .device n c d hlocal
    · simp at hns

def Apart (p q : Peer) : Prop := ∀ net, p.lists net → ¬ q.lists net

theorem apart_sites (hscheme : Scheme peersDoc clientsDoc id hub) :
    ((peersDoc.peers.getD []).filterMap sitePeer).Pairwise Apart := by
  refine (List.Pairwise.and_mem.mp (hscheme.distinct.and hscheme.oneHub)).filterMap sitePeer ?_
  rintro peer peer' ⟨hpeer,hpeer',hdistinct,honeHub⟩ p hp q hq net ⟨cidr,hcidr,hnet⟩ ⟨cidr',hcidr',hnet'⟩
  obtain ⟨ns,hparse,hoctets,hblock,-⟩ := site_block hscheme hpeer hp hcidr
  obtain ⟨ns',hparse',hoctets',hblock',-⟩ := site_block hscheme hpeer' hq hcidr'
  have heq : Net.block ns = Net.block ns' :=
    Option.some.inj ((hparse.symm.trans hnet).trans (hnet'.symm.trans hparse'))
  obtain rfl := block_inj hblock.short hblock'.short hoctets hoctets' heq
  cases hblock with
  | gateway n hn =>
    cases hblock' with
    | gateway _ hn' => exact hdistinct (hn.trans hn'.symm)
  | network n hn =>
    cases hblock' with
    | network _ hn' => exact hdistinct (hn.trans hn'.symm)
  | ten hhub =>
    cases hblock' with
    | ten hhub' => exact honeHub ⟨hhub,hhub'⟩
  | services hhub =>
    cases hblock' with
    | services hhub' => exact honeHub ⟨hhub,hhub'⟩

theorem device_inj {ip ip' : String} {n c d n' c' d' : Nat} (hip : ip.toList = Net.quad [10,n,c,d])
    (hip' : ip'.toList = Net.quad [10,n',c',d']) (hoctets : ∀ m ∈ [10,n,c,d], m < 256)
    (hoctets' : ∀ m ∈ [10,n',c',d'], m < 256) (h : Net.block [10,n,c,d] = Net.block [10,n',c',d']) : ip = ip' := by
  have heq := block_inj (by simp) (by simp) hoctets hoctets' h
  rw [← String.toList_inj, hip, hip', heq]

theorem apart_exits (hscheme : Scheme peersDoc clientsDoc id hub) :
    ((peersDoc.exitPeers.getD []).filterMap exitPeer).Pairwise Apart := by
  refine (List.Pairwise.and_mem.mp hscheme.exitsDistinct).filterMap exitPeer ?_
  rintro peer peer' ⟨hpeer,hpeer',hdistinct⟩ p hp q hq net ⟨cidr,hcidr,hnet⟩ ⟨cidr',hcidr',hnet'⟩
  obtain ⟨n,c,d,hparse,hoctets,-,ip,rfl,htext⟩ := exit_block hscheme hpeer hp hcidr
  obtain ⟨n',c',d',hparse',hoctets',-,ip',rfl,htext'⟩ := exit_block hscheme hpeer' hq hcidr'
  have hip : ip = ip' := device_inj htext htext' hoctets hoctets'
    (Option.some.inj ((hparse.symm.trans hnet).trans (hnet'.symm.trans hparse')))
  rw [← hip] at hcidr'
  exact hdistinct _ _ (exitPeer_ips hp).2 (exitPeer_ips hq).2 _ hcidr hcidr'

theorem apart_devices (hscheme : Scheme peersDoc clientsDoc id hub) :
    ((clientsOf clientsDoc).filterMap clientPeer).Pairwise Apart := by
  refine (List.Pairwise.and_mem.mp hscheme.devicesDistinct).filterMap clientPeer ?_
  rintro client client' ⟨hclient,hclient',hdistinct⟩ p hp q hq net ⟨cidr,hcidr,hnet⟩ ⟨cidr',hcidr',hnet'⟩
  obtain ⟨ip,n,c,d,hip,hips,hparse,hoctets,-,htext⟩ := device_block hscheme hclient hp
  obtain ⟨ip',n',c',d',hip',hips',hparse',hoctets',-,htext'⟩ := device_block hscheme hclient' hq
  rw [hips] at hcidr
  rw [hips'] at hcidr'
  obtain rfl := List.mem_singleton.mp hcidr
  obtain rfl := List.mem_singleton.mp hcidr'
  have hsame : ip = ip' := device_inj htext htext' hoctets hoctets'
    (Option.some.inj ((hparse.symm.trans hnet).trans (hnet'.symm.trans hparse')))
  exact hdistinct ip hip (hsame ▸ hip')

theorem apart_kinds (hscheme : Scheme peersDoc clientsDoc id hub) (hp : p ∈ PlannedPeers peersDoc clientsDoc)
    (hq : q ∈ PlannedPeers peersDoc clientsDoc) (hkind : p.kind ≠ q.kind) : Apart p q := by
  rintro net ⟨cidr,hcidr,hnet⟩ ⟨cidr',hcidr',hnet'⟩
  obtain ⟨ns,hparse,hblock,-⟩ := block_planned hscheme hp hcidr
  obtain ⟨ns',hparse',hblock',-⟩ := block_planned hscheme hq hcidr'
  obtain rfl := Option.some.inj (hnet.symm.trans hparse)
  obtain heq := Option.some.inj (hnet'.symm.trans hparse')
  obtain rfl := hblock.octets_eq (heq ▸ hblock')
  exact hkind (hblock.shape.kind_unique hblock'.shape)

theorem apart_planned (hscheme : Scheme peersDoc clientsDoc id hub) :
    (PlannedPeers peersDoc clientsDoc).Pairwise Apart := by
  have hmem : ∀ p ∈ (peersDoc.peers.getD []).filterMap sitePeer, p ∈ PlannedPeers peersDoc clientsDoc ∧
      p.kind = .site := fun p hp => by
    obtain ⟨peer,-,hpeer⟩ := List.mem_filterMap.mp hp
    exact ⟨List.mem_append_left _ (List.mem_append_left _ hp),(sitePeer_ips hpeer).1⟩
  have hmem' : ∀ p ∈ (peersDoc.exitPeers.getD []).filterMap exitPeer, p ∈ PlannedPeers peersDoc clientsDoc ∧
      p.kind = .exitClient := fun p hp => by
    obtain ⟨peer,-,hpeer⟩ := List.mem_filterMap.mp hp
    exact ⟨List.mem_append_left _ (List.mem_append_right _ hp),(exitPeer_ips hpeer).1⟩
  refine List.pairwise_append.mpr ⟨List.pairwise_append.mpr ⟨apart_sites hscheme,apart_exits hscheme,?_⟩,
    apart_devices hscheme,?_⟩
  · intro p hp q hq
    refine apart_kinds hscheme (hmem p hp).1 (hmem' q hq).1 ?_
    rw [(hmem p hp).2, (hmem' q hq).2]
    exact nofun
  · intro p hp q hq
    obtain ⟨client,-,hclient⟩ := List.mem_filterMap.mp hq
    refine apart_kinds hscheme (List.mem_append_left _ hp) (List.mem_append_right _ hq) ?_
    rw [(clientPeer_ips hclient).1]
    rcases List.mem_append.mp hp with hp | hp
    · rw [(hmem p hp).2]
      exact nofun
    · rw [(hmem' p hp).2]
      exact nofun

end Shapes

section Routes

variable {peersDoc : PeersDoc} {clientsDoc : Option ClientsDoc} {id : PeerDoc → Value} {hub : PeerDoc → Bool}
  {p q : Peer} {net : Net} {cidr : String} {a : Addr} {peers : List Peer}

theorem hub_octets {ns : List Nat} (hcidr : cidr ∈ hubAllowedIps) (hparse : Net.parse cidr = some (Net.block ns))
    (hshort : ns.length ≤ 4) (hoctets : ∀ n ∈ ns, n < 256) : ns = [10] ∨ ns = [172,24] := by
  simp only [hubAllowedIps, List.mem_cons, List.not_mem_nil, or_false] at hcidr
  rcases hcidr with rfl | rfl
  · exact .inl (block_inj hshort (by simp) hoctets (by simp) (Option.some.inj (hparse.symm.trans parse_hub.1)))
  · exact .inr (block_inj hshort (by simp) hoctets (by simp) (Option.some.inj (hparse.symm.trans parse_hub.2)))

inductive Claim (a : Addr) (p : Peer) (cidr : String) (net : Net) : Prop
  | device : p.isDevice a = true → Claim a p cidr net
  | exitClient : p.isExitClient a = true → Claim a p cidr net
  | gateway : p.isSite a = true → net.bits.length = 32 → cidr ∉ hubAllowedIps →
      (Net.block [172,24]).contains a = true → Claim a p cidr net
  | network : p.isSite a = true → net.bits.length = 16 → cidr ∉ hubAllowedIps →
      (Net.block [10]).contains a = true → Claim a p cidr net
  | ten : p.isHub = true → net.bits.length = 8 → cidr ∈ hubAllowedIps →
      (Net.block [10]).contains a = true → Claim a p cidr net
  | services : p.isHub = true → net.bits.length = 16 → cidr ∈ hubAllowedIps →
      (Net.block [172,24]).contains a = true → Claim a p cidr net

theorem hasHost_of_mem (hcidr : cidr ∈ p.allowedIPs) (hparse : Net.parse cidr = some (Net.host a)) :
    p.hasHost a = true := List.any_eq_true.mpr ⟨cidr,hcidr,decide_eq_true hparse⟩

theorem hasSite_of_mem (hcidr : cidr ∈ p.allowedIPs) (htext : cidr ∉ hubAllowedIps)
    (hparse : Net.parse cidr = some net) (hin : net.contains a = true) : p.hasSite a = true := by
  refine List.any_eq_true.mpr ⟨cidr,hcidr,?_⟩
  have hother : hubAllowedIps.contains cidr = false := by simpa using htext
  rw [hother, hparse]
  exact hin

theorem claim_cases (hscheme : Scheme peersDoc clientsDoc id hub) (hp : p ∈ PlannedPeers peersDoc clientsDoc)
    (hcidr : cidr ∈ p.allowedIPs) (hparse : Net.parse cidr = some net) (hin : net.contains a = true)
    (hv4 : a.family = .v4) : Claim a p cidr net := by
  obtain ⟨ns,hblock,⟨hshape,hoctets,-⟩,hhub⟩ := block_planned hscheme hp hcidr
  obtain rfl := Option.some.inj (hparse.symm.trans hblock)
  obtain ⟨w,x,y,z,haddr,rfl⟩ := Addr.eq_quad hv4
  have hinitial := (contains_block hshape.short hoctets haddr).mp hin
  have hlen := length_block hshape.short
  have hstart : ∀ ms, ms.length ≤ 4 → (∀ m ∈ ms, m < 256) → ms <+: ns →
      (Net.block ms).contains (.quad w x y z) = true := fun ms hms hm hpre =>
    (contains_block hms hm haddr).mpr (hpre.trans hinitial)
  have htext : cidr ∈ hubAllowedIps → ns = [10] ∨ ns = [172,24] := fun hcidr =>
    hub_octets hcidr hblock hshape.short hoctets
  generalize hk : p.kind = kind at hshape
  cases hshape with
  | device n c d _ =>
    have hhost : Net.block [10,n,c,d] = Net.host (.quad w x y z) := by
      rw [host_quad, hinitial.eq_of_length rfl]
    refine .device ?_
    simp [Peer.isDevice, hk, hasHost_of_mem hcidr (hblock.trans (congrArg some hhost))]
  | exitClient n c d _ =>
    have hhost : Net.block [10,n,c,d] = Net.host (.quad w x y z) := by
      rw [host_quad, hinitial.eq_of_length rfl]
    refine .exitClient ?_
    simp [Peer.isExitClient, hk, hasHost_of_mem hcidr (hblock.trans (congrArg some hhost))]
  | gateway n =>
    have hother : cidr ∉ hubAllowedIps := fun hcidr => by simpa using htext hcidr
    refine .gateway ?_ hlen hother (hstart _ (by simp) (by simp) ⟨[0,n],rfl⟩)
    simp [Peer.isSite, hk, hasSite_of_mem hcidr hother hblock hin]
  | network n =>
    have hother : cidr ∉ hubAllowedIps := fun hcidr => by simpa using htext hcidr
    refine .network ?_ hlen hother (hstart _ (by simp) (by simp) ⟨[n],rfl⟩)
    simp [Peer.isSite, hk, hasSite_of_mem hcidr hother hblock hin]
  | ten =>
    obtain ⟨hhub,hcidr⟩ := hhub (.inl rfl)
    exact .ten hhub hlen hcidr hin
  | services =>
    obtain ⟨hhub,hcidr⟩ := hhub (.inr rfl)
    exact .services hhub hlen hcidr hin

theorem mem_claims : (net,p) ∈ peers.flatMap Peer.claims ↔ p ∈ peers ∧ p.lists net := by
  simp only [List.mem_flatMap, Peer.claims, List.mem_filterMap, Option.map_eq_some_iff, Prod.mk.injEq]
  constructor
  · rintro ⟨p,hp,cidr,hcidr,net,hparse,rfl,rfl⟩
    exact ⟨hp,cidr,hcidr,hparse⟩
  · rintro ⟨hp,cidr,hcidr,hparse⟩
    exact ⟨p,hp,cidr,hcidr,net,hparse,rfl,rfl⟩

theorem functional_claims (hscheme : Scheme peersDoc clientsDoc id hub)
    (hperm : peers.Perm (PlannedPeers peersDoc clientsDoc)) : Net.Functional (peers.flatMap Peer.claims) := by
  intro net p q hp hq
  obtain ⟨hp,hlists⟩ := mem_claims.mp hp
  obtain ⟨hq,hlists'⟩ := mem_claims.mp hq
  have : Std.Symm Apart := ⟨fun _ _ h net hq hp => h net hp hq⟩
  by_contra hne
  exact (apart_planned hscheme).forall (hperm.mem_iff.mp hp) (hperm.mem_iff.mp hq) hne net hlists hlists'

theorem route_eq_some (hscheme : Scheme peersDoc clientsDoc id hub)
    (hperm : peers.Perm (PlannedPeers peersDoc clientsDoc)) (hp : p ∈ PlannedPeers peersDoc clientsDoc)
    (hcidr : cidr ∈ p.allowedIPs) (hparse : Net.parse cidr = some net) (hin : net.contains a = true)
    (hmax : ∀ q ∈ PlannedPeers peersDoc clientsDoc, ∀ cidr ∈ q.allowedIPs, ∀ m, Net.parse cidr = some m →
      m.contains a = true → m.bits.length ≤ net.bits.length) : cryptoRoute peers a = some p := by
  have hfun := functional_claims hscheme hperm
  have hmem : ∀ {m q}, (m,q) ∈ Net.claimAll (peers.flatMap Peer.claims) ↔
      q ∈ PlannedPeers peersDoc clientsDoc ∧ q.lists m := fun {m q} => by
    rw [Net.mem_claimAll hfun, mem_claims, hperm.mem_iff]
  refine Net.longest_eq_some (fun m q q' hq hq' => ?_) (hmem.mpr ⟨hp,cidr,hcidr,hparse⟩) hin fun m q hq hm => ?_
  · exact hfun m q q' ((Net.mem_claimAll hfun).mp hq) ((Net.mem_claimAll hfun).mp hq')
  · obtain ⟨hq,cidr',hcidr',hparse'⟩ := hmem.mp hq
    exact hmax q hq cidr' hcidr' m hparse' hm

theorem route_eq_none (hscheme : Scheme peersDoc clientsDoc id hub)
    (hperm : peers.Perm (PlannedPeers peersDoc clientsDoc))
    (hnone : ∀ q ∈ PlannedPeers peersDoc clientsDoc, ∀ cidr ∈ q.allowedIPs, ∀ m, Net.parse cidr = some m →
      m.contains a = true → False) : cryptoRoute peers a = none := by
  rw [cryptoRoute, Net.longest_eq_none]
  rintro ⟨m,q⟩ hq
  obtain ⟨hq,cidr,hcidr,hparse⟩ := mem_claims.mp ((Net.mem_claimAll (functional_claims hscheme hperm)).mp hq)
  exact Bool.eq_false_iff.mpr fun hm => hnone q (hperm.mem_iff.mp hq) cidr hcidr m hparse hm

theorem not_ten_services (hv4 : a.family = .v4) (hten : (Net.block [10]).contains a = true)
    (hservices : (Net.block [172,24]).contains a = true) : False := by
  obtain ⟨w,x,y,z,haddr,rfl⟩ := Addr.eq_quad hv4
  obtain ⟨_,hten⟩ := (contains_block (by simp) (by simp) haddr).mp hten
  obtain ⟨_,hservices⟩ := (contains_block (by simp) (by simp) haddr).mp hservices
  have hsame : 10 = 172 := (List.cons.inj hten).1.trans (List.cons.inj hservices).1.symm
  contradiction

theorem length_le_of_contains (hv4 : a.family = .v4) (hin : net.contains a = true) : net.bits.length ≤ 32 := by
  obtain ⟨hfamily,-⟩ := Bool.and_eq_true_iff.mp hin
  have hfits := net.fits
  rwa [eq_of_beq hfamily, hv4] at hfits

theorem inMesh_cases (h : InMesh a) : a.family = .v4 ∧
    ((Net.block [10]).contains a = true ∨ (Net.block [172,24]).contains a = true) := by
  obtain ⟨cidr,hcidr,net,hparse,hin⟩ := h
  simp only [hubAllowedIps, List.mem_cons, List.not_mem_nil, or_false] at hcidr
  obtain ⟨hfamily,-⟩ := Bool.and_eq_true_iff.mp hin
  rcases hcidr with rfl | rfl
  · obtain rfl := Option.some.inj (parse_hub.1.symm.trans hparse)
    exact ⟨(eq_of_beq hfamily).symm,.inl hin⟩
  · obtain rfl := Option.some.inj (parse_hub.2.symm.trans hparse)
    exact ⟨(eq_of_beq hfamily).symm,.inr hin⟩

theorem hasHost_bits (h : p.hasHost a = true) : ∃ cidr ∈ p.allowedIPs, Net.parse cidr = some (Net.host a) := by
  obtain ⟨cidr,hcidr,hparse⟩ := List.any_eq_true.mp h
  exact ⟨cidr,hcidr,of_decide_eq_true hparse⟩

theorem hasSite_bits (h : p.hasSite a = true) : ∃ cidr ∈ p.allowedIPs, cidr ∉ hubAllowedIps ∧
    ∃ net, Net.parse cidr = some net ∧ net.contains a = true := by
  obtain ⟨cidr,hcidr,hboth⟩ := List.any_eq_true.mp h
  obtain ⟨hother,hany⟩ := Bool.and_eq_true_iff.mp hboth
  obtain ⟨net,hparse,hin⟩ := (Option.any_eq_true _ _).mp hany
  exact ⟨cidr,hcidr,by simpa using hother,net,hparse,hin⟩

theorem isHub_lists (h : p.isHub = true) : "10.0.0.0/8" ∈ p.allowedIPs ∧ "172.24.0.0/16" ∈ p.allowedIPs := by
  obtain ⟨-,hall⟩ := Bool.and_eq_true_iff.mp h
  simpa [hubAllowedIps] using hall

theorem route_host (hscheme : Scheme peersDoc clientsDoc id hub)
    (hperm : peers.Perm (PlannedPeers peersDoc clientsDoc)) (hp : p ∈ PlannedPeers peersDoc clientsDoc)
    (hv4 : a.family = .v4) (hhost : p.hasHost a = true) : cryptoRoute peers a = some p := by
  obtain ⟨cidr,hcidr,hparse⟩ := hasHost_bits hhost
  refine route_eq_some hscheme hperm hp hcidr hparse (Net.contains_host.mpr rfl) fun q _ cidr' _ m _ hm => ?_
  have hlen : (Net.host a).bits.length = 32 := by
    rw [Net.host, a.full, hv4]
    rfl
  rw [hlen]
  exact length_le_of_contains hv4 hm

theorem hasHost_of_device (h : p.isDevice a = true) : p.hasHost a = true := (Bool.and_eq_true_iff.mp h).2

theorem hasHost_of_exitClient (h : p.isExitClient a = true) : p.hasHost a = true := (Bool.and_eq_true_iff.mp h).2

theorem hasSite_of_site (h : p.isSite a = true) : p.hasSite a = true := (Bool.and_eq_true_iff.mp h).2

theorem Claim.of_unanswered (h : Claim a p cidr net) (hdevice : ¬ p.isDevice a = true)
    (hexit : ¬ p.isExitClient a = true)
    (hsite : ¬ p.isSite a = true) : p.isHub = true ∧
      (net.bits.length = 8 ∧ (Net.block [10]).contains a = true ∨
        net.bits.length = 16 ∧ (Net.block [172,24]).contains a = true) := by
  cases h with
  | device h => exact absurd h hdevice
  | exitClient h => exact absurd h hexit
  | gateway h => exact absurd h hsite
  | network h => exact absurd h hsite
  | ten hhub hlen _ hten => exact ⟨hhub,.inl ⟨hlen,hten⟩⟩
  | services hhub hlen _ hservices => exact ⟨hhub,.inr ⟨hlen,hservices⟩⟩

theorem route_site (hscheme : Scheme peersDoc clientsDoc id hub)
    (hperm : peers.Perm (PlannedPeers peersDoc clientsDoc)) (hv4 : a.family = .v4)
    (hdevice : ∀ q ∈ PlannedPeers peersDoc clientsDoc, ¬ q.isDevice a = true)
    (hexit : ∀ q ∈ PlannedPeers peersDoc clientsDoc, ¬ q.isExitClient a = true)
    (hp : p ∈ PlannedPeers peersDoc clientsDoc) (hsite : p.hasSite a = true) : cryptoRoute peers a = some p := by
  obtain ⟨cidr,hcidr,hother,net,hparse,hin⟩ := hasSite_bits hsite
  refine route_eq_some hscheme hperm hp hcidr hparse hin fun q hq cidr' hcidr' m hparse' hm => ?_
  cases claim_cases hscheme hp hcidr hparse hin hv4 with
  | device h => exact absurd h (hdevice p hp)
  | exitClient h => exact absurd h (hexit p hp)
  | gateway _ hlen _ _ =>
    rw [hlen]
    exact length_le_of_contains hv4 hm
  | network _ hlen _ hten =>
    cases claim_cases hscheme hq hcidr' hparse' hm hv4 with
    | device h => exact absurd h (hdevice q hq)
    | exitClient h => exact absurd h (hexit q hq)
    | gateway _ _ _ hservices => exact (not_ten_services hv4 hten hservices).elim
    | network _ hlen' _ _ => omega
    | ten _ hlen' _ _ => omega
    | services _ _ _ hservices => exact (not_ten_services hv4 hten hservices).elim
  | ten _ _ hhub _ => exact absurd hhub hother
  | services _ _ hhub _ => exact absurd hhub hother

theorem route_hub (hscheme : Scheme peersDoc clientsDoc id hub)
    (hperm : peers.Perm (PlannedPeers peersDoc clientsDoc)) (hv4 : a.family = .v4)
    (hmesh : (Net.block [10]).contains a = true ∨ (Net.block [172,24]).contains a = true)
    (hclaim : ∀ q ∈ PlannedPeers peersDoc clientsDoc, ∀ cidr ∈ q.allowedIPs, ∀ m, Net.parse cidr = some m →
      m.contains a = true → m.bits.length = 8 ∧ (Net.block [10]).contains a = true ∨
        m.bits.length = 16 ∧ (Net.block [172,24]).contains a = true)
    (hp : p ∈ PlannedPeers peersDoc clientsDoc) (hhub : p.isHub = true) : cryptoRoute peers a = some p := by
  obtain ⟨hten,hservices⟩ := isHub_lists hhub
  rcases hmesh with hin | hin
  · refine route_eq_some hscheme hperm hp hten parse_hub.1 hin fun q hq cidr hcidr m hparse hm => ?_
    have hlen : (Net.block [10]).bits.length = 8 := length_block (by simp)
    rcases hclaim q hq cidr hcidr m hparse hm with ⟨hlen',-⟩ | ⟨-,hin'⟩
    · omega
    · exact (not_ten_services hv4 hin hin').elim
  · refine route_eq_some hscheme hperm hp hservices parse_hub.2 hin fun q hq cidr hcidr m hparse hm => ?_
    have hlen : (Net.block [172,24]).bits.length = 16 := length_block (by simp)
    rcases hclaim q hq cidr hcidr m hparse hm with ⟨-,hin'⟩ | ⟨hlen',-⟩
    · exact (not_ten_services hv4 hin' hin).elim
    · omega

theorem route_addressee (hscheme : Scheme peersDoc clientsDoc id hub)
    (hperm : peers.Perm (PlannedPeers peersDoc clientsDoc)) (hmesh : InMesh a) :
    cryptoRoute peers a = addressee (PlannedPeers peersDoc clientsDoc) a := by
  obtain ⟨hv4,hmesh⟩ := inMesh_cases hmesh
  unfold addressee
  cases hdevice : (PlannedPeers peersDoc clientsDoc).find? (Peer.isDevice a) with
  | some p =>
    have hhost := hasHost_of_device (List.find?_some hdevice)
    exact route_host hscheme hperm (List.mem_of_find?_eq_some hdevice) hv4 hhost
  | none =>
  cases hexit : (PlannedPeers peersDoc clientsDoc).find? (Peer.isExitClient a) with
  | some p =>
    have hhost := hasHost_of_exitClient (List.find?_some hexit)
    exact route_host hscheme hperm (List.mem_of_find?_eq_some hexit) hv4 hhost
  | none =>
  rw [List.find?_eq_none] at hdevice hexit
  cases hsite : (PlannedPeers peersDoc clientsDoc).find? (Peer.isSite a) with
  | some p =>
    have hin := hasSite_of_site (List.find?_some hsite)
    exact route_site hscheme hperm hv4 hdevice hexit (List.mem_of_find?_eq_some hsite) hin
  | none =>
  rw [List.find?_eq_none] at hsite
  have hclaim : ∀ q ∈ PlannedPeers peersDoc clientsDoc, ∀ cidr ∈ q.allowedIPs, ∀ m, Net.parse cidr = some m →
      m.contains a = true → q.isHub = true ∧ _ := fun q hq cidr hcidr m hparse hm =>
    (claim_cases hscheme hq hcidr hparse hm hv4).of_unanswered (hdevice q hq) (hexit q hq) (hsite q hq)
  cases hhub : (PlannedPeers peersDoc clientsDoc).find? Peer.isHub with
  | some p =>
    refine route_hub hscheme hperm hv4 hmesh ?_ (List.mem_of_find?_eq_some hhub) (List.find?_some hhub)
    exact fun q hq cidr hcidr m hparse hm => (hclaim q hq cidr hcidr m hparse hm).2
  | none =>
    rw [List.find?_eq_none] at hhub
    refine route_eq_none hscheme hperm fun q hq cidr hcidr m hparse hm => ?_
    exact hhub q hq (hclaim q hq cidr hcidr m hparse hm).1

end Routes

section Plans

variable {peersDoc : PeersDoc} {clientsDoc : Option ClientsDoc} {id : PeerDoc → Value} {hub : PeerDoc → Bool}
  {conf : MeshConf} {site : Option SiteDoc} {plan : Plan}

theorem crypto_routing (hscheme : Scheme peersDoc clientsDoc id hub)
    (hplan : planReconcile conf (some peersDoc) clientsDoc site = .ok (.ready plan)) :
    (∀ p ∈ plan.peers, ∀ cidr ∈ p.allowedIPs, ∃ net, Net.parse cidr = some net) ∧ plan.peers.Pairwise Apart ∧
      ∀ peers, peers.Perm plan.peers → ∀ a, InMesh a → cryptoRoute peers a = addressee plan.peers a := by
  have hpeers : plan.peers = PlannedPeers peersDoc clientsDoc := (planReconcile_ready hplan).1
  rw [hpeers]
  refine ⟨fun p hp cidr hcidr => ?_,apart_planned hscheme,fun peers hperm a ha => route_addressee hscheme hperm ha⟩
  obtain ⟨ns,hparse,-⟩ := block_planned hscheme hp hcidr
  exact ⟨Net.block ns,hparse⟩

def hubbedDoc : PeersDoc where
  localSiteId := .ofInt 2
  peers := some [
    { siteId := .ofInt 1, publicKey := some "hub",
      allowedIps := some ["172.24.0.1/32","10.1.0.0/16","10.0.0.0/8","172.24.0.0/16"] },
    { siteId := .ofInt 5, publicKey := some "branch", allowedIps := some ["172.24.0.5/32","10.5.0.0/16"] }]
  exitPeers := some [{ siteId := .ofInt 5, publicKey := some "visitor", allowedIps := some ["10.5.128.9/32"] }]

def tabletDoc : ClientsDoc where
  clients := some [{ publicKey := some "tablet", assignedIp := some "10.2.200.7" }]

theorem hubbed_scheme : Scheme hubbedDoc (some tabletDoc) PeerDoc.siteId (·.publicKey == some "hub") where
  sites := by
    simp only [hubbedDoc, Option.getD_some, List.forall_mem_cons, List.not_mem_nil, IsEmpty.forall_iff, implies_true,
      and_true]
    refine ⟨⟨["172.24.0.1/32","10.1.0.0/16"],_,rfl,rfl,fun cidr => ?_⟩,
      ["172.24.0.5/32","10.5.0.0/16"],_,rfl,rfl,fun cidr => ?_⟩
    · simp [hubAllowedIps, or_assoc]
    · simp
  remote := by decide
  distinct := by decide
  oneHub := by decide
  exits := by
    simp only [hubbedDoc, Option.getD_some, List.forall_mem_cons, List.not_mem_nil, IsEmpty.forall_iff, implies_true,
      and_true, Option.some.injEq, forall_eq']
    exact ⟨.ofInt 5,"10.5.128.9",by decide,
      pooled_of_quad (n := 5) (c := 128) (d := 9) rfl (by decide) (by decide +kernel) (by decide +kernel),rfl⟩
  exitsDistinct := List.pairwise_singleton _ _
  devices := by
    simp only [clientsOf, tabletDoc, Option.bind_some, Option.getD_some, List.forall_mem_cons, List.not_mem_nil,
      IsEmpty.forall_iff, implies_true, and_true]
    rintro ip hip
    obtain rfl : "10.2.200.7" = ip := Option.some.inj hip
    exact pooled_of_quad (n := 2) (c := 200) (d := 7) rfl (by decide) (by decide +kernel) (by decide +kernel)
  devicesDistinct := List.pairwise_singleton _ _

theorem crypto_routing_hub : ∃ plan, planReconcile wgMesh (some hubbedDoc) (some tabletDoc) none = .ok (.ready plan) ∧
    plan.peers.Pairwise Apart ∧ ∀ peers, peers.Perm plan.peers →
      (cryptoRoute peers (.quad 10 2 200 7)).map Peer.publicKey = some "tablet" ∧
      (cryptoRoute peers (.quad 10 5 128 9)).map Peer.publicKey = some "visitor" ∧
      (cryptoRoute peers (.quad 10 5 128 8)).map Peer.publicKey = some "branch" ∧
      (cryptoRoute peers (.quad 172 24 0 9)).map Peer.publicKey = some "hub" := by
  obtain ⟨plan,hplan⟩ : ∃ plan, planReconcile wgMesh (some hubbedDoc) (some tabletDoc) none = .ok (.ready plan) :=
    ⟨_,rfl⟩
  obtain ⟨-,hapart,hroute⟩ := crypto_routing hubbed_scheme hplan
  refine ⟨plan,hplan,hapart,fun peers hperm => ?_⟩
  have hten : ∀ x y z, Octets 10 x y z → InMesh (.quad 10 x y z) := fun x y z h =>
    ⟨_,by simp [hubAllowedIps],_,parse_hub.1,(contains_block (by simp) (by simp) h).mpr ⟨[x,y,z],rfl⟩⟩
  have hservices : InMesh (.quad 172 24 0 9) := ⟨_,by simp [hubAllowedIps],_,parse_hub.2,by decide +kernel⟩
  rw [hroute peers hperm _ (hten 2 200 7 ⟨by decide,by decide,by decide,by decide⟩),
    hroute peers hperm _ (hten 5 128 9 ⟨by decide,by decide,by decide,by decide⟩),
    hroute peers hperm _ (hten 5 128 8 ⟨by decide,by decide,by decide,by decide⟩), hroute peers hperm _ hservices]
  cases hplan
  decide +kernel

end Plans

section Interface

variable {peersDoc : PeersDoc} {clientsDoc : Option ClientsDoc} {id : PeerDoc → Value} {hub : PeerDoc → Bool}
  {conf : MeshConf} {site : Option SiteDoc} {plan : Plan} {ps : OrdMap String WgPeer} {a : Addr}

def wgRoute (ps : OrdMap String WgPeer) (a : Addr) : Option String :=
  Net.longest (ps.entries.flatMap fun e => e.2.allowedIPs.map fun net => (net,e.1)) a

theorem wgRoute_addressee (hscheme : Scheme peersDoc clientsDoc id hub)
    (hholds : ∀ p ∈ PlannedPeers peersDoc clientsDoc, Holds ps p)
    (honly : ∀ key ∈ ps.keys, key ∈ (PlannedPeers peersDoc clientsDoc).map Peer.publicKey) (hmesh : InMesh a) :
    wgRoute ps a = (addressee (PlannedPeers peersDoc clientsDoc) a).map Peer.publicKey := by
  have hfun := functional_claims hscheme (List.Perm.refl (PlannedPeers peersDoc clientsDoc))
  have hmem : ∀ net key, (net,key) ∈ (ps.entries.flatMap fun e => e.2.allowedIPs.map fun net => (net,e.1)) ↔
      ∃ p, (net,p) ∈ Net.claimAll ((PlannedPeers peersDoc clientsDoc).flatMap Peer.claims) ∧ p.publicKey = key := by
    intro net key
    simp only [Net.mem_claimAll hfun, mem_claims]
    simp only [List.mem_flatMap, List.mem_map, Prod.mk.injEq]
    constructor
    · rintro ⟨⟨key,peer⟩,hentry,net,hnet,rfl,rfl⟩
      have hget := OrdMap.mem_entries_iff.mp hentry
      obtain ⟨p,hp,hkey⟩ := List.mem_map.mp (honly key (OrdMap.mem_keys_iff.mpr ⟨peer,hget⟩))
      obtain ⟨peer',hget',hlists⟩ := hholds p hp
      obtain rfl := Option.some.inj (hget.symm.trans (hkey ▸ hget'))
      exact ⟨p,⟨hp,(hlists net).mp hnet⟩,hkey⟩
    · rintro ⟨p,⟨hp,hlists⟩,rfl⟩
      obtain ⟨peer,hget,hips⟩ := hholds p hp
      exact ⟨(p.publicKey,peer),OrdMap.mem_entries_iff.mpr hget,net,(hips net).mpr hlists,rfl,rfl⟩
  rw [← route_addressee hscheme (List.Perm.refl _) hmesh]
  refine Net.longest_map (fun net key key' hkey hkey' => ?_) hmem
  obtain ⟨p,hp,rfl⟩ := (hmem net key).mp hkey
  obtain ⟨q,hq,rfl⟩ := (hmem net key').mp hkey'
  rw [hfun net p q ((Net.mem_claimAll hfun).mp hp) ((Net.mem_claimAll hfun).mp hq)]

theorem disjoint_planned (hscheme : Scheme peersDoc clientsDoc id hub) :
    Disjoint (PlannedPeers peersDoc clientsDoc) := by
  intro p hp q hq hkey net hlists hlists'
  have hpq : p = q := functional_claims hscheme (List.Perm.refl _) net p q (mem_claims.mpr ⟨hp,hlists⟩)
    (mem_claims.mpr ⟨hq,hlists'⟩)
  exact hkey (congrArg Peer.publicKey hpq)

theorem wgRoute_applyPlan (hscheme : Scheme peersDoc clientsDoc id hub)
    (hplan : planReconcile conf (some peersDoc) clientsDoc site = .ok (.ready plan))
    (hkeys : (plan.peers.map Peer.publicKey).Nodup) {privateKey : String} {w w₁ : World}
    (hup : bringUp conf plan privateKey w = .ok () w₁)
    (hF : RejectsExactly conf.IFACE plan.peers (fun _ => false) w.faults) (hmesh : InMesh a) :
    wgRoute ((final (applyPlan conf plan privateKey w)).box.peers conf.IFACE) a =
      (addressee plan.peers a).map Peer.publicKey := by
  have hpeers : plan.peers = PlannedPeers peersDoc clientsDoc := (planReconcile_ready hplan).1
  obtain ⟨ps,hplaced,hpruned⟩ := applyPlan_carries hup hF
  have hplaced := hplaced ⟨hkeys,hpeers ▸ disjoint_planned hscheme⟩
  have hholds : ∀ p ∈ plan.peers, Holds ((final (applyPlan conf plan privateKey w)).box.peers conf.IFACE) p := by
    intro p hp
    obtain ⟨peer,hget,hips⟩ := hplaced.holds p hp rfl
    exact ⟨peer,(hpruned.kept _ (List.mem_map_of_mem hp)).trans hget,hips⟩
  have honly := hpruned.listed
  rw [hpeers] at hholds honly ⊢
  exact wgRoute_addressee hscheme hholds honly hmesh

end Interface

end JumpHost.Mesh
