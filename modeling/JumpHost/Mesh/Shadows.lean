import JumpHost.Mesh.Blocks
import JumpHost.Mesh.Netmaps
import JumpHost.Mesh.Peers
import JumpHost.Mesh.Requests

namespace JumpHost.Mesh

section Text

variable {siteId : Value} {slot n c d : Nat} {shadow : String}

theorem quad_inj {ns ms : List Nat} (hns : ns ≠ []) (hms : ms ≠ []) (h : Net.quad ns = Net.quad ms) : ns = ms := by
  have hsplit := congrArg (List.splitOn '.') h
  rw [Net.splitOn_quad hns, Net.splitOn_quad hms] at hsplit
  exact List.map_injective_iff.mpr (fun _ _ => Text.toDigits_inj) hsplit

theorem dots_split {cs : List Char} (k : Nat) :
    ('1' :: '0' :: '.' :: (cs ++ '.' :: (Nat.toDigits 10 k ++ '.' :: ['0']))).splitOn '.' =
      ['1','0'] :: (cs.splitOn '.' ++ [Nat.toDigits 10 k,['0']]) := by
  have hten : '1' :: '0' :: '.' :: (cs ++ '.' :: (Nat.toDigits 10 k ++ '.' :: ['0'])) =
      ['1','0'] ++ '.' :: (cs ++ '.' :: (Nat.toDigits 10 k ++ '.' :: ['0'])) := rfl
  rw [hten, List.splitOn_append_cons_self, List.splitOn_append_cons_self, List.splitOn_append_cons_self,
    List.splitOn_eq_singleton (Net.not_mem_toDigits rfl k)]
  rfl

theorem quad_of_dots {cs : List Char} {k w x y z : Nat}
    (h : '1' :: '0' :: '.' :: (cs ++ '.' :: (Nat.toDigits 10 k ++ '.' :: ['0'])) = Net.quad [w,x,y,z]) :
    w = 10 ∧ cs = Nat.toDigits 10 x ∧ y = k ∧ z = 0 := by
  have hsplit := congrArg (List.splitOn '.') h
  rw [dots_split, Net.splitOn_quad (by simp)] at hsplit
  have hlen := congrArg List.length hsplit
  obtain ⟨part,hpart⟩ : ∃ part, cs.splitOn '.' = [part] := by
    refine List.length_eq_one_iff.mp ?_
    simpa using hlen
  have hcs : ['.'].intercalate (cs.splitOn '.') = cs := List.intercalate_splitOn '.'
  rw [hpart] at hsplit hcs
  obtain rfl : part = cs := by simpa [List.intercalate] using hcs
  simp only [List.map_cons, List.map_nil, List.cons_append, List.nil_append, List.cons.injEq, and_true] at hsplit
  obtain ⟨hw,hx,hy,hz⟩ := hsplit
  have hten : ['1','0'] = Nat.toDigits 10 10 := rfl
  have hzero : ['0'] = Nat.toDigits 10 0 := rfl
  exact ⟨Text.toDigits_inj (hw.symm.trans hten),hx,Text.toDigits_inj hy.symm,Text.toDigits_inj (hz.symm.trans hzero)⟩

theorem shadowCidr_eq (h : shadowCidr siteId slot = .ok shadow) :
    shadow = "10." ++ siteId.text ++ "." ++ toString slot ++ ".0/24" := by
  unfold shadowCidr at h
  split at h
  · cases h
  · split at h
    · cases h
      rfl
    · cases h

theorem toList_shadow (h : shadowCidr siteId slot = .ok shadow) : shadow.toList =
    '1' :: '0' :: '.' :: (siteId.text.toList ++ '.' :: (Nat.toDigits 10 slot ++ '.' :: ['0'])) ++ '/' :: ['2','4'] := by
  rw [shadowCidr_eq h]
  simp

theorem shadow_contains (h : shadowCidr siteId slot = .ok shadow) (hslot : slot < 256) (hx : Octets 10 n c d) :
    (∃ net, Net.parse shadow = some net ∧ net.contains (.quad 10 n c d) = true) ↔
      siteId.text.toList = Nat.toDigits 10 n ∧ c = slot := by
  have hblock : ∀ m, m < 256 → ((Net.block [10,m,slot]).contains (.quad 10 n c d) = true ↔ m = n ∧ slot = c) := by
    intro m hm
    rw [contains_block (by simp) (by simp; omega) hx]
    simp
  constructor
  · rintro ⟨net,hparse,hin⟩
    obtain ⟨a,len,haddr,hlen,-,rfl⟩ := Net.of_parse_slash hparse (toList_shadow h) (by decide)
    have hdecimal : Text.decimal ['2','4'] = some 24 := by decide
    obtain rfl := Option.some.inj (hdecimal.symm.trans hlen)
    have hv4 : a.family = .v4 := eq_of_beq (Bool.and_eq_true_iff.mp hin).1
    obtain ⟨w,m,y,z,hoctets,htext,rfl⟩ := addr_text haddr hv4
    obtain ⟨rfl,hm,rfl,rfl⟩ := quad_of_dots htext
    obtain ⟨rfl,rfl⟩ := (hblock m hoctets.two).mp (ofAddr_quad 10 m y 0 3 ▸ hin)
    exact ⟨hm,rfl⟩
  · rintro ⟨hid,rfl⟩
    have htext : shadow.toList = Net.quad [10,n,c,0] ++ '/' :: Nat.toDigits 10 24 := by
      rw [toList_shadow h, hid, quad_four]
      simp
      rfl
    have hparse := (Net.parse_quad ⟨hx.one,hx.two,hx.three,by decide⟩ (by decide) htext).1
    rw [ofAddr_quad 10 n c 0 3] at hparse
    exact ⟨_,hparse,(hblock n hx.two).mpr ⟨rfl,rfl⟩⟩

end Text

section Plans

variable {peersDoc : PeersDoc} {clientsDoc : Option ClientsDoc} {site : Option SiteDoc} {siteId : Value}
  {conf : MeshConf} {plan : Plan} {p : Peer} {a : Addr}

def Plan.assigns (plan : Plan) (a : Addr) : Prop := ∃ p ∈ plan.peers, p.kind = .client ∧ p.lists (Net.host a)

def Plan.ClearOfShadows (plan : Plan) : Prop := ∀ a, plan.assigns a → ∀ m ∈ plan.netmaps, ∀ shadow,
  Net.parse m.shadow = some shadow → shadow.contains a = false

def OffShadows (siteId : Value) (clientsDoc : Option ClientsDoc) (site : Option SiteDoc) : Prop :=
  ∀ client ∈ clientsOf clientsDoc, truthy client.publicKey = true → ∀ ip, firstTruthy [client.assignedIp] = some ip →
    ∀ n c d : Nat, ip.toList = Net.quad [10,n,c,d] → siteId.text = toString (n : Int) →
      ∀ slot ∈ SHADOW_SLOTS, (lan site slot).isSome → c ≠ slot

theorem clientPeer_isSome {client : ClientDoc} {ip : String} (hkey : truthy client.publicKey = true)
    (hip : firstTruthy [client.assignedIp] = some ip) : ∃ p, clientPeer client = some p := by
  have hsome : ∃ publicKey, firstTruthy [client.publicKey] = some publicKey := by
    cases hpublicKey : client.publicKey with
    | none =>
      rw [hpublicKey] at hkey
      cases hkey
    | some publicKey =>
      rw [hpublicKey] at hkey
      exact ⟨publicKey,by rw [firstTruthy, if_pos hkey]⟩
  obtain ⟨publicKey,hpublicKey⟩ := hsome
  unfold clientPeer
  rw [hpublicKey, hip]
  exact ⟨_,rfl⟩

theorem key_of_clientPeer {client : ClientDoc} (h : clientPeer client = some p) :
    truthy client.publicKey = true := by
  unfold clientPeer at h
  split at h
  · next hkey _ =>
    unfold firstTruthy at hkey
    split at hkey
    · assumption
    · cases hkey
  · cases h

theorem clients_planned (h : planReconcile conf (some peersDoc) clientsDoc site = .ok (.ready plan)) :
    p ∈ plan.peers ∧ p.kind = .client ↔ ∃ client ∈ clientsOf clientsDoc, clientPeer client = some p := by
  rw [(planReconcile_ready h).1]
  constructor
  · rintro ⟨hp,hkind⟩
    rcases mem_planned hp with ⟨peer,-,hpeer⟩ | ⟨peer,-,hpeer⟩ | hclient
    · rw [(sitePeer_ips hpeer).1] at hkind
      cases hkind
    · rw [(exitPeer_ips hpeer).1] at hkind
      cases hkind
    · exact hclient
  · rintro ⟨client,hclient,hp⟩
    exact ⟨List.mem_append_right _ (List.mem_filterMap.mpr ⟨client,hclient,hp⟩),(clientPeer_ips hp).1⟩

theorem assigns_iff (h : planReconcile conf (some peersDoc) clientsDoc site = .ok (.ready plan)) :
    plan.assigns a ↔ ∃ client ∈ clientsOf clientsDoc, truthy client.publicKey = true ∧
      ∃ ip, firstTruthy [client.assignedIp] = some ip ∧ Net.parse (ip ++ "/32") = some (Net.host a) := by
  constructor
  · rintro ⟨p,hp,hkind,cidr,hcidr,hparse⟩
    obtain ⟨client,hclient,hp⟩ := (clients_planned h).mp ⟨hp,hkind⟩
    obtain ⟨-,ip,hip,hips⟩ := clientPeer_ips hp
    rw [hips] at hcidr
    obtain rfl := List.mem_singleton.mp hcidr
    exact ⟨client,hclient,key_of_clientPeer hp,ip,hip,hparse⟩
  · rintro ⟨client,hclient,hkey,ip,hip,hparse⟩
    obtain ⟨p,hclientPeer⟩ := clientPeer_isSome hkey hip
    obtain ⟨hp,hkind⟩ := (clients_planned h).mpr ⟨client,hclient,hclientPeer⟩
    obtain ⟨-,ip',hip',hips⟩ := clientPeer_ips hclientPeer
    obtain rfl := Option.some.inj (hip.symm.trans hip')
    exact ⟨p,hp,hkind,_,hips ▸ List.mem_singleton_self _,hparse⟩

theorem slot_lt {slot : Nat} (h : slot ∈ SHADOW_SLOTS) : slot < 256 := by
  simp only [SHADOW_SLOTS, List.mem_cons, List.not_mem_nil, or_false] at h
  omega

theorem exists_shadow {pool : String} (hpool : clientPoolCidr siteId = .ok pool) {slot : Nat}
    (hslot : slot ∈ SHADOW_SLOTS) :
    ∃ shadow, shadowCidr siteId slot = .ok shadow := by
  unfold clientPoolCidr at hpool
  unfold shadowCidr
  cases hid : assertSiteId siteId with
  | error err =>
    rw [hid] at hpool
    cases hpool
  | ok id => exact ⟨_,if_pos (List.contains_iff_mem.mpr hslot)⟩

theorem text_iff {n : Nat} {text : String} : text = toString (n : Int) ↔ text.toList = Nat.toDigits 10 n := by
  rw [← String.toList_inj, Text.toList_int]

theorem clear_of_shadows (hdevices : ∀ client ∈ clientsOf clientsDoc, ∀ ip,
      firstTruthy [client.assignedIp] = some ip → Pooled peersDoc.localSiteId ip)
    (hplan : planReconcile conf (some peersDoc) clientsDoc site = .ok (.ready plan)) :
    plan.ClearOfShadows ↔ OffShadows peersDoc.localSiteId clientsDoc site := by
  have hnetmaps : planNetmaps peersDoc.localSiteId site = .ok plan.netmaps := (planReconcile_ready hplan).2
  constructor
  · rintro hclear client hclient hkey ip hip n c d htext hid slot hslot hlan rfl
    have hpooled := hdevices client hclient ip hip
    obtain ⟨n',c',d',-,-,hoctets,htext'⟩ := hpooled.quad
    obtain ⟨pool,-,-,hpool,-⟩ := hpooled
    obtain ⟨rfl,rfl,rfl⟩ : n = n' ∧ c = c' ∧ d = d' := by
      simpa using quad_inj (by simp) (by simp) (htext.symm.trans htext')
    have hassigns : plan.assigns (.quad 10 n c d) :=
      (assigns_iff hplan).mpr ⟨client,hclient,hkey,ip,hip,host_quad 10 n c d ▸ parse_device hoctets htext⟩
    obtain ⟨shadow,hshadow⟩ := exists_shadow hpool hslot
    obtain ⟨physical,hphysical⟩ := Option.isSome_iff_exists.mp hlan
    have hm : (⟨c,shadow,physical⟩ : Netmap) ∈ plan.netmaps := (mem_planNetmaps hnetmaps).mpr ⟨hslot,hphysical,hshadow⟩
    obtain ⟨net,hparse,hin⟩ := (shadow_contains hshadow (slot_lt hslot) hoctets).mpr ⟨text_iff.mp hid,rfl⟩
    rw [hclear _ hassigns _ hm net hparse] at hin
    cases hin
  · intro hoff a hassigns m hm shadow hparse
    obtain ⟨client,hclient,hkey,ip,hip,hhost⟩ := (assigns_iff hplan).mp hassigns
    obtain ⟨n,c,d,-,-,hoctets,htext⟩ := (hdevices client hclient ip hip).quad
    have hblock : Net.host (.quad 10 n c d) = Net.host a := by
      rw [host_quad]
      exact Option.some.inj ((parse_device hoctets htext).symm.trans hhost)
    obtain rfl : a = .quad 10 n c d := Net.contains_host.mp (hblock ▸ Net.contains_host.mpr rfl)
    obtain ⟨hslot,hphysical,hshadow⟩ := (mem_planNetmaps hnetmaps).mp hm
    refine Bool.eq_false_iff.mpr fun hin => ?_
    obtain ⟨hid,hc⟩ := (shadow_contains hshadow (slot_lt hslot) hoctets).mp ⟨shadow,hparse,hin⟩
    have hlan : (lan site m.slot).isSome := Option.isSome_iff_exists.mpr ⟨m.physical,hphysical⟩
    exact hoff client hclient hkey ip hip n c d htext (text_iff.mpr hid) m.slot hslot hlan hc

theorem rewrites_none_iff {b : Box} (hblocks : ∀ m ∈ plan.netmaps, m.blocks.isSome)
    (h : Converged conf plan.netmaps b) : (∀ a, plan.assigns a → ∀ s physical,
      inbound conf.IFACE s physical ∈ b.iptables → s.contains a = false) ↔ plan.ClearOfShadows := by
  constructor
  · intro hnone a hassigns m hm shadow hparse
    obtain ⟨⟨s,physical⟩,hsp⟩ := Option.isSome_iff_exists.mp (hblocks m hm)
    obtain rfl := Option.some.inj ((Netmap.blocks_eq_some.mp hsp).1.symm.trans hparse)
    exact hnone a hassigns s physical (h.planned m hm s physical hsp).inbound
  · intro hclear a hassigns s physical hmem
    obtain ⟨m,hm,hsp⟩ : ∃ m ∈ plan.netmaps, m.blocks = some (s,physical) := by
      by_contra hother
      push Not at hother
      exact (h.others s physical hother).1 hmem
    exact hclear a hassigns m hm s (Netmap.blocks_eq_some.mp hsp).1

end Plans

section Desk

def loneDoc : PeersDoc := { localSiteId := .ofInt 1 }

def lanSite : SiteDoc := { siteId := .ofInt 1, lan168 := some "192.168.1.0/24" }

def deskAt (ip : String) : ClientsDoc := { clients := some [{ publicKey := some "desk", assignedIp := some ip }] }

theorem pooled_desk {ip desk : String} {client : ClientDoc} {c d : Nat}
    (hclient : client ∈ clientsOf (some (deskAt desk)))
    (hip : firstTruthy [client.assignedIp] = some ip) (hdesk : Text.addr desk.toList = some (.quad 10 1 c d))
    (hin : (Net.ofAddr (.quad 10 1 128 0) 17).contains (.quad 10 1 c d) = true) : Pooled (.ofInt 1) ip := by
  obtain rfl := List.mem_singleton.mp hclient
  rw [firstTruthy] at hip
  split at hip
  · obtain rfl := Option.some.inj hip
    exact pooled_of_quad (n := 1) rfl (by decide) hdesk hin
  · cases hip

theorem clear_of_shadows_desk : ∃ plan,
    planReconcile wgMesh (some loneDoc) (some (deskAt "10.1.128.5")) (some lanSite) = .ok (.ready plan) ∧
    plan.netmaps ≠ [] ∧ plan.ClearOfShadows := by
  obtain ⟨plan,hplan,hnetmaps⟩ : ∃ plan, planReconcile wgMesh (some loneDoc) (some (deskAt "10.1.128.5"))
      (some lanSite) = .ok (.ready plan) ∧ plan.netmaps ≠ [] := ⟨_,rfl,List.cons_ne_nil _ _⟩
  refine ⟨plan,hplan,hnetmaps,(clear_of_shadows (fun client hclient ip hip => ?_) hplan).mpr ?_⟩
  · exact pooled_desk (c := 128) (d := 5) hclient hip (by decide +kernel) (by decide +kernel)
  · intro client hclient _ ip hip n c d htext _ slot hslot _
    obtain rfl := List.mem_singleton.mp hclient
    obtain rfl : "10.1.128.5" = ip := Option.some.inj hip
    have hquad : "10.1.128.5".toList = Net.quad [10,1,128,5] := by decide +kernel
    have hoctets := quad_inj (by simp) (by simp) (hquad.symm.trans htext)
    simp only [List.cons.injEq] at hoctets
    simp only [SHADOW_SLOTS, List.mem_cons, List.not_mem_nil, or_false] at hslot
    omega

theorem shadow_over_desk : (∀ client ∈ clientsOf (some (deskAt "10.1.168.5")), ∀ ip,
      firstTruthy [client.assignedIp] = some ip → Pooled loneDoc.localSiteId ip) ∧
    (clientsOf (some (deskAt "10.1.168.5"))).Pairwise (fun client client' => client.assignedIp ≠ client'.assignedIp) ∧
    ∃ plan, planReconcile wgMesh (some loneDoc) (some (deskAt "10.1.168.5")) (some lanSite) = .ok (.ready plan) ∧
      ¬ plan.ClearOfShadows := by
  obtain ⟨plan,hplan,hmem⟩ : ∃ plan, planReconcile wgMesh (some loneDoc) (some (deskAt "10.1.168.5"))
      (some lanSite) = .ok (.ready plan) ∧ ⟨168,"10.1.168.0/24","192.168.1.0/24"⟩ ∈ plan.netmaps :=
    ⟨_,rfl,List.mem_singleton_self _⟩
  refine ⟨fun client hclient ip hip => ?_,List.pairwise_singleton _ _,plan,hplan,fun hclear => ?_⟩
  · exact pooled_desk (c := 168) (d := 5) hclient hip (by decide +kernel) (by decide +kernel)
  · have hhost : Net.parse "10.1.168.5/32" = some (Net.host (.quad 10 1 168 5)) := by decide +kernel
    have hassigns : plan.assigns (.quad 10 1 168 5) :=
      (assigns_iff hplan).mpr ⟨_,List.mem_singleton_self _,rfl,"10.1.168.5",rfl,hhost⟩
    have hparse : Net.parse "10.1.168.0/24" = some (Net.block [10,1,168]) := by decide +kernel
    have hout := hclear _ hassigns _ hmem _ hparse
    have hin : (Net.block [10,1,168]).contains (.quad 10 1 168 5) = true := by decide +kernel
    rw [hin] at hout
    cases hout

end Desk

end JumpHost.Mesh
