import JumpHost.Mesh.MainTable
import JumpHost.Mesh.Peers

namespace JumpHost.Mesh

open Effect

section Held

variable {d key : String} {net : Net} {b b' : Box} {c : Cmd} {wanted : List String}

def Box.holds (b : Box) (d key : String) (net : Net) : Prop :=
  ∃ peer, (b.peers d).get? key = some peer ∧ net ∈ peer.allowedIPs

def Box.freeOf (b : Box) (d : String) (wanted : List String) (net : Net) : Prop :=
  ∀ key, key ∉ wanted → ¬ b.holds d key net

theorem key_of_holds (h : b.holds d key net) : key ∈ (b.peers d).keys := by
  obtain ⟨peer,hget,-⟩ := h
  exact OrdMap.mem_keys_iff.mpr ⟨peer,hget⟩

theorem peers_wgSetPeer {ips : List String} {endpoint : Option String} {keepalive : Option Nat}
    (h : b.step (.wgSetPeer d key ips endpoint keepalive) = .ok b') : ∃ nets,
      ips.mapM Net.parse = some nets ∧ b'.peers d = assignPeer (b.peers d) key nets endpoint keepalive := by
  obtain ⟨link,hlink,hb⟩ := onLink_ok h
  split at hb
  · cases hb
  · next nets hnets =>
    cases hb
    refine ⟨nets,hnets,?_⟩
    simp [Box.peers, Box.peersOn, OrdMap.get?_set_self, hlink, Link.setPeer]

theorem peers_wgRemovePeer (h : b.step (.wgRemovePeer d key) = .ok b') :
    b'.peers d = (b.peers d).delete key := by
  obtain ⟨link,hlink,hb⟩ := onLink_ok h
  cases hb
  simp [Box.peers, Box.peersOn, OrdMap.get?_set_self, hlink, Link.removePeer]

theorem peers_gone (h : b.step (.linkDel d) = .ok b') : b'.peers d = OrdMap.empty := by
  obtain ⟨link,-,hb⟩ := onLink_ok h
  cases hb
  have hgone : (b.links.delete d).get? d = none := by
    rw [OrdMap.get?_eq_none_iff, OrdMap.mem_keys_delete]
    exact fun hmem => hmem.2 rfl
  simp [Box.peers, Box.peersOn, hgone]

theorem holds_step (h : b.step c = .ok b') (hb : b'.holds d key net) : b.holds d key net ∨
    ∃ ips endpoint keepalive, c = .wgSetPeer d key ips endpoint keepalive := by
  by_cases hc : c.sparesPeers d
  · rw [Box.holds, peers_step hc h] at hb
    exact .inl hb
  · obtain ⟨peer,hget,hnet⟩ := hb
    cases c <;> simp [Cmd.sparesPeers] at hc
    case linkDel dev =>
      subst hc
      rw [peers_gone h] at hget
      cases hget
    case wgSetPeer dev k ips endpoint keepalive =>
      subst hc
      obtain ⟨nets,-,hpeers⟩ := peers_wgSetPeer h
      by_cases hkey : key = k
      · exact .inr ⟨_,_,_,by rw [hkey]⟩
      · rw [hpeers, get?_assignPeer_of_ne hkey] at hget
        obtain ⟨old,hold,rfl⟩ := Option.map_eq_some_iff.mp hget
        exact .inl ⟨old,hold,(List.mem_filter.mp hnet).1⟩
    case wgRemovePeer dev k =>
      subst hc
      rw [peers_wgRemovePeer h] at hget
      by_cases hkey : key = k
      · subst hkey
        have hgone := OrdMap.mem_keys_iff.mpr ⟨peer,hget⟩
        exact absurd rfl (OrdMap.mem_keys_delete.mp hgone).2
      · rw [OrdMap.get?_delete_of_ne hkey] at hget
        exact .inl ⟨peer,hget,hnet⟩

def Cmd.setsIn (d : String) (wanted : List String) (c : Cmd) : Prop :=
  ∀ key ips endpoint keepalive, c = .wgSetPeer d key ips endpoint keepalive → key ∈ wanted

theorem stable_freeOf (d : String) (wanted : List String) (net : Net) :
    Stable (fun w => w.box.freeOf d wanted net) (Cmd.setsIn d wanted) := by
  refine stable_box (I := fun b => b.freeOf d wanted net) fun b c b' hc h hb key hkey hholds => ?_
  rcases holds_step h hholds with hold | ⟨_,_,_,rfl⟩
  · exact hb key hkey hold
  · exact hkey (hc _ _ _ _ rfl)

def Cmd.leavesHeld (d key : String) (net : Net) : Cmd → Prop
  | .wgSetPeer dev k ips _ _ => dev = d → k ≠ key ∧ ∀ cidr ∈ ips, Net.parse cidr ≠ some net
  | .wgRemovePeer dev k => dev = d → k ≠ key
  | .linkDel dev => dev ≠ d
  | _ => True

theorem stable_holds (d key : String) (net : Net) :
    Stable (fun w => w.box.holds d key net) (Cmd.leavesHeld d key net) := by
  refine stable_box (I := fun b => b.holds d key net) fun b c b' hc h hb => ?_
  by_cases hspare : c.sparesPeers d
  · rwa [Box.holds, peers_step hspare h]
  · obtain ⟨peer,hget,hnet⟩ := hb
    cases c <;> simp [Cmd.sparesPeers] at hspare
    case linkDel dev => exact absurd hspare hc
    case wgSetPeer dev k ips endpoint keepalive =>
      subst hspare
      obtain ⟨hkey,hips⟩ := hc rfl
      obtain ⟨nets,hnets,hpeers⟩ := peers_wgSetPeer h
      refine ⟨_,by rw [hpeers, get?_assignPeer_of_ne (Ne.symm hkey), hget]; rfl,List.mem_filter.mpr ⟨hnet,?_⟩⟩
      have hnot : net ∉ nets := fun hmem => by
        obtain ⟨cidr,hcidr,hparse⟩ := (mem_mapM hnets net).mp hmem
        exact hips cidr hcidr hparse
      simpa using hnot
    case wgRemovePeer dev k =>
      subst hspare
      refine ⟨peer,?_,hnet⟩
      rw [peers_wgRemovePeer h, OrdMap.get?_delete_of_ne (Ne.symm (hc rfl)), hget]

end Held

section Peer

variable {d : String} {net : Net} {w w' : World}

theorem addRoute_routed {cidr message : String} {new : Bool} (hw : Quiet w) (hlink : d ∈ w.box.links.keys)
    (hnet : Net.parse cidr = some net) (hclear : w.box.clearFor d net)
    (h : addRoute cidr d message w = .ok new w') : w'.box.routed d net := by
  obtain ⟨link,hlink⟩ := OrdMap.mem_keys_iff.mp hlink
  have hstep : w.box.step (.routeAdd cidr d) =
      if Box.hostBits cidr then Box.refuse "RTNETLINK answers: Invalid argument"
      else if link.up then w.box.addRoute (mainRoute d net)
      else Box.refuse "RTNETLINK answers: Network is down" := by
    simp only [Box.step, Box.onPrefix, Box.onNet, hnet, Box.onUp, Box.onLink, hlink, mainRoute]
  unfold addRoute at h
  cases hres : w.box.step (.routeAdd cidr d) with
  | ok b' =>
    rw [bind_of_ok (tryRun_quiet hw hres)] at h
    cases h
    rw [hstep] at hres
    split at hres
    · cases hres
    · split at hres
      · rw [Box.routed, (addRoute_ok hres).2]
        simp
      · cases hres
  | error failed =>
    rw [bind_of_ok (tryRun_refused hw hres)] at h
    simp only at h
    split at h
    · next hexists =>
      cases h
      rw [hstep] at hres
      split at hres
      · cases hres
        exact absurd hexists (by decide)
      · split at hres
        · unfold Box.addRoute at hres
          split at hres
          · next htaken =>
            obtain ⟨r,hr,hsame⟩ := List.any_eq_true.mp htaken
            obtain ⟨htable,hnet'⟩ := of_decide_eq_true hsame
            have hdev := hclear r hr htable hnet'
            have hmain : r = mainRoute d net := by
              obtain ⟨table,net',dev⟩ := r
              simp_all [mainRoute]
            rwa [Box.routed, ← hmain]
          · cases hres
        · cases hres
          exact absurd hexists (by decide)
    · cases h

theorem ensureRoute_routed {cidr : String} {new : Bool} (hw : Quiet w) (hlink : d ∈ w.box.links.keys)
    (hnet : Net.parse cidr = some net) (hclear : w.box.clearFor d net)
    (h : ensureRoute cidr d w = .ok new w') : w'.box.routed d net := by
  obtain ⟨link,hget⟩ := OrdMap.mem_keys_iff.mp hlink
  have hstep : w.box.step (.routeShow cidr d) = .ok w.box := by
    simp only [Box.step, Box.onNet, hnet, Box.onLink, hget]
  have hshow : query (.routeShow cidr d) (fun b => (b.routesTo MAIN cidr).filter fun r => r.dev = d) w =
      .ok (.ok ((w.box.routesTo MAIN cidr).filter fun r => r.dev = d)) w := by
    rw [query, bind_of_ok (tryRun_quiet hw hstep)]
    rfl
  unfold ensureRoute at h
  rw [bind_of_ok hshow] at h
  cases hfound : (w.box.routesTo MAIN cidr).filter fun r => r.dev = d with
  | nil =>
    simp only [hfound] at h
    exact addRoute_routed hw hlink hnet hclear h
  | cons r rest =>
    simp only [hfound] at h
    cases h
    have hmem : r ∈ (w.box.routesTo MAIN cidr).filter fun r => r.dev = d := by
      rw [hfound]
      exact List.mem_cons_self
    simp only [Box.routesTo, List.mem_filter, decide_eq_true_eq, hnet, Option.some.injEq] at hmem
    obtain ⟨⟨hr,htable,rfl⟩,hdev⟩ := hmem
    have hmain : r = mainRoute d r.net := by
      obtain ⟨table,net',dev⟩ := r
      simp_all [mainRoute]
    rwa [Box.routed, ← hmain]

theorem query_box {α : Type} {c : Cmd} {output : Box → α} {res : Except Failed α} (hc : c.reads = true)
    (h : query c output w = .ok res w') : ∀ out, res = .ok out → out = output w.box := by
  obtain ⟨res',w₁,hrun,-,hres⟩ := tryRun_cases c w
  rw [query, bind_of_ok hrun] at h
  cases h
  intro out hout
  rcases hres with ⟨-,failed,rfl⟩ | ⟨rfl,-,hstep⟩
  · cases hout
  · cases hout
    rw [step_reads hc hstep]

theorem allowedIPs_free {key cidr : String} (hfree : ¬ w.box.holds d key net)
    (hcidr : cidr ∈ w.box.allowedIPs d key) : Net.parse cidr ≠ some net := by
  unfold Box.allowedIPs at hcidr
  split at hcidr
  · cases hcidr
  · next peer hpeer =>
    obtain ⟨net',hnet',rfl⟩ := List.mem_map.mp hcidr
    obtain ⟨link,hlink,hget⟩ := Option.bind_eq_some_iff.mp hpeer
    rw [Net.parse_cidr]
    intro heq
    obtain rfl : net' = net := Option.some.inj heq
    exact hfree ⟨peer,by simpa [Box.peers, Box.peersOn, hlink] using hget,hnet'⟩

theorem removeUnlisted_keeps {P : World → Prop} {C : Cmd → Prop} (h : Stable P C) {conf : MeshConf} (wanted : List String)
    (key : String) (hremove : C (.wgRemovePeer conf.IFACE key))
    (hdel : ∀ cidr, Net.parse cidr ≠ some net → C (.routeDel cidr conf.IFACE)) :
    Keeps (fun v => P v ∧ v.box.freeOf conf.IFACE wanted net) (removeUnlisted conf wanted key) := by
  have hstable := h.both (stable_freeOf conf.IFACE wanted net)
  unfold removeUnlisted
  split
  · next hunlisted =>
    refine keeps_bind_ok (keeps_query hstable rfl _) fun v shown v' hv hshow => ?_
    refine keeps_bind (keeps_tryRun hstable ⟨hremove,by simp [Cmd.setsIn]⟩) fun _ =>
      keeps_dropPeerRoutes hstable fun cidr hcidr => ⟨hdel cidr ?_,by simp [Cmd.setsIn]⟩
    have hfree := hv.2 key (by simpa using hunlisted)
    cases hres : shown with
    | error failed => simp [hres, Except.toOption] at hcidr
    | ok list =>
      obtain rfl := query_box rfl hshow list hres
      exact allowedIPs_free hfree (by simpa [hres, Except.toOption] using hcidr)
  · exact keeps_pure _

theorem removeUnlisted_spares {conf : MeshConf} (wanted : List String) (key : String) :
    Keeps (fun v => v.box.added conf.IFACE net ∧ v.box.freeOf conf.IFACE wanted net)
      (removeUnlisted conf wanted key) :=
  removeUnlisted_keeps (stable_added conf.IFACE net) wanted key
    (by simp [Cmd.sparesRoute, Cmd.leavesRoute]) fun cidr hother => by
      simpa [Cmd.sparesRoute, Cmd.leavesRoute] using hother

theorem routeDel_gone {cidr : String} (hw : Quiet w) (hlink : d ∈ w.box.links.keys)
    (hone : w.box.routes.count (mainRoute d net) ≤ 1) (hnet : Net.parse cidr = some net) :
    ∃ res w', tryRun (.routeDel cidr d) w = .ok res w' ∧ ¬ w'.box.routed d net := by
  obtain ⟨link,hlink⟩ := OrdMap.mem_keys_iff.mp hlink
  have hstep : w.box.step (.routeDel cidr d) = w.box.delRoute (mainRoute d net) := by
    simp only [Box.step, Box.onNet, hnet, Box.onLink, hlink, mainRoute]
  cases hres : w.box.step (.routeDel cidr d) with
  | ok b' =>
    refine ⟨_,_,tryRun_quiet hw hres,?_⟩
    rw [hstep] at hres
    rw [← not_routed_iff, delRoute_ok hres, List.count_erase_self]
    omega
  | error failed =>
    refine ⟨_,_,tryRun_refused hw hres,fun hrouted => ?_⟩
    rw [hstep, Box.delRoute, if_pos (List.contains_iff_mem.mpr hrouted)] at hres
    cases hres

def Dropping (d : String) (net : Net) (w : World) : Prop :=
  Quiet w ∧ d ∈ w.box.links.keys ∧ w.box.routes.count (mainRoute d net) ≤ 1

theorem stable_dropping (d : String) (net : Net) : Stable (Dropping d net) fun c => True ∧ c ≠ .linkDel d ∧
    c.addsNot d net ∧ c ≠ .linkUp d ∧ ∀ cidr, c ≠ .addrAdd cidr d :=
  (stable_quiet fun _ => True).both ((stable_link d).both (stable_count d net 1))

theorem dropPeerRoutes_gone {list : List String} (hw : Dropping d net w) (hmem : net.cidr ∈ list) :
    ∃ w', dropPeerRoutes d list w = .ok () w' ∧ ¬ w'.box.routed d net := by
  let D : String → World → Prop := fun cidr v => cidr = net.cidr → ¬ v.box.routed d net
  have hturn : ∀ cidr ∈ list, ∀ v, Dropping d net v → ∃ v', (do let _ ← tryRun (.routeDel cidr d) : Shell Unit) v =
      .ok () v' ∧ Dropping d net v' ∧ D cidr v' ∧ ∀ other ∈ list, D other v → D other v' := by
    rintro cidr - v hv
    obtain ⟨res,v',hrun⟩ := returns_tryRun (.routeDel cidr d) v
    have hkeep := (keeps_tryRun (stable_dropping d net) (by simp [Cmd.addsNot])).of_ok hrun hv
    refine ⟨v',by rw [bind_of_ok hrun]; rfl,hkeep,?_,fun other _ hother heq => ?_⟩
    · rintro rfl
      obtain ⟨res',v'',hrun',hgone⟩ := routeDel_gone hv.1 hv.2.1 hv.2.2 (Net.parse_cidr net)
      rw [hrun] at hrun'
      cases hrun'
      exact hgone
    · have hnone := (keeps_tryRun (stable_count d net 0) (by simp [Cmd.addsNot])).of_ok hrun
        (not_routed_iff.mpr (hother heq))
      exact not_routed_iff.mp hnone
  obtain ⟨w',hrun,-,hdone⟩ := forM_each (Dropping d net) D hturn hw
  exact ⟨w',hrun,hdone net.cidr hmem rfl⟩

theorem allowedIPs_held {key : String} (h : w.box.holds d key net) :
    net.cidr ∈ w.box.allowedIPs d key := by
  obtain ⟨peer,hget,hnet⟩ := h
  unfold Box.allowedIPs
  cases hlink : w.box.links.get? d with
  | none =>
    rw [Box.peers, Box.peersOn, hlink] at hget
    cases hget
  | some link =>
    have hpeer : link.peers.get? key = some peer := by
      simpa [Box.peers, Box.peersOn, hlink] using hget
    simp only [Option.bind_some, hpeer]
    exact List.mem_map_of_mem hnet

theorem removePeer_gone {key : String} (hw : Dropping d net w) (hholds : w.box.holds d key net) :
    ∃ w', removePeer d key w = .ok () w' ∧ ¬ w'.box.routed d net := by
  obtain ⟨link,hlink⟩ := OrdMap.mem_keys_iff.mp hw.2.1
  have hstep : w.box.step (.wgShowAllowedIPs d) = .ok w.box := by
    simp only [Box.step, Box.onLink, hlink]
  have hshow : query (.wgShowAllowedIPs d) (fun b => b.allowedIPs d key) w =
      .ok (.ok (w.box.allowedIPs d key)) w := by
    rw [query, bind_of_ok (tryRun_quiet hw.1 hstep)]
    rfl
  obtain ⟨res,w₁,hremove⟩ := returns_tryRun (.wgRemovePeer d key) w
  have hw₁ := (keeps_tryRun (stable_dropping d net) (by simp [Cmd.addsNot])).of_ok hremove hw
  obtain ⟨w₂,hdrop,hgone⟩ := dropPeerRoutes_gone hw₁ (allowedIPs_held hholds)
  refine ⟨w₂,?_,hgone⟩
  unfold removePeer
  rw [bind_of_ok hshow, bind_of_ok hremove]
  exact hdrop

theorem returns_removeUnlisted (conf : MeshConf) (wanted : List String) (key : String) :
    Returns (removeUnlisted conf wanted key) := by
  unfold removeUnlisted
  split
  · exact returns_bind (returns_query _ _) fun _ => returns_bind (returns_tryRun _) fun _ =>
      returns_dropPeerRoutes _ _
  · exact returns_pure _

theorem keeps_removeUnlisted {P : World → Prop} {C : Cmd → Prop} (h : Stable P C) {conf : MeshConf}
    {wanted : List String} {key : String} (hremove : C (.wgRemovePeer conf.IFACE key))
    (hdel : ∀ cidr, C (.routeDel cidr conf.IFACE)) : Keeps P (removeUnlisted conf wanted key) := by
  unfold removeUnlisted
  split
  · exact keeps_removePeer h hremove hdel
  · exact keeps_pure _

theorem removeAll_gone {conf : MeshConf} {wanted keys : List String} {key : String}
    (hw : Dropping conf.IFACE net w) (hkey : key ∈ keys) (hunlisted : key ∉ wanted)
    (hholds : w.box.holds conf.IFACE key net) (h : keys.forM (removeUnlisted conf wanted) w = .ok () w') :
    ¬ w'.box.routed conf.IFACE net := by
  let J : World → Prop := fun v => Dropping conf.IFACE net v ∧
    (v.box.holds conf.IFACE key net ∨ ¬ v.box.routed conf.IFACE net)
  let D : String → World → Prop := fun k v => k = key → ¬ v.box.routed conf.IFACE net
  have hturn : ∀ k ∈ keys, ∀ v, J v → ∃ v', removeUnlisted conf wanted k v = .ok () v' ∧ J v' ∧ D k v' ∧
      ∀ other ∈ keys, D other v → D other v' := by
    rintro k - v ⟨hv,hstate⟩
    obtain ⟨_,v',hrun⟩ := returns_removeUnlisted conf wanted k v
    have hv' := (keeps_removeUnlisted (stable_dropping conf.IFACE net) (by simp [Cmd.addsNot])
      (by simp [Cmd.addsNot])).of_ok hrun hv
    have hnone : ¬ v.box.routed conf.IFACE net → ¬ v'.box.routed conf.IFACE net := fun hgone =>
      not_routed_iff.mp ((keeps_removeUnlisted (stable_count conf.IFACE net 0) (by simp [Cmd.addsNot])
        (by simp [Cmd.addsNot])).of_ok hrun (not_routed_iff.mpr hgone))
    have hself : k = key → ¬ v'.box.routed conf.IFACE net := by
      rintro rfl
      rcases hstate with hheld | hgone
      · obtain ⟨v'',hrun',hgone⟩ := removePeer_gone hv hheld
        have hremove : removeUnlisted conf wanted k v = removePeer conf.IFACE k v := by
          rw [removeUnlisted, if_pos (by simpa using hunlisted)]
        rw [hremove, hrun'] at hrun
        cases hrun
        exact hgone
      · exact hnone hgone
    refine ⟨v',hrun,⟨hv',?_⟩,hself,fun other _ hother heq => hnone (hother heq)⟩
    by_cases hk : k = key
    · exact .inr (hself hk)
    · rcases hstate with hheld | hgone
      · refine .inl ((keeps_removeUnlisted (stable_holds conf.IFACE key net) ?_ ?_).of_ok hrun hheld)
        · exact fun _ => hk
        · exact fun _ => trivial
      · exact .inr (hnone hgone)
  obtain ⟨v,hrun,-,hdone⟩ := forM_each J D hturn ⟨hw,.inl hholds⟩
  rw [h] at hrun
  cases hrun
  exact hdone key hkey rfl

end Peer

end JumpHost.Mesh
