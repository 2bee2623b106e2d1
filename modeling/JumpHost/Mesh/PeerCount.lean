import JumpHost.Library.Attempts
import JumpHost.Mesh.Netmaps

namespace JumpHost.Mesh

open Effect

section Steps

variable (conf : MeshConf)

def peerStep (peer : Peer) : Shell Unit :=
  setPeer conf.IFACE peer.publicKey peer.endpoint peer.allowedIPs peer.keepalive

def forwardStep (wan : Option String) : Shell Changed := applyForwarding wan [conf.IFACE]

def netmapStep (map : Netmap) : Shell Unit := do
  let _ ← applyNetmap conf.IFACE map.shadow map.physical
  recordAppliedNetmap map.shadow map.physical

def staleStep (wanted : List String) (applied : String) : Shell Unit :=
  if wanted.contains applied then pure ()
  else do
    let _ ← removeNetmap conf.IFACE (splitRecorded applied).1 ((splitRecorded applied).2.getD "")
    removeAppliedNetmap (splitRecorded applied).1 (shown (splitRecorded applied).2)

theorem applyPeer_entering (failed : List Failure) (peer : Peer) :
    applyPeer conf failed peer = entering failed (Failure.mk peer.label) (peerStep conf peer) := rfl

theorem applyMap_entering (failed : List Failure) (map : Netmap) :
    applyMap conf failed map = entering failed (Failure.mk ("netmap " ++ map.shadow)) (netmapStep conf map) := rfl

theorem removeStale_entering (wanted : List String) (failed : List Failure) (applied : String) :
    removeStale conf wanted failed applied =
      entering failed (Failure.mk ("netmap " ++ (splitRecorded applied).1)) (staleStep conf wanted applied) := by
  unfold removeStale staleStep
  split
  · rfl
  · rfl

theorem forward_entering (wan : Option String) (failed : List Failure) :
    forward conf wan failed = entering failed (Failure.mk "forwarding/NAT") (forwardStep conf wan) := rfl

end Steps

section Pass

variable {conf : MeshConf} {plan : Plan} {privateKey : String} {w w' : World} {result : Applied}

def peerFailures (conf : MeshConf) (peers : List Peer) (v : World) : List Failure :=
  (refusals (peerStep conf) peers v).map fun r => ⟨r.1.label,r.2⟩

def forwardFailures (conf : MeshConf) (wan : Option String) (v : World) : List Failure :=
  (refusals (forwardStep conf) [wan] v).map fun r => ⟨"forwarding/NAT",r.2⟩

def netmapFailures (conf : MeshConf) (netmaps : List Netmap) (v : World) : List Failure :=
  (refusals (netmapStep conf) netmaps v).map fun r => ⟨"netmap " ++ r.1.shadow,r.2⟩

def staleFailures (conf : MeshConf) (wanted members : List String) (v : World) : List Failure :=
  (refusals (staleStep conf wanted) members v).map fun r => ⟨"netmap " ++ (splitRecorded r.1).1,r.2⟩

theorem applyPeers_noted {failed : List Failure} (h : applyPeers conf plan.peers w = .ok failed w') :
    failed = peerFailures conf plan.peers w := by
  obtain ⟨failed₁,v,hpeers,h⟩ := bind_ok h
  obtain ⟨existing,v',-,h⟩ := bind_ok h
  obtain ⟨_,v'',-,h⟩ := bind_ok h
  cases h
  rw [foldlM_entering (applyPeer_entering conf) plan.peers [] w] at hpeers
  cases hpeers
  rfl

theorem forward_noted (wan : Option String) (failed : List Failure) (w : World) : forward conf wan failed w =
    .ok (failed ++ forwardFailures conf wan w) (afterAll (forwardStep conf) [wan] w) := by
  have hturn := foldlM_entering (fun failed wan => forward_entering conf wan failed) [wan] failed w
  rw [List.foldlM_cons, bind_apply] at hturn
  refine Eq.trans ?_ hturn
  cases forward conf wan failed w <;> rfl

def wantedNetmaps (netmaps : List Netmap) : List String := netmaps.map fun m => recorded m.shadow m.physical

theorem applyNetmaps_noted {netmaps : List Netmap} {failed failed' : List Failure}
    (h : applyNetmaps conf netmaps failed w = .ok failed' w') : ∃ members u,
      listAppliedNetmaps (afterAll (netmapStep conf) netmaps w) = .ok members u ∧
        failed' = failed ++ netmapFailures conf netmaps w ++ staleFailures conf (wantedNetmaps netmaps) members u := by
  have hmaps := foldlM_entering (applyMap_entering conf) netmaps failed w
  unfold applyNetmaps at h
  rw [bind_of_ok hmaps] at h
  obtain ⟨members,u,hlist,h⟩ := bind_ok h
  have hstale := foldlM_entering (removeStale_entering conf (wantedNetmaps netmaps)) members
    (failed ++ netmapFailures conf netmaps w) u
  have hrun := hstale.symm.trans h
  cases hrun
  exact ⟨members,u,hlist,rfl⟩

def beforeForward (conf : MeshConf) (plan : Plan) (privateKey : String) : Shell (List Failure × Option String) := do
  bringUp conf plan privateKey
  let failed ← applyPeers conf plan.peers
  plan.routes.forM fun route => do
    let _ ← ensureRoute route.cidr route.dev
  let wan ← detectWanInterface
  let _ ← applySysctls (([some conf.IFACE,wan].filter truthy).filterMap id)
  return (failed,wan)

theorem beforeNetmaps_eq (plan : Plan) (privateKey : String) : beforeNetmaps conf plan privateKey = (do
    let done ← beforeForward conf plan privateKey
    let failed ← forward conf done.2 done.1
    return (failed,done.2)) := by
  simp only [beforeNetmaps, beforeForward, bind_assoc, pure_bind]

theorem beforeForward_failed {failed : List Failure} {wan : Option String}
    (h : beforeForward conf plan privateKey w = .ok (failed,wan) w') :
    failed = peerFailures conf plan.peers (final (bringUp conf plan privateKey w)) := by
  obtain ⟨_,v,hup,h⟩ := bind_ok h
  obtain ⟨failed',v₁,hpeers,h⟩ := bind_ok h
  obtain ⟨_,v₂,-,h⟩ := bind_ok h
  obtain ⟨wan',v₃,-,h⟩ := bind_ok h
  obtain ⟨_,v₄,-,h⟩ := bind_ok h
  cases h
  rw [hup, final_ok]
  exact applyPeers_noted hpeers

structure Stages (conf : MeshConf) (plan : Plan) (privateKey : String) (w : World) (wan : Option String)
    (v : World) (members : List String) (u : World) : Prop where
  forwards : ∃ failed, beforeForward conf plan privateKey w = .ok (failed,wan) v
  lists : listAppliedNetmaps (afterAll (netmapStep conf) plan.netmaps (afterAll (forwardStep conf) [wan] v)) =
    .ok members u

def laterFailures (conf : MeshConf) (plan : Plan) (wan : Option String) (v : World) (members : List String)
    (u : World) : List Failure :=
  forwardFailures conf wan v ++ netmapFailures conf plan.netmaps (afterAll (forwardStep conf) [wan] v) ++
    staleFailures conf (wantedNetmaps plan.netmaps) members u

theorem applyPlan_noted (h : applyPlan conf plan privateKey w = .ok result w') : ∃ wan v members u,
    Stages conf plan privateKey w wan v members u ∧ result.failed =
      peerFailures conf plan.peers (final (bringUp conf plan privateKey w)) ++ laterFailures conf plan wan v members u ∧
      result.peers = plan.peers.length - result.failed.length := by
  rw [applyPlan_eq] at h
  obtain ⟨⟨failed₁,wan₁⟩,v₁,hbefore,h⟩ := bind_ok h
  obtain ⟨failed₂,v₂,hnetmaps,h⟩ := bind_ok h
  cases h
  rw [beforeNetmaps_eq] at hbefore
  obtain ⟨⟨failed,wan⟩,v,hforward,hbefore⟩ := bind_ok hbefore
  rw [bind_of_ok (forward_noted wan failed v)] at hbefore
  cases hbefore
  obtain ⟨members,u,hlist,rfl⟩ := applyNetmaps_noted hnetmaps
  refine ⟨wan,v,members,u,⟨⟨failed,hforward⟩,hlist⟩,?_,rfl⟩
  rw [beforeForward_failed hforward]
  simp only [laterFailures, List.append_assoc]

def appliedPeers (conf : MeshConf) (plan : Plan) (privateKey : String) (w : World) : List Peer :=
  successes (peerStep conf) plan.peers (final (bringUp conf plan privateKey w))

structure Applied.Accounts (conf : MeshConf) (plan : Plan) (privateKey : String) (w : World) (result : Applied) :
    Prop where
  peers : result.peers = (appliedPeers conf plan privateKey w).length
  within : 0 ≤ result.peers ∧ result.peers ≤ plan.peers.length
  failed : ∃ wan v members u, Stages conf plan privateKey w wan v members u ∧ result.failed =
    peerFailures conf plan.peers (final (bringUp conf plan privateKey w)) ++ laterFailures conf plan wan v members u

def OnlyPeersFail (conf : MeshConf) (plan : Plan) (privateKey : String) (w : World) : Prop :=
  ∀ wan v members u, Stages conf plan privateKey w wan v members u → laterFailures conf plan wan v members u = []

theorem Stages.unique {wan wan₁ : Option String} {v v₁ u u₁ : World} {members members₁ : List String}
    (h : Stages conf plan privateKey w wan v members u) (h₁ : Stages conf plan privateKey w wan₁ v₁ members₁ u₁) :
    wan = wan₁ ∧ v = v₁ ∧ members = members₁ ∧ u = u₁ := by
  obtain ⟨⟨failed,hforward⟩,hlist⟩ := h
  obtain ⟨⟨failed₁,hforward₁⟩,hlist₁⟩ := h₁
  rw [hforward] at hforward₁
  cases hforward₁
  rw [hlist] at hlist₁
  cases hlist₁
  exact ⟨rfl,rfl,rfl,rfl⟩

theorem accounts_iff (h : applyPlan conf plan privateKey w = .ok result w') :
    result.Accounts conf plan privateKey w ↔ OnlyPeersFail conf plan privateKey w := by
  obtain ⟨wan,v,members,u,hstages,hfailed,hpeers⟩ := applyPlan_noted h
  have hcount : (appliedPeers conf plan privateKey w).length +
      (refusals (peerStep conf) plan.peers (final (bringUp conf plan privateKey w))).length = plan.peers.length :=
    length_attempts plan.peers (final (bringUp conf plan privateKey w))
  have hlength : result.failed.length =
      (refusals (peerStep conf) plan.peers (final (bringUp conf plan privateKey w))).length +
        (laterFailures conf plan wan v members u).length := by
    rw [hfailed, List.length_append, peerFailures, List.length_map]
  constructor
  · intro haccounts wan₁ v₁ members₁ u₁ hstages₁
    obtain ⟨rfl,rfl,rfl,rfl⟩ := hstages.unique hstages₁
    have hequal := haccounts.peers
    exact List.length_eq_zero_iff.mp (by omega)
  · intro honly
    rw [honly wan v members u hstages, List.length_nil] at hlength
    refine ⟨?_,⟨?_,?_⟩,wan,v,members,u,hstages,hfailed⟩
    · omega
    · omega
    · omega

theorem onlyPeersFail_of_length (h : applyPlan conf plan privateKey w = .ok result w')
    (hpeers : result.failed.length =
      (peerFailures conf plan.peers (final (bringUp conf plan privateKey w))).length) :
    OnlyPeersFail conf plan privateKey w := by
  intro wan v members u hstages
  obtain ⟨wan₁,v₁,members₁,u₁,hstages₁,hfailed,-⟩ := applyPlan_noted h
  obtain ⟨rfl,rfl,rfl,rfl⟩ := hstages.unique hstages₁
  rw [hfailed, List.length_append] at hpeers
  exact List.length_eq_zero_iff.mp (by omega)

def device (name cidr : String) : Peer where
  kind := .client
  label := name
  publicKey := name
  endpoint := ""
  allowedIPs := [cidr]
  keepalive := 0

def fourDevices : Plan := { oneLan.plan with
  peers := [device "phone" "10.1.128.7/32",device "desk?" "10.1.128.8/32",device "lab" "10.1.129.9/24",
    device "laptop" "10.1.128.10/32"] }

def picky : World where
  box := {}
  faults _ c := match c with
    | .wgSetPeer _ "desk?" _ _ _ => some { err := "Key is not the correct length or format" }
    | _ => none

theorem accounts_devices : ∃ result w', applyPlan wgMesh fourDevices "key" picky = .ok result w' ∧
    result.peers = 2 ∧ result.failed.map Failure.label = ["desk?","lab"] ∧
      result.Accounts wgMesh fourDevices "key" picky := by
  have hrun : okWith (applyPlan wgMesh fourDevices "key" picky) (fun result _ =>
      decide (result.peers = 2 ∧ result.failed.map Failure.label = ["desk?","lab"])) = true := by decide +kernel
  obtain ⟨result,w',h,hresult⟩ := exists_of_okWith hrun
  obtain ⟨hpeers,hlabels⟩ := of_decide_eq_true hresult
  have htwo : (peerFailures wgMesh fourDevices.peers (final (bringUp wgMesh fourDevices "key" picky))).length = 2 := by
    decide +kernel
  have hlength : result.failed.length = 2 := by simpa using congrArg List.length hlabels
  exact ⟨result,w',h,hpeers,hlabels,(accounts_iff h).mpr (onlyPeersFail_of_length h (hlength.trans htwo.symm))⟩

def Cmd.isIptables : Cmd → Bool
  | .iptables _ _ _ _ => true
  | _ => false

def tableless : World where
  box := {}
  faults _ c := if c.isIptables then some ⟨"iptables: Permission denied.",false⟩ else none

theorem negative_count : ¬ ∀ conf plan privateKey w result w', applyPlan conf plan privateKey w = .ok result w' →
    result.Accounts conf plan privateKey w := by
  intro h
  have hrun : okWith (applyPlan wgMesh oneLan.plan "key" tableless)
      (fun result _ => decide (result.peers = -1)) = true := by decide +kernel
  obtain ⟨result,w',hok,hminus⟩ := exists_of_okWith hrun
  have hlow := (h _ _ _ _ _ _ hok).within.1
  rw [of_decide_eq_true hminus] at hlow
  exact absurd hlow (by decide)

end Pass

end JumpHost.Mesh
