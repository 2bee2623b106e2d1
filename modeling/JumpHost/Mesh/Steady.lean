import JumpHost.Mesh.Masquerade
import JumpHost.Mesh.PeerSettings
import JumpHost.Mesh.Rules
import JumpHost.Mesh.Shadows
import JumpHost.Mesh.Unknown

namespace JumpHost.Mesh

open Effect

section Router

variable {conf : MeshConf} {b b' : Box} {key value wan : String} {x : Option String} {interfaces tunnels : List String}
  {entry : Table × String × IptRule String} {w w' : World}

theorem local_ne_main : LOCAL ≠ MAIN := by decide

theorem uplink_local {net : Net} (h : b.addRoute ⟨LOCAL,net,"lo"⟩ = .ok b' ∨ b.delRoute ⟨LOCAL,net,"lo"⟩ = .ok b') :
    uplinkOf b'.routes = uplinkOf b.routes := by
  have hlocal : Route.isDefault ⟨LOCAL,net,"lo"⟩ = false := decide_eq_false fun h => absurd h.1 local_ne_main
  simp only [uplinkOf, ← List.head?_filter]
  rcases h with h | h
  · rw [(addRoute_ok h).2, List.filter_append, List.filter_singleton, hlocal]
    simp
  · rw [delRoute_ok h, filter_erase hlocal]

theorem stable_sameUplink (x : Option String) : Stable (fun w => w.box.uplink = x) Cmd.afterRoutes := by
  refine stable_box (I := fun b => b.uplink = x) fun b c b' hc h hb => ?_
  have hmetered : b'.metered = b.metered := by
    obtain ⟨keep,hkept,hdrops⟩ := metered_step h
    rw [hkept, List.filter_eq_self]
    intro r _
    by_contra hgone
    rcases hdrops r (Bool.eq_false_of_not_eq_true hgone) with rfl | ⟨cidr,rfl⟩ | rfl <;> exact hc.elim
  have hroutes : uplinkOf b'.routes = uplinkOf b.routes := ?_
  · rw [uplink_eq, hroutes, hmetered, ← uplink_eq]
    exact hb
  cases routes_change h with
  | same hb' => rw [hb']
  | claimed net hb' => exact uplink_local (.inl hb')
  | unclaimed net hb' => exact uplink_local (.inr hb')
  | own dev routes hc' => rcases hc' with rfl | ⟨cidr,rfl⟩ <;> exact hc.elim
  | unlinked _ hc' | disowned _ _ _ hc' | added _ _ _ hc' | deleted _ _ _ hc' | default _ _ hc' _ | flushed _ hc' _ =>
    subst hc'
    exact hc.elim

theorem takes_applySysctl (b : Box) (key value : String) : Takes Calm World.box (applySysctl key value) b
    { b with sysctls := b.sysctls.set key value } :=
  (gives_tryRun (show b.step (.sysctl key value) = .ok _ from rfl)).takes_bind (takes_pure _)

def sysctlValue (key : String) : String := if key = "net.ipv4.ip_forward" then "1" else "0"

theorem sysctlSettings_value : ∀ setting ∈ sysctlSettings interfaces, setting.2 = sysctlValue setting.1 := by
  intro setting hsetting
  simp only [sysctlSettings, List.mem_append, List.mem_cons, List.not_mem_nil, or_false, List.mem_map] at hsetting
  rcases hsetting with (rfl | rfl | rfl) | ⟨iface,-,rfl⟩
  · rfl
  · rfl
  · rfl
  · have hne : "net.ipv4.conf." ++ iface ++ ".rp_filter" ≠ "net.ipv4.ip_forward" := by
      intro heq
      have hlist := congrArg String.toList heq
      simp at hlist
    rw [sysctlValue, if_neg hne]

def Box.tuned (b : Box) (interfaces : List String) : Prop :=
  ∀ setting ∈ sysctlSettings interfaces, b.sysctls.get? setting.1 = some setting.2

theorem takes_applySysctls (h : b.tuned interfaces) : Takes Calm World.box (applySysctls interfaces) b b := by
  refine takes_foldlM (fun applied setting hsetting => ?_) _
  have hset := takes_applySysctl b setting.1 setting.2
  rw [OrdMap.set_eq (h setting hsetting)] at hset
  refine hset.bind fun done => ?_
  cases done <;> exact takes_pure _

theorem applySysctls_tuned (hw : Calm w) (interfaces : List String) :
    ∃ applied w', applySysctls interfaces w = .ok applied w' ∧ Calm w' ∧ w'.box.tuned interfaces := by
  let D : String × String → List String → World → Prop := fun setting _ v =>
    v.box.sysctls.get? setting.1 = some setting.2
  refine foldlM_each (fun _ v => Calm v) D (fun setting hsetting applied v hv => ?_) hw
  have hturn : Takes Calm World.box (do
      if ← applySysctl setting.1 setting.2 then return applied ++ [setting.1] else return applied) v.box
      { v.box with sysctls := v.box.sysctls.set setting.1 setting.2 } := by
    refine (takes_applySysctl _ _ _).bind fun done => ?_
    cases done <;> exact takes_pure _
  obtain ⟨applied',v',hrun,hv',hbox⟩ := hturn v hv rfl
  refine ⟨applied',v',hrun,hv',?_,fun other hother hold => ?_⟩
  · change v'.box.sysctls.get? setting.1 = some setting.2
    rw [hbox]
    exact OrdMap.get?_set_self _ _ _
  · change v'.box.sysctls.get? other.1 = some other.2
    rw [hbox]
    by_cases hkey : other.1 = setting.1
    · have hvalue : other.2 = setting.2 := by
        rw [sysctlSettings_value other hother, sysctlSettings_value setting hsetting, hkey]
      rw [hkey, hvalue]
      exact OrdMap.get?_set_self _ _ _
    · exact (OrdMap.get?_set_of_ne _ hkey).trans hold

theorem forwarding_reads (h : entry ∈ forwardingRules wan tunnels) : ∃ rule, entry.2.2.parse = some rule ∧
    rule.source = none ∧ ∀ net, rule.target ≠ .NETMAP net := by
  simp only [forwardingRules, List.mem_cons, List.mem_flatMap, List.mem_map] at h
  rcases h with rfl | ⟨tun,-,rfl | rfl | ⟨other,-,rfl⟩⟩ <;> exact ⟨_,rfl,rfl,fun net => nofun⟩

def Box.forwards (b : Box) (wan : String) (tunnels : List String) : Prop :=
  ∀ entry ∈ forwardingRules wan tunnels, ∀ rule, entry.2.2.parse = some rule →
    (⟨entry.1,entry.2.1,rule⟩ : IptEntry) ∈ b.iptables

theorem ensure_eq {e : IptEntry} (h : e ∈ b.iptables) : b.ensure e = b := by rw [Box.ensure, if_pos h]

theorem takes_countRules (h : b.forwards wan tunnels) (changed : Nat) :
    Takes Calm World.box ((forwardingRules wan tunnels).foldlM countRule changed) b b := by
  refine takes_foldlM (fun changed entry hentry => ?_) _
  obtain ⟨rule,hrule,-⟩ := forwarding_reads hentry
  have hcount : Takes Calm World.box (countRule changed entry) b (b.ensure ⟨entry.1,entry.2.1,rule⟩) :=
    takes_countRule hrule
  rwa [ensure_eq (h entry hentry rule hrule)] at hcount

theorem countRules_forwards (hw : Calm w) (wan : String) (tunnels : List String) : ∃ changed w',
    (forwardingRules wan tunnels).foldlM countRule 0 w = .ok changed w' ∧ Calm w' ∧ w'.box.forwards wan tunnels := by
  let D : Table × String × IptRule String → Nat → World → Prop := fun entry _ v => ∀ rule, entry.2.2.parse = some rule →
    (⟨entry.1,entry.2.1,rule⟩ : IptEntry) ∈ v.box.iptables
  refine foldlM_each (fun _ v => Calm v) D (fun entry hentry changed v hv => ?_) hw
  obtain ⟨rule,hrule,-⟩ := forwarding_reads hentry
  have hcount : Takes Calm World.box (countRule changed entry) v.box (v.box.ensure ⟨entry.1,entry.2.1,rule⟩) :=
    takes_countRule hrule
  obtain ⟨changed',v',hrun,hv',hbox⟩ := hcount v hv rfl
  refine ⟨changed',v',hrun,hv',fun rule' hrule' => ?_,fun other _ hold rule' hrule' => ?_⟩
  · obtain rfl := Option.some.inj (hrule.symm.trans hrule')
    rw [hbox, mem_ensure]
    exact .inr rfl
  · rw [hbox, mem_ensure]
    exact .inl (hold rule' hrule')

theorem takes_forward (h : ∀ wan, firstTruthy [x] = some wan → b.forwards wan [conf.IFACE]) (failed : List Failure) :
    Takes Calm World.box (forward conf x failed) b b := by
  refine takes_noting (gives_haveIptables.takes_bind ?_) _ _
  cases hwan : firstTruthy [x] with
  | none => exact takes_pure _
  | some wan => exact (takes_countRules (h wan hwan) 0).bind fun _ => takes_pure _

theorem forward_forwards (conf : MeshConf) (hw : Calm w) (x : Option String) (failed : List Failure) : ∃ failed' w',
    forward conf x failed w = .ok failed' w' ∧ Calm w' ∧
      ∀ wan, firstTruthy [x] = some wan → w'.box.forwards wan [conf.IFACE] := by
  obtain ⟨failed',hrun⟩ := noting_ok failed "forwarding/NAT" (applyForwarding x [conf.IFACE]) w
  refine ⟨failed',_,hrun,?_⟩
  obtain ⟨w₁,hhave,hw₁,hbox⟩ := gives_haveIptables w hw rfl
  unfold applyForwarding
  rw [bind_of_ok hhave]
  cases hwan : firstTruthy [x] with
  | none => exact ⟨hw₁,fun _ h => by cases h⟩
  | some wan =>
    obtain ⟨changed,w₂,hcount,hw₂,hforwards⟩ := countRules_forwards hw₁ wan [conf.IFACE]
    simp only [Bool.not_true, Bool.false_eq_true, if_false]
    rw [bind_of_ok hcount]
    refine ⟨hw₂,fun wan' hwan' => ?_⟩
    obtain rfl := Option.some.inj hwan'
    exact hforwards

end Router

section Maps

variable {conf : MeshConf} {netmaps : List Netmap} {b : Box} {s p : Net} {w w' : World}

structure Standings (conf : MeshConf) (netmaps : List Netmap) (b : Box) : Prop where
  standing : ∀ m ∈ netmaps, Standing conf b m
  only : ∀ member ∈ b.applied, member ∈ netmaps.map Netmap.text

theorem netmap_eq (h : Mapped conf.IFACE b s p) : b.netmap conf.IFACE s p = b := by
  have hclaim : b.claim s = b := by
    obtain ⟨r,hr,htable,hnet⟩ := h.route
    have hany : (b.routes.any fun r => r.table = LOCAL ∧ r.net = s) = true :=
      List.any_eq_true.mpr ⟨r,hr,by simp [htable, hnet]⟩
    rw [Box.claim, if_pos hany]
  rw [Box.netmap, ensure_eq h.inbound, ensure_eq h.outbound, hclaim, ensure_eq h.masquerade]

theorem record_eq {member : String} (h : member ∈ b.applied) : b.record member = b := by
  rw [Box.record, if_pos (List.contains_iff_mem.mpr h)]

theorem takes_applyNetmaps (hstated : ∀ m ∈ netmaps, m.Stated) (h : Standings conf netmaps b)
    (failed : List Failure) : Takes Calm World.box (applyNetmaps conf netmaps failed) b b := by
  refine (takes_foldlM (fun failed m hm => ?_) failed).bind fun failed => ?_
  · cases hsp : m.blocks with
    | none => exact takes_applyMap_refused hsp (hstated m hm).1 (hstated m hm).2 failed
    | some pair =>
      obtain ⟨hrecorded,hmapped⟩ := h.standing m hm pair.1 pair.2 hsp
      have hmap : Takes Calm World.box (applyMap conf failed m) b
          ((b.netmap conf.IFACE pair.1 pair.2).record m.text) := takes_applyMap hsp failed
      rwa [netmap_eq hmapped, record_eq hrecorded] at hmap
  · have hlist : Gives Calm World.box listAppliedNetmaps b b.applied b := by
      rintro v hv rfl
      exact ⟨v,listApplied_ok hv,hv,rfl⟩
    refine hlist.takes_bind (takes_foldlM (fun failed member hmember => ?_) failed)
    have hwanted : (netmaps.map fun m => recorded m.shadow m.physical).contains member = true :=
      List.contains_iff_mem.mpr (h.only member hmember)
    unfold removeStale
    rw [if_pos hwanted]
    exact takes_pure _

end Maps

section Rest

variable {conf : MeshConf} {plan : Plan} {privateKey : String} {b : Box} {applied : Applied} {w w₁ w' : World}

def Box.tunnelled (conf : MeshConf) (b : Box) : List String :=
  ([some conf.IFACE,b.uplink].filter truthy).filterMap id

structure Steady (conf : MeshConf) (plan : Plan) (privateKey : String) (b : Box) : Prop where
  raised : b.linked conf.IFACE (Raised conf plan privateKey)
  peered : Peered conf plan b
  meshed : ∀ route ∈ plan.routes, ∀ net, Net.parse route.cidr = some net → b.taken net
  tuned : b.tuned (b.tunnelled conf)
  forwards : ∀ wan, firstTruthy [b.uplink] = some wan → b.forwards wan [conf.IFACE]

def Plan.Meshed (conf : MeshConf) (plan : Plan) : Prop :=
  ∀ route ∈ plan.routes, (route.dev = conf.IFACE ∧ (Net.parse route.cidr).isSome = true) ∧
    Box.hostBits route.cidr = false

theorem takes_beforeNetmaps (hmeshed : plan.Meshed conf) (h : Steady conf plan privateKey b) :
    Takes Calm World.box (beforeNetmaps conf plan privateKey) b b := by
  have hup := isUp_of_raised h.raised
  refine (takes_bringUp h.raised).bind fun _ => ?_
  refine (takes_applyPeers hup h.peered).bind fun failed => ?_
  refine (takes_addMeshRoutes hup (fun route hroute => ?_) fun route hroute => (hmeshed route hroute).2).bind fun _ => ?_
  · obtain ⟨⟨hdev,hparse⟩,-⟩ := hmeshed route hroute
    obtain ⟨net,hnet⟩ := Option.isSome_iff_exists.mp hparse
    exact ⟨hdev,net,hnet,h.meshed route hroute net hnet⟩
  · have hwan : Gives Calm World.box detectWanInterface b b.uplink b := by
      rintro v hv rfl
      exact ⟨v,detectWan_ok hv,hv,rfl⟩
    refine hwan.takes_bind ((takes_applySysctls h.tuned).bind fun _ => ?_)
    exact (takes_forward h.forwards failed).bind fun _ => takes_pure _

theorem takes_applyPlan (hmeshed : plan.Meshed conf) (hstated : ∀ m ∈ plan.netmaps, m.Stated)
    (h : Steady conf plan privateKey b) (hstanding : Standings conf plan.netmaps b) :
    Takes Calm World.box (applyPlan conf plan privateKey) b b := by
  rw [applyPlan_eq]
  refine (takes_beforeNetmaps hmeshed h).bind fun done => ?_
  exact (takes_applyNetmaps hstated hstanding done.1).bind fun _ => takes_pure _

theorem keeps_peered {α : Type} {m : Shell α} (hpeers : ∀ ps, Keeps (fun v => v.box.peers conf.IFACE = ps) m)
    (htaken : ∀ net, Keeps (fun v => v.box.taken net) m) : Keeps (fun v => Peered conf plan v.box) m := by
  intro w hw
  have hsame := hpeers (w.box.peers conf.IFACE) w rfl
  refine ⟨by rw [hsame, hw.again],fun key hkey => hw.only key (hsame ▸ hkey),
    fun p hp nets hnets cidr hcidr net hnet => ?_⟩
  obtain ⟨hnow,hfree⟩ := hw.routed p hp nets hnets cidr hcidr net hnet
  refine ⟨htaken net w hnow,fun key hkey hholds => hfree key hkey ?_⟩
  rwa [Box.holds, hsame] at hholds

theorem raised_applyPeers (peers : List Peer) :
    Keeps (fun v => v.box.linked conf.IFACE (Raised conf plan privateKey)) (applyPeers conf peers) := by
  have hstable : Stable (fun v => v.box.linked conf.IFACE (Raised conf plan privateKey)) (Cmd.keepsLink conf.IFACE) :=
    stable_raised
  refine keeps_bind (keeps_foldlM (fun failed peer _ => ?_) _) fun failed => ?_
  · exact keeps_noting (keeps_setPeer hstable (by simp [Cmd.keepsLink, Cmd.keepsKey])
      (by simp [Cmd.keepsLink, Cmd.keepsKey])) _ _
  · refine keeps_bind (keeps_listPeers hstable _) fun keys =>
      keeps_bind (keeps_forM fun key _ => ?_) fun _ => keeps_pure _
    exact keeps_removeUnlisted hstable (by simp [Cmd.keepsLink, Cmd.keepsKey]) (by simp [Cmd.keepsLink, Cmd.keepsKey])

theorem afterRoutes_keepsLink (c : Cmd) (hc : c.afterRoutes) : c.keepsLink conf.IFACE := by
  cases c <;> simp_all [Cmd.afterRoutes, Cmd.ofRouting, Cmd.keepsLink, Cmd.keepsKey]

theorem afterRoutes_keepsMain (net : Net) (c : Cmd) (hc : c.afterRoutes) : c.keepsMain net := by
  cases c <;> simp_all [Cmd.afterRoutes, Cmd.ofRouting, Cmd.keepsMain]

theorem afterRoutes_sparesPeers (c : Cmd) (hc : c.afterRoutes) : c.sparesPeers conf.IFACE := by
  cases c <;> simp_all [Cmd.afterRoutes, Cmd.ofRouting, Cmd.sparesPeers]

theorem peered_addMeshRoutes (routes : List MeshRoute) :
    Keeps (fun v => Peered conf plan v.box) (addMeshRoutes routes) :=
  keeps_peered (fun ps => keeps_addMeshRoutes (stable_peers conf.IFACE ps) fun _ _ => trivial)
    fun net => keeps_addMeshRoutes (stable_taken net) fun _ _ => by simp [Cmd.keepsMain]

theorem peered_afterRoutes (failed : List Failure) :
    Keeps (fun v => Peered conf plan v.box) (afterRoutes conf plan failed) :=
  keeps_peered (fun ps => keeps_afterRoutes ((stable_peers conf.IFACE ps).mono afterRoutes_sparesPeers) plan failed)
    fun net => keeps_afterRoutes ((stable_taken net).mono (afterRoutes_keepsMain net)) plan failed

theorem forwards_map {wan : String} {tunnels : List String} {s p : Net} {member : String} (h : b.forwards wan tunnels) :
    ((b.netmap conf.IFACE s p).record member).forwards wan tunnels := by
  intro entry hentry rule hrule
  rw [iptables_record, mem_netmap]
  exact .inl (h entry hentry rule hrule)

theorem forwards_unmap {wan : String} {tunnels : List String} {s p : Net} {member : String}
    (h : b.forwards wan tunnels) : ((b.unmap conf.IFACE s p).forget member).forwards wan tunnels := by
  intro entry hentry rule hrule
  obtain ⟨rule',hrule',hsource,htarget⟩ := forwarding_reads hentry
  obtain rfl := Option.some.inj (hrule'.symm.trans hrule)
  refine (mem_unmap_of_not_maps (fun hmaps => ?_) fun heq => ?_).mpr (h entry hentry rule' hrule)
  · obtain ⟨net,hnet⟩ := hmaps.target
    exact htarget net hnet
  · have hrule := congrArg (fun e => e.rule.source) heq
    rw [hsource] at hrule
    cases hrule

theorem afterRoutes_steady {failed : List Failure} (hstated : ∀ m ∈ plan.netmaps, m.Stated) (hw : Calm w)
    (hb : Booked conf.IFACE w.box) (h : afterRoutes conf plan failed w = .ok applied w') :
    w'.box.tuned (w'.box.tunnelled conf) ∧
      ∀ wan, firstTruthy [w'.box.uplink] = some wan → w'.box.forwards wan [conf.IFACE] := by
  have huplink : w'.box.uplink = w.box.uplink :=
    (keeps_afterRoutes (stable_sameUplink w.box.uplink) plan failed).of_ok h rfl
  unfold afterRoutes at h
  rw [bind_of_ok (detectWan_ok hw)] at h
  obtain ⟨_,w₁,hset,hw₁,htuned⟩ := applySysctls_tuned hw (w.box.tunnelled conf)
  rw [Box.tunnelled] at hset
  rw [bind_of_ok hset] at h
  obtain ⟨failed₁,w₂,hforward,hw₂,hforwards⟩ := forward_forwards conf hw₁ w.box.uplink failed
  rw [bind_of_ok hforward] at h
  obtain ⟨failed₂,w₃,hnetmaps,h⟩ := bind_ok h
  cases h
  have hbooks : Booked conf.IFACE w₂.box := by
    have hstable := @stable_booked conf.IFACE w.box.applied conf.IFACE plan.peers
    have hb₁ := (keeps_applySysctls hstable (fun _ _ => trivial) (fun _ _ => trivial) _).of_ok hset ⟨hb,rfl⟩
    exact ((keeps_noting (keeps_applyForwarding hstable fun _ _ _ hmem _ _ => forwarding_target hmem) _ _).of_ok
      hforward hb₁).1
  have hsysctls : w₂.box.sysctls = w₁.box.sysctls :=
    (keeps_noting (keeps_applyForwarding (stable_sysctls _) fun _ _ _ _ _ _ => by simp) _ _).of_ok hforward rfl
  let I : Box → Prop := fun b => b.tuned (w.box.tunnelled conf) ∧
    ∀ wan, firstTruthy [w.box.uplink] = some wan → b.forwards wan [conf.IFACE]
  have hI : I w₂.box := by
    refine ⟨fun setting hsetting => ?_,hforwards⟩
    rw [hsysctls]
    exact htuned setting hsetting
  have hkept : ∀ b s p member, (((b : Box).netmap conf.IFACE s p).record member).sysctls = b.sysctls := by
    intro b s p member
    simp only [Box.record, Box.netmap, Box.ensure, Box.claim]
    repeat' split
    all_goals rfl
  have hdone := applyNetmaps_keeps (I := I) (fun b s p member hI => ⟨fun setting hsetting => by
      rw [hkept]
      exact hI.1 setting hsetting,fun wan hwan => forwards_map (hI.2 wan hwan)⟩)
    (fun b s p member _ hI => ⟨hI.1,fun wan hwan => forwards_unmap (hI.2 wan hwan)⟩) hstated hw₂ hbooks hI hnetmaps
  rw [Box.tunnelled, huplink]
  exact hdone

theorem applyPlan_steady (hmeshed : plan.Meshed conf) (hstated : ∀ m ∈ plan.netmaps, m.Stated) (hw : Calm w)
    (hb : Booked conf.IFACE w.box) (h : applyPlan conf plan privateKey w = .ok applied w') :
    Steady conf plan privateKey w'.box := by
  obtain ⟨_,w₁,hup,h⟩ := bind_ok h
  have hcalm : Keeps Calm (bringUp conf plan privateKey) :=
    keeps_bringUp (stable_calm fun _ => True) (fun _ => keeps_probeKernel (stable_calm fun _ => True) trivial trivial)
      trivial trivial (fun _ _ => trivial) (fun _ _ => trivial) (fun _ _ => trivial) trivial
  have hw₁ := hcalm.of_ok hup hw
  have hraised₁ := bringUp_raised hw hup
  obtain ⟨failed,w₂,hpeers,⟨hw₂,hup₂⟩,hpeered₂⟩ := applyPeers_peered plan hw₁ (isUp_of_raised hraised₁)
  have hraised₂ := (raised_applyPeers plan.peers).of_ok hpeers hraised₁
  rw [bind_of_ok hpeers, applyRouting_eq] at h
  obtain ⟨w₃,hroutes,⟨hw₃,-⟩,hmeshed₃⟩ := addMeshRoutes_taken hw₂ hup₂
    (fun route hroute => (hmeshed route hroute).1) fun route hroute => (hmeshed route hroute).2
  have hraised₃ := (keeps_addMeshRoutes stable_raised fun _ _ => by
    simp [Cmd.keepsLink, Cmd.keepsKey]).of_ok hroutes hraised₂
  have hpeered₃ := (peered_addMeshRoutes plan.routes).of_ok hroutes hpeered₂
  rw [bind_of_ok hroutes] at h
  have hbooked : Booked conf.IFACE w₃.box := by
    have hstable := @stable_booked conf.IFACE w.box.applied conf.IFACE plan.peers
    have hb₁ : Booked conf.IFACE w₁.box ∧ w₁.box.applied = w.box.applied :=
      (keeps_bringUp hstable (fun _ => probe_booked _) rfl rfl (fun _ _ => rfl) (fun _ _ => rfl) (fun _ _ => rfl)
        rfl).of_ok hup ⟨hb,rfl⟩
    have hb₂ := (keeps_applyPeers (hstable.mono ofMesh_of_ofLinks)).of_ok hpeers hb₁
    exact ((keeps_addMeshRoutes hstable fun _ _ => trivial).of_ok hroutes hb₂).1
  obtain ⟨htuned,hforwards⟩ := afterRoutes_steady hstated hw₃ hbooked h
  refine ⟨?_,(peered_afterRoutes failed).of_ok h hpeered₃,fun route hroute net hnet => ?_,htuned,hforwards⟩
  · exact (keeps_afterRoutes (stable_raised.mono afterRoutes_keepsLink) plan failed).of_ok h hraised₃
  · exact (keeps_afterRoutes ((stable_taken net).mono (afterRoutes_keepsMain net)) plan failed).of_ok h
      (hmeshed₃ route hroute net hnet)

theorem meshed_planReconcile {peersDoc : PeersDoc} {clientsDoc : Option ClientsDoc} {site : Option SiteDoc}
    (hplan : planReconcile conf (some peersDoc) clientsDoc site = .ok (.ready plan)) : plan.Meshed conf := by
  intro route hroute
  obtain ⟨hdev,hparse⟩ := (meshNets (planReconcile_routes hplan)).1 route hroute
  exact ⟨⟨hdev,Option.isSome_iff_exists.mpr ⟨_,hparse⟩⟩,meshNets_plain (planReconcile_routes hplan) route hroute⟩

def again (plan : Plan) (privateKey : String) (n : Nat) : List Pass := List.replicate n ⟨plan,privateKey⟩

theorem again_rests (hmeshed : plan.Meshed conf) (hstated : ∀ m ∈ plan.netmaps, m.Stated) (hw : Calm w)
    (h : Steady conf plan privateKey w.box) (hstanding : Standings conf plan.netmaps w.box) (n : Nat) :
    ∃ w', Run.exec (passStep conf) w (again plan privateKey n) = some w' ∧ Calm w' ∧ w'.box = w.box := by
  induction n generalizing w with
  | zero => exact ⟨w,rfl,hw,rfl⟩
  | succ n ih =>
    obtain ⟨applied,w₁,hpass,hw₁,hbox⟩ := takes_applyPlan hmeshed hstated h hstanding w hw rfl
    obtain ⟨w₂,hrun,hw₂,hbox₂⟩ := ih hw₁ (by rwa [hbox]) (by rwa [hbox])
    have hstep : passStep conf w ⟨plan,privateKey⟩ = some w₁ := by
      unfold passStep
      rw [hpass]
    refine ⟨w₂,?_,hw₂,hbox₂.trans hbox⟩
    rw [again, List.replicate_succ, Run.exec, hstep]
    exact hrun

theorem undisturbed_self {applied : List String} (h : ∀ member ∈ applied, member ∈ plan.netmaps.map Netmap.text) :
    Undisturbed plan.netmaps applied := fun member hmember => .inl (h member hmember)

theorem passes_rest {peersDoc : PeersDoc} {clientsDoc : Option ClientsDoc} {site : Option SiteDoc}
    (hplan : planReconcile conf (some peersDoc) clientsDoc site = .ok (.ready plan)) (hw : Calm w)
    (hb : Booked conf.IFACE w.box) (h : applyPlan conf plan privateKey w = .ok applied w₁) :
    (Undisturbed plan.netmaps w.box.applied → ∀ n, ∃ w',
      Run.exec (passStep conf) w₁ (again plan privateKey n) = some w' ∧ w'.box = w₁.box) ∧
    ∃ applied₂ w₂, applyPlan conf plan privateKey w₁ = .ok applied₂ w₂ ∧ ∀ n, ∃ w',
      Run.exec (passStep conf) w₂ (again plan privateKey n) = some w' ∧ w'.box = w₂.box := by
  have hmeshed := meshed_planReconcile hplan
  have hstated := stated_planNetmaps (planReconcile_ready hplan).2
  have hsteady := applyPlan_steady hmeshed hstated hw hb h
  obtain ⟨hw₁,hb₁,honly,hstanding⟩ := applyPlan_maps hstated hw hb h
  refine ⟨fun hcalm n => ?_,?_⟩
  · obtain ⟨w',hrun,-,hbox⟩ := again_rests hmeshed hstated hw₁ hsteady ⟨hstanding hcalm,honly⟩ n
    exact ⟨w',hrun,hbox⟩
  · obtain ⟨done,v,hbefore,hv,hsame⟩ := takes_beforeNetmaps hmeshed hsteady w₁ hw₁ rfl
    obtain ⟨failed,w₂,hmaps,-⟩ := applyNetmaps_ok hstated hv (hsame ▸ hb₁) done.1
    have hpass : applyPlan conf plan privateKey w₁ = .ok ⟨plan.peers.length - failed.length,failed,done.2⟩ w₂ := by
      rw [applyPlan_eq, bind_of_ok hbefore, bind_of_ok hmaps]
      rfl
    obtain ⟨hw₂,-,honly₂,hstanding₂⟩ := applyPlan_maps hstated hw₁ hb₁ hpass
    have hsteady₂ := applyPlan_steady hmeshed hstated hw₁ hb₁ hpass
    refine ⟨_,w₂,hpass,fun n => ?_⟩
    obtain ⟨w',hrun,-,hbox⟩ :=
      again_rests hmeshed hstated hw₂ hsteady₂ ⟨hstanding₂ (undisturbed_self honly),honly₂⟩ n
    exact ⟨w',hrun,hbox⟩

theorem passes_rest_desk : ∃ plan applied w₁,
    planReconcile wgMesh (some loneDoc) (some (deskAt "10.1.128.5")) (some lanSite) = .ok (.ready plan) ∧
    plan.netmaps ≠ [] ∧ applyPlan wgMesh plan "key" bare = .ok applied w₁ ∧
    ∀ n, ∃ w', Run.exec (passStep wgMesh) w₁ (again plan "key" n) = some w' ∧ w'.box = w₁.box := by
  obtain ⟨plan,hplan,hnetmaps,hpass⟩ : ∃ plan, planReconcile wgMesh (some loneDoc) (some (deskAt "10.1.128.5"))
      (some lanSite) = .ok (.ready plan) ∧ plan.netmaps ≠ [] ∧
      okWith (applyPlan wgMesh plan "key" bare) (fun _ _ => true) = true :=
    ⟨_,rfl,List.cons_ne_nil _ _,by decide +kernel⟩
  obtain ⟨applied,w₁,happly,-⟩ := exists_of_okWith hpass
  refine ⟨plan,applied,w₁,hplan,hnetmaps,happly,?_⟩
  exact (passes_rest hplan bare_calm bare_fresh.booked happly).1 fun _ hmember => absurd hmember List.not_mem_nil

end Rest

end JumpHost.Mesh
