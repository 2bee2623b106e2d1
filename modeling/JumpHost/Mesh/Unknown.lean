import JumpHost.Mesh.ExitRouting
import JumpHost.Mesh.Netmaps
import JumpHost.Mesh.Peers
import JumpHost.Mesh.Requests

namespace JumpHost.Mesh

open Effect

section Plans

variable {conf : MeshConf} {clients : List ClientDoc} {sites : List SiteDoc} {siteId : Value}

theorem shadowCidr_ne_empty {slot : Nat} {shadow : String} (h : shadowCidr siteId slot = .ok shadow) :
    shadow ≠ "" := by
  unfold shadowCidr at h
  split at h
  · cases h
  · split at h
    · cases h
      intro hempty
      have hlist := congrArg String.toList hempty
      simp at hlist
    · cases h

theorem stated_planNetmaps {site : Option SiteDoc} {netmaps : List Netmap}
    (h : planNetmaps siteId site = .ok netmaps) : ∀ m ∈ netmaps, m.Stated := by
  intro m hm
  obtain ⟨-,hphysical,hshadow⟩ := (mem_planNetmaps h).mp hm
  obtain ⟨s,-,hs⟩ := Option.bind_eq_some_iff.mp hphysical
  exact ⟨shadowCidr_ne_empty hshadow,firstTruthy_ne_empty hs⟩

def ExitPlan.Idle (plan : ExitPlan) : Prop := plan.exits = OrdMap.empty ∧ plan.rules = []

theorem idle_planExits (h : clients = [] ∨ sites = []) : (planExits clients sites siteId).Idle := by
  rcases h with rfl | rfl
  · exact ⟨rfl,rfl⟩
  · have hnever : ∀ client, choice [] siteId client ≠ .routed := fun client hrouted => by
      cases usable_of_routed hrouted
    refine ⟨OrdMap.eq_empty fun id hid => ?_,List.eq_nil_iff_forall_not_mem.mpr fun rule hrule => ?_⟩
    · obtain ⟨exit,hget⟩ := OrdMap.mem_keys_iff.mp hid
      obtain ⟨-,client,-,hrouted,-⟩ := ((gathers_planExits clients [] siteId).exits id exit).mp hget
      exact hnever client hrouted
    · obtain ⟨client,-,hrouted,-⟩ := mem_rules.mp hrule
      exact hnever client hrouted

theorem idle_of_unknown {q : Requests} (h : q.clients.Unknown ∨ q.roster.Unknown) :
    (q.exits siteId).Idle := by
  refine idle_planExits (h.imp (fun h => ?_) fun h => ?_)
  · rw [Requests.allClients, Request.value_of_unknown h]
    rfl
  · rw [Requests.allSites, Request.value_of_unknown h]
    rfl

end Plans

section Runs

variable {conf : MeshConf} {plan : Plan} {exits : ExitPlan} {sites : List SiteDoc}
  {privateKey : String} {q : Requests} {w w' : World}

structure Sound (conf : MeshConf) (w : World) : Prop where
  calm : Calm w
  ruled : Ruled w.box
  booked : Booked conf.IFACE w.box
  named : NamedExits w.box

theorem keeps_sound {α : Type} {m : Shell α} (hbooked : Keeps (fun w => Calm w ∧ Booked conf.IFACE w.box) m)
    (hruled : Keeps (fun w => Ruled w.box) m) (hnamed : Keeps (fun w => NamedExits w.box) m) :
    Keeps (Sound conf) m := by
  intro w hw
  obtain ⟨⟨hcalm,hbooked⟩,hruled,hnamed⟩ :=
    (hbooked.and (hruled.and hnamed)) w ⟨⟨hw.calm,hw.booked⟩,hw.ruled,hw.named⟩
  exact ⟨hcalm,hruled,hbooked,hnamed⟩

theorem booked_beforeNetmaps : Keeps (fun w => Calm w ∧ Booked conf.IFACE w.box)
    (beforeNetmaps conf plan privateKey) := by
  intro w hw
  have hcalm : Keeps Calm (beforeNetmaps conf plan privateKey) :=
    keeps_beforeNetmaps (stable_calm _) keeps_calm_probe privateKey
  have hbooked : Keeps (fun v => Booked conf.IFACE v.box ∧ v.box.applied = w.box.applied)
      (beforeNetmaps conf plan privateKey) :=
    keeps_beforeNetmaps (stable_booked _ conf.IFACE plan.peers) (fun _ => probe_booked _) privateKey
  exact ⟨hcalm w hw.1,(hbooked w ⟨hw.2,rfl⟩).1⟩

theorem booked_applyNetmaps {netmaps : List Netmap} (hstated : ∀ m ∈ netmaps, m.Stated)
    (failed : List Failure) : Keeps (fun w => Calm w ∧ Booked conf.IFACE w.box)
      (applyNetmaps conf netmaps failed) := by
  intro w hw
  obtain ⟨failed',w',hrun,hw',hb,-,-⟩ := applyNetmaps_ok hstated hw.1 hw.2 failed
  rw [hrun]
  exact ⟨hw',hb⟩

theorem sound_applyPlan (hconf : exitIfaceId conf.IFACE = none) (hstated : ∀ m ∈ plan.netmaps, m.Stated) :
    Keeps (Sound conf) (applyPlan conf plan privateKey) := by
  refine keeps_sound ?_ ?_ ?_
  · rw [applyPlan_eq]
    exact keeps_bind booked_beforeNetmaps fun _ =>
      keeps_bind (booked_applyNetmaps hstated _) fun _ => keeps_pure _
  · refine keeps_applyPlan stable_ruled (fun c hc => ?_) (fun c hc => ?_) (fun pid => ?_) privateKey
    · cases c <;> simp_all [Cmd.ofMesh, Cmd.hostRules]
    · cases c <;> simp_all [Cmd.ofRouting, Cmd.hostRules]
    · exact keeps_probeKernel stable_ruled trivial trivial
  · refine keeps_applyPlan stable_namedExits (fun c hc => ?_) (fun c hc => ?_) namesExits_probe privateKey
    · cases c <;> simp_all [Cmd.ofMesh, Cmd.namesExits]
    · cases c <;> simp_all [Cmd.ofRouting, Cmd.namesExits]

theorem booked_applyExits : Keeps (fun w => Booked conf.IFACE w.box) (applyExits exits privateKey) := by
  intro w hw
  have hleft : ∀ entry ∈ exits.exits.entries, ∀ c, Cmd.ofExit entry.2 c →
      c.leavesNat := by
    intro entry _ c hc
    cases c <;> simp_all [Cmd.ofExit, Cmd.leavesNat, Cmd.writes]
  have hkeep : Keeps (fun v => Booked conf.IFACE v.box ∧ v.box.applied = w.box.applied)
      (applyExits exits privateKey) :=
    keeps_applyExits (stable_leftNat _) (fun _ => probe_booked _) hleft
      (fun _ _ => by simp [Cmd.leavesNat, Cmd.writes])
      (fun _ _ _ _ _ _ _ => by simp [Cmd.leavesNat, Cmd.writes])
      (fun _ _ => by simp [Cmd.leavesNat, Cmd.writes]) fun _ _ _ _ => by simp [Cmd.leavesNat, Cmd.writes]
  exact (hkeep w ⟨hw,rfl⟩).1

theorem sound_applyExits (hplan : exits.Formed sites) : Keeps (Sound conf) (applyExits exits privateKey) := by
  refine keeps_sound (Keeps.and ?_ booked_applyExits) ?_ ?_
  · exact keeps_applyExits (stable_calm fun _ => True) keeps_calm_probe (fun _ _ _ _ => trivial)
      (fun _ _ => trivial) (fun _ _ _ _ _ _ _ => trivial) (fun _ _ => trivial) fun _ _ _ _ => trivial
  · exact ruled_applyExits hplan
  · refine keeps_applyExits stable_namedExits namesExits_probe (fun entry hentry c hc => ?_)
      (fun _ _ => trivial) (fun _ _ _ _ _ _ _ => trivial) (fun _ _ => trivial) fun _ _ _ _ => trivial
    have hiface := (hplan.exits _ _ (OrdMap.mem_entries_iff.mp hentry)).1
    cases c <;> simp only [Cmd.ofExit] at hc <;> simp only [Cmd.namesExits]
    case linkAdd d | wireguardGo d => exact .inr ⟨_,hc.trans hiface⟩

theorem sound_reconcile (hconf : exitIfaceId conf.IFACE = none) (q : Requests) :
    Keeps (Sound conf) (reconcile conf q) := by
  refine keeps_reconcile fun peersDoc plan _ hplan => ⟨sound_applyPlan hconf ?_,?_⟩
  · exact stated_planNetmaps (planReconcile_ready hplan).2
  · exact sound_applyExits (formed_planExits _ _ _)

end Runs

section Frame

variable {conf : MeshConf} {plan : Plan} {exits : ExitPlan} {privateKey : String} {w w' : World}

theorem key_applyPlan {key : String} (hkey : key ∈ plan.peers.map Peer.publicKey) :
    Keeps (fun w => key ∈ (w.box.peers conf.IFACE).keys) (applyPlan conf plan privateKey) := by
  refine keeps_applyPlan (stable_key conf.IFACE key) (fun c hc => ?_) (fun c hc => ?_) (fun pid => ?_)
    privateKey
  · refine ⟨?_,?_⟩ <;> rintro rfl
    · exact hc.elim
    · exact hc.2 hkey
  · refine ⟨?_,?_⟩ <;> rintro rfl <;> exact hc.elim
  · intro w hw
    have hpeers := keeps_probeKernel_peers conf.IFACE ("wgprobe" ++ pid) (w.box.peers conf.IFACE) w rfl
    rwa [hpeers]

theorem keeps_applyExits_idle {P : World → Prop} {C : Cmd → Prop} (h : Stable P C) (hidle : exits.Idle)
    (hprobe : ∀ pid, Keeps P (probeKernel ("wgprobe" ++ pid)))
    (hdel : ∀ source table priority, C (.ruleDel source table priority))
    (hflush : ∀ table, C (.routeFlush table))
    (hlink : ∀ name, (exitIfaceId name).isSome → C (.linkDel name)) :
    Keeps P (applyExits exits privateKey) := by
  refine keeps_applyExits h hprobe (fun entry hentry => ?_) (fun rule hrule => ?_)
    (fun _ _ _ _ _ _ _ => hdel _ _ _) (fun _ _ => hflush _) fun name n hn _ => hlink name (by simp [hn])
  · rw [hidle.1] at hentry
    cases hentry
  · rw [hidle.2] at hrule
    cases hrule

theorem peers_applyExits (hidle : exits.Idle) (hconf : exitIfaceId conf.IFACE = none)
    (ps : OrdMap String WgPeer) :
    Keeps (fun w => w.box.peers conf.IFACE = ps) (applyExits exits privateKey) := by
  refine keeps_applyExits_idle (stable_peers _ ps) hidle (fun _ => keeps_probeKernel_peers _ _ _)
    (fun _ _ _ => trivial) (fun _ => trivial) fun name hname => ?_
  rintro rfl
  rw [hconf] at hname
  cases hname

theorem iptables_applyExits (hidle : exits.Idle) (entries : List IptEntry) :
    Keeps (fun w => w.box.iptables = entries) (applyExits exits privateKey) := by
  have hstable : Stable (fun w => w.box.iptables = entries) Cmd.leavesNat :=
    stable_box (I := fun b => b.iptables = entries) fun _ _ _ hc h hb =>
      ((sameBut_step h).iptables hc.1).trans hb
  exact keeps_applyExits_idle hstable hidle
    (fun _ => keeps_probeKernel hstable (by simp [Cmd.leavesNat, Cmd.writes])
      (by simp [Cmd.leavesNat, Cmd.writes])) (fun _ _ _ => by simp [Cmd.leavesNat, Cmd.writes])
    (fun _ => by simp [Cmd.leavesNat, Cmd.writes]) fun _ _ => by simp [Cmd.leavesNat, Cmd.writes]

theorem rules_applyRules {rules : List IpRule} (h : ∀ r ∈ rules, r.managed = none)
    (failed : List ExitFailure) : Keeps (fun w => w.box.rules = rules) (applyRules [] failed) := by
  rintro w rfl
  obtain ⟨res,w₁,hshow,-,hres⟩ := tryRun_cases .ruleShow w
  have hnone : w.box.rules.filterMap IpRule.managed = [] := by simpa [List.filterMap_eq_nil_iff] using h
  have hlisted : listManagedRules w = .ok [] w₁ ∧ w₁.box = w.box := by
    unfold listManagedRules query
    rw [bind_apply, bind_of_ok hshow]
    rcases hres with ⟨hbox,failed,rfl⟩ | ⟨rfl,-,hstep⟩
    · exact ⟨rfl,hbox⟩
    · have hbox : w₁.box = w.box := (Except.ok.inj hstep).symm
      refine ⟨?_,hbox⟩
      change EStateM.Result.ok (w₁.box.rules.filterMap IpRule.managed) w₁ = _
      rw [hbox, hnone]
  unfold applyRules
  rw [bind_of_ok hlisted.1]
  change w₁.box.rules = _
  rw [hlisted.2]

theorem rules_applyExits {rules : List IpRule} (hidle : exits.Idle) (h : ∀ r ∈ rules, r.managed = none) :
    Keeps (fun w => w.box.rules = rules) (applyExits exits privateKey) := by
  have hstable := stable_rules rules
  unfold applyExits
  rw [hidle.2]
  refine keeps_bind (keeps_foldlM (fun _ _ _ => rules_applyExit rules) _) fun done => ?_
  refine keeps_bind (rules_applyRules h _) fun failed => ?_
  refine keeps_bind (keeps_bind (keeps_query hstable rfl _) fun _ => keeps_pure _) fun found => ?_
  refine keeps_bind (keeps_forM fun entry _ => ?_) fun _ => keeps_pure _
  exact keeps_removeExit hstable (fun _ => by simp [Cmd.writes]) fun _ => by simp [Cmd.writes]

end Frame

section Teardown

variable {conf : MeshConf} {plan : Plan} {exits : ExitPlan} {privateKey : String} {b : Box}
  {w w' : World}

theorem Calm.rejects {peers : List Peer} (hw : Calm w) :
    RejectsExactly conf.IFACE peers (fun p => (p.allowedIPs.mapM Net.parse).isNone) w.faults := by
  rw [hw.faults]
  exact ⟨fun _ _ _ => rfl,fun _ => rfl,fun _ _ => rfl⟩

theorem keys_applyPlan {applied : Applied} (hw : Calm w)
    (h : applyPlan conf plan privateKey w = .ok applied w') :
    ∀ key ∈ (w'.box.peers conf.IFACE).keys, key ∈ plan.peers.map Peer.publicKey := by
  obtain ⟨_,w₁,hup,-⟩ := bind_ok h
  obtain ⟨ps,-,hpruned⟩ := applyPlan_carries hup hw.rejects
  rw [h] at hpruned
  exact hpruned.listed

theorem booked_applyPlan {applied : Applied} (hw : Sound conf w) (hstated : ∀ m ∈ plan.netmaps, m.Stated)
    (h : applyPlan conf plan privateKey w = .ok applied w') :
    Booked conf.IFACE w'.box ∧ ∀ member ∈ w'.box.applied, member ∈ plan.netmaps.map Netmap.text := by
  rw [applyPlan_eq] at h
  obtain ⟨done,w₁,hbefore,h⟩ := bind_ok h
  obtain ⟨hcalm,hbooked⟩ := booked_beforeNetmaps.of_ok hbefore ⟨hw.calm,hw.booked⟩
  obtain ⟨failed,w₂,hrun,-,hb,hleft,-⟩ := applyNetmaps_ok hstated hcalm hbooked done.1
  rw [bind_of_ok hrun] at h
  cases h
  exact ⟨hb,hleft⟩

theorem applyExits_idle (privateKey : String) (hidle : exits.Idle) (hw : Sound conf w) :
    ∃ result w', applyExits exits privateKey w = .ok result w' ∧
      (∀ r ∈ w'.box.rules, r.managed = none) ∧ ∀ name ∈ w'.box.links.keys, exitIfaceId name = none := by
  have htext : ∀ rule ∈ exits.rules, ∃ text, rule.source = text ++ "/32" := by simp [hidle.2]
  obtain ⟨failed,w₁,hrules,hw₁,-,-,hleft,-⟩ := applyRules_ok hw.calm.quiet hw.ruled.regular htext []
  have hlinks : w₁.box.links = w.box.links :=
    (keeps_applyRules (stable_links _) (fun _ _ => by simp [Cmd.writes])
      (fun _ _ _ _ _ _ _ => by simp [Cmd.writes]) []).of_ok hrules rfl
  have hnamed : NamedExits w₁.box := by
    rw [NamedExits, hlinks]
    exact hw.named
  obtain ⟨w₂,hremove,-,hgone⟩ := removeExits_ok exits.exits.keys hw₁ hnamed
  have hrules₂ : w₂.box.rules = w₁.box.rules := (rules_removeExits _ _ _).of_ok hremove rfl
  have hnone : (exits.exits.entries.map Prod.snd).foldlM (applyExit privateKey) ([],[]) w = .ok ([],[]) w := by
    rw [hidle.1]
    rfl
  refine ⟨_,w₂,applyExits_stages hnone hrules (listExit_ok hw₁) hremove,fun r hr => ?_,fun name hname => ?_⟩
  · rw [hrules₂] at hr
    rcases hleft r hr with ⟨-,hwanted⟩ | ⟨rule,hrule,-⟩
    · cases hm : r.managed with
      | none => rfl
      | some m =>
        have hlisted := hwanted m hm
        rw [hidle.2] at hlisted
        cases hlisted
    · rw [hidle.2] at hrule
      cases hrule
  · cases hn : exitIfaceId name with
    | none => rfl
    | some n =>
      have hchosen := ((hgone name).mp hname).2 n hn
      rw [OrdMap.keys, hidle.1] at hchosen
      cases hchosen

end Teardown

section Outage

variable {conf : MeshConf} {q : Requests} {peersDoc : PeersDoc} {passes : List Requests}
  {device : String → Prop} {start w : World} {b : Box}

def deviceOf (passes : List Requests) (key : String) : Prop :=
  ∃ q ∈ passes, ∃ client ∈ q.allClients, ∃ peer, clientPeer client = some peer ∧ peer.publicKey = key

structure Kept (conf : MeshConf) (q : Requests) (device : String → Prop) (b b' : Box) : Prop where
  devices : q.clients.Unknown → ∀ key ∈ (b.peers conf.IFACE).keys, device key →
    key ∈ (b'.peers conf.IFACE).keys
  rules : ∀ r ∈ b.rules, r ∉ kernelRules → r ∈ b'.rules
  exits : ∀ name ∈ b.links.keys, (exitIfaceId name).isSome → name ∈ b'.links.keys
  netmaps : q.roster.Unknown → ∀ s p e, Maps conf.IFACE s p e → e ∈ b.iptables → e ∈ b'.iptables

structure NothingToLose (conf : MeshConf) (q : Requests) (peersDoc : PeersDoc) (device : String → Prop)
    (b : Box) : Prop where
  devices : q.clients.Unknown → ∀ key ∈ (b.peers conf.IFACE).keys, device key →
    key ∈ peersDoc.listed.map Peer.publicKey
  rules : ∀ r ∈ b.rules, r.managed = none
  exits : ∀ name ∈ b.links.keys, exitIfaceId name = none
  netmaps : q.roster.Unknown → ∀ s p e, Maps conf.IFACE s p e → e ∉ b.iptables

theorem peers_of_unknown {plan : Plan} (hclients : q.clients.Unknown)
    (hplan : q.planned conf peersDoc = .ok (.ready plan)) : plan.peers = peersDoc.listed := by
  have hpeers := (planReconcile_ready hplan).1
  rwa [Request.value_of_unknown hclients, Option.bind_none, Option.getD_none, List.filterMap_nil,
    List.append_nil] at hpeers

theorem netmaps_of_unknown {plan : Plan} (hroster : q.roster.Unknown)
    (hplan : q.planned conf peersDoc = .ok (.ready plan)) : plan.netmaps = [] := by
  have hnetmaps := (planReconcile_ready hplan).2
  rw [Request.value_of_unknown hroster] at hnetmaps
  exact (Except.ok.inj hnetmaps).symm

theorem kept_of_nothing (hpeers : q.peers.result.value = some peersDoc)
    (hunknown : q.clients.Unknown ∨ q.roster.Unknown)
    (h : NothingToLose conf q peersDoc device w.box) :
    Kept conf q device w.box (final (reconcile conf q w)).box := by
  refine ⟨fun hclients key hkey hdevice => ?_,fun r hr _ => ?_,fun name hname hexit => ?_,
    fun hroster s p e he hmem => absurd hmem (h.netmaps hroster s p e he)⟩
  · have hconf : exitIfaceId conf.IFACE = none := by
      refine h.exits conf.IFACE ?_
      by_contra hgone
      rw [← OrdMap.get?_eq_none_iff] at hgone
      simp [Box.peers, Box.peersOn, hgone] at hkey
    have hkeep : Keeps (fun v => key ∈ (v.box.peers conf.IFACE).keys) (reconcile conf q) := by
      refine keeps_reconcile fun peersDoc' plan hpeers' hplan => ⟨key_applyPlan ?_,?_⟩
      · obtain rfl : peersDoc = peersDoc' := Option.some.inj (hpeers.symm.trans hpeers')
        rw [peers_of_unknown hclients hplan]
        exact h.devices hclients key hkey hdevice
      · intro v hv
        rwa [peers_applyExits (idle_of_unknown hunknown) hconf _ v rfl]
    exact hkeep w hkey
  · have hkeep : Keeps (fun v => v.box.rules = w.box.rules) (reconcile conf q) :=
      keeps_reconcile fun _ _ _ _ =>
        ⟨rules_applyPlan w.box.rules,rules_applyExits (idle_of_unknown hunknown) h.rules⟩
    rw [hkeep w rfl]
    exact hr
  · rw [h.exits name hname] at hexit
    cases hexit

structure Clean (conf : MeshConf) (b : Box) : Prop where
  fresh : Fresh conf b
  rules : b.rules = kernelRules
  exits : ∀ name ∈ b.links.keys, exitIfaceId name = none

theorem Clean.sound (hcalm : Calm start) (h : Clean conf start.box) : Sound conf start :=
  ⟨hcalm,ruled_kernel h.rules,h.fresh.booked,fun name hname n hn => by
    rw [h.exits name hname] at hn
    cases hn⟩

theorem sound_run (hconf : exitIfaceId conf.IFACE = none)
    (hrun : Run.exec (reconcileStep conf) start passes = some w) (h : Sound conf start) : Sound conf w := by
  refine Run.invariant_of_mem (fun v q v' hv _ hstep => ?_) h hrun
  cases hstep
  exact sound_reconcile hconf q v hv

theorem reconcile_ready {siteId : Value} {applied : Applied} {exits : ExitsApplied} {stale : Bool}
    {w' : World} (hpeers : q.peers.result.value = some peersDoc)
    (h : reconcile conf q w = .ok (.ready siteId applied exits stale) w') :
    ∃ plan w₁, q.planned conf peersDoc = .ok (.ready plan) ∧
      applyPlan conf plan q.privateKey w = .ok applied w₁ ∧
      applyExits (q.exits plan.siteId) q.exitKey w₁ = .ok exits w' := by
  cases hplan : q.planned conf peersDoc with
  | error err =>
    unfold Requests.planned at hplan
    unfold reconcile reconcileMesh at h
    simp only [hpeers, hplan] at h
    cases h
  | ok planned =>
    cases planned with
    | notReady reason =>
      unfold Requests.planned at hplan
      unfold reconcile reconcileMesh at h
      simp only [hpeers, hplan] at h
      cases h
    | ready plan =>
      rw [reconcile_eq hpeers hplan] at h
      obtain ⟨applied',w₁,happly,h⟩ := bind_ok h
      obtain ⟨exits',w₂,hexits,h⟩ := bind_ok h
      cases h
      exact ⟨plan,w₁,rfl,happly,hexits⟩

theorem nothing_of_kept {siteId : Value} {applied : Applied} {exits : ExitsApplied} {stale : Bool}
    {w' : World} (hpeers : q.peers.result.value = some peersDoc)
    (hunknown : q.clients.Unknown ∨ q.roster.Unknown) (hconf : exitIfaceId conf.IFACE = none)
    (hw : Sound conf w) (h : reconcile conf q w = .ok (.ready siteId applied exits stale) w')
    (hkept : Kept conf q device w.box w'.box) : NothingToLose conf q peersDoc device w.box := by
  obtain ⟨plan,w₁,hplan,happly,hexits⟩ := reconcile_ready hpeers h
  have hidle : (q.exits plan.siteId).Idle := idle_of_unknown hunknown
  have hstated := stated_planNetmaps (planReconcile_ready hplan).2
  have hw₁ : Sound conf w₁ := (sound_applyPlan hconf hstated).of_ok happly hw
  obtain ⟨result,w₂,hrun,hrules,hgone⟩ := applyExits_idle q.exitKey hidle hw₁
  rw [hexits] at hrun
  cases hrun
  refine ⟨fun hclients key hkey hdevice => ?_,fun r hr => ?_,fun name hname => ?_,
    fun hroster s p e he hmem => ?_⟩
  · have hpeers' := (peers_applyExits hidle hconf (w₁.box.peers conf.IFACE)).of_ok hexits rfl
    have hafter := hkept.devices hclients key hkey hdevice
    rw [hpeers'] at hafter
    rw [← peers_of_unknown hclients hplan]
    exact keys_applyPlan hw.calm happly key hafter
  · by_cases hkernel : r ∈ kernelRules
    · exact managed_kernel hkernel
    · exact hrules r (hkept.rules r hr hkernel)
  · cases hid : exitIfaceId name with
    | none => rfl
    | some n =>
      rw [← hid]
      exact hgone name (hkept.exits name hname (by rw [hid]; rfl))
  · obtain ⟨hb,hleft⟩ := booked_applyPlan hw hstated happly
    rw [netmaps_of_unknown hroster hplan] at hleft
    have hiptables := (iptables_applyExits hidle w₁.box.iptables).of_ok hexits rfl
    have hafter := hkept.netmaps hroster s p e he hmem
    rw [hiptables] at hafter
    exact others_absent (by simp) hb hleft (by simp) he hafter

theorem unknown_not_empty (hrun : Run.exec (reconcileStep conf) start passes = some w)
    (hpeers : q.peers.result.value = some peersDoc) (hunknown : q.clients.Unknown ∨ q.roster.Unknown) :
    (NothingToLose conf q peersDoc (deviceOf passes) w.box →
      Kept conf q (deviceOf passes) w.box (final (reconcile conf q w)).box) ∧
    ∀ siteId applied exits stale w', Calm start → Clean conf start.box →
      exitIfaceId conf.IFACE = none → reconcile conf q w = .ok (.ready siteId applied exits stale) w' →
      (Kept conf q (deviceOf passes) w.box w'.box ↔ NothingToLose conf q peersDoc (deviceOf passes) w.box) := by
  refine ⟨kept_of_nothing hpeers hunknown,fun siteId applied exits stale w' hcalm hclean hconf h => ?_⟩
  have hw : Sound conf w := sound_run hconf hrun (hclean.sound hcalm)
  refine ⟨nothing_of_kept hpeers hunknown hconf hw h,fun hnothing => ?_⟩
  have hkept := kept_of_nothing hpeers hunknown hnothing
  rwa [h] at hkept

end Outage

section OneOutage

def homePeers : PeersDoc where
  localSiteId := .ofInt 1
  peers := some [{
    siteId := .ofInt 3
    publicKey := some "nl"
    endpoint := some "nl:51820"
    allowedIps := some ["10.3.0.0/16"] }]

def homeClients : ClientsDoc where
  clients := some [{
    uid := some "alice"
    name := some "phone"
    publicKey := some "phone"
    assignedIp := some "10.1.128.7"
    exitSiteId := .ofInt 3 }]

def homeRoster : RosterDoc where
  sites := some [{ siteId := .ofInt 1, lan168 := some "192.168.1.0/24" },
    { siteId := .ofInt 3, gatewayPublicKey := some "nl exit", gatewayEndpoint := some "nl:51821" }]

def allFetched : Requests where
  privateKey := "key"
  exitKey := "exit key"
  peers := { fetched := .ok homePeers }
  clients := { fetched := .ok homeClients }
  roster := { fetched := .ok homeRoster }

def noDevices : Requests := { allFetched with
  clients := { fetched := .ok {} }
  roster := { fetched := .ok {} } }

def outage : Requests := { allFetched with
  clients := { fetched := .error "GET /api/mesh/site-clients -> HTTP 502" }
  roster := { fetched := .error "GET /api/mesh/roster -> HTTP 502" } }

theorem outage_unknown : outage.clients.Unknown ∧ outage.roster.Unknown :=
  ⟨⟨⟨_,rfl⟩,rfl⟩,⟨_,rfl⟩,rfl⟩

theorem booted_clean : Clean wgMesh booted.box :=
  ⟨⟨fun _ h => absurd h List.not_mem_nil,rfl⟩,rfl,fun _ h => absurd h List.not_mem_nil⟩

def Reconciled.isReady : Reconciled → Bool
  | .ready _ _ _ _ => true
  | .notReady _ _ => false

theorem unknown_not_empty_noDevices : ∃ w w', Run.exec (reconcileStep wgMesh) booted [noDevices] = some w ∧
    final (reconcile wgMesh outage w) = w' ∧ "nl" ∈ (w.box.peers "wg-mesh").keys ∧
    Kept wgMesh outage (deviceOf [noDevices]) w.box w'.box := by
  have hcheck : (Run.exec (reconcileStep wgMesh) booted [noDevices]).any (fun w =>
      decide ("nl" ∈ (w.box.peers "wg-mesh").keys ∧ (∀ r ∈ w.box.rules, r.managed = none) ∧
        (∀ name ∈ w.box.links.keys, exitIfaceId name = none) ∧ w.box.iptables = []) &&
      okWith (reconcile wgMesh outage w) fun res _ => res.isReady) = true := by decide +kernel
  obtain ⟨w,hrun,hlast⟩ := (Option.any_eq_true _ _).mp hcheck
  obtain ⟨hbox,hlast⟩ := Bool.and_eq_true_iff.mp hlast
  obtain ⟨hkey,hrules,hexits,hiptables⟩ := of_decide_eq_true hbox
  obtain ⟨res,w',hout,hready⟩ := exists_of_okWith hlast
  cases res with
  | notReady reason stale => cases hready
  | ready siteId applied exits stale =>
    have hnothing : NothingToLose wgMesh outage homePeers (deviceOf [noDevices]) w.box := by
      refine ⟨fun _ key _ hdevice => ?_,hrules,hexits,fun _ s p e _ hmem => ?_⟩
      · obtain ⟨q,hq,client,hclient,-⟩ := hdevice
        obtain rfl := List.mem_singleton.mp hq
        cases hclient
      · rw [hiptables] at hmem
        cases hmem
    refine ⟨w,w',hrun,by rw [hout]; rfl,hkey,?_⟩
    exact ((unknown_not_empty hrun rfl (.inl outage_unknown.1)).2 siteId applied exits stale w'
      booted_calm booted_clean rfl hout).mpr hnothing

def Holding (b : Box) : Prop :=
  "phone" ∈ (b.peers "wg-mesh").keys ∧ b.rules ≠ kernelRules ∧ "wg-exit-3" ∈ b.links.keys ∧ b.iptables ≠ []

def Emptied (b : Box) : Prop :=
  "phone" ∉ (b.peers "wg-mesh").keys ∧ b.rules = kernelRules ∧ "wg-exit-3" ∉ b.links.keys ∧ b.iptables = []

instance (b : Box) : Decidable (Holding b) := inferInstanceAs (Decidable (_ ∧ _))

instance (b : Box) : Decidable (Emptied b) := inferInstanceAs (Decidable (_ ∧ _))

theorem outage_empties : Calm booted ∧ Clean wgMesh booted.box ∧ outage.peers.result.value = some homePeers ∧
    outage.clients.Unknown ∧ outage.roster.Unknown ∧ deviceOf [allFetched] "phone" ∧
    ∃ w, Run.exec (reconcileStep wgMesh) booted [allFetched] = some w ∧ Holding w.box ∧
      Emptied (final (reconcile wgMesh outage w)).box ∧
      ¬ Kept wgMesh outage (deviceOf [allFetched]) w.box (final (reconcile wgMesh outage w)).box := by
  have hcheck : (Run.exec (reconcileStep wgMesh) booted [allFetched]).any (fun w =>
      decide (Holding w.box ∧ Emptied (final (reconcile wgMesh outage w)).box)) = true := by
    decide +kernel
  obtain ⟨w,hrun,hlast⟩ := (Option.any_eq_true _ _).mp hcheck
  obtain ⟨hholding,hemptied⟩ := of_decide_eq_true hlast
  have hdevice : deviceOf [allFetched] "phone" := ⟨allFetched,by simp,_,List.mem_cons_self,_,rfl,rfl⟩
  refine ⟨booted_calm,booted_clean,rfl,outage_unknown.1,outage_unknown.2,hdevice,w,hrun,hholding,hemptied,?_⟩
  exact fun hkept => hemptied.1 (hkept.devices outage_unknown.1 "phone" hholding.1 hdevice)

end OneOutage

end JumpHost.Mesh
