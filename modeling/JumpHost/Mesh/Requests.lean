import JumpHost.Mesh.Frame

namespace JumpHost.Mesh

open Effect

section Requests

variable {conf : MeshConf}

structure Request (α : Type) where
  fetched : Except String α
  cached : Option α := none

def Request.result {α : Type} (r : Request α) : Fetched α := fetchWithCache r.fetched r.cached

def Request.Unknown {α : Type} (r : Request α) : Prop :=
  (∃ err, r.fetched = .error err) ∧ r.cached = none

structure Requests where
  privateKey : String
  exitKey : String
  peers : Request PeersDoc
  clients : Request ClientsDoc
  roster : Request RosterDoc

def Requests.allClients (q : Requests) : List ClientDoc :=
  (q.clients.result.value.bind ClientsDoc.clients).getD []

def Requests.allSites (q : Requests) : List SiteDoc :=
  (q.roster.result.value.bind RosterDoc.sites).getD []

def Requests.exits (q : Requests) (siteId : Value) : ExitPlan :=
  planExits q.allClients q.allSites siteId

def Requests.planned (conf : MeshConf) (q : Requests) (peersDoc : PeersDoc) : Except String Planned :=
  planReconcile conf (some peersDoc) q.clients.result.value
    (ownSite q.roster.result.value peersDoc.localSiteId)

def reconcile (conf : MeshConf) (q : Requests) : Shell Reconciled :=
  reconcileMesh conf q.privateKey q.exitKey q.peers.result q.clients.result q.roster.result

def reconcileStep (conf : MeshConf) (w : World) (q : Requests) : Option World :=
  some (final (reconcile conf q w))

theorem Request.value_of_unknown {α : Type} {r : Request α} (h : r.Unknown) : r.result.value = none := by
  obtain ⟨⟨err,hfetched⟩,hcached⟩ := h
  rw [Request.result, hfetched, hcached]
  rfl

theorem reconcile_eq {q : Requests} {peersDoc : PeersDoc} {plan : Plan}
    (hpeers : q.peers.result.value = some peersDoc) (hplan : q.planned conf peersDoc = .ok (.ready plan)) :
    reconcile conf q = (do
      let result ← applyPlan conf plan q.privateKey
      let exitResult ← applyExits (q.exits plan.siteId) q.exitKey
      return .ready plan.siteId result exitResult q.peers.result.stale) := by
  unfold Requests.planned at hplan
  unfold reconcile reconcileMesh
  rw [hpeers]
  simp only [hplan]
  rfl

theorem keeps_reconcile {P : World → Prop} {q : Requests}
    (h : ∀ peersDoc plan, q.peers.result.value = some peersDoc →
      q.planned conf peersDoc = .ok (.ready plan) → Keeps P (applyPlan conf plan q.privateKey) ∧
        Keeps P (applyExits (q.exits plan.siteId) q.exitKey)) : Keeps P (reconcile conf q) := by
  cases hpeers : q.peers.result.value with
  | none =>
    unfold reconcile reconcileMesh
    rw [hpeers]
    exact keeps_pure _
  | some peersDoc =>
    cases hplan : q.planned conf peersDoc with
    | error err =>
      unfold Requests.planned at hplan
      unfold reconcile reconcileMesh
      simp only [hpeers, hplan]
      exact keeps_throw _
    | ok planned =>
      cases planned with
      | notReady reason =>
        unfold Requests.planned at hplan
        unfold reconcile reconcileMesh
        simp only [hpeers, hplan]
        exact keeps_pure _
      | ready plan =>
        rw [reconcile_eq hpeers hplan]
        obtain ⟨happly,hexits⟩ := h peersDoc plan hpeers hplan
        exact keeps_bind happly fun _ => keeps_bind hexits fun _ => keeps_pure _

def clientsOf (clientsDoc : Option ClientsDoc) : List ClientDoc := (clientsDoc.bind ClientsDoc.clients).getD []

def PeersDoc.listed (d : PeersDoc) : List Peer :=
  (d.peers.getD []).filterMap sitePeer ++ (d.exitPeers.getD []).filterMap exitPeer

theorem keyed_ips {peer : PeerDoc} {publicKey : String} {ips : List String} (h : peer.keyed = some (publicKey,ips)) :
    peer.allowedIps = some ips := by
  unfold PeerDoc.keyed at h
  split at h
  · next hips =>
    split at h
    · cases h
    · cases h
      exact hips
  · cases h

theorem sitePeer_ips {peer : PeerDoc} {p : Peer} (h : sitePeer peer = some p) :
    p.kind = .site ∧ peer.allowedIps = some p.allowedIPs := by
  obtain ⟨⟨_,ips⟩,hkeyed,rfl⟩ := Option.map_eq_some_iff.mp h
  exact ⟨rfl,keyed_ips hkeyed⟩

theorem exitPeer_ips {peer : PeerDoc} {p : Peer} (h : exitPeer peer = some p) :
    p.kind = .exitClient ∧ peer.allowedIps = some p.allowedIPs := by
  obtain ⟨⟨_,ips⟩,hkeyed,rfl⟩ := Option.map_eq_some_iff.mp h
  exact ⟨rfl,keyed_ips hkeyed⟩

theorem clientPeer_ips {client : ClientDoc} {p : Peer} (h : clientPeer client = some p) : p.kind = .client ∧
    ∃ ip, firstTruthy [client.assignedIp] = some ip ∧ p.allowedIPs = [ip ++ "/32"] := by
  unfold clientPeer at h
  split at h
  · next ip _ hip =>
    cases h
    exact ⟨rfl,_,hip,rfl⟩
  · cases h

def PlannedPeers (peersDoc : PeersDoc) (clientsDoc : Option ClientsDoc) : List Peer :=
  peersDoc.listed ++ (clientsOf clientsDoc).filterMap clientPeer

theorem mem_planned {peersDoc : PeersDoc} {clientsDoc : Option ClientsDoc} {p : Peer}
    (h : p ∈ PlannedPeers peersDoc clientsDoc) :
    (∃ peer ∈ peersDoc.peers.getD [], sitePeer peer = some p) ∨
      (∃ peer ∈ peersDoc.exitPeers.getD [], exitPeer peer = some p) ∨
      ∃ client ∈ clientsOf clientsDoc, clientPeer client = some p := by
  rcases List.mem_append.mp h with h | h
  · rcases List.mem_append.mp h with h | h
    · exact .inl (List.mem_filterMap.mp h)
    · exact .inr (.inl (List.mem_filterMap.mp h))
  · exact .inr (.inr (List.mem_filterMap.mp h))

theorem planned_bind {α β : Type} {x : Except String α} {f : α → Except String β} {b : β}
    (h : x >>= f = .ok b) : ∃ a, x = .ok a ∧ f a = .ok b := by
  cases x with
  | error err => cases h
  | ok a => exact ⟨a,rfl,h⟩

theorem planReconcile_fields {peersDoc : PeersDoc} {clientsDoc : Option ClientsDoc}
    {site : Option SiteDoc} {plan : Plan}
    (h : planReconcile conf (some peersDoc) clientsDoc site = .ok (.ready plan)) :
    plan.peers = peersDoc.listed ++ ((clientsDoc.bind ClientsDoc.clients).getD []).filterMap clientPeer ∧
      planNetmaps peersDoc.localSiteId site = .ok plan.netmaps ∧
      plan.routes = [⟨"10.0.0.0/8",conf.IFACE⟩,⟨"172.24.0.0/16",conf.IFACE⟩] := by
  unfold planReconcile at h
  simp only at h
  split at h
  · cases h
  · obtain ⟨_,-,h⟩ := planned_bind h
    obtain ⟨_,-,h⟩ := planned_bind h
    obtain ⟨_,-,h⟩ := planned_bind h
    obtain ⟨netmaps,hnetmaps,h⟩ := planned_bind h
    obtain ⟨_,-,h⟩ := planned_bind h
    cases h
    exact ⟨rfl,hnetmaps,rfl⟩

theorem planReconcile_ready {peersDoc : PeersDoc} {clientsDoc : Option ClientsDoc}
    {site : Option SiteDoc} {plan : Plan}
    (h : planReconcile conf (some peersDoc) clientsDoc site = .ok (.ready plan)) :
    plan.peers = peersDoc.listed ++ ((clientsDoc.bind ClientsDoc.clients).getD []).filterMap clientPeer ∧
      planNetmaps peersDoc.localSiteId site = .ok plan.netmaps := by
  obtain ⟨hpeers,hnetmaps,-⟩ := planReconcile_fields h
  exact ⟨hpeers,hnetmaps⟩

theorem planReconcile_routes {peersDoc : PeersDoc} {clientsDoc : Option ClientsDoc}
    {site : Option SiteDoc} {plan : Plan}
    (h : planReconcile conf (some peersDoc) clientsDoc site = .ok (.ready plan)) :
    plan.routes = [⟨"10.0.0.0/8",conf.IFACE⟩,⟨"172.24.0.0/16",conf.IFACE⟩] := (planReconcile_fields h).2.2

end Requests

section Netmaps

variable {siteId : Value} {site : Option SiteDoc} {netmaps : List Netmap} {m : Netmap}

def lan (site : Option SiteDoc) (slot : Nat) : Option String :=
  site.bind fun s => firstTruthy [if slot = 168 then s.lan168 else s.lan172]

theorem mem_planNetmap {before : List Netmap} {slot : Nat} (h : planNetmap siteId site before slot = .ok netmaps) :
    m ∈ netmaps ↔ m ∈ before ∨
      m.slot = slot ∧ lan site m.slot = some m.physical ∧ shadowCidr siteId m.slot = .ok m.shadow := by
  have hlan : ∀ physical, lan site slot = some physical → planNetmap siteId site before slot =
      (shadowCidr siteId slot).map fun shadow => before ++ [⟨slot,shadow,physical⟩] := by
    intro physical hphysical
    unfold lan at hphysical
    rw [planNetmap, hphysical]
  cases hphysical : lan site slot with
  | none =>
    have hskip : planNetmap siteId site before slot = .ok before := by
      unfold lan at hphysical
      rw [planNetmap, hphysical]
    obtain rfl := Except.ok.inj (hskip.symm.trans h)
    refine ⟨.inl,fun hm => hm.elim id ?_⟩
    rintro ⟨rfl,hsome,-⟩
    rw [hphysical] at hsome
    cases hsome
  | some physical =>
    rw [hlan physical hphysical] at h
    cases hshadow : shadowCidr siteId slot with
    | error err =>
      rw [hshadow] at h
      cases h
    | ok shadow =>
      rw [hshadow] at h
      cases h
      rw [List.mem_append, List.mem_singleton]
      refine or_congr_right ⟨?_,?_⟩
      · rintro rfl
        exact ⟨rfl,hphysical,hshadow⟩
      · obtain ⟨slot',shadow',physical'⟩ := m
        rintro ⟨rfl,hphysical',hshadow'⟩
        obtain rfl := Option.some.inj (hphysical.symm.trans hphysical')
        obtain rfl := Except.ok.inj (hshadow.symm.trans hshadow')
        rfl

theorem mem_planNetmaps (h : planNetmaps siteId site = .ok netmaps) : m ∈ netmaps ↔ m.slot ∈ SHADOW_SLOTS ∧
    lan site m.slot = some m.physical ∧ shadowCidr siteId m.slot = .ok m.shadow := by
  have hfold : ∀ (slots : List Nat) (before : List Netmap),
      slots.foldlM (planNetmap siteId site) before = .ok netmaps → (m ∈ netmaps ↔ m ∈ before ∨
        m.slot ∈ slots ∧ lan site m.slot = some m.physical ∧ shadowCidr siteId m.slot = .ok m.shadow) := by
    intro slots
    induction slots with
    | nil =>
      intro before h
      cases h
      simp
    | cons slot slots ih =>
      intro before h
      rw [List.foldlM_cons] at h
      obtain ⟨next,hnext,h⟩ := planned_bind h
      rw [ih next h, mem_planNetmap hnext, List.mem_cons, or_assoc, ← or_and_right]
  rw [hfold SHADOW_SLOTS [] h]
  simp

end Netmaps

end JumpHost.Mesh
