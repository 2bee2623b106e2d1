import JumpHost.Library.Cached
import JumpHost.Mesh.ExitPeers
import JumpHost.Mesh.Requests

namespace JumpHost.Mesh

open Cached (Entry Seen)

inductive Doc where
  | peers
  | site_clients
  | roster
deriving DecidableEq

abbrev Doc.Content : Doc → Type
  | .peers => PeersDoc
  | .site_clients => ClientsDoc
  | .roster => RosterDoc

structure Reply (α : Type) where
  response : Except String α
  written : Bool := true
  readable : Bool := true

section Fetch

variable {α : Type}

def cacheWrite (now : Nat) (reply : Reply α) (value : α) (cached : Option (Entry α)) : Option (Entry α) :=
  if reply.written then some ⟨now,value⟩ else cached

def cacheRead (reply : Reply α) (cached : Option (Entry α)) : Option (Entry α) :=
  if reply.readable then cached else none

def Reply.fetched (now : Nat) (reply : Reply α) (cached : Option (Entry α)) : Fetched (Entry α) :=
  fetchWithCache (reply.response.map fun value => ⟨now,value⟩) (cacheRead reply cached)

def Reply.cached (now : Nat) (reply : Reply α) (cached : Option (Entry α)) : Option (Entry α) :=
  match reply.response with
  | .ok value => cacheWrite now reply value cached
  | .error _ => cached

def Reply.request (reply : Reply α) (cached : Option (Entry α)) : Request α :=
  ⟨reply.response,(cacheRead reply cached).map Entry.value⟩

theorem fetched_request (now : Nat) (reply : Reply α) (cached : Option (Entry α)) :
    (reply.fetched now cached).value.map Entry.value = (reply.request cached).result.value ∧
      (reply.fetched now cached).stale = (reply.request cached).result.stale := by
  obtain ⟨response,written,readable⟩ := reply
  cases response <;> cases readable <;> cases cached <;> exact ⟨rfl,rfl⟩

end Fetch

section Pass

abbrev Cache : Type := (d : Doc) → Option (Entry d.Content)

abbrev Replies : Type := (d : Doc) → Reply d.Content

abbrev Reads : Type := (d : Doc) → Option (Fetched (Entry d.Content))

def asked (now : Nat) (cache : Cache) (replies : Replies) (d : Doc) : Bool :=
  d = .peers || ((replies .peers).fetched now (cache .peers)).value.isSome

def readsOf (now : Nat) (cache : Cache) (replies : Replies) : Reads := fun d =>
  if asked now cache replies d then some ((replies d).fetched now (cache d)) else none

def cacheAfter (now : Nat) (cache : Cache) (replies : Replies) : Cache := fun d =>
  if asked now cache replies d then (replies d).cached now (cache d) else cache d

def passes : Nat → Cache → List Replies → List Reads
  | _, _, [] => []
  | now, cache, replies :: run => readsOf now cache replies :: passes (now + 1) (cacheAfter now cache replies) run

def Reads.used (r : Reads) (d : Doc) : Option (Entry d.Content) := (r d).bind Fetched.value

def Reads.fresh (r : Reads) (d : Doc) : Option (Entry d.Content) :=
  (r d).bind fun res => if res.stale then none else res.value

def Reads.doc (r : Reads) (d : Doc) : Option d.Content := (r.used d).map Entry.value

def Reads.clients (r : Reads) : List ClientDoc := ((r.doc .site_clients).bind ClientsDoc.clients).getD []

def Reads.sites (r : Reads) : List SiteDoc := ((r.doc .roster).bind RosterDoc.sites).getD []

def Reads.planned (conf : MeshConf) (r : Reads) : Except String Planned :=
  planReconcile conf (r.doc .peers) (r.doc .site_clients)
    ((r.doc .peers).bind fun peersDoc => ownSite (r.doc .roster) peersDoc.localSiteId)

def Reads.exits (r : Reads) (siteId : Value) : ExitPlan := planExits r.clients r.sites siteId

def Replies.requests (replies : Replies) (cache : Cache) (privateKey exitKey : String) : Requests where
  privateKey := privateKey
  exitKey := exitKey
  peers := (replies .peers).request (cache .peers)
  clients := (replies .site_clients).request (cache .site_clients)
  roster := (replies .roster).request (cache .roster)

variable {conf : MeshConf} {now : Nat} {cache : Cache} {replies : Replies}

theorem readsOf_asked {d : Doc} (h : asked now cache replies d = true) :
    (readsOf now cache replies).doc d = ((replies d).request (cache d)).result.value := by
  simp only [Reads.doc, Reads.used, readsOf, h, if_true, Option.bind_some]
  exact (fetched_request now (replies d) (cache d)).1

theorem asked_of_peers {peersDoc : PeersDoc} (h : (readsOf now cache replies).doc .peers = some peersDoc) (d : Doc) :
    asked now cache replies d = true := by
  obtain ⟨entry,hentry,-⟩ := Option.map_eq_some_iff.mp h
  have hsome : ((replies .peers).fetched now (cache .peers)).value = some entry := hentry
  simp [asked, hsome]

theorem reconcile_reads {plan : Plan} {privateKey exitKey : String}
    (h : (readsOf now cache replies).planned conf = .ok (.ready plan)) :
    reconcile conf (replies.requests cache privateKey exitKey) = (do
      let result ← applyPlan conf plan privateKey
      let exitResult ← applyExits ((readsOf now cache replies).exits plan.siteId) exitKey
      return .ready plan.siteId result exitResult (replies.requests cache privateKey exitKey).peers.result.stale) := by
  cases hpeers : (readsOf now cache replies).doc .peers with
  | none =>
    unfold Reads.planned at h
    rw [hpeers] at h
    cases h
  | some peersDoc =>
    have hread := fun d => readsOf_asked (asked_of_peers hpeers d)
    have hplan : (replies.requests cache privateKey exitKey).planned conf peersDoc = .ok (.ready plan) := by
      unfold Reads.planned at h
      rw [hpeers, hread .site_clients, hread .roster] at h
      exact h
    have hexits : (replies.requests cache privateKey exitKey).exits plan.siteId =
        (readsOf now cache replies).exits plan.siteId := by
      unfold Reads.exits Reads.clients Reads.sites
      rw [hread .site_clients, hread .roster]
      rfl
    rw [reconcile_eq ((hread .peers).symm.trans hpeers) hplan, hexits]
    rfl

end Pass

section Items

inductive Item where
  | site (publicKey : String)
  | device (publicKey : String)
  | exit (id : Num)

def Doc.Lists : (d : Doc) → d.Content → Item → Prop
  | .peers, doc, .site publicKey => ∃ p ∈ doc.listed, p.publicKey = publicKey
  | .site_clients, doc, .device publicKey =>
      ∃ p ∈ (doc.clients.getD []).filterMap clientPeer, p.publicKey = publicKey
  | .site_clients, doc, .exit id => ∃ client ∈ doc.clients.getD [], client.exitSiteId.number = id
  | .roster, doc, .exit id => ∃ site, siteById (doc.sites.getD []) id = some site
  | _, _, _ => True

def Plan.Installs (plan : Plan) (exits : ExitPlan) : Item → Prop
  | .site publicKey => ∃ p ∈ plan.peers, p.kind ≠ .client ∧ p.publicKey = publicKey
  | .device publicKey => ∃ p ∈ plan.peers, p.kind = .client ∧ p.publicKey = publicKey
  | .exit id => ∃ exit, exits.exits.get? id = some exit

def Reads.Installs (conf : MeshConf) (r : Reads) (item : Item) : Prop :=
  ∃ plan, r.planned conf = .ok (.ready plan) ∧ plan.Installs (r.exits plan.siteId) item

theorem kind_listed {doc : PeersDoc} {p : Peer} (h : p ∈ doc.listed) : p.kind ≠ .client := by
  rcases List.mem_append.mp h with h | h
  · obtain ⟨peer,-,hpeer⟩ := List.mem_filterMap.mp h
    obtain ⟨_,-,rfl⟩ := Option.map_eq_some_iff.mp hpeer
    exact nofun
  · obtain ⟨peer,-,hpeer⟩ := List.mem_filterMap.mp h
    obtain ⟨_,-,rfl⟩ := Option.map_eq_some_iff.mp hpeer
    exact nofun

theorem kind_clientPeer {client : ClientDoc} {p : Peer} (h : clientPeer client = some p) : p.kind = .client := by
  unfold clientPeer at h
  split at h
  · cases h
    rfl
  · cases h

theorem exit_planExits {clients : List ClientDoc} {sites : List SiteDoc} {siteId : Value} {id : Num} {exit : Exit}
    (h : (planExits clients sites siteId).exits.get? id = some exit) :
    ∃ client ∈ clients, client.exitSiteId.number = id := by
  obtain ⟨-,client,hclient,-,hid⟩ := ((gathers_planExits clients sites siteId).exits id exit).mp h
  exact ⟨client,hclient,hid⟩

variable {conf : MeshConf} {r : Reads} {item : Item}

theorem planned_peers {plan : Plan} (h : r.planned conf = .ok (.ready plan)) : ∃ peersDoc,
    r.doc .peers = some peersDoc ∧ plan.peers = peersDoc.listed ++ r.clients.filterMap clientPeer := by
  unfold Reads.planned at h
  cases hpeers : r.doc .peers with
  | none =>
    rw [hpeers] at h
    cases h
  | some peersDoc =>
    rw [hpeers] at h
    exact ⟨peersDoc,rfl,(planReconcile_ready h).1⟩

theorem clients_mem {client : ClientDoc} (h : client ∈ r.clients) : ∃ doc, r.doc .site_clients = some doc ∧
    doc.clients.getD [] = r.clients := by
  unfold Reads.clients at h ⊢
  cases hdoc : r.doc .site_clients with
  | none =>
    rw [hdoc] at h
    cases h
  | some doc => exact ⟨doc,rfl,rfl⟩

theorem sites_some {id : Num} {site : SiteDoc} (h : siteById r.sites id = some site) :
    ∃ doc, r.doc .roster = some doc ∧ doc.sites.getD [] = r.sites := by
  unfold Reads.sites at h ⊢
  cases hdoc : r.doc .roster with
  | none =>
    rw [hdoc] at h
    cases h
  | some doc => exact ⟨doc,rfl,rfl⟩

theorem lists_of_installs {d : Doc} {content : d.Content} (hunlisted : ¬ d.Lists content item)
    (h : r.Installs conf item) : ∃ content', r.doc d = some content' ∧ d.Lists content' item := by
  obtain ⟨plan,hplan,hitem⟩ := h
  obtain ⟨peersDoc,hpeers,hlist⟩ := planned_peers hplan
  cases item with
  | site publicKey =>
    obtain ⟨p,hp,hkind,hkey⟩ := hitem
    rw [hlist] at hp
    rcases List.mem_append.mp hp with hp | hp
    · cases d with
      | peers => exact ⟨peersDoc,hpeers,p,hp,hkey⟩
      | site_clients => exact absurd trivial hunlisted
      | roster => exact absurd trivial hunlisted
    · obtain ⟨client,-,hclient⟩ := List.mem_filterMap.mp hp
      exact absurd (kind_clientPeer hclient) hkind
  | device publicKey =>
    obtain ⟨p,hp,hkind,hkey⟩ := hitem
    rw [hlist] at hp
    rcases List.mem_append.mp hp with hp | hp
    · exact absurd hkind (kind_listed hp)
    · cases d with
      | peers => exact absurd trivial hunlisted
      | site_clients =>
        obtain ⟨client,hclient,-⟩ := List.mem_filterMap.mp hp
        obtain ⟨doc,hdoc,hclients⟩ := clients_mem hclient
        rw [← hclients] at hp
        exact ⟨doc,hdoc,p,hp,hkey⟩
      | roster => exact absurd trivial hunlisted
  | exit id =>
    obtain ⟨exit,hexit⟩ := hitem
    cases d with
    | peers => exact absurd trivial hunlisted
    | site_clients =>
      obtain ⟨client,hclient,hid⟩ := exit_planExits hexit
      obtain ⟨doc,hdoc,hclients⟩ := clients_mem hclient
      rw [← hclients] at hclient
      exact ⟨doc,hdoc,client,hclient,hid⟩
    | roster =>
      obtain ⟨site,hsite,-⟩ := (chosen_planExits _ _ _ id exit hexit).site
      obtain ⟨doc,hdoc,hsites⟩ := sites_some hsite
      rw [← hsites] at hsite
      exact ⟨doc,hdoc,site,hsite⟩

end Items

section Runs

variable {conf : MeshConf} {now : Nat} {cache : Cache}

def turnOf (now : Nat) (cache : Cache) (replies : Replies) (d : Doc) : Cached.Turn d.Content :=
  if asked now cache replies d then
    match (replies d).response with
    | .ok value => .fresh value (replies d).written
    | .error _ => .failed (replies d).readable
  else .skip

def turnsOf (d : Doc) : Nat → Cache → List Replies → List (Cached.Turn d.Content)
  | _, _, [] => []
  | now, cache, replies :: run =>
      turnOf now cache replies d :: turnsOf d (now + 1) (cacheAfter now cache replies) run

def Reads.seen (r : Reads) (d : Doc) : Seen d.Content := ⟨r.fresh d,r.used d⟩

theorem seen_turnOf (now : Nat) (cache : Cache) (replies : Replies) (d : Doc) :
    (readsOf now cache replies).seen d = (turnOf now cache replies d).seen now (cache d) ∧
      cacheAfter now cache replies d = (turnOf now cache replies d).store now (cache d) := by
  unfold turnOf cacheAfter Reads.seen Reads.fresh Reads.used readsOf
  cases asked now cache replies d with
  | false => exact ⟨rfl,rfl⟩
  | true =>
    obtain ⟨response,written,readable⟩ := replies d
    cases response with
    | ok value => exact ⟨rfl,rfl⟩
    | error err =>
      cases readable with
      | false => exact ⟨rfl,rfl⟩
      | true =>
        cases hcached : cache d with
        | none => exact ⟨rfl,rfl⟩
        | some entry => exact ⟨rfl,rfl⟩

theorem seen_passes (d : Doc) (run : List Replies) (now : Nat) (cache : Cache) :
    (passes now cache run).map (·.seen d) = Cached.history now (cache d) (turnsOf d now cache run) := by
  induction run generalizing now cache with
  | nil => rfl
  | cons replies run ih =>
    obtain ⟨hseen,hstore⟩ := seen_turnOf now cache replies d
    simp only [passes, turnsOf, Cached.history, List.map_cons]
    rw [hseen, ih, hstore]

def leftover (contents : (d : Doc) → Option d.Content) : Cache := fun d => (contents d).map fun value => ⟨0,value⟩

theorem keeps_leftover (contents : (d : Doc) → Option d.Content) (d : Doc) :
    Cached.Keeps 1 (leftover contents d) false none := by
  refine .start fun e he => ?_
  obtain ⟨_,-,rfl⟩ := Option.map_eq_some_iff.mp he
  exact Nat.lt_one_iff.mpr rfl

structure NeverBack (conf : MeshConf) (h : List Reads) : Prop where
  ordered : ∀ d, h.Pairwise fun r r' => ∀ v, r.fresh d = some v → ∀ u, r'.used d = some u → v.stamp ≤ u.stamp
  removed : ∀ d r later, r :: later <:+ h → ∀ v, r.fresh d = some v → ∀ item, ¬ d.Lists v.value item →
    ∀ r' ∈ later.takeWhile fun r => (r.fresh d).isNone, ¬ r'.Installs conf item

def SavedBefore (contents : (d : Doc) → Option d.Content) (run : List Replies) : Prop :=
  ∀ d, Cached.Saved 1 (leftover contents d) false (turnsOf d 1 (leftover contents) run)

theorem ordered_saved (contents : (d : Doc) → Option d.Content) (run : List Replies) (d : Doc) :
    ((passes 1 (leftover contents) run).Pairwise fun r r' =>
        ∀ v, r.fresh d = some v → ∀ u, r'.used d = some u → v.stamp ≤ u.stamp) ↔
      Cached.Saved 1 (leftover contents d) false (turnsOf d 1 (leftover contents) run) := by
  rw [← Cached.ordered_iff (keeps_leftover contents d), ← seen_passes, Cached.Ordered, List.pairwise_map]
  exact ⟨fun h => ⟨fun _ hv => (by cases hv),h⟩,And.right⟩

theorem never_back (conf : MeshConf) (contents : (d : Doc) → Option d.Content) (run : List Replies) :
    NeverBack conf (passes 1 (leftover contents) run) ↔ SavedBefore contents run := by
  refine ⟨fun h d => (ordered_saved contents run d).mp (h.ordered d),fun h =>
    ⟨fun d => (ordered_saved contents run d).mpr (h d),?_⟩⟩
  intro d r later hsuffix v hv item hunlisted r' hr' hinstalls
  obtain ⟨content,hdoc,hlisted⟩ := lists_of_installs hunlisted hinstalls
  obtain ⟨u,hu,rfl⟩ := Option.map_eq_some_iff.mp hdoc
  have hseen := hsuffix.map (·.seen d)
  rw [List.map_cons, seen_passes] at hseen
  have hmem : r'.seen d ∈ (later.map (·.seen d)).takeWhile fun s => s.fresh.isNone := by
    rw [List.takeWhile_map]
    exact List.mem_map_of_mem hr'
  have hsame : u = v := Cached.used_after (keeps_leftover contents d) (h d) hseen hv hmem hu
  rw [hsame] at hlisted
  exact hunlisted hlisted

end Runs

section OneDevice

def alicePhone : ClientDoc where
  uid := some "alice"
  name := some "phone"
  publicKey := some "phone"
  assignedIp := some "10.1.128.7"

def answering (clients : List ClientDoc) (written : Bool) : (d : Doc) → Reply d.Content
  | .peers => { response := .ok { localSiteId := .ofInt 1 } }
  | .site_clients => { response := .ok { clients := some clients }, written := written }
  | .roster => { response := .ok {} }

def unreachable (d : Doc) : Reply d.Content := { response := .error "fetch failed" }

def onePhone : Plan where
  siteId := .ofInt 1
  addresses := ["172.24.0.1/32","10.1.0.1/16"]
  peers := [{
    kind := .client
    label := "alice/phone"
    publicKey := "phone"
    endpoint := ""
    allowedIPs := ["10.1.128.7/32"]
    keepalive := 0
    exitSiteId := .null }]
  routes := [⟨"10.0.0.0/8","wg-mesh"⟩,⟨"172.24.0.0/16","wg-mesh"⟩]
  netmaps := []
  siteCidr := "10.1.0.0/16"

theorem phone_back : ∃ r₁ r₂ r₃, passes 1 (leftover fun _ => none)
      [answering [alicePhone] true,answering [] false,unreachable] = [r₁,r₂,r₃] ∧
    r₁.Installs wgMesh (.device "phone") ∧ ¬ r₂.Installs wgMesh (.device "phone") ∧
    r₃.Installs wgMesh (.device "phone") ∧ ¬ NeverBack wgMesh [r₁,r₂,r₃] := by
  refine ⟨_,_,_,rfl,⟨onePhone,rfl,_,List.mem_singleton_self _,rfl,rfl⟩,?_,
    ⟨onePhone,rfl,_,List.mem_singleton_self _,rfl,rfl⟩,fun h => ?_⟩
  · rintro ⟨plan,hplan,p,hp,-⟩
    have hnone : plan = { onePhone with peers := [] } := by cases hplan; rfl
    subst hnone
    cases hp
  · have hordered := List.rel_of_pairwise_cons (h.ordered .site_clients).of_cons (List.mem_singleton_self _)
    exact absurd (hordered _ rfl _ rfl) (by decide)

end OneDevice

end JumpHost.Mesh
