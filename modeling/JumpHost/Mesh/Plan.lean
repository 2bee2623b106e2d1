import JumpHost.Library.OrdMap
import JumpHost.Mesh.Addressing

namespace JumpHost.Mesh

structure MeshConf where
  IFACE : String := "wg-mesh"
  LISTEN_PORT : Num := .int 51820
  -- `process.env.THETA_MESH_IFACE || 'wg-mesh'`
  named : IFACE ≠ ""

theorem wg_mesh_named : "wg-mesh" ≠ "" := by decide

def wgMesh : MeshConf := { named := wg_mesh_named }

structure PeerDoc where
  slug : Option String := none
  siteId : Value := .undefined
  publicKey : Option String := none
  endpoint : Option String := none
  allowedIps : Option (List String) := none

structure PeersDoc where
  localSiteId : Value
  peers : Option (List PeerDoc) := none
  exitPeers : Option (List PeerDoc) := none

structure ClientDoc where
  uid : Option String := none
  name : Option String := none
  publicKey : Option String := none
  assignedIp : Option String := none
  exitSiteId : Value := .undefined

structure ClientsDoc where
  clients : Option (List ClientDoc) := none

structure SiteDoc where
  siteId : Value
  slug : Option String := none
  gatewayPublicKey : Option String := none
  gatewayEndpoint : Option String := none
  lan168 : Option String := none
  lan172 : Option String := none

structure RosterDoc where
  sites : Option (List SiteDoc) := none

inductive PeerKind where
  | site
  | exitClient
  | client
deriving DecidableEq, Repr

structure Peer where
  kind : PeerKind
  label : String
  publicKey : String
  endpoint : String
  allowedIPs : List String
  keepalive : Nat
  exitSiteId : Value := .undefined
deriving DecidableEq

structure MeshRoute where
  cidr : String
  dev : String
deriving DecidableEq

structure Netmap where
  slot : Nat
  shadow : String
  physical : String
deriving DecidableEq

structure Plan where
  siteId : Value
  addresses : List String
  peers : List Peer
  routes : List MeshRoute
  netmaps : List Netmap
  siteCidr : String

inductive Planned where
  | notReady (reason : String)
  | ready (plan : Plan)

def shown (s : Option String) : String := s.getD "undefined"

-- `peer.publicKey` and `peer.allowedIps` when both are there and neither is empty
def PeerDoc.keyed (peer : PeerDoc) : Option (String × List String) :=
  match peer.publicKey, peer.allowedIps with
  | some publicKey, some allowedIps =>
      if publicKey = "" ∨ allowedIps = [] then none else some (publicKey,allowedIps)
  | _, _ => none

def sitePeer (peer : PeerDoc) : Option Peer :=
  peer.keyed.map fun (publicKey,allowedIps) =>
    { kind := .site
      label := (firstTruthy [peer.slug]).getD ("site " ++ peer.siteId.text)
      publicKey := publicKey
      endpoint := (firstTruthy [peer.endpoint]).getD ""
      allowedIPs := allowedIps
      keepalive := if truthy peer.endpoint then 25 else 0 }

def exitPeer (peer : PeerDoc) : Option Peer :=
  peer.keyed.map fun (publicKey,allowedIps) =>
    { kind := .exitClient
      label := (firstTruthy [peer.slug]).getD ("site " ++ peer.siteId.text) ++ " (exiting here)"
      publicKey := publicKey
      endpoint := ""
      allowedIPs := allowedIps
      keepalive := 0 }

def clientPeer (client : ClientDoc) : Option Peer :=
  match firstTruthy [client.publicKey], firstTruthy [client.assignedIp] with
  | some publicKey, some assignedIp =>
      some {
        kind := .client
        label := shown client.uid ++ "/" ++ shown client.name
        publicKey := publicKey
        endpoint := ""
        allowedIPs := [assignedIp ++ "/32"]
        keepalive := 0
        exitSiteId := if client.exitSiteId = .undefined then .null else client.exitSiteId }
  | _, _ => none

def planNetmap (siteId : Value) (site : Option SiteDoc) (netmaps : List Netmap) (slot : Nat) :
    Except String (List Netmap) :=
  let physical := site.bind fun s => firstTruthy [if slot = 168 then s.lan168 else s.lan172]
  match physical with
  | none => .ok netmaps
  | some physical => (shadowCidr siteId slot).map fun shadow => netmaps ++ [⟨slot,shadow,physical⟩]

def planNetmaps (siteId : Value) (site : Option SiteDoc) : Except String (List Netmap) :=
  SHADOW_SLOTS.foldlM (planNetmap siteId site) []

def noSiteId : Planned := .notReady "this site has no id yet — it has not joined a directory"

def planReconcile (conf : MeshConf) (peersDoc : Option PeersDoc) (clientsDoc : Option ClientsDoc)
    (site : Option SiteDoc) : Except String Planned :=
  match peersDoc with
  | none => .ok noSiteId
  | some peersDoc => do
      let siteId := peersDoc.localSiteId
      if !siteId.truthy then return noSiteId
      let _ ← assertSiteId siteId
      let addresses := [← meshAddress siteId,← siteGatewayCidr siteId]
      let peers := (peersDoc.peers.getD []).filterMap sitePeer ++
        (peersDoc.exitPeers.getD []).filterMap exitPeer ++
        ((clientsDoc.bind ClientsDoc.clients).getD []).filterMap clientPeer
      let routes := [⟨"10.0.0.0/8",conf.IFACE⟩,⟨"172.24.0.0/16",conf.IFACE⟩]
      let netmaps ← planNetmaps siteId site
      return .ready ⟨siteId,addresses,peers,routes,netmaps,← siteCidr siteId⟩

def TABLE_BASE : Int := 2400

def RULE_PRIORITY_BASE : Int := 3000

structure Exit where
  siteId : Num
  slug : String
  iface : String
  table : Num
  publicKey : String
  endpoint : String
  allowedIPs : List String
  keepalive : Nat
deriving DecidableEq

structure ExitRule where
  source : String
  table : Num
  priority : Num
  exitSiteId : Num
deriving DecidableEq

structure Unusable where
  client : String
  exitSiteId : Num
  reason : String
deriving DecidableEq

structure ExitPlan where
  exits : OrdMap Num Exit := OrdMap.empty
  rules : List ExitRule := []
  unusable : List Unusable := []

def ifaceFor (siteId : Num) : String := "wg-exit-" ++ siteId.text

def tableFor (siteId : Num) : Num := siteId.above TABLE_BASE

-- `new Map` over the roster: of two rows with one id the later stands
def siteById (sites : List SiteDoc) (id : Num) : Option SiteDoc :=
  (sites.filter fun s => s.siteId.number = id).getLast?

def unusableReason (site : Option SiteDoc) : Option String :=
  match site with
  | none => some "no such site in the roster"
  | some site =>
      if !truthy site.gatewayPublicKey then some "that site has not published a public key"
      else if !truthy site.gatewayEndpoint then some "that site has no reachable endpoint"
      else none

def Num.strictEq (a b : Num) : Bool := a != .nan && a == b

def planExit (sites : List SiteDoc) (localSiteId : Value) (plan : ExitPlan) (client : ClientDoc) :
    ExitPlan :=
  let exitId := client.exitSiteId
  if exitId.nullish || exitId.text = "" then plan
  else
    let id := exitId.number
    if Num.strictEq id localSiteId.number then plan
    else
      let site := siteById sites id
      match unusableReason site with
      | some reason =>
          { plan with unusable := plan.unusable ++ [⟨shown client.assignedIp,id,reason⟩] }
      | none =>
          let exit : Exit := {
            siteId := id
            slug := (firstTruthy [site.bind SiteDoc.slug]).getD ("site-" ++ id.text)
            iface := ifaceFor id
            table := tableFor id
            publicKey := (site.bind SiteDoc.gatewayPublicKey).getD ""
            endpoint := (site.bind SiteDoc.gatewayEndpoint).getD ""
            allowedIPs := ["0.0.0.0/0","::/0"]
            keepalive := 25 }
          let rule : ExitRule :=
            ⟨shown client.assignedIp ++ "/32",tableFor id,id.above RULE_PRIORITY_BASE,id⟩
          { plan with
            exits := if plan.exits.has id then plan.exits else plan.exits.set id exit
            rules := plan.rules ++ [rule] }

def planExits (clients : List ClientDoc) (sites : List SiteDoc) (localSiteId : Value) : ExitPlan :=
  clients.foldl (planExit sites localSiteId) {}

end JumpHost.Mesh
