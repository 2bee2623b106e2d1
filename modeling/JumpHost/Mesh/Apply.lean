import JumpHost.Mesh.Plan
import JumpHost.Mesh.Shell

namespace JumpHost.Mesh

structure Failure where
  label : String
  error : String
deriving DecidableEq

section Plan

variable (conf : MeshConf)

def recorded (shadow physical : String) : String := shadow ++ "|" ++ physical

-- `applied.split('|')`: the first two parts
def splitRecorded (applied : String) : String × Option String :=
  match applied.toList.splitOn '|' with
  | shadow :: physical :: _ => (String.ofList shadow,some (String.ofList physical))
  | shadow :: [] => (String.ofList shadow,none)
  | [] => ("",none)

-- both are started and not awaited, and a rejection is dropped
def recordAppliedNetmap (shadow physical : String) : Shell Unit := do
  let _ ← tryRun (.sAdd (recorded shadow physical))

def removeAppliedNetmap (shadow physical : String) : Shell Unit := do
  let _ ← tryRun (.sRem (recorded shadow physical))

def listAppliedNetmaps : Shell (List String) := do
  match ← query .sMembers Box.applied with
  | .ok members => return members
  | .error failed => throw failed.err

def bringUp (plan : Plan) (privateKey : String) : Shell Unit := do
  let _ ← ensureInterface conf.IFACE
  setPrivateKey conf.IFACE privateKey (some conf.LISTEN_PORT)
  setAddresses conf.IFACE plan.addresses

def noting {α : Type} (failed : List Failure) (label : String) (step : Shell α) :
    Shell (List Failure) :=
  tryCatch (step >>= fun _ => pure failed) fun err => pure (failed ++ [⟨label,err⟩])

def applyPeer (failed : List Failure) (peer : Peer) : Shell (List Failure) :=
  noting failed peer.label
    (setPeer conf.IFACE peer.publicKey peer.endpoint peer.allowedIPs peer.keepalive)

def removeUnlisted (wanted : List String) (existing : String) : Shell Unit := do
  if !wanted.contains existing then removePeer conf.IFACE existing

def applyPeers (peers : List Peer) : Shell (List Failure) := do
  let failed ← peers.foldlM (applyPeer conf) []
  (← listPeers conf.IFACE).forM (removeUnlisted conf (peers.map Peer.publicKey))
  return failed

def forward (wan : Option String) (failed : List Failure) : Shell (List Failure) :=
  noting failed "forwarding/NAT" (applyForwarding wan [conf.IFACE])

def applyMap (failed : List Failure) (map : Netmap) : Shell (List Failure) :=
  noting failed ("netmap " ++ map.shadow) do
    let _ ← applyNetmap conf.IFACE map.shadow map.physical
    recordAppliedNetmap map.shadow map.physical

def removeStale (wanted : List String) (failed : List Failure) (applied : String) :
    Shell (List Failure) := do
  if wanted.contains applied then return failed
  else
    let (shadow,physical) := splitRecorded applied
    noting failed ("netmap " ++ shadow) do
      let _ ← removeNetmap conf.IFACE shadow (physical.getD "")
      removeAppliedNetmap shadow (shown physical)

def applyNetmaps (netmaps : List Netmap) (failed : List Failure) : Shell (List Failure) := do
  let failed ← netmaps.foldlM (applyMap conf) failed
  let wanted := netmaps.map fun m => recorded m.shadow m.physical
  (← listAppliedNetmaps).foldlM (removeStale conf wanted) failed

structure Applied where
  peers : Int
  failed : List Failure
  wan : Option String

def applyRouting (plan : Plan) (failed : List Failure) : Shell Applied := do
  plan.routes.forM fun route => do
    let _ ← ensureRoute route.cidr route.dev
  let wan ← detectWanInterface
  let _ ← applySysctls (([some conf.IFACE,wan].filter truthy).filterMap id)
  let failed ← forward conf wan failed
  let failed ← applyNetmaps conf plan.netmaps failed
  return ⟨plan.peers.length - failed.length,failed,wan⟩

def applyPlan (plan : Plan) (privateKey : String) : Shell Applied := do
  bringUp conf plan privateKey
  let failed ← applyPeers conf plan.peers
  applyRouting conf plan failed

end Plan

section Exits

structure ExitFailure where
  iface : Option String := none
  rule : Option String := none
  error : String
deriving DecidableEq

structure ExitsApplied where
  applied : List String
  failed : List ExitFailure
  rules : Nat
  unusable : List Unusable

def exitIfaceId (name : String) : Option Nat :=
  let digits := name.toList.drop "wg-exit-".length
  if "wg-exit-".toList.isPrefixOf name.toList ∧ digits ≠ [] ∧ digits.all Char.isDigit then
    some (Nat.ofDigitChars 10 digits 0)
  else none

def addExit (found : OrdMap Nat String) (name : String) : OrdMap Nat String :=
  match exitIfaceId name with
  | none => found
  | some id => found.set id name

def Box.exitInterfaces (b : Box) : OrdMap Nat String := b.links.keys.foldl addExit OrdMap.empty

def listExitInterfaces : Shell (OrdMap Nat String) := do
  return (← query .linkList Box.exitInterfaces).toOption.getD OrdMap.empty

structure ManagedRule where
  priority : Nat
  source : String
  table : Nat
deriving DecidableEq

-- the kernel drops the /32 of a host, listManagedRules puts it back
def IpRule.managed (r : IpRule) : Option ManagedRule :=
  let band := RULE_PRIORITY_BASE ≤ r.priority ∧ r.priority ≤ RULE_PRIORITY_BASE + 254
  if band ∧ r.extra = [] ∧ r.source.all (fun net => net.family = .v4) then
    some ⟨r.priority,(r.source.map Net.cidr).getD "all",r.table⟩
  else none

def listManagedRules : Shell (List ManagedRule) := do
  return (← query .ruleShow fun b => b.rules.filterMap IpRule.managed).toOption.getD []

def tableText (table : Nat) : String :=
  if table = 255 then "local" else if table = 254 then "main"
  else if table = 253 then "default" else toString table

def ManagedRule.key (r : ManagedRule) : String := r.source ++ "|" ++ tableText r.table

def ExitRule.key (r : ExitRule) : String := r.source ++ "|" ++ r.table.text

-- `Number(r.table)` is NaN for a table printed by name
def ManagedRule.serves (r : ManagedRule) (rule : ExitRule) : Bool :=
  r.source = rule.source ∧ tableText r.table = toString r.table ∧ rule.table = .int r.table

def bringUpExit (privateKey : String) (exit : Exit) : Shell Unit := do
  let _ ← ensureInterface exit.iface
  setPrivateKey exit.iface privateKey none
  setAddresses exit.iface []
  setPeerNoRoutes exit.iface exit.publicKey exit.endpoint exit.allowedIPs exit.keepalive
  let _ ← tryRun (.routeReplaceDefault exit.iface exit.table)
  let _ ← applySysctls [exit.iface]

def applyExit (privateKey : String) (done : List String × List ExitFailure) (exit : Exit) :
    Shell (List String × List ExitFailure) :=
  tryCatch (bringUpExit privateKey exit >>= fun _ => pure (done.1 ++ [exit.iface],done.2))
    fun err => pure (done.1,done.2 ++ [{ iface := some exit.iface, error := err }])

def removeRuleOf (wanted : List String) (failed : List ExitFailure) (rule : ManagedRule) :
    Shell (List ExitFailure) := do
  if wanted.contains rule.key then return failed
  else match ← tryRun (.ruleDel rule.source (.int rule.table) (.int rule.priority)) with
    | .ok _ => return failed
    | .error res => return failed ++ [{ rule := some rule.source, error := res.err }]

def addRuleOf (installed : List ManagedRule) (failed : List ExitFailure) (rule : ExitRule) :
    Shell (List ExitFailure) := do
  if installed.any (·.serves rule) then return failed
  else match ← tryRun (.ruleAdd rule.source rule.table rule.priority) with
    | .ok _ => return failed
    | .error res => return failed ++ [{ rule := some rule.source, error := res.err }]

def applyRules (rules : List ExitRule) (failed : List ExitFailure) : Shell (List ExitFailure) := do
  let installed ← listManagedRules
  let failed ← installed.foldlM (removeRuleOf (rules.map ExitRule.key)) failed
  rules.foldlM (addRuleOf installed) failed

def removeExit (wanted : List Num) (entry : Nat × String) : Shell Unit := do
  if !wanted.contains (.int entry.1) then
    let _ ← tryRun (.routeFlush (tableFor (.int entry.1)))
    let _ ← tryRun (.linkDel entry.2)

def applyExits (plan : ExitPlan) (privateKey : String) : Shell ExitsApplied := do
  let (applied,failed) ← (plan.exits.entries.map Prod.snd).foldlM (applyExit privateKey) ([],[])
  let failed ← applyRules plan.rules failed
  (← listExitInterfaces).entries.forM (removeExit plan.exits.keys)
  return ⟨applied,failed,plan.rules.length,plan.unusable⟩

end Exits

structure Fetched (α : Type) where
  value : Option α
  stale : Bool := false
  error : Option String := none

def fetchWithCache {α : Type} (fetched : Except String α) (cached : Option α) : Fetched α :=
  match fetched, cached with
  | .ok value, _ => { value := some value }
  | .error err, none => { value := none, stale := true, error := some err }
  | .error err, some value => { value := some value, stale := true, error := some err }

inductive Reconciled where
  | notReady (reason : Option String) (stale : Bool)
  | ready (siteId : Value) (applied : Applied) (exits : ExitsApplied) (stale : Bool)

def ownSite (rosterDoc : Option RosterDoc) (localSiteId : Value) : Option SiteDoc :=
  ((rosterDoc.bind RosterDoc.sites).getD []).find? fun s =>
    Num.strictEq s.siteId.number localSiteId.number

def reconcileMesh (conf : MeshConf) (privateKey exitKey : String) (peersRes : Fetched PeersDoc)
    (clientsRes : Fetched ClientsDoc) (rosterRes : Fetched RosterDoc) : Shell Reconciled := do
  match peersRes.value with
  | none => return .notReady peersRes.error true
  | some peersDoc =>
      let site := ownSite rosterRes.value peersDoc.localSiteId
      match planReconcile conf peersRes.value clientsRes.value site with
      | .error err => throw err
      | .ok (.notReady reason) => return .notReady (some reason) peersRes.stale
      | .ok (.ready plan) =>
          let result ← applyPlan conf plan privateKey
          let clients := (clientsRes.value.bind ClientsDoc.clients).getD []
          let allSites := (rosterRes.value.bind RosterDoc.sites).getD []
          let exitResult ← applyExits (planExits clients allSites plan.siteId) exitKey
          return .ready plan.siteId result exitResult peersRes.stale

end JumpHost.Mesh
