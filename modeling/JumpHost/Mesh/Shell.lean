import JumpHost.Library.Effect
import JumpHost.Mesh.Box

namespace JumpHost.Mesh

inductive Mode where
  | kernel
  | userspace
deriving DecidableEq, Repr

-- the box, the process's own caches, which of the commands to come fail from outside, and whether the
-- process has ended, when nothing a pass does or returns is the program's any more
structure World where
  box : Box
  faults : Nat → Cmd → Option Failed
  ended : Bool := false
  toolCache : Option (List String) := none
  kernelSupport : Option Bool := none
  probes : OrdMap String Mode := OrdMap.empty
  pid : String := "1"

abbrev Shell (α : Type) := EStateM String World α

def World.issue (w : World) (c : Cmd) : Except Failed Unit × World :=
  let later := { w with faults := fun n => w.faults (n + 1) }
  match w.faults 0 c with
  | some failed => (.error failed,later)
  | none => match w.box.step c with
      | .error failed => (.error failed,later)
      | .ok box => (.ok (),{ later with box })

def tryRun (c : Cmd) : Shell (Except Failed Unit) := fun w => .ok (w.issue c).1 (w.issue c).2

-- a daemon's program that is not there is an `error` event nobody listens to
def spawn (c : Cmd) : Shell Unit := do
  match ← tryRun c with
  | .ok _ => pure ()
  | .error failed => if failed.missing then modify fun w => { w with ended := true } else pure ()

def run (c : Cmd) : Shell Unit := do
  match ← tryRun c with
  | .ok _ => pure ()
  | .error failed => throw ("Command failed: " ++ failed.err)

def query {α : Type} (c : Cmd) (output : Box → α) : Shell (Except Failed α) := do
  let res ← tryRun c
  let w ← get
  return res.map fun _ => output w.box

section WgIface

def interfaceExists (name : String) : Shell Bool := do return (← tryRun (.linkShow name)).toBool

def probeKernel (probeName : String) : Shell Bool := do
  if (← tryRun (.linkAdd probeName)).toBool then
    let _ ← tryRun (.linkDel probeName)
    return true
  else return false

def kernelWireguardAvailable : Shell Bool := do
  let w ← get
  match w.kernelSupport with
  | some supported => return supported
  | none =>
      let supported ← probeKernel ("wgprobe" ++ w.pid)
      modify fun w => { w with kernelSupport := some supported }
      return supported

def waitForInterface (name : String) : Nat → Shell Bool
  | 0 => pure false
  | looks + 1 => do
      if ← interfaceExists name then return true else waitForInterface name looks

def remember (name : String) (mode : Mode) : Shell Mode := do
  modify fun w => { w with probes := w.probes.set name mode }
  return mode

def ensureInterface (name : String) : Shell Mode := do
  if ← interfaceExists name then
    return ((← get).probes.get? name).getD .kernel
  else if ← kernelWireguardAvailable then
    match ← tryRun (.linkAdd name) with
    | .ok _ => remember name .kernel
    | .error failed =>
        if failed.fileExists then remember name .kernel
        else throw ("kernel WireGuard interface creation failed: " ++ failed.err)
  else
    spawn (.wireguardGo name)
    if ← waitForInterface name 50 then remember name .userspace
    else throw ("wireguard-go did not bring up interface '" ++ name ++ "' within timeout")

def setPrivateKey (name privateKey : String) (listenPort : Option Num) : Shell Unit :=
  run (.wgSetKey name privateKey (listenPort.filter Num.truthy))

def addAddress (name cidr : String) : Shell Unit := do
  match ← tryRun (.addrAdd cidr name) with
  | .ok _ => pure ()
  | .error failed =>
      if failed.fileExists then pure ()
      else throw ("failed to add " ++ cidr ++ " to " ++ name ++ ": " ++ failed.err)

def setAddresses (name : String) (cidrs : List String) : Shell Unit := do
  let wanted := cidrs.eraseDups
  let shown ← query (.addrShow name) fun b => ((b.links.get? name).map Link.addrs).getD []
  let present := shown.toOption.getD []
  wanted.forM fun cidr => do
    if !present.contains cidr then addAddress name cidr
  present.forM fun cidr => do
    if !wanted.contains cidr then
      let _ ← tryRun (.addrDel cidr name)
  run (.linkUp name)

def listPeers (name : String) : Shell (List String) := do
  let res ← query (.wgShowPeers name) fun b => ((b.links.get? name).map (·.peers.keys)).getD []
  return res.toOption.getD []

def Box.routesTo (b : Box) (table : Nat) (cidr : String) : List Route :=
  b.routes.filter fun r => r.table = table ∧ Net.parse cidr = some r.net

def addRoute (cidr dev message : String) : Shell Bool := do
  match ← tryRun (.routeAdd cidr dev) with
  | .ok _ => return true
  | .error failed =>
      if failed.fileExists then return false
      else throw (message ++ failed.err)

def ensureRoute (cidr dev : String) : Shell Bool := do
  let existing ← query (.routeShow cidr dev) fun b =>
    (b.routesTo MAIN cidr).filter fun r => r.dev = dev
  match existing with
  | .ok (_ :: _) => return false
  | _ => addRoute cidr dev ("failed to add route " ++ cidr ++ " via " ++ dev ++ ": ")

def setPeerNoRoutes (name publicKey endpoint : String) (allowedIPs : List String)
    (keepalive : Nat) : Shell Unit :=
  run (.wgSetPeer name publicKey allowedIPs (firstTruthy [some endpoint])
    (if keepalive = 0 then none else some keepalive))

def addPeerRoutes (name : String) (allowedIPs : List String) : Shell Unit :=
  allowedIPs.forM fun cidr => do
    let _ ← addRoute cidr name ("failed to add kernel route " ++ cidr ++ " via " ++ name ++ ": ")

def setPeer (name publicKey endpoint : String) (allowedIPs : List String) (keepalive : Nat) :
    Shell Unit := do
  setPeerNoRoutes name publicKey endpoint allowedIPs keepalive
  addPeerRoutes name allowedIPs

def Box.allowedIPs (b : Box) (name publicKey : String) : List String :=
  match (b.links.get? name).bind fun link => link.peers.get? publicKey with
  | none => []
  | some peer => peer.allowedIPs.map Net.cidr

def dropPeerRoutes (name : String) (allowedIPs : List String) : Shell Unit :=
  allowedIPs.forM fun cidr => do
    let _ ← tryRun (.routeDel cidr name)

def removePeer (name publicKey : String) : Shell Unit := do
  let shown ← query (.wgShowAllowedIPs name) fun b => b.allowedIPs name publicKey
  let _ ← tryRun (.wgRemovePeer name publicKey)
  dropPeerRoutes name (shown.toOption.getD [])

end WgIface

section NetRouter

def TOOLS : List String := ["iptables","sysctl"]

def missingTools : Shell (List String) := do
  match (← get).toolCache with
  | some missing => return missing
  | none =>
      let missing ← TOOLS.foldlM (fun missing tool => do
        match ← tryRun (.version tool) with
        | .ok _ => return missing
        | .error failed => return if failed.missing then missing ++ [tool] else missing) []
      modify fun w => { w with toolCache := some missing }
      return missing

def haveIptables : Shell Bool := do return !(← missingTools).contains "iptables"

def ensureRule (table : Table) (chain : String) (rule : IptRule String) (append : Bool) :
    Shell Bool := do
  if !(← haveIptables) then return false
  else match ← tryRun (.iptables .check table chain rule) with
    | .ok _ => return false
    | .error _ =>
        match ← tryRun (.iptables (if append then .append else .insert) table chain rule) with
        | .ok _ => return true
        | .error failed => throw ("iptables -t " ++ table.text ++ " " ++ chain ++ ": " ++ failed.err)

-- `removed` copies are gone; the loop gives up past 32
def removeCopies (table : Table) (chain : String) (rule : IptRule String) : Nat → Nat → Shell Nat
  | 0, removed => pure removed
  | left + 1, removed => do
      match ← tryRun (.iptables .check table chain rule) with
      | .error _ => return removed
      | .ok _ =>
          match ← tryRun (.iptables .delete table chain rule) with
          | .error _ => return removed
          | .ok _ => removeCopies table chain rule left (removed + 1)

def removeRule (table : Table) (chain : String) (rule : IptRule String) : Shell Nat := do
  if !(← haveIptables) then return 0
  else removeCopies table chain rule 33 0

def sysctlSettings (interfaces : List String) : List (String × String) :=
  [("net.ipv4.ip_forward","1"),("net.ipv4.conf.all.rp_filter","0"),
    ("net.ipv4.conf.default.rp_filter","0")] ++
    (interfaces.filter (· != "")).map fun iface => ("net.ipv4.conf." ++ iface ++ ".rp_filter","0")

def applySysctl (key value : String) : Shell Bool := do
  match ← tryRun (.sysctl key value) with
  | .ok _ => return true
  | .error failed =>
      if failed.missing then return (← tryRun (.procSys key value)).toBool
      else return false

def applySysctls (interfaces : List String) : Shell (List String) :=
  (sysctlSettings interfaces).foldlM (fun applied setting => do
    if ← applySysctl setting.1 setting.2 then return applied ++ [setting.1] else return applied) []

structure Changed where
  changed : Nat
  skipped : Option String := none

def countRule (changed : Nat) (entry : Table × String × IptRule String) : Shell Nat := do
  if ← ensureRule entry.1 entry.2.1 entry.2.2 true then return changed + 1 else return changed

def forwardingRules (wan : String) (tunnels : List String) : List (Table × String × IptRule String) :=
  (.nat,"POSTROUTING",{ outIface := some wan, target := .MASQUERADE }) ::
    tunnels.flatMap fun tun =>
      (.filter,"FORWARD",{ inIface := some tun, outIface := some wan, target := .ACCEPT }) ::
      (.filter,"FORWARD",{
        inIface := some wan
        outIface := some tun
        state := some "RELATED,ESTABLISHED"
        target := .ACCEPT }) ::
      (tunnels.filter (· != tun)).map fun other =>
        (.filter,"FORWARD",{ inIface := some tun, outIface := some other, target := .ACCEPT })

def applyForwarding (wanIface : Option String) (tunnels : List String) : Shell Changed := do
  if !(← haveIptables) then return ⟨0,some "iptables not available"⟩
  else match firstTruthy [wanIface] with
    | none => return ⟨0,some "no WAN interface"⟩
    | some wan => return ⟨← (forwardingRules wan tunnels).foldlM countRule 0,none⟩

def preroutingNetmap {ν : Type} (wgIface : String) (shadow physical : ν) : IptRule ν :=
  { inIface := some wgIface, dest := some shadow, target := .NETMAP physical }

def postroutingNetmap {ν : Type} (wgIface : String) (shadow physical : ν) : IptRule ν :=
  { outIface := some wgIface, source := some physical, target := .NETMAP shadow }

def lanMasquerade {ν : Type} (wgIface : String) (physical : ν) : IptRule ν :=
  { outIface := some wgIface, source := some physical, target := .MASQUERADE }

def claimLocally (shadow : String) : Shell Nat := do
  match ← query (.localShow shadow) fun b => b.routesTo LOCAL shadow with
  | .ok (_ :: _) => return 0
  | _ => return if (← tryRun (.localAdd shadow)).toBool then 1 else 0

def applyNetmap (wgIface shadow physical : String) : Shell Changed := do
  if !(← haveIptables) then return ⟨0,some "iptables not available"⟩
  else if wgIface = "" ∨ shadow = "" ∨ physical = "" then return ⟨0,none⟩
  else
    let changed ← countRule 0 (.nat,"PREROUTING",preroutingNetmap wgIface shadow physical)
    let changed ← countRule changed (.nat,"POSTROUTING",postroutingNetmap wgIface shadow physical)
    let claimed ← claimLocally shadow
    let changed ← countRule (changed + claimed) (.nat,"POSTROUTING",lanMasquerade wgIface physical)
    return ⟨changed,none⟩

def removeNetmap (wgIface shadow physical : String) : Shell Nat := do
  if wgIface = "" ∨ shadow = "" ∨ physical = "" then return 0
  else
    let inbound ← removeRule .nat "PREROUTING" (preroutingNetmap wgIface shadow physical)
    let outbound ← removeRule .nat "POSTROUTING" (postroutingNetmap wgIface shadow physical)
    let masquerade ← removeRule .nat "POSTROUTING" (lanMasquerade wgIface physical)
    let _ ← tryRun (.localDel shadow)
    return inbound + outbound + masquerade

def detectWanInterface : Shell (Option String) := do
  let res ← query .routeShowDefault fun b =>
    (b.routes ++ b.metered).find? fun r => r.table = MAIN ∧ r.net = anywhere
  return res.toOption.join.map Route.dev

end NetRouter

end JumpHost.Mesh
