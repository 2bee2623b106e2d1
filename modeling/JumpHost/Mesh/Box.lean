import JumpHost.Library.Net
import JumpHost.Library.OrdMap
import JumpHost.Value
import JumpHost.Ssh.UsernameGrammar

namespace JumpHost.Mesh

-- what a command that did not succeed leaves in `err` and `missing`
structure Failed where
  err : String
  missing : Bool := false
deriving DecidableEq

def Failed.fileExists (f : Failed) : Bool :=
  (UsernameGrammar.indexOf "File exists".toList f.err.toList).isSome

structure WgPeer where
  allowedIPs : List Net
  endpoint : Option String := none
  keepalive : Nat := 0
deriving DecidableEq

structure Link where
  up : Bool := false
  addrs : List String := []
  privateKey : Option String := none
  listenPort : Option Num := none
  peers : OrdMap String WgPeer := OrdMap.empty

-- a route without a metric, as every route of this program is
structure Route where
  table : Nat
  net : Net
  dev : String
deriving DecidableEq

structure IpRule where
  priority : Nat
  source : Option Net
  extra : List String := []
  table : Nat
deriving DecidableEq

inductive Table where
  | nat
  | filter
deriving DecidableEq, Repr

def Table.text : Table → String
  | .nat => "nat"
  | .filter => "filter"

inductive Target (ν : Type) where
  | NETMAP (net : ν)
  | MASQUERADE
  | ACCEPT
  | other (text : String)
deriving DecidableEq

structure IptRule (ν : Type) where
  inIface : Option String := none
  outIface : Option String := none
  source : Option ν := none
  dest : Option ν := none
  state : Option String := none
  target : Target ν
deriving DecidableEq

structure IptEntry where
  table : Table
  chain : String
  rule : IptRule Net
deriving DecidableEq

def Target.parse : Target String → Option (Target Net)
  | .NETMAP text => (Net.parse text).map .NETMAP
  | .MASQUERADE => some .MASQUERADE
  | .ACCEPT => some .ACCEPT
  | .other text => some (.other text)

def optional {α β : Type} (f : α → Option β) : Option α → Option (Option β)
  | none => some none
  | some a => (f a).map some

def IptRule.parse (rule : IptRule String) : Option (IptRule Net) := do
  let source ← optional Net.parse rule.source
  let dest ← optional Net.parse rule.dest
  let target ← rule.target.parse
  some ⟨rule.inIface,rule.outIface,source,dest,rule.state,target⟩

inductive IptOp where
  | check
  | append
  | insert
  | delete
deriving DecidableEq, Repr

structure Box where
  wireguard : Bool := true
  links : OrdMap String Link := OrdMap.empty
  routes : List Route := []
  -- others' routes that have a metric, by metric
  metered : List Route := []
  rules : List IpRule := []
  iptables : List IptEntry := []
  sysctls : OrdMap String String := OrdMap.empty
  applied : List String := []

inductive Cmd where
  | linkShow (dev : String)
  | linkAdd (dev : String)
  | linkDel (dev : String)
  | linkUp (dev : String)
  | linkList
  | wireguardGo (dev : String)
  | addrShow (dev : String)
  | addrAdd (cidr dev : String)
  | addrDel (cidr dev : String)
  | wgSetKey (dev key : String) (listenPort : Option Num)
  | wgSetPeer (dev publicKey : String) (allowedIPs : List String) (endpoint : Option String)
      (keepalive : Option Nat)
  | wgRemovePeer (dev publicKey : String)
  | wgShowPeers (dev : String)
  | wgShowAllowedIPs (dev : String)
  | routeShow (cidr dev : String)
  | routeAdd (cidr dev : String)
  | routeDel (cidr dev : String)
  | localShow (cidr : String)
  | localAdd (cidr : String)
  | localDel (cidr : String)
  | routeShowDefault
  | routeReplaceDefault (dev : String) (table : Num)
  | routeFlush (table : Num)
  | ruleShow
  | ruleAdd (source : String) (table priority : Num)
  | ruleDel (source : String) (table priority : Num)
  | iptables (op : IptOp) (table : Table) (chain : String) (rule : IptRule String)
  | version (tool : String)
  | sysctl (key value : String)
  | procSys (key value : String)
  | sMembers
  | sAdd (member : String)
  | sRem (member : String)
deriving DecidableEq

def LOCAL : Nat := 255

def MAIN : Nat := 254

def anywhere : Net := ⟨.v4,[],Nat.zero_le _⟩

namespace Box

def refuse (err : String) : Except Failed Box := .error { err }

def onLink (b : Box) (dev : String) (f : Link → Except Failed Box) : Except Failed Box :=
  match b.links.get? dev with
  | none => refuse ("Cannot find device \"" ++ dev ++ "\"")
  | some link => f link

def onNet (cidr : String) (f : Net → Except Failed Box) : Except Failed Box :=
  match Net.parse cidr with
  | none => refuse ("any valid prefix is expected rather than \"" ++ cidr ++ "\".")
  | some net => f net

-- an IPv4 address with a length that leaves bits of it set is no prefix to the kernel
def hostBits (cidr : String) : Bool :=
  (Net.parseIface cidr).any fun own => own.2.family == .v4 && (own.1.bits.drop own.2.bits.length).contains true

def onPrefix (cidr : String) (f : Net → Except Failed Box) : Except Failed Box :=
  onNet cidr fun net => if hostBits cidr then refuse "RTNETLINK answers: Invalid argument" else f net

def onNumber (n : Num) (f : Nat → Except Failed Box) : Except Failed Box :=
  match n with
  | .int (.ofNat k) => if k < 4294967296 then f k else refuse "argument is wrong"
  | _ => refuse "argument is wrong"

def fileExists : Except Failed Box := refuse "RTNETLINK answers: File exists"

def noSuchProcess : Except Failed Box := refuse "RTNETLINK answers: No such process"

def isZeronet (net : Net) : Bool := net.family == .v4 && (net.bits.take 8).all (! ·)

def ownRoutes (dev cidr : String) : List Route :=
  match Net.parseIface cidr with
  | none => []
  | some (address,net) =>
      ⟨LOCAL,Net.host address,dev⟩ ::
        if net = Net.host address ∨ isZeronet net then [] else [⟨MAIN,net,dev⟩]

def addRoutes (b : Box) (routes : List Route) : Box :=
  { b with routes := b.routes ++ routes.filter fun r => !b.routes.contains r }

def addRoute (b : Box) (route : Route) : Except Failed Box :=
  if b.routes.any fun r => r.table = route.table ∧ r.net = route.net then fileExists
  else .ok { b with routes := b.routes ++ [route] }

def delRoute (b : Box) (route : Route) : Except Failed Box :=
  if b.routes.contains route then .ok { b with routes := b.routes.erase route } else noSuchProcess

def linkAdd (b : Box) (dev : String) : Except Failed Box :=
  if b.links.has dev then fileExists
  else if b.wireguard then .ok { b with links := b.links.set dev {} }
  else refuse "RTNETLINK answers: Operation not supported"

def linkDel (b : Box) (dev : String) : Except Failed Box :=
  b.onLink dev fun _ => .ok { b with
    links := b.links.delete dev
    routes := b.routes.filter fun r => r.dev != dev
    metered := b.metered.filter fun r => r.dev != dev }

def linkUp (b : Box) (dev : String) : Except Failed Box :=
  b.onLink dev fun link =>
    let b' := { b with links := b.links.set dev { link with up := true } }
    .ok (if link.up then b' else b'.addRoutes (link.addrs.flatMap (ownRoutes dev)))

def addrAdd (b : Box) (cidr dev : String) : Except Failed Box :=
  b.onLink dev fun link =>
    if (Net.parseIface cidr).isNone then refuse ("inet prefix is expected rather than \"" ++ cidr ++ "\".")
    else if link.addrs.contains cidr then fileExists
    else
      let b' := { b with links := b.links.set dev { link with addrs := link.addrs ++ [cidr] } }
      .ok (if link.up then b'.addRoutes (ownRoutes dev cidr) else b')

def isV4 (cidr : String) : Bool := (Net.parseIface cidr).any fun own => own.2.family == .v4

-- with its last IPv4 address a link loses every IPv4 route it carries, of whatever table
def stripped (cidr : String) (left : List String) : Bool := isV4 cidr && !left.any isV4

def strippedOf (dev : String) (r : Route) : Bool := r.dev == dev && r.net.family == .v4

def addrDel (b : Box) (cidr dev : String) : Except Failed Box :=
  b.onLink dev fun link =>
    if link.addrs.contains cidr then
      let addrs := link.addrs.filter (· != cidr)
      let kept := addrs.flatMap (ownRoutes dev)
      let bare := stripped cidr addrs
      .ok { b with
        links := b.links.set dev { link with addrs := addrs }
        routes := b.routes.filter fun r =>
          (!(ownRoutes dev cidr).contains r || kept.contains r) && !(bare && strippedOf dev r)
        metered := b.metered.filter fun r => !(bare && strippedOf dev r) }
    else refuse "RTNETLINK answers: Cannot assign requested address"

def wgSetKey (b : Box) (dev key : String) (listenPort : Option Num) : Except Failed Box :=
  b.onLink dev fun link => .ok { b with
    links := b.links.set dev
      { link with privateKey := some key, listenPort := listenPort.or link.listenPort } }

end Box

-- `wg set peer`: the peer's blocks are replaced and taken from every other peer of the interface
def assignPeer (peers : OrdMap String WgPeer) (publicKey : String) (nets : List Net)
    (endpoint : Option String) (keepalive : Option Nat) : OrdMap String WgPeer :=
  let old := (peers.get? publicKey).getD ⟨[],none,0⟩
  let others := peers.mapValues fun _ p =>
    { p with allowedIPs := p.allowedIPs.filter fun net => !nets.contains net }
  others.set publicKey ⟨nets.dedup,endpoint.or old.endpoint,keepalive.getD old.keepalive⟩

def Link.setPeer (link : Link) (publicKey : String) (nets : List Net) (endpoint : Option String)
    (keepalive : Option Nat) : Link :=
  { link with peers := assignPeer link.peers publicKey nets endpoint keepalive }

def Link.removePeer (link : Link) (publicKey : String) : Link :=
  { link with peers := link.peers.delete publicKey }

namespace Box

def wgSetPeer (b : Box) (dev publicKey : String) (allowedIPs : List String)
    (endpoint : Option String) (keepalive : Option Nat) : Except Failed Box :=
  b.onLink dev fun link =>
    match allowedIPs.mapM Net.parse with
    | none => refuse "Unable to parse IP address"
    | some nets => .ok { b with
        links := b.links.set dev (link.setPeer publicKey nets endpoint keepalive) }

def wgRemovePeer (b : Box) (dev publicKey : String) : Except Failed Box :=
  b.onLink dev fun link => .ok { b with links := b.links.set dev (link.removePeer publicKey) }

def onUp (b : Box) (dev : String) (f : Except Failed Box) : Except Failed Box :=
  b.onLink dev fun link => if link.up then f else refuse "RTNETLINK answers: Network is down"

def routeReplaceDefault (b : Box) (dev : String) (table : Num) : Except Failed Box :=
  onNumber table fun t => b.onUp dev (.ok { b with
    routes := (b.routes.filter fun r => !(r.table == t && r.net == anywhere)) ++
      [⟨t,anywhere,dev⟩] })

def routeFlush (b : Box) (table : Num) : Except Failed Box :=
  onNumber table fun t => .ok { b with
    routes := b.routes.filter fun r => r.table != t
    metered := b.metered.filter fun r => r.table != t }

def insertRule (rules : List IpRule) (rule : IpRule) : List IpRule :=
  (rules.filter fun r => r.priority ≤ rule.priority) ++
    rule :: rules.filter fun r => !(r.priority ≤ rule.priority)

def ruleAdd (b : Box) (source : String) (table priority : Num) : Except Failed Box :=
  onNet source fun net => onNumber table fun t => onNumber priority fun p =>
    if b.rules.contains ⟨p,some net,[],t⟩ then fileExists
    else .ok { b with rules := insertRule b.rules ⟨p,some net,[],t⟩ }

def onSelector (source : String) (f : Option Net → Except Failed Box) : Except Failed Box :=
  if source = "all" then f none else onNet source fun net => f (some net)

end Box

-- a deletion `from all` names no source, so it takes a rule of any: of IPv4, the default family
def IpRule.named (priority : Nat) (source : Option Net) (table : Nat) (r : IpRule) : Bool :=
  r.priority == priority && r.table == table &&
    source.elim (r.source.all fun net => net.family == .v4) fun net => r.source == some net

namespace Box

-- the first rule with these three attributes goes, whatever other selectors it has
def ruleDel (b : Box) (source : String) (table priority : Num) : Except Failed Box :=
  onSelector source fun net => onNumber table fun t => onNumber priority fun p =>
    if b.rules.any (IpRule.named p net t) then
      .ok { b with rules := b.rules.eraseP (IpRule.named p net t) }
    else noSuchProcess

def iptablesOp (b : Box) (op : IptOp) (table : Table) (chain : String) (rule : IptRule String) :
    Except Failed Box :=
  match rule.parse with
  | none => refuse "iptables: invalid argument"
  | some rule =>
      let entry : IptEntry := ⟨table,chain,rule⟩
      match op with
      | .append => .ok { b with iptables := b.iptables ++ [entry] }
      | .insert => .ok { b with iptables := entry :: b.iptables }
      | .check => if b.iptables.contains entry then .ok b else refuse "iptables: Bad rule"
      | .delete =>
          if b.iptables.contains entry then .ok { b with iptables := b.iptables.erase entry }
          else refuse "iptables: Bad rule"

def step (b : Box) : Cmd → Except Failed Box
  | .linkShow dev => b.onLink dev fun _ => .ok b
  | .linkAdd dev => b.linkAdd dev
  | .linkDel dev => b.linkDel dev
  | .linkUp dev => b.linkUp dev
  | .linkList => .ok b
  | .wireguardGo dev =>
      .ok (if b.links.has dev then b else { b with links := b.links.set dev {} })
  | .addrShow dev => b.onLink dev fun _ => .ok b
  | .addrAdd cidr dev => b.addrAdd cidr dev
  | .addrDel cidr dev => b.addrDel cidr dev
  | .wgSetKey dev key listenPort => b.wgSetKey dev key listenPort
  | .wgSetPeer dev publicKey allowedIPs endpoint keepalive =>
      b.wgSetPeer dev publicKey allowedIPs endpoint keepalive
  | .wgRemovePeer dev publicKey => b.wgRemovePeer dev publicKey
  | .wgShowPeers dev => b.onLink dev fun _ => .ok b
  | .wgShowAllowedIPs dev => b.onLink dev fun _ => .ok b
  | .routeShow cidr dev => onNet cidr fun _ => b.onLink dev fun _ => .ok b
  | .routeAdd cidr dev => onPrefix cidr fun net => b.onUp dev (b.addRoute ⟨MAIN,net,dev⟩)
  | .routeDel cidr dev => onNet cidr fun net => b.onLink dev fun _ => b.delRoute ⟨MAIN,net,dev⟩
  | .localShow cidr => onNet cidr fun _ => .ok b
  | .localAdd cidr => onNet cidr fun net => b.addRoute ⟨LOCAL,net,"lo"⟩
  | .localDel cidr => onNet cidr fun net => b.delRoute ⟨LOCAL,net,"lo"⟩
  | .routeShowDefault => .ok b
  | .routeReplaceDefault dev table => b.routeReplaceDefault dev table
  | .routeFlush table => b.routeFlush table
  | .ruleShow => .ok b
  | .ruleAdd source table priority => b.ruleAdd source table priority
  | .ruleDel source table priority => b.ruleDel source table priority
  | .iptables op table chain rule => b.iptablesOp op table chain rule
  | .version _ => .ok b
  | .sysctl key value => .ok { b with sysctls := b.sysctls.set key value }
  | .procSys key value => .ok { b with sysctls := b.sysctls.set key value }
  | .sMembers => .ok b
  | .sAdd member => .ok (if b.applied.contains member then b else { b with applied := b.applied ++ [member] })
  | .sRem member => .ok { b with applied := b.applied.filter (· != member) }

end Box

end JumpHost.Mesh
