import JumpHost.Library.Run
import JumpHost.Mesh.Exits
import JumpHost.Mesh.PeerRoutes
import JumpHost.Mesh.Router

namespace JumpHost.Mesh

open Effect

section Owned

structure Owned where
  iface : String
  ids : List Num

variable (o : Owned)

def Owned.link (d : String) : Bool :=
  d == o.iface || "wg-exit-".toList.isPrefixOf d.toList || "wgprobe".toList.isPrefixOf d.toList

def Owned.table (t : Nat) : Bool := decide (TABLE_BASE ≤ t) || o.ids.any fun id => tableFor id == .int t

def Owned.priority (p : Nat) : Bool :=
  decide (RULE_PRIORITY_BASE ≤ p ∧ (p : Int) ≤ RULE_PRIORITY_BASE + 254) || o.ids.any fun id => id.above RULE_PRIORITY_BASE == .int p

def Owned.route (r : Route) : Bool := o.link r.dev || (r.table == LOCAL && r.dev == "lo") || o.table r.table

def Owned.entry (e : IptEntry) : Bool :=
  e.rule.inIface == some o.iface || e.rule.outIface == some o.iface ||
    e == ⟨.nat,"POSTROUTING",{ outIface := e.rule.outIface, target := .MASQUERADE }⟩

def forwardingKey (key : String) : Prop :=
  key = "net.ipv4.ip_forward" ∨ ∃ iface, key = "net.ipv4.conf." ++ iface ++ ".rp_filter"

structure HostSame (b b' : Box) : Prop where
  links : ∀ d, o.link d = false → b'.links.get? d = b.links.get? d
  routes : (b'.routes.filter fun r => !o.route r) = b.routes.filter fun r => !o.route r
  metered : (b'.metered.filter fun r => !o.route r) = b.metered.filter fun r => !o.route r
  rules : (b'.rules.filter fun r => !o.priority r.priority).Perm (b.rules.filter fun r => !o.priority r.priority)
  iptables : (b'.iptables.filter fun e => !o.entry e) = b.iptables.filter fun e => !o.entry e
  sysctls : ∀ key, ¬ forwardingKey key → b'.sysctls.get? key = b.sysctls.get? key

def Cmd.own : Cmd → Prop
  | .linkAdd d | .wireguardGo d | .linkDel d | .linkUp d | .addrAdd _ d | .addrDel _ d => o.link d = true
  | .wgSetKey d _ _ | .wgSetPeer d _ _ _ _ | .wgRemovePeer d _ | .routeAdd _ d | .routeDel _ d => o.link d = true
  | .routeReplaceDefault d table => o.link d = true ∧ ∀ t : Nat, table = .int t → o.table t = true
  | .routeFlush table => ∀ t : Nat, table = .int t → o.table t = true
  | .ruleAdd _ _ priority | .ruleDel _ _ priority => ∀ p : Nat, priority = .int p → o.priority p = true
  | .iptables _ table chain rule => ∀ rule', rule.parse = some rule' → o.entry ⟨table,chain,rule'⟩ = true
  | .sysctl key _ | .procSys key _ => forwardingKey key
  | _ => True

variable {o} {b b' b'' : Box} {c : Cmd} {r : Route}

theorem HostSame.refl (b : Box) : HostSame o b b := ⟨fun _ _ => rfl,rfl,rfl,.refl _,rfl,fun _ _ => rfl⟩

theorem HostSame.trans (h : HostSame o b b') (h' : HostSame o b' b'') : HostSame o b b'' where
  links d hd := (h'.links d hd).trans (h.links d hd)
  routes := h'.routes.trans h.routes
  metered := h'.metered.trans h.metered
  rules := h'.rules.trans h.rules
  iptables := h'.iptables.trans h.iptables
  sysctls key hkey := (h'.sysctls key hkey).trans (h.sysctls key hkey)

end Owned

section Pass

variable {o : Owned} {P : World → Prop} {conf : MeshConf} {plan : Plan}

variable (h : Stable P (Cmd.own o))

include h

end Pass

section History

variable (conf : MeshConf)

def ownedBy (qs : List Requests) : Owned where
  iface := conf.IFACE
  ids := qs.flatMap fun q => q.allSites.map fun site => site.siteId.number

end History

end JumpHost.Mesh
