import JumpHost.Mesh.Frame

namespace JumpHost.Mesh

section Links

variable {b b' : Box} {c : Cmd}

inductive LinkEdit (c : Cmd) (dev : String) (link : Link) : Link → Prop
  | up (hc : c = .linkUp dev) : LinkEdit c dev link { link with up := true }
  | addrAdd (cidr : String) (hc : c = .addrAdd cidr dev) :
      LinkEdit c dev link { link with addrs := link.addrs ++ [cidr] }
  | addrDel (cidr : String) (hc : c = .addrDel cidr dev) :
      LinkEdit c dev link { link with addrs := link.addrs.filter (· != cidr) }
  | key (key : String) (listenPort : Option Num) (hc : c = .wgSetKey dev key listenPort) :
      LinkEdit c dev link { link with privateKey := some key, listenPort := listenPort.or link.listenPort }
  | setPeer (key : String) (ips : List String) (nets : List Net) (endpoint : Option String) (keepalive : Option Nat)
      (hc : c = .wgSetPeer dev key ips endpoint keepalive) :
      LinkEdit c dev link (link.setPeer key nets endpoint keepalive)
  | removePeer (key : String) (hc : c = .wgRemovePeer dev key) : LinkEdit c dev link (link.removePeer key)

inductive LinksChange (c : Cmd) (b b' : Box) : Prop
  | same (h : b'.links = b.links)
  | new (dev : String) (hc : c = .linkAdd dev ∨ c = .wireguardGo dev) (hdev : b.links.has dev = false)
      (h : b'.links = b.links.set dev {})
  | gone (dev : String) (hc : c = .linkDel dev) (h : b'.links = b.links.delete dev)
  | edit (dev : String) (link link' : Link) (hlink : b.links.get? dev = some link) (hedit : LinkEdit c dev link link')
      (h : b'.links = b.links.set dev link')

theorem links_change (h : b.step c = .ok b') : LinksChange c b b' := by
  by_cases hw : .links ∈ c.writes
  · cases c <;> simp [Cmd.writes] at hw <;> simp only [Box.step] at h
    case linkAdd dev =>
      unfold Box.linkAdd at h
      split at h
      · cases h
      · next hdev =>
        split at h <;> cases h
        exact .new dev (.inl rfl) (by simpa using hdev) rfl
    case wireguardGo dev =>
      split at h <;> cases h
      · exact .same rfl
      · next hdev => exact .new dev (.inr rfl) (by simpa using hdev) rfl
    case linkDel dev =>
      obtain ⟨link,-,hb⟩ := onLink_ok h
      cases hb
      exact .gone dev rfl rfl
    case linkUp dev =>
      obtain ⟨link,hlink,hb⟩ := onLink_ok h
      split at hb <;> cases hb <;> exact .edit dev link _ hlink (.up rfl) rfl
    case addrAdd cidr dev =>
      obtain ⟨link,hlink,hb⟩ := onLink_ok h
      split at hb
      · cases hb
      · split at hb
        · cases hb
        · split at hb <;> cases hb <;> exact .edit dev link _ hlink (.addrAdd cidr rfl) rfl
    case addrDel cidr dev =>
      obtain ⟨link,hlink,hb⟩ := onLink_ok h
      split at hb <;> cases hb
      exact .edit dev link _ hlink (.addrDel cidr rfl) rfl
    case wgSetKey dev key listenPort =>
      obtain ⟨link,hlink,hb⟩ := onLink_ok h
      cases hb
      exact .edit dev link _ hlink (.key key listenPort rfl) rfl
    case wgSetPeer dev key ips endpoint keepalive =>
      obtain ⟨link,hlink,hb⟩ := onLink_ok h
      split at hb <;> cases hb
      exact .edit dev link _ hlink (.setPeer key ips _ endpoint keepalive rfl) rfl
    case wgRemovePeer dev key =>
      obtain ⟨link,hlink,hb⟩ := onLink_ok h
      cases hb
      exact .edit dev link _ hlink (.removePeer key rfl) rfl
  · exact .same ((sameBut_step h).links hw)

end Links

section Routes

variable {b b' : Box} {c : Cmd}

def Box.addrs (b : Box) (d : String) : List String := ((b.links.get? d).map Link.addrs).getD []

theorem addRoute_ok {route : Route} (h : b.addRoute route = .ok b') :
    (∀ r ∈ b.routes, r.table = route.table → r.net ≠ route.net) ∧ b'.routes = b.routes ++ [route] := by
  unfold Box.addRoute at h
  split at h
  · cases h
  · next hnew =>
    cases h
    refine ⟨fun r hr htable hnet => hnew ?_,rfl⟩
    exact List.any_eq_true.mpr ⟨r,hr,by simp [htable, hnet]⟩

theorem delRoute_ok {route : Route} (h : b.delRoute route = .ok b') :
    b'.routes = b.routes.erase route := by
  unfold Box.delRoute at h
  split at h <;> cases h
  rfl

inductive RoutesChange (c : Cmd) (b b' : Box) : Prop
  | same (h : b'.routes = b.routes)
  | unlinked (dev : String) (hc : c = .linkDel dev) (h : b'.routes = b.routes.filter fun r => r.dev != dev)
  | own (dev : String) (routes : List Route) (hc : c = .linkUp dev ∨ ∃ cidr, c = .addrAdd cidr dev)
      (hown : ∀ r ∈ routes, ∃ cidr ∈ b'.addrs dev, r ∈ Box.ownRoutes dev cidr)
      (h : b'.routes = (b.addRoutes routes).routes)
  | disowned (cidr dev : String) (kept : List Route) (hc : c = .addrDel cidr dev) (hcidr : cidr ∈ b.addrs dev)
      (h : b'.routes = b.routes.filter fun r => (!(Box.ownRoutes dev cidr).contains r || kept.contains r) &&
        !(Box.stripped cidr (b'.addrs dev) && Box.strippedOf dev r))
  | added (cidr dev : String) (net : Net) (hc : c = .routeAdd cidr dev) (hnet : Net.parse cidr = some net)
      (h : b.addRoute ⟨MAIN,net,dev⟩ = .ok b')
  | deleted (cidr dev : String) (net : Net) (hc : c = .routeDel cidr dev) (hnet : Net.parse cidr = some net)
      (h : b.delRoute ⟨MAIN,net,dev⟩ = .ok b')
  | claimed (net : Net) (h : b.addRoute ⟨LOCAL,net,"lo"⟩ = .ok b')
  | unclaimed (net : Net) (h : b.delRoute ⟨LOCAL,net,"lo"⟩ = .ok b')
  | default (dev : String) (t : Nat) (hc : c = .routeReplaceDefault dev (.int t)) (ht : t < 4294967296)
      (h : b'.routes = (b.routes.filter fun r => !(r.table == t && r.net == anywhere)) ++ [⟨t,anywhere,dev⟩])
  | flushed (t : Nat) (hc : c = .routeFlush (.int t)) (ht : t < 4294967296)
      (h : b'.routes = b.routes.filter fun r => r.table != t)

theorem routes_change (h : b.step c = .ok b') : RoutesChange c b b' := by
  by_cases hw : .routes ∈ c.writes
  · cases c <;> simp [Cmd.writes] at hw <;> simp only [Box.step] at h
    case linkDel dev =>
      obtain ⟨link,-,hb⟩ := onLink_ok h
      cases hb
      exact .unlinked dev rfl rfl
    case linkUp dev =>
      obtain ⟨link,-,hb⟩ := onLink_ok h
      split at hb <;> cases hb
      · exact .same rfl
      · refine .own dev _ (.inl rfl) (fun r hr => ?_) rfl
        obtain ⟨cidr,hcidr,hown⟩ := List.mem_flatMap.mp hr
        exact ⟨cidr,by simpa [Box.addrs, Box.addRoutes, OrdMap.get?_set_self] using hcidr,hown⟩
    case addrAdd cidr dev =>
      obtain ⟨link,-,hb⟩ := onLink_ok h
      split at hb
      · cases hb
      · split at hb
        · cases hb
        · split at hb <;> cases hb
          · exact .own dev _ (.inr ⟨cidr,rfl⟩)
              (fun r hr => ⟨cidr,by simp [Box.addrs, Box.addRoutes, OrdMap.get?_set_self],hr⟩) rfl
          · exact .same rfl
    case addrDel cidr dev =>
      obtain ⟨link,hlink,hb⟩ := onLink_ok h
      split at hb
      · next hcidr =>
        cases hb
        refine .disowned cidr dev ((link.addrs.filter (· != cidr)).flatMap (Box.ownRoutes dev)) rfl
          (by simpa [Box.addrs, hlink] using hcidr) ?_
        simp only [Box.addrs, OrdMap.get?_set_self, Option.map_some, Option.getD_some]
      · cases hb
    case routeAdd cidr dev =>
      obtain ⟨net,hnet,hb⟩ := onPrefix_ok h
      obtain ⟨link,-,hb⟩ := onLink_ok hb
      split at hb
      · exact .added cidr dev net rfl hnet hb
      · cases hb
    case routeDel cidr dev =>
      obtain ⟨net,hnet,hb⟩ := onNet_ok h
      obtain ⟨link,-,hb⟩ := onLink_ok hb
      exact .deleted cidr dev net rfl hnet hb
    case localAdd cidr =>
      obtain ⟨net,-,hb⟩ := onNet_ok h
      exact .claimed net hb
    case localDel cidr =>
      obtain ⟨net,-,hb⟩ := onNet_ok h
      exact .unclaimed net hb
    case routeReplaceDefault dev table =>
      obtain ⟨t,rfl,ht,hb⟩ := onNumber_ok h
      obtain ⟨link,-,hb⟩ := onLink_ok hb
      split at hb <;> cases hb
      exact .default dev t rfl ht rfl
    case routeFlush table =>
      obtain ⟨t,rfl,ht,hb⟩ := onNumber_ok h
      cases hb
      exact .flushed t rfl ht rfl
  · exact .same ((sameBut_step h).routes hw)

def Cmd.dropsRoute (r : Route) (c : Cmd) : Prop :=
  c = .linkDel r.dev ∨ (∃ cidr, c = .addrDel cidr r.dev) ∨ c = .routeFlush (.int r.table)

theorem metered_step (h : b.step c = .ok b') :
    ∃ keep : Route → Bool, b'.metered = b.metered.filter keep ∧ ∀ r, keep r = false → c.dropsRoute r := by
  by_cases hw : .metered ∈ c.writes
  · cases c <;> simp [Cmd.writes] at hw <;> simp only [Box.step] at h
    case linkDel d =>
      obtain ⟨link,-,hb⟩ := onLink_ok h
      cases hb
      refine ⟨_,rfl,fun r hr => .inl ?_⟩
      rw [show r.dev = d by simpa using hr]
    case addrDel cidr d =>
      obtain ⟨link,-,hb⟩ := onLink_ok h
      split at hb <;> cases hb
      refine ⟨_,rfl,fun r hr => .inr (.inl ⟨cidr,?_⟩)⟩
      have hdev : r.dev = d := by
        by_contra hne
        simp [Box.strippedOf, hne] at hr
      rw [hdev]
    case routeFlush table =>
      obtain ⟨t,rfl,-,hb⟩ := onNumber_ok h
      cases hb
      refine ⟨_,rfl,fun r hr => .inr (.inr ?_)⟩
      rw [show r.table = t by simpa using hr]
  · refine ⟨fun _ => true,?_,fun _ hgone => by cases hgone⟩
    rw [(sameBut_step h).metered hw, List.filter_true]

theorem mem_metered (h : b.step c = .ok b') {r : Route} (hr : r ∈ b'.metered) : r ∈ b.metered := by
  obtain ⟨keep,hkept,-⟩ := metered_step h
  exact (List.mem_filter.mp (hkept ▸ hr)).1

end Routes

section Settings

variable {b b' : Box} {c : Cmd}

theorem sysctls_change (h : b.step c = .ok b') : b'.sysctls = b.sysctls ∨
    ∃ key value, (c = .sysctl key value ∨ c = .procSys key value) ∧ b'.sysctls = b.sysctls.set key value := by
  cases c <;> simp only [Box.step] at h
  case sysctl key value | procSys key value =>
    cases h
    exact .inr ⟨key,value,by simp,rfl⟩
  all_goals refine .inl ?_
  case linkAdd d =>
    unfold Box.linkAdd at h
    split at h
    · cases h
    · split at h <;> cases h
      rfl
  case wireguardGo d | sAdd member =>
    split at h <;> cases h <;> rfl
  case linkUp d =>
    obtain ⟨link,-,hb⟩ := onLink_ok h
    split at hb <;> cases hb <;> rfl
  case addrAdd cidr d =>
    obtain ⟨link,-,hb⟩ := onLink_ok h
    split at hb
    · cases hb
    · split at hb
      · cases hb
      · split at hb <;> cases hb <;> rfl
  case addrDel cidr d =>
    obtain ⟨link,-,hb⟩ := onLink_ok h
    split at hb <;> cases hb
    rfl
  case linkShow d | addrShow d | wgShowPeers d | wgShowAllowedIPs d | linkDel d | wgSetKey d key port
      | wgRemovePeer d key =>
    obtain ⟨link,-,hb⟩ := onLink_ok h
    cases hb
    rfl
  case wgSetPeer d key ips endpoint keepalive =>
    obtain ⟨link,-,hb⟩ := onLink_ok h
    split at hb <;> cases hb
    rfl
  case routeShow cidr d =>
    obtain ⟨net,-,hb⟩ := onNet_ok h
    obtain ⟨link,-,hb⟩ := onLink_ok hb
    cases hb
    rfl
  case localShow cidr =>
    obtain ⟨net,-,hb⟩ := onNet_ok h
    cases hb
    rfl
  case routeAdd cidr d =>
    obtain ⟨net,-,hb⟩ := onPrefix_ok h
    obtain ⟨link,-,hb⟩ := onLink_ok hb
    split at hb
    · unfold Box.addRoute at hb
      split at hb <;> cases hb
      rfl
    · cases hb
  case routeDel cidr d =>
    obtain ⟨net,-,hb⟩ := onNet_ok h
    obtain ⟨link,-,hb⟩ := onLink_ok hb
    unfold Box.delRoute at hb
    split at hb <;> cases hb
    rfl
  case localAdd cidr =>
    obtain ⟨net,-,hb⟩ := onNet_ok h
    unfold Box.addRoute at hb
    split at hb <;> cases hb
    rfl
  case localDel cidr =>
    obtain ⟨net,-,hb⟩ := onNet_ok h
    unfold Box.delRoute at hb
    split at hb <;> cases hb
    rfl
  case routeReplaceDefault d table =>
    obtain ⟨t,-,-,hb⟩ := onNumber_ok h
    obtain ⟨link,-,hb⟩ := onLink_ok hb
    split at hb <;> cases hb
    rfl
  case routeFlush table =>
    obtain ⟨t,-,-,hb⟩ := onNumber_ok h
    cases hb
    rfl
  case ruleAdd source table priority =>
    obtain ⟨net,-,hb⟩ := onNet_ok h
    obtain ⟨t,-,-,hb⟩ := onNumber_ok hb
    obtain ⟨p,-,-,hb⟩ := onNumber_ok hb
    split at hb <;> cases hb
    rfl
  case ruleDel source table priority =>
    obtain ⟨net,hb,-⟩ := onSelector_ok h
    obtain ⟨t,-,-,hb⟩ := onNumber_ok hb
    obtain ⟨p,-,-,hb⟩ := onNumber_ok hb
    split at hb <;> cases hb
    rfl
  case iptables op table chain rule =>
    unfold Box.iptablesOp at h
    split at h
    · cases h
    · cases op <;> simp only at h
      case check | delete =>
        split at h <;> cases h
        rfl
      all_goals
        cases h
        rfl
  all_goals
    cases h
    rfl

theorem stable_sysctls (sysctls : OrdMap String String) : Stable (fun w => w.box.sysctls = sysctls)
    fun c => ∀ key value, c ≠ .sysctl key value ∧ c ≠ .procSys key value := by
  refine stable_box (I := fun b => b.sysctls = sysctls) fun b c b' hc h hb => ?_
  rcases sysctls_change h with hsame | ⟨key,value,hset | hset,-⟩
  · rw [hsame, hb]
  · exact absurd hset (hc key value).1
  · exact absurd hset (hc key value).2

end Settings

end JumpHost.Mesh
