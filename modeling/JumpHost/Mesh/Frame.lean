import JumpHost.Mesh.Apply

namespace JumpHost.Mesh

open Effect

def Cmd.reads : Cmd → Bool
  | .linkShow _ | .linkList | .addrShow _ | .wgShowPeers _ | .wgShowAllowedIPs _ => true
  | .routeShow _ _ | .localShow _ | .routeShowDefault | .ruleShow => true
  | .iptables .check _ _ _ | .version _ | .sMembers => true
  | _ => false

theorem onLink_ok {b b' : Box} {dev : String} {f : Link → Except Failed Box}
    (h : b.onLink dev f = .ok b') : ∃ link, b.links.get? dev = some link ∧ f link = .ok b' := by
  unfold Box.onLink at h
  cases hl : b.links.get? dev with
  | none => simp [hl, Box.refuse] at h
  | some link => exact ⟨link,rfl,by simpa [hl] using h⟩

theorem onNet_ok {b' : Box} {cidr : String} {f : Net → Except Failed Box}
    (h : Box.onNet cidr f = .ok b') : ∃ net, Net.parse cidr = some net ∧ f net = .ok b' := by
  unfold Box.onNet at h
  cases hn : Net.parse cidr with
  | none => simp [hn, Box.refuse] at h
  | some net => exact ⟨net,rfl,by simpa [hn] using h⟩

theorem onPrefix_ok {cidr : String} {f : Net → Except Failed Box} {b' : Box}
    (h : Box.onPrefix cidr f = .ok b') : ∃ net, Net.parse cidr = some net ∧ f net = .ok b' := by
  obtain ⟨net,hnet,h⟩ := onNet_ok h
  split at h
  · cases h
  · exact ⟨net,hnet,h⟩

theorem onNumber_ok {b' : Box} {n : Num} {f : Nat → Except Failed Box}
    (h : Box.onNumber n f = .ok b') : ∃ k : Nat, n = .int k ∧ k < 4294967296 ∧ f k = .ok b' := by
  unfold Box.onNumber at h
  split at h
  · next k =>
    split at h
    · next hk => exact ⟨k,rfl,hk,h⟩
    · simp [Box.refuse] at h
  · simp [Box.refuse] at h

theorem onSelector_ok {b' : Box} {source : String} {f : Option Net → Except Failed Box}
    (h : Box.onSelector source f = .ok b') : ∃ net, f net = .ok b' ∧
      ((source = "all" ∧ net = none) ∨ ∃ n, Net.parse source = some n ∧ net = some n) := by
  unfold Box.onSelector at h
  split at h
  · next hall => exact ⟨none,h,.inl ⟨hall,rfl⟩⟩
  · obtain ⟨net,hnet,h⟩ := onNet_ok h
    exact ⟨some net,h,.inr ⟨net,hnet,rfl⟩⟩

inductive Part where
  | links
  | routes
  | metered
  | rules
  | iptables
  | applied
deriving DecidableEq, Repr

def Cmd.writes : Cmd → List Part
  | .linkAdd _ | .wireguardGo _ | .wgSetKey _ _ _ | .wgSetPeer _ _ _ _ _ | .wgRemovePeer _ _ => [.links]
  | .linkUp _ | .addrAdd _ _ => [.links,.routes]
  | .linkDel _ | .addrDel _ _ => [.links,.routes,.metered]
  | .routeAdd _ _ | .routeDel _ _ | .localAdd _ | .localDel _ | .routeReplaceDefault _ _ => [.routes]
  | .routeFlush _ => [.routes,.metered]
  | .ruleAdd _ _ _ | .ruleDel _ _ _ => [.rules]
  | .iptables _ _ _ _ => [.iptables]
  | .sAdd _ | .sRem _ => [.applied]
  | _ => []

structure SameBut (parts : List Part) (b b' : Box) : Prop where
  links : .links ∉ parts → b'.links = b.links
  routes : .routes ∉ parts → b'.routes = b.routes
  metered : .metered ∉ parts → b'.metered = b.metered
  rules : .rules ∉ parts → b'.rules = b.rules
  iptables : .iptables ∉ parts → b'.iptables = b.iptables
  applied : .applied ∉ parts → b'.applied = b.applied

theorem sameBut_addRoute {b b' : Box} {route : Route} (h : b.addRoute route = .ok b') :
    SameBut [.routes] b b' := by
  unfold Box.addRoute at h
  split at h <;> cases h
  constructor <;> simp

theorem sameBut_delRoute {b b' : Box} {route : Route} (h : b.delRoute route = .ok b') :
    SameBut [.routes] b b' := by
  unfold Box.delRoute at h
  split at h <;> cases h
  constructor <;> simp

theorem sameBut_iptablesOp {b b' : Box} {op : IptOp} {table : Table} {chain : String}
    {rule : IptRule String} (h : b.iptablesOp op table chain rule = .ok b') :
    SameBut [.iptables] b b' := by
  unfold Box.iptablesOp at h
  split at h
  · cases h
  · cases op <;> simp only at h
    case check | delete =>
      split at h <;> cases h
      constructor <;> simp
    all_goals
      cases h
      constructor <;> simp

theorem sameBut_step {b b' : Box} {c : Cmd} (h : b.step c = .ok b') : SameBut c.writes b b' := by
  cases c <;> simp only [Box.step] at h <;> simp only [Cmd.writes]
  case linkAdd d =>
    unfold Box.linkAdd at h
    split at h
    · cases h
    · split at h <;> cases h
      constructor <;> simp
  case wireguardGo d =>
    split at h <;> cases h <;> constructor <;> simp
  case linkUp d =>
    obtain ⟨link,-,hb⟩ := onLink_ok h
    split at hb <;> cases hb <;> constructor <;> simp [Box.addRoutes]
  case addrAdd cidr d =>
    obtain ⟨link,-,hb⟩ := onLink_ok h
    split at hb
    · cases hb
    · split at hb
      · cases hb
      · split at hb <;> cases hb <;> constructor <;> simp [Box.addRoutes]
  case addrDel cidr d =>
    obtain ⟨link,-,hb⟩ := onLink_ok h
    split at hb <;> cases hb
    constructor <;> simp
  case linkShow d | addrShow d | wgShowPeers d | wgShowAllowedIPs d | linkDel d | wgSetKey d key port
      | wgRemovePeer d key =>
    obtain ⟨link,-,hb⟩ := onLink_ok h
    cases hb
    constructor <;> simp
  case wgSetPeer d key ips endpoint keepalive =>
    obtain ⟨link,-,hb⟩ := onLink_ok h
    split at hb <;> cases hb
    constructor <;> simp
  case routeShow cidr d =>
    obtain ⟨net,-,hb⟩ := onNet_ok h
    obtain ⟨link,-,hb⟩ := onLink_ok hb
    cases hb
    constructor <;> simp
  case localShow cidr =>
    obtain ⟨net,-,hb⟩ := onNet_ok h
    cases hb
    constructor <;> simp
  case routeAdd cidr d =>
    obtain ⟨net,-,hb⟩ := onPrefix_ok h
    obtain ⟨link,-,hb⟩ := onLink_ok hb
    split at hb
    · exact sameBut_addRoute hb
    · cases hb
  case routeDel cidr d =>
    obtain ⟨net,-,hb⟩ := onNet_ok h
    obtain ⟨link,-,hb⟩ := onLink_ok hb
    exact sameBut_delRoute hb
  case localAdd cidr =>
    obtain ⟨net,-,hb⟩ := onNet_ok h
    exact sameBut_addRoute hb
  case localDel cidr =>
    obtain ⟨net,-,hb⟩ := onNet_ok h
    exact sameBut_delRoute hb
  case routeReplaceDefault d table =>
    obtain ⟨t,-,-,hb⟩ := onNumber_ok h
    obtain ⟨link,-,hb⟩ := onLink_ok hb
    split at hb <;> cases hb
    constructor <;> simp
  case routeFlush table =>
    obtain ⟨t,-,-,hb⟩ := onNumber_ok h
    cases hb
    constructor <;> simp
  case ruleAdd source table priority =>
    obtain ⟨net,-,hb⟩ := onNet_ok h
    obtain ⟨t,-,-,hb⟩ := onNumber_ok hb
    obtain ⟨p,-,-,hb⟩ := onNumber_ok hb
    split at hb <;> cases hb
    constructor <;> simp
  case ruleDel source table priority =>
    obtain ⟨net,hb,-⟩ := onSelector_ok h
    obtain ⟨t,-,-,hb⟩ := onNumber_ok hb
    obtain ⟨p,-,-,hb⟩ := onNumber_ok hb
    split at hb <;> cases hb
    constructor <;> simp
  case iptables op table chain rule => exact sameBut_iptablesOp h
  case sAdd member =>
    split at h <;> cases h <;> constructor <;> simp
  all_goals
    cases h
    constructor <;> simp

theorem step_reads {b b' : Box} {c : Cmd} (hc : c.reads = true) (h : b.step c = .ok b') :
    b' = b := by
  cases c <;> simp only [Cmd.reads, Bool.false_eq_true] at hc <;> simp only [Box.step] at h
  case linkShow | addrShow | wgShowPeers | wgShowAllowedIPs =>
    obtain ⟨link,-,hb⟩ := onLink_ok h
    exact (Except.ok.inj hb).symm
  case routeShow =>
    obtain ⟨net,-,h⟩ := onNet_ok h
    obtain ⟨link,-,hb⟩ := onLink_ok h
    exact (Except.ok.inj hb).symm
  case localShow =>
    obtain ⟨net,-,hb⟩ := onNet_ok h
    exact (Except.ok.inj hb).symm
  case iptables op table chain rule =>
    cases op <;> simp only [Bool.false_eq_true] at hc
    unfold Box.iptablesOp at h
    split at h
    · simp [Box.refuse] at h
    · simp only at h
      split at h
      · exact (Except.ok.inj h).symm
      · simp [Box.refuse] at h
  all_goals exact (Except.ok.inj h).symm

structure Stable (P : World → Prop) (C : Cmd → Prop) : Prop where
  issue : ∀ w c, (c.reads = true ∨ C c) → P w → P (w.issue c).2
  remember : ∀ w kernelSupport probes, P w → P { w with kernelSupport, probes }
  ends : ∀ w d, C (.wireguardGo d) → P w → P { w with ended := true }
  tools : Keeps P missingTools

theorem keeps_missingTools {P : World → Prop}
    (hread : ∀ w c, c.reads = true → P w → P (w.issue c).2)
    (hcache : ∀ w toolCache, P w → P { w with toolCache }) : Keeps P missingTools := by
  refine keeps_bind keeps_get fun w => ?_
  cases w.toolCache with
  | some missing => exact keeps_pure _
  | none =>
    refine keeps_bind (keeps_foldlM (fun missing tool _ => ?_) _) fun missing =>
      keeps_bind (keeps_modify fun w hw => hcache w _ hw) fun _ => keeps_pure _
    refine keeps_bind (fun w hw => hread w _ rfl hw) fun res => ?_
    cases res <;> exact keeps_pure _

theorem box_issue (w : World) (c : Cmd) :
    (w.issue c).2.box = w.box ∨ w.box.step c = .ok (w.issue c).2.box := by
  unfold World.issue
  simp only
  split
  · exact .inl rfl
  · split
    · exact .inl rfl
    · next box hbox => exact .inr hbox

theorem stable_box {I : Box → Prop} {C : Cmd → Prop}
    (h : ∀ b c b', C c → b.step c = .ok b' → I b → I b') : Stable (fun w => I w.box) C := by
  have hissue : ∀ (w : World) c, (c.reads = true ∨ C c) → I w.box → I (w.issue c).2.box := by
    intro w c hc hw
    rcases box_issue w c with heq | hstep
    · rwa [heq]
    · rcases hc with hr | hc
      · rwa [step_reads hr hstep]
      · exact h _ _ _ hc hstep hw
  exact ⟨hissue,fun _ _ _ hw => hw,fun _ _ _ hw => hw,
    keeps_missingTools (fun w c hc => hissue w c (.inl hc)) fun _ _ hw => hw⟩

theorem faults_issue (w : World) (c : Cmd) :
    (w.issue c).2.faults = fun n => w.faults (n + 1) := by
  unfold World.issue
  simp only
  split
  · rfl
  · split <;> rfl

theorem toolCache_issue (w : World) (c : Cmd) : (w.issue c).2.toolCache = w.toolCache := by
  unfold World.issue
  simp only
  split
  · rfl
  · split <;> rfl

theorem stable_faults {Q : (Nat → Cmd → Option Failed) → Prop}
    (h : ∀ faults, Q faults → Q fun n => faults (n + 1)) (C : Cmd → Prop) :
    Stable (fun w => Q w.faults) C := by
  have hissue : ∀ w c, Q w.faults → Q (World.issue w c).2.faults := by
    intro w c hw
    rw [faults_issue]
    exact h _ hw
  exact ⟨fun w c _ => hissue w c,fun _ _ _ hw => hw,fun _ _ _ hw => hw,
    keeps_missingTools (fun w c _ => hissue w c) fun _ _ hw => hw⟩

variable {P : World → Prop} {C : Cmd → Prop}

theorem Stable.and {P' : World → Prop} (h : Stable P C) (h' : Stable P' C) :
    Stable (fun w => P w ∧ P' w) C where
  issue w c hc hw := ⟨h.issue w c hc hw.1,h'.issue w c hc hw.2⟩
  remember w k p hw := ⟨h.remember w k p hw.1,h'.remember w k p hw.2⟩
  ends w d hc hw := ⟨h.ends w d hc hw.1,h'.ends w d hc hw.2⟩
  tools w hw := ⟨h.tools w hw.1,h'.tools w hw.2⟩

theorem Stable.mono {C' : Cmd → Prop} (h : Stable P C) (hC : ∀ c, C' c → C c) : Stable P C' where
  issue w c hc hw := h.issue w c (hc.imp_right (hC c)) hw
  remember := h.remember
  ends w d hc hw := h.ends w d (hC _ hc) hw
  tools := h.tools

theorem Stable.both {P' : World → Prop} {C' : Cmd → Prop} (h : Stable P C) (h' : Stable P' C') :
    Stable (fun w => P w ∧ P' w) fun c => C c ∧ C' c := (h.mono fun _ => And.left).and (h'.mono fun _ => And.right)

theorem Stable.all {ι : Type} {Q : ι → World → Prop} (h : ∀ i, Stable (Q i) C) :
    Stable (fun w => ∀ i, Q i w) C where
  issue w c hc hw i := (h i).issue w c hc (hw i)
  remember w k p hw i := (h i).remember w k p (hw i)
  ends w d hc hw i := (h i).ends w d hc (hw i)
  tools w hw i := (h i).tools w (hw i)

theorem tryRun_ok {w : World} {c : Cmd} {b : Box} (hf : w.faults 0 c = none)
    (hs : w.box.step c = .ok b) :
    tryRun c w = .ok (.ok ()) { w with box := b, faults := fun n => w.faults (n + 1) } := by
  simp [tryRun, World.issue, hf, hs]

theorem tryRun_cases (c : Cmd) (w : World) : ∃ res w', tryRun c w = .ok res w' ∧
    (w'.faults = fun n => w.faults (n + 1)) ∧ ((w'.box = w.box ∧ ∃ failed, res = .error failed) ∨
      (res = .ok () ∧ w.faults 0 c = none ∧ w.box.step c = .ok w'.box)) := by
  refine ⟨_,_,rfl,?_⟩
  unfold World.issue
  simp only
  split
  · next failed _ => exact ⟨rfl,.inl ⟨rfl,failed,rfl⟩⟩
  · next hnone =>
    split
    · next failed _ => exact ⟨rfl,.inl ⟨rfl,failed,rfl⟩⟩
    · next box hbox => exact ⟨rfl,.inr ⟨rfl,hnone,hbox⟩⟩

theorem run_ok {c : Cmd} {w w' : World} (h : run c w = .ok () w') :
    w.box.step c = .ok w'.box := by
  obtain ⟨res,u,hc,-,hres⟩ := tryRun_cases c w
  unfold run at h
  rw [bind_of_ok hc] at h
  rcases hres with ⟨-,failed,rfl⟩ | ⟨rfl,-,hstep⟩
  · cases h
  · cases h
    exact hstep

theorem keeps_tryRun (h : Stable P C) {c : Cmd} (hc : C c) : Keeps P (tryRun c) :=
  fun w hw => h.issue w c (.inr hc) hw

theorem keeps_read (h : Stable P C) {c : Cmd} (hc : c.reads = true) : Keeps P (tryRun c) :=
  fun w hw => h.issue w c (.inl hc) hw

theorem keeps_run (h : Stable P C) {c : Cmd} (hc : C c) : Keeps P (run c) := by
  refine keeps_bind (keeps_tryRun h hc) fun res => ?_
  cases res with
  | ok => exact keeps_pure _
  | error failed => exact keeps_throw _

theorem keeps_spawn (h : Stable P C) {d : String} (hgo : C (.wireguardGo d)) : Keeps P (spawn (.wireguardGo d)) := by
  refine keeps_bind (keeps_tryRun h hgo) fun res => ?_
  cases res with
  | ok => exact keeps_pure _
  | error failed =>
    dsimp only
    split
    · exact keeps_modify fun w hw => h.ends w d hgo hw
    · exact keeps_pure _

theorem keeps_query (h : Stable P C) {α : Type} {c : Cmd} (hc : c.reads = true) (output : Box → α) :
    Keeps P (query c output) :=
  keeps_bind (keeps_read h hc) fun _ => keeps_bind keeps_get fun _ => keeps_pure _

theorem keeps_interfaceExists (h : Stable P C) (name : String) :
    Keeps P (interfaceExists name) :=
  keeps_bind (keeps_read h rfl) fun _ => keeps_pure _

theorem keeps_waitForInterface (h : Stable P C) (name : String) (looks : Nat) :
    Keeps P (waitForInterface name looks) := by
  induction looks with
  | zero => exact keeps_pure _
  | succ looks ih =>
    refine keeps_bind (keeps_interfaceExists h name) fun found => ?_
    cases found with
    | true => exact keeps_pure _
    | false => exact ih

theorem keeps_remember (h : Stable P C) (name : String) (mode : Mode) :
    Keeps P (remember name mode) :=
  keeps_bind (keeps_modify fun w hw => h.remember w _ _ hw) fun _ => keeps_pure _

theorem keeps_probeKernel (h : Stable P C) {probeName : String} (hadd : C (.linkAdd probeName))
    (hdel : C (.linkDel probeName)) : Keeps P (probeKernel probeName) := by
  refine keeps_bind (keeps_tryRun h hadd) fun res => ?_
  split
  · exact keeps_bind (keeps_tryRun h hdel) fun _ => keeps_pure _
  · exact keeps_pure _

theorem keeps_kernelWireguardAvailable (h : Stable P C)
    (hprobe : ∀ pid, Keeps P (probeKernel ("wgprobe" ++ pid))) : Keeps P kernelWireguardAvailable := by
  refine keeps_bind keeps_get fun w => ?_
  cases w.kernelSupport with
  | some supported => exact keeps_pure _
  | none =>
    refine keeps_bind (hprobe _) fun supported => ?_
    exact keeps_bind (keeps_modify fun w hw => h.remember w _ _ hw) fun _ => keeps_pure _

theorem keeps_unlessExists {α : Type} {m : Shell α} (hm : Keeps P m) (failed : Failed) (err : String) :
    Keeps P (if failed.fileExists then m else throw err) := by
  split
  · exact hm
  · exact keeps_throw err

theorem keeps_ensureInterface (h : Stable P C) {name : String}
    (hprobe : ∀ pid, Keeps P (probeKernel ("wgprobe" ++ pid))) (hadd : C (.linkAdd name))
    (hgo : C (.wireguardGo name)) : Keeps P (ensureInterface name) := by
  refine keeps_bind (keeps_interfaceExists h name) fun found => ?_
  cases found with
  | true => exact keeps_bind keeps_get fun _ => keeps_pure _
  | false =>
    refine keeps_bind (keeps_kernelWireguardAvailable h hprobe) fun supported => ?_
    cases supported with
    | true =>
      refine keeps_bind (keeps_tryRun h hadd) fun res => ?_
      cases res with
      | ok => exact keeps_remember h _ _
      | error failed => exact keeps_unlessExists (keeps_remember h _ _) failed _
    | false =>
      refine keeps_bind (keeps_spawn h hgo) fun _ => ?_
      refine keeps_bind (keeps_waitForInterface h name 50) fun up => ?_
      cases up with
      | true => exact keeps_remember h _ _
      | false => exact keeps_throw _

theorem keeps_setPrivateKey (h : Stable P C) {name privateKey : String} {listenPort : Option Num}
    (hkey : ∀ key port, C (.wgSetKey name key port)) :
    Keeps P (setPrivateKey name privateKey listenPort) := keeps_run h (hkey _ _)

theorem keeps_addAddress (h : Stable P C) {name cidr : String} (hadd : C (.addrAdd cidr name)) :
    Keeps P (addAddress name cidr) := by
  refine keeps_bind (keeps_tryRun h hadd) fun res => ?_
  cases res with
  | ok => exact keeps_pure _
  | error failed => exact keeps_unlessExists (keeps_pure _) failed _

theorem keeps_setAddresses (h : Stable P C) {name : String} {cidrs : List String}
    (hadd : ∀ cidr ∈ cidrs, C (.addrAdd cidr name)) (hdel : ∀ cidr, cidr ∉ cidrs → C (.addrDel cidr name))
    (hup : C (.linkUp name)) : Keeps P (setAddresses name cidrs) := by
  refine keeps_bind (keeps_query h rfl _) fun shown => ?_
  refine keeps_bind (keeps_forM fun cidr hcidr => ?_) fun _ =>
    keeps_bind (keeps_forM fun cidr _ => ?_) fun _ => keeps_run h hup
  · split
    · exact keeps_addAddress h (hadd cidr (List.mem_eraseDups.mp hcidr))
    · exact keeps_pure _
  · split
    · next hstale =>
      have hstale : cidr ∉ cidrs := fun hmem => by simp [hmem] at hstale
      exact keeps_bind (keeps_tryRun h (hdel cidr hstale)) fun _ => keeps_pure _
    · exact keeps_pure _

theorem keeps_listPeers (h : Stable P C) (name : String) : Keeps P (listPeers name) :=
  keeps_bind (keeps_query h rfl _) fun _ => keeps_pure _

theorem keeps_addRoute (h : Stable P C) {cidr dev message : String} (hadd : C (.routeAdd cidr dev)) :
    Keeps P (addRoute cidr dev message) := by
  refine keeps_bind (keeps_tryRun h hadd) fun res => ?_
  cases res with
  | ok => exact keeps_pure _
  | error failed => exact keeps_unlessExists (keeps_pure _) failed _

theorem keeps_ensureRoute (h : Stable P C) {cidr dev : String} (hadd : C (.routeAdd cidr dev)) :
    Keeps P (ensureRoute cidr dev) := by
  refine keeps_bind (keeps_query h rfl _) fun existing => ?_
  split
  · exact keeps_pure _
  · exact keeps_addRoute h hadd

theorem keeps_addPeerRoutes (h : Stable P C) {name : String} {allowedIPs : List String}
    (hadd : ∀ cidr ∈ allowedIPs, C (.routeAdd cidr name)) : Keeps P (addPeerRoutes name allowedIPs) :=
  keeps_forM fun cidr hcidr => keeps_bind (keeps_addRoute h (hadd cidr hcidr)) fun _ => keeps_pure _

theorem keeps_setPeer (h : Stable P C) {name publicKey endpoint : String} {allowedIPs : List String}
    {keepalive : Nat} (hset : ∀ endpoint keepalive,
      C (.wgSetPeer name publicKey allowedIPs endpoint keepalive))
    (hadd : ∀ cidr ∈ allowedIPs, C (.routeAdd cidr name)) :
    Keeps P (setPeer name publicKey endpoint allowedIPs keepalive) :=
  keeps_bind (keeps_run h (hset _ _)) fun _ => keeps_addPeerRoutes h hadd

theorem keeps_dropPeerRoutes (h : Stable P C) {name : String} {allowedIPs : List String}
    (hdel : ∀ cidr ∈ allowedIPs, C (.routeDel cidr name)) : Keeps P (dropPeerRoutes name allowedIPs) :=
  keeps_forM fun cidr hcidr => keeps_bind (keeps_tryRun h (hdel cidr hcidr)) fun _ => keeps_pure _

theorem keeps_removePeer (h : Stable P C) {name publicKey : String}
    (hremove : C (.wgRemovePeer name publicKey)) (hdel : ∀ cidr, C (.routeDel cidr name)) :
    Keeps P (removePeer name publicKey) :=
  keeps_bind (keeps_query h rfl _) fun _ => keeps_bind (keeps_tryRun h hremove) fun _ =>
    keeps_dropPeerRoutes h fun cidr _ => hdel cidr

theorem keeps_haveIptables (h : Stable P C) : Keeps P haveIptables :=
  keeps_bind h.tools fun _ => keeps_pure _

theorem keeps_ensureRule (h : Stable P C) {table : Table} {chain : String} {rule : IptRule String}
    (hadd : ∀ op, op ≠ .delete → C (.iptables op table chain rule)) (append : Bool) :
    Keeps P (ensureRule table chain rule append) := by
  refine keeps_bind (keeps_haveIptables h) fun have' => ?_
  split
  · exact keeps_pure _
  · refine keeps_bind (keeps_read h rfl) fun res => ?_
    cases res with
    | ok => exact keeps_pure _
    | error failed =>
      refine keeps_bind (keeps_tryRun h (hadd _ (by cases append <;> simp))) fun res => ?_
      cases res with
      | ok => exact keeps_pure _
      | error failed => exact keeps_throw _

theorem keeps_removeRule (h : Stable P C) {table : Table} {chain : String} {rule : IptRule String}
    (hdel : C (.iptables .delete table chain rule)) : Keeps P (removeRule table chain rule) := by
  have hcopies : ∀ left removed, Keeps P (removeCopies table chain rule left removed) := by
    intro left
    induction left with
    | zero => exact fun removed => keeps_pure _
    | succ left ih =>
      intro removed
      refine keeps_bind (keeps_read h rfl) fun res => ?_
      cases res with
      | error failed => exact keeps_pure _
      | ok =>
        refine keeps_bind (keeps_tryRun h hdel) fun res => ?_
        cases res with
        | error failed => exact keeps_pure _
        | ok => exact ih _
  refine keeps_bind (keeps_haveIptables h) fun have' => ?_
  split
  · exact keeps_pure _
  · exact hcopies _ _

theorem keeps_applySysctls_of (h : Stable P C) {interfaces : List String}
    (hset : ∀ setting ∈ sysctlSettings interfaces, C (.sysctl setting.1 setting.2) ∧ C (.procSys setting.1 setting.2)) :
    Keeps P (applySysctls interfaces) := by
  refine keeps_foldlM (fun applied setting hsetting => ?_) _
  obtain ⟨hsysctl,hproc⟩ := hset setting hsetting
  refine keeps_bind (keeps_bind (keeps_tryRun h hsysctl) fun res => ?_) fun done => ?_
  · cases res with
    | ok => exact keeps_pure _
    | error failed =>
      change Keeps P (if failed.missing = true then _ else _)
      split
      · exact keeps_bind (keeps_tryRun h hproc) fun _ => keeps_pure _
      · exact keeps_pure _
  · cases done <;> exact keeps_pure _

theorem keeps_applySysctls (h : Stable P C) (hset : ∀ key value, C (.sysctl key value))
    (hproc : ∀ key value, C (.procSys key value)) (interfaces : List String) :
    Keeps P (applySysctls interfaces) := keeps_applySysctls_of h fun _ _ => ⟨hset _ _,hproc _ _⟩

theorem keeps_countRule (h : Stable P C) {entry : Table × String × IptRule String}
    (hadd : ∀ op, op ≠ .delete → C (.iptables op entry.1 entry.2.1 entry.2.2)) (changed : Nat) :
    Keeps P (countRule changed entry) := by
  refine keeps_bind (keeps_ensureRule h hadd true) fun added => ?_
  cases added <;> exact keeps_pure _

theorem keeps_applyForwarding (h : Stable P C) {wan : Option String} {tunnels : List String}
    (hadd : ∀ uplink, firstTruthy [wan] = some uplink → ∀ entry ∈ forwardingRules uplink tunnels, ∀ op,
      op ≠ .delete → C (.iptables op entry.1 entry.2.1 entry.2.2)) : Keeps P (applyForwarding wan tunnels) := by
  refine keeps_bind (keeps_haveIptables h) fun have' => ?_
  split
  · exact keeps_pure _
  · split
    · exact keeps_pure _
    · next uplink huplink =>
      exact keeps_bind (keeps_foldlM (fun changed entry hmem =>
        keeps_countRule h (hadd uplink huplink entry hmem) changed) _) fun _ => keeps_pure _

theorem keeps_claimLocally (h : Stable P C) {shadow : String} (hadd : C (.localAdd shadow)) :
    Keeps P (claimLocally shadow) := by
  refine keeps_bind (keeps_query h rfl _) fun shown => ?_
  split
  · exact keeps_pure _
  · exact keeps_bind (keeps_tryRun h hadd) fun _ => keeps_pure _

def netmapRules {ν : Type} (wgIface : String) (shadow physical : ν) : List (String × IptRule ν) :=
  [("PREROUTING",preroutingNetmap wgIface shadow physical),
    ("POSTROUTING",postroutingNetmap wgIface shadow physical),
    ("POSTROUTING",lanMasquerade wgIface physical)]

theorem keeps_applyNetmap (h : Stable P C) {wgIface shadow physical : String}
    (hadd : ∀ entry ∈ netmapRules wgIface shadow physical, ∀ op, op ≠ .delete →
      C (.iptables op .nat entry.1 entry.2)) (hlocal : C (.localAdd shadow)) :
    Keeps P (applyNetmap wgIface shadow physical) := by
  have hcount : ∀ changed, ∀ entry ∈ netmapRules wgIface shadow physical,
      Keeps P (countRule changed (.nat,entry)) :=
    fun changed entry hmem => keeps_countRule h (hadd entry hmem) changed
  refine keeps_bind (keeps_haveIptables h) fun have' => ?_
  split
  · exact keeps_pure _
  · split
    · exact keeps_pure _
    · refine keeps_bind (hcount _ _ (by simp [netmapRules])) fun changed => ?_
      refine keeps_bind (hcount _ _ (by simp [netmapRules])) fun changed => ?_
      refine keeps_bind (keeps_claimLocally h hlocal) fun claimed => ?_
      exact keeps_bind (hcount _ _ (by simp [netmapRules])) fun changed => keeps_pure _

theorem keeps_removeNetmap (h : Stable P C) {wgIface shadow physical : String}
    (hdel : ∀ entry ∈ netmapRules wgIface shadow physical, C (.iptables .delete .nat entry.1 entry.2))
    (hlocal : C (.localDel shadow)) : Keeps P (removeNetmap wgIface shadow physical) := by
  have hremove : ∀ chain rule, (chain,rule) ∈ netmapRules wgIface shadow physical →
      Keeps P (removeRule .nat chain rule) := fun chain rule hmem => keeps_removeRule h (hdel _ hmem)
  unfold removeNetmap
  split
  · exact keeps_pure _
  · refine keeps_bind (hremove _ _ (by simp [netmapRules])) fun _ => ?_
    refine keeps_bind (hremove _ _ (by simp [netmapRules])) fun _ => ?_
    refine keeps_bind (hremove _ _ (by simp [netmapRules])) fun _ => ?_
    exact keeps_bind (keeps_tryRun h hlocal) fun _ => keeps_pure _

theorem keeps_bringUp (h : Stable P C) {conf : MeshConf} {plan : Plan} {privateKey : String}
    (hprobe : ∀ pid, Keeps P (probeKernel ("wgprobe" ++ pid))) (hadd : C (.linkAdd conf.IFACE))
    (hgo : C (.wireguardGo conf.IFACE)) (hkey : ∀ key port, C (.wgSetKey conf.IFACE key port))
    (haddr : ∀ cidr ∈ plan.addresses, C (.addrAdd cidr conf.IFACE))
    (hdel : ∀ cidr, cidr ∉ plan.addresses → C (.addrDel cidr conf.IFACE))
    (hup : C (.linkUp conf.IFACE)) : Keeps P (bringUp conf plan privateKey) :=
  keeps_bind (keeps_ensureInterface h hprobe hadd hgo) fun _ =>
    keeps_bind (keeps_setPrivateKey h hkey) fun _ => keeps_setAddresses h haddr hdel hup

theorem keeps_detectWanInterface (h : Stable P C) : Keeps P detectWanInterface :=
  keeps_bind (keeps_query h rfl _) fun _ => keeps_pure _

theorem keeps_noting {α : Type} {step : Shell α} (hstep : Keeps P step) (failed : List Failure)
    (label : String) : Keeps P (noting failed label step) :=
  keeps_tryCatch (keeps_bind hstep fun _ => keeps_pure _) fun _ => keeps_pure _

theorem noting_ok {α : Type} (failed : List Failure) (label : String) (step : Shell α) (w : World) :
    ∃ failed', noting failed label step w = .ok failed' (final (step w)) := by
  unfold noting
  exact tryCatch_ok step failed (fun err => failed ++ [Failure.mk label err]) w

theorem noting_nil {α : Type} {failed : List Failure} {label : String} {step : Shell α} {w w' : World}
    (h : noting failed label step w = .ok [] w') : failed = [] ∧ ∃ a, step w = .ok a w' := by
  unfold noting at h
  rw [tryCatch_apply, bind_apply] at h
  cases hstep : step w with
  | ok a v =>
    rw [hstep] at h
    cases h
    exact ⟨rfl,a,rfl⟩
  | error err v =>
    rw [hstep] at h
    simp only [pure_apply, EStateM.Result.ok.injEq] at h
    simp at h

theorem foldlM_nil {α : Type} {f : List Failure → α → Shell (List Failure)}
    (hf : ∀ failed a w w', f failed a w = .ok [] w' → failed = []) {as : List α} {failed : List Failure}
    {w w' : World} (h : as.foldlM f failed w = .ok [] w') : failed = [] := by
  induction as generalizing failed w with
  | nil =>
    cases h
    rfl
  | cons a as ih =>
    rw [List.foldlM_cons] at h
    obtain ⟨failed₁,w₁,ha,h⟩ := bind_ok h
    obtain rfl := ih h
    exact hf failed a w w₁ ha

theorem keeps_listAppliedNetmaps (h : Stable P C) : Keeps P listAppliedNetmaps := by
  refine keeps_bind (keeps_query h rfl _) fun res => ?_
  cases res with
  | ok => exact keeps_pure _
  | error failed => exact keeps_throw _

variable {conf : MeshConf}

theorem keeps_applyMap (h : Stable P C) {map : Netmap}
    (hadd : ∀ entry ∈ netmapRules conf.IFACE map.shadow map.physical, ∀ op, op ≠ .delete →
      C (.iptables op .nat entry.1 entry.2)) (hlocal : C (.localAdd map.shadow))
    (hrecord : C (.sAdd (recorded map.shadow map.physical))) (failed : List Failure) :
    Keeps P (applyMap conf failed map) :=
  keeps_noting (keeps_bind (keeps_applyNetmap h hadd hlocal) fun _ =>
    keeps_bind (keeps_tryRun h hrecord) fun _ => keeps_pure _) _ _

theorem keeps_removeStale (h : Stable P C) {wanted : List String} {applied : String}
    (hdel : applied ∉ wanted → ∀ shadow physical, splitRecorded applied = (shadow,physical) →
      (∀ entry ∈ netmapRules conf.IFACE shadow (physical.getD ""),
        C (.iptables .delete .nat entry.1 entry.2)) ∧ C (.localDel shadow) ∧
      C (.sRem (recorded shadow (shown physical)))) (failed : List Failure) :
    Keeps P (removeStale conf wanted failed applied) := by
  unfold removeStale
  split
  · exact keeps_pure _
  · next hstale =>
    obtain ⟨hrules,hlocal,hforget⟩ := hdel (by simpa using hstale) _ _ rfl
    exact keeps_noting (keeps_bind (keeps_removeNetmap h hrules hlocal) fun _ =>
      keeps_bind (keeps_tryRun h hforget) fun _ => keeps_pure _) _ _

def Cmd.ofRouting : Cmd → Prop
  | .routeAdd _ _ | .sysctl _ _ | .procSys _ _ | .iptables _ _ _ _ => True
  | .localAdd _ | .localDel _ | .sAdd _ | .sRem _ => True
  | _ => False

def Cmd.afterRoutes : Cmd → Prop
  | .routeAdd _ _ => False
  | c => c.ofRouting

theorem keeps_applyNetmaps (h : Stable P Cmd.afterRoutes) (netmaps : List Netmap)
    (failed : List Failure) : Keeps P (applyNetmaps conf netmaps failed) := by
  refine keeps_bind (keeps_foldlM (fun failed map _ =>
    keeps_applyMap h (fun _ _ _ _ => trivial) trivial trivial failed) _) fun failed => ?_
  exact keeps_bind (keeps_listAppliedNetmaps h) fun applied => keeps_foldlM (fun failed applied _ =>
    keeps_removeStale h (fun _ _ _ _ => ⟨fun _ _ => trivial,trivial,trivial⟩) failed) _

def addMeshRoutes (routes : List MeshRoute) : Shell Unit :=
  routes.forM fun route => do
    let _ ← ensureRoute route.cidr route.dev

def afterRoutes (conf : MeshConf) (plan : Plan) (failed : List Failure) : Shell Applied := do
  let wan ← detectWanInterface
  let _ ← applySysctls (([some conf.IFACE,wan].filter truthy).filterMap id)
  let failed ← forward conf wan failed
  let failed ← applyNetmaps conf plan.netmaps failed
  return ⟨plan.peers.length - failed.length,failed,wan⟩

theorem applyRouting_eq (plan : Plan) (failed : List Failure) : applyRouting conf plan failed =
    (addMeshRoutes plan.routes >>= fun _ => afterRoutes conf plan failed) := rfl

theorem keeps_addMeshRoutes (h : Stable P C) {routes : List MeshRoute}
    (hadd : ∀ route ∈ routes, C (.routeAdd route.cidr route.dev)) : Keeps P (addMeshRoutes routes) :=
  keeps_forM fun route hroute => keeps_bind (keeps_ensureRoute h (hadd route hroute)) fun _ => keeps_pure _

theorem keeps_afterRoutes (h : Stable P Cmd.afterRoutes) (plan : Plan) (failed : List Failure) :
    Keeps P (afterRoutes conf plan failed) := by
  refine keeps_bind (keeps_detectWanInterface h) fun wan => ?_
  refine keeps_bind (keeps_applySysctls h (fun _ _ => trivial) (fun _ _ => trivial) _) fun _ => ?_
  refine keeps_bind (keeps_noting (keeps_applyForwarding h fun _ _ _ _ _ _ => trivial) _ _) fun failed => ?_
  exact keeps_bind (keeps_applyNetmaps h _ _) fun _ => keeps_pure _

theorem removeStale_nil {wanted : List String} {failed : List Failure} {applied : String} {w w' : World}
    (h : removeStale conf wanted failed applied w = .ok [] w') : failed = [] := by
  unfold removeStale at h
  split at h
  · cases h
    rfl
  · exact (noting_nil h).1

theorem afterRoutes_nil {plan : Plan} {failed : List Failure} {applied : Applied} {w w' : World}
    (h : afterRoutes conf plan failed w = .ok applied w') (hnone : applied.failed = []) : failed = [] := by
  obtain ⟨wan,w₁,-,h⟩ := bind_ok h
  obtain ⟨_,w₂,-,h⟩ := bind_ok h
  obtain ⟨failed₁,w₃,hforward,h⟩ := bind_ok h
  obtain ⟨failed₂,w₄,hnetmaps,h⟩ := bind_ok h
  cases h
  obtain rfl : failed₂ = [] := hnone
  obtain ⟨failed₃,w₅,hmaps,hstale⟩ := bind_ok hnetmaps
  obtain ⟨members,w₆,-,hstale⟩ := bind_ok hstale
  obtain rfl := foldlM_nil (fun _ _ _ _ h => removeStale_nil h) hstale
  obtain rfl := foldlM_nil (fun _ _ _ _ h => (noting_nil h).1) hmaps
  exact (noting_nil hforward).1

theorem ofRouting_of_afterRoutes (c : Cmd) (hc : c.afterRoutes) : c.ofRouting := by
  cases c <;> first | exact hc | exact trivial

theorem keeps_applyRouting (h : Stable P Cmd.ofRouting) (plan : Plan) (failed : List Failure) :
    Keeps P (applyRouting conf plan failed) := by
  rw [applyRouting_eq]
  exact keeps_bind (keeps_addMeshRoutes h fun _ _ => trivial) fun _ =>
    keeps_afterRoutes (h.mono ofRouting_of_afterRoutes) plan failed

def Cmd.ofMesh (iface : String) (peers : List Peer) : Cmd → Prop
  | .linkAdd d | .wireguardGo d | .linkUp d | .wgSetKey d _ _ | .addrAdd _ d | .addrDel _ d => d = iface
  | .wgSetPeer d _ _ _ _ | .routeDel _ d => d = iface
  | .wgRemovePeer d key => d = iface ∧ key ∉ peers.map Peer.publicKey
  | .routeAdd _ _ | .sysctl _ _ | .procSys _ _ => True
  | .iptables _ _ _ rule => ∀ net, rule.target ≠ .NETMAP net
  | _ => False

def Cmd.ofLinks (iface : String) (peers : List Peer) : Cmd → Prop
  | .iptables _ _ _ _ => False
  | c => c.ofMesh iface peers

theorem ofMesh_of_ofLinks {iface : String} {peers : List Peer} (c : Cmd) (hc : c.ofLinks iface peers) :
    c.ofMesh iface peers := by
  cases c <;> first | exact hc | exact hc.elim

def beforeNetmaps (conf : MeshConf) (plan : Plan) (privateKey : String) :
    Shell (List Failure × Option String) := do
  bringUp conf plan privateKey
  let failed ← applyPeers conf plan.peers
  plan.routes.forM fun route => do
    let _ ← ensureRoute route.cidr route.dev
  let wan ← detectWanInterface
  let _ ← applySysctls (([some conf.IFACE,wan].filter truthy).filterMap id)
  let failed ← forward conf wan failed
  return (failed,wan)

theorem applyPlan_eq (plan : Plan) (privateKey : String) : applyPlan conf plan privateKey = (do
    let done ← beforeNetmaps conf plan privateKey
    let failed ← applyNetmaps conf plan.netmaps done.1
    return ⟨plan.peers.length - failed.length,failed,done.2⟩) := by
  simp only [applyPlan, applyRouting, beforeNetmaps, bind_assoc, pure_bind]

theorem forwarding_target {wan : String} {tunnels : List String}
    {entry : Table × String × IptRule String} (h : entry ∈ forwardingRules wan tunnels)
    (net : String) : entry.2.2.target ≠ .NETMAP net := by
  simp only [forwardingRules, List.mem_cons, List.mem_flatMap, List.mem_map] at h
  rcases h with rfl | ⟨tun,-,rfl | rfl | ⟨other,-,rfl⟩⟩ <;> simp

def Plan.routed (plan : Plan) : List String := plan.peers.flatMap Peer.allowedIPs ++ plan.routes.map MeshRoute.cidr

def Cmd.routesOnly (cidrs : List String) : Cmd → Prop
  | .routeAdd cidr _ => cidr ∈ cidrs
  | _ => True

theorem keeps_applyPeers_of {peers : List Peer} {cidrs : List String}
    (h : Stable P fun c => c.ofLinks conf.IFACE peers ∧ c.routesOnly cidrs)
    (hcidrs : ∀ cidr ∈ peers.flatMap Peer.allowedIPs, cidr ∈ cidrs) : Keeps P (applyPeers conf peers) := by
  refine keeps_bind (keeps_foldlM (fun failed peer hpeer => ?_) _) fun failed => ?_
  · exact keeps_noting (keeps_setPeer h (fun _ _ => ⟨rfl,trivial⟩) fun cidr hcidr =>
      ⟨trivial,hcidrs cidr (List.mem_flatMap.mpr ⟨peer,hpeer,hcidr⟩)⟩) _ _
  · refine keeps_bind (keeps_listPeers h _) fun keys =>
      keeps_bind (keeps_forM fun key _ => ?_) fun _ => keeps_pure _
    unfold removeUnlisted
    split
    · next hunlisted => exact keeps_removePeer h ⟨⟨rfl,by simpa using hunlisted⟩,trivial⟩ fun _ => ⟨rfl,trivial⟩
    · exact keeps_pure _

theorem keeps_applyPeers {peers : List Peer} (h : Stable P (Cmd.ofLinks conf.IFACE peers)) :
    Keeps P (applyPeers conf peers) := keeps_applyPeers_of (h.mono fun _ => And.left) fun _ hcidr => hcidr

theorem keeps_beforeNetmaps_of {plan : Plan}
    (h : Stable P fun c => c.ofLinks conf.IFACE plan.peers ∧ c.routesOnly plan.routed)
    (hprobe : ∀ pid, Keeps P (probeKernel ("wgprobe" ++ pid)))
    (hforward : ∀ w wan w' failed, P w → detectWanInterface w = .ok wan w' → Keeps P (forward conf wan failed))
    (privateKey : String) : Keeps P (beforeNetmaps conf plan privateKey) := by
  refine keeps_bind (keeps_bringUp h hprobe ⟨rfl,trivial⟩ ⟨rfl,trivial⟩ (fun _ _ => ⟨rfl,trivial⟩)
    (fun _ _ => ⟨rfl,trivial⟩) (fun _ _ => ⟨rfl,trivial⟩) ⟨rfl,trivial⟩) fun _ => ?_
  refine keeps_bind (keeps_applyPeers_of h fun cidr hcidr => List.mem_append_left _ hcidr) fun failed => ?_
  refine keeps_bind (keeps_forM fun route hroute => keeps_bind (keeps_ensureRoute h
    ⟨trivial,List.mem_append_right _ (List.mem_map_of_mem hroute)⟩) fun _ => keeps_pure _) fun _ => ?_
  refine keeps_bind_ok (keeps_detectWanInterface h) fun w wan w' hw hdetect => ?_
  refine keeps_bind (keeps_applySysctls h (fun _ _ => ⟨trivial,trivial⟩) (fun _ _ => ⟨trivial,trivial⟩) _) fun _ => ?_
  exact keeps_bind (hforward w wan w' failed hw hdetect) fun failed => keeps_pure _

theorem keeps_beforeNetmaps_routed {plan : Plan}
    (h : Stable P fun c => c.ofMesh conf.IFACE plan.peers ∧ c.routesOnly plan.routed)
    (hprobe : ∀ pid, Keeps P (probeKernel ("wgprobe" ++ pid))) (privateKey : String) :
    Keeps P (beforeNetmaps conf plan privateKey) :=
  keeps_beforeNetmaps_of (h.mono fun c hc => ⟨ofMesh_of_ofLinks c hc.1,hc.2⟩) hprobe (fun _ _ _ _ _ _ =>
    keeps_noting (keeps_applyForwarding h fun _ _ _ hmem _ _ => ⟨forwarding_target hmem,trivial⟩) _ _) privateKey

theorem keeps_beforeNetmaps {plan : Plan} (h : Stable P (Cmd.ofMesh conf.IFACE plan.peers))
    (hprobe : ∀ pid, Keeps P (probeKernel ("wgprobe" ++ pid))) (privateKey : String) :
    Keeps P (beforeNetmaps conf plan privateKey) :=
  keeps_beforeNetmaps_routed (h.mono fun _ => And.left) hprobe privateKey

theorem keeps_applyPlan_routed {plan : Plan} (h : Stable P C)
    (hmesh : ∀ c, Cmd.ofMesh conf.IFACE plan.peers c → c.routesOnly plan.routed → C c)
    (hafter : ∀ c, Cmd.afterRoutes c → C c) (hprobe : ∀ pid, Keeps P (probeKernel ("wgprobe" ++ pid)))
    (privateKey : String) : Keeps P (applyPlan conf plan privateKey) := by
  rw [applyPlan_eq]
  refine keeps_bind (keeps_beforeNetmaps_routed (h.mono fun c hc => hmesh c hc.1 hc.2) hprobe privateKey)
    fun done => ?_
  exact keeps_bind (keeps_applyNetmaps (h.mono hafter) _ _) fun _ => keeps_pure _

theorem keeps_applyPlan {plan : Plan} (h : Stable P C)
    (hmesh : ∀ c, Cmd.ofMesh conf.IFACE plan.peers c → C c) (hrouting : ∀ c, Cmd.ofRouting c → C c)
    (hprobe : ∀ pid, Keeps P (probeKernel ("wgprobe" ++ pid))) (privateKey : String) :
    Keeps P (applyPlan conf plan privateKey) :=
  keeps_applyPlan_routed h (fun c hc _ => hmesh c hc) (fun c hc => hrouting c (ofRouting_of_afterRoutes c hc))
    hprobe privateKey

section Exits

variable {privateKey : String} {exit : Exit}

def Cmd.ofExit (exit : Exit) : Cmd → Prop
  | .linkAdd d | .wireguardGo d | .linkUp d | .wgSetKey d _ _ | .addrAdd _ d | .addrDel _ d =>
      d = exit.iface
  | .wgSetPeer d key _ _ _ => d = exit.iface ∧ key = exit.publicKey
  | .routeReplaceDefault d t => d = exit.iface ∧ t = exit.table
  | .sysctl _ _ | .procSys _ _ => True
  | _ => False

def prepareExit (privateKey : String) (exit : Exit) : Shell Unit := do
  let _ ← ensureInterface exit.iface
  setPrivateKey exit.iface privateKey none
  setAddresses exit.iface []
  setPeerNoRoutes exit.iface exit.publicKey exit.endpoint exit.allowedIPs exit.keepalive

def steerExit (exit : Exit) : Shell Unit := do
  let _ ← tryRun (.routeReplaceDefault exit.iface exit.table)
  let _ ← applySysctls [exit.iface]

theorem bringUpExit_eq (privateKey : String) (exit : Exit) :
    bringUpExit privateKey exit = prepareExit privateKey exit >>= fun _ => steerExit exit := by
  unfold bringUpExit prepareExit steerExit
  simp only [bind_assoc]

def Cmd.byExit (exit : Exit) (c : Cmd) : Prop :=
  c.ofExit exit ∧ ∀ d key ips endpoint keepalive, c = .wgSetPeer d key ips endpoint keepalive → ips = exit.allowedIPs

theorem keeps_prepareExit_of (h : Stable P (Cmd.byExit exit))
    (hprobe : ∀ pid, Keeps P (probeKernel ("wgprobe" ++ pid))) : Keeps P (prepareExit privateKey exit) := by
  refine keeps_bind (keeps_ensureInterface h hprobe ⟨rfl,nofun⟩ ⟨rfl,nofun⟩) fun _ => ?_
  refine keeps_bind (keeps_setPrivateKey h fun _ _ => ⟨rfl,nofun⟩) fun _ => ?_
  refine keeps_bind (keeps_setAddresses h (fun _ _ => ⟨rfl,nofun⟩) (fun _ _ => ⟨rfl,nofun⟩) ⟨rfl,nofun⟩) fun _ => ?_
  refine keeps_run h ⟨⟨rfl,rfl⟩,fun d key ips endpoint keepalive heq => ?_⟩
  cases heq
  rfl

theorem keeps_steerExit_of (h : Stable P (Cmd.byExit exit)) : Keeps P (steerExit exit) :=
  keeps_bind (keeps_tryRun h ⟨⟨rfl,rfl⟩,nofun⟩) fun _ =>
    keeps_bind (keeps_applySysctls h (fun _ _ => ⟨trivial,nofun⟩) (fun _ _ => ⟨trivial,nofun⟩) _) fun _ => keeps_pure _

theorem keeps_bringUpExit_of (h : Stable P (Cmd.byExit exit))
    (hprobe : ∀ pid, Keeps P (probeKernel ("wgprobe" ++ pid))) :
    Keeps P (bringUpExit privateKey exit) := by
  rw [bringUpExit_eq]
  exact keeps_bind (keeps_prepareExit_of h hprobe) fun _ => keeps_steerExit_of h

theorem keeps_prepareExit (h : Stable P (Cmd.ofExit exit))
    (hprobe : ∀ pid, Keeps P (probeKernel ("wgprobe" ++ pid))) : Keeps P (prepareExit privateKey exit) :=
  keeps_prepareExit_of (h.mono fun _ hc => hc.1) hprobe

theorem keeps_bringUpExit (h : Stable P (Cmd.ofExit exit))
    (hprobe : ∀ pid, Keeps P (probeKernel ("wgprobe" ++ pid))) : Keeps P (bringUpExit privateKey exit) :=
  keeps_bringUpExit_of (h.mono fun _ hc => hc.1) hprobe

theorem keeps_applyExit (h : Stable P (Cmd.ofExit exit))
    (hprobe : ∀ pid, Keeps P (probeKernel ("wgprobe" ++ pid)))
    (done : List String × List ExitFailure) : Keeps P (applyExit privateKey done exit) :=
  keeps_tryCatch (keeps_bind (keeps_bringUpExit h hprobe) fun _ => keeps_pure _) fun _ => keeps_pure _

theorem mem_listManaged {w w' : World} {installed : List ManagedRule}
    (h : listManagedRules w = .ok installed w') :
    ∀ m ∈ installed, ∃ r ∈ w.box.rules, r.managed = some m := by
  obtain ⟨res,w₁,hrun,-,hres⟩ := tryRun_cases .ruleShow w
  unfold listManagedRules query at h
  rw [bind_apply, bind_of_ok hrun] at h
  rcases hres with ⟨-,failed,rfl⟩ | ⟨rfl,-,hstep⟩
  · cases h
    simp [Except.toOption, Except.map]
  · cases h
    rw [← Except.ok.inj hstep]
    intro m hm
    exact List.mem_filterMap.mp hm

theorem keeps_removeRuleOf (h : Stable P C) {wanted : List String} {m : ManagedRule}
    (hdel : m.key ∉ wanted → C (.ruleDel m.source (.int m.table) (.int m.priority)))
    (failed : List ExitFailure) : Keeps P (removeRuleOf wanted failed m) := by
  unfold removeRuleOf
  split
  · exact keeps_pure _
  · next hunwanted =>
    refine keeps_bind (keeps_tryRun h (hdel (by simpa using hunwanted))) fun res => ?_
    cases res <;> exact keeps_pure _

theorem keeps_addRuleOf (h : Stable P C) {installed : List ManagedRule} {rule : ExitRule}
    (hadd : C (.ruleAdd rule.source rule.table rule.priority)) (failed : List ExitFailure) :
    Keeps P (addRuleOf installed failed rule) := by
  unfold addRuleOf
  split
  · exact keeps_pure _
  · refine keeps_bind (keeps_tryRun h hadd) fun res => ?_
    cases res <;> exact keeps_pure _

theorem keeps_applyRules (h : Stable P C) {rules : List ExitRule}
    (hadd : ∀ rule ∈ rules, C (.ruleAdd rule.source rule.table rule.priority))
    (hdel : ∀ w, P w → ∀ r ∈ w.box.rules, ∀ m, r.managed = some m → m.key ∉ rules.map ExitRule.key →
      C (.ruleDel m.source (.int m.table) (.int m.priority)))
    (failed : List ExitFailure) : Keeps P (applyRules rules failed) := by
  refine keeps_bind_ok (keeps_bind (keeps_query h rfl _) fun _ => keeps_pure _)
    fun w installed w' hw hlist => ?_
  refine keeps_bind (keeps_foldlM (fun failed rule hrule => ?_) _) fun failed =>
    keeps_foldlM (fun failed rule hrule => keeps_addRuleOf h (hadd rule hrule) failed) _
  obtain ⟨r,hr,hm⟩ := mem_listManaged hlist rule hrule
  exact keeps_removeRuleOf h (hdel w hw r hr rule hm) failed

theorem keeps_removeExit (h : Stable P C) {wanted : List Num} {entry : Nat × String}
    (hflush : .int entry.1 ∉ wanted → C (.routeFlush (tableFor (.int entry.1))))
    (hdel : .int entry.1 ∉ wanted → C (.linkDel entry.2)) : Keeps P (removeExit wanted entry) := by
  unfold removeExit
  split
  · next hunwanted =>
    have hnot : .int entry.1 ∉ wanted := by simpa using hunwanted
    exact keeps_bind (keeps_tryRun h (hflush hnot)) fun _ =>
      keeps_bind (keeps_tryRun h (hdel hnot)) fun _ => keeps_pure _
  · exact keeps_pure _

theorem mem_exitInterfaces {b : Box} {id : Nat} {name : String}
    (h : (id,name) ∈ b.exitInterfaces.entries) :
    name ∈ b.links.keys ∧ exitIfaceId name = some id := by
  have hfold : ∀ (names : List String) (found : OrdMap Nat String),
      (∀ id name, found.get? id = some name → name ∈ b.links.keys ∧ exitIfaceId name = some id) →
      (∀ name ∈ names, name ∈ b.links.keys) → ∀ id name,
      (names.foldl addExit found).get? id = some name → name ∈ b.links.keys ∧ exitIfaceId name = some id := by
    intro names
    induction names with
    | nil => exact fun found hfound _ => hfound
    | cons next names ih =>
      intro found hfound hnames
      refine ih _ (fun id name hget => ?_) fun name hname => hnames name (by simp [hname])
      unfold addExit at hget
      split at hget
      · exact hfound id name hget
      · next nextId hnext =>
        by_cases hid : id = nextId
        · subst hid
          rw [OrdMap.get?_set_self] at hget
          cases hget
          exact ⟨hnames _ List.mem_cons_self,hnext⟩
        · rw [OrdMap.get?_set_of_ne _ hid] at hget
          exact hfound id name hget
  exact hfold b.links.keys OrdMap.empty (fun id name h => by cases h) (fun name h => h) id name
    (OrdMap.mem_entries_iff.mp h)

theorem listExitInterfaces_ok {w w' : World} {found : OrdMap Nat String}
    (h : listExitInterfaces w = .ok found w') :
    found = w.box.exitInterfaces ∨ found = OrdMap.empty := by
  obtain ⟨res,w₁,hrun,-,hres⟩ := tryRun_cases .linkList w
  unfold listExitInterfaces query at h
  rw [bind_apply, bind_of_ok hrun] at h
  rcases hres with ⟨-,failed,rfl⟩ | ⟨rfl,-,hstep⟩
  · cases h
    exact .inr rfl
  · cases h
    rw [← Except.ok.inj hstep]
    exact .inl rfl

theorem id_of_listed {w w' : World} {found : OrdMap Nat String}
    (h : listExitInterfaces w = .ok found w') {entry : Nat × String} (hentry : entry ∈ found.entries) :
    exitIfaceId entry.2 = some entry.1 := by
  rcases listExitInterfaces_ok h with rfl | rfl
  · exact (mem_exitInterfaces hentry).2
  · cases hentry

theorem keeps_listExitInterfaces (h : Stable P C) : Keeps P listExitInterfaces :=
  keeps_bind (keeps_query h rfl _) fun _ => keeps_pure _

theorem keeps_applyExits_of (h : Stable P C) {plan : ExitPlan} {privateKey : String}
    (hexit : ∀ entry ∈ plan.exits.entries, Keeps P (bringUpExit privateKey entry.2))
    (hadd : ∀ rule ∈ plan.rules, C (.ruleAdd rule.source rule.table rule.priority))
    (hdel : ∀ w, P w → ∀ r ∈ w.box.rules, ∀ m, r.managed = some m → m.key ∉ plan.rules.map ExitRule.key →
      C (.ruleDel m.source (.int m.table) (.int m.priority)))
    (hflush : ∀ n : Nat, .int n ∉ plan.exits.keys → C (.routeFlush (tableFor (.int n))))
    (hlink : ∀ name n, exitIfaceId name = some n → .int n ∉ plan.exits.keys → C (.linkDel name)) :
    Keeps P (applyExits plan privateKey) := by
  refine keeps_bind (keeps_foldlM (fun done exit hmem => ?_) _) fun done => ?_
  · obtain ⟨entry,hentry,rfl⟩ := List.mem_map.mp hmem
    exact keeps_tryCatch (keeps_bind (hexit entry hentry) fun _ => keeps_pure _) fun _ => keeps_pure _
  · refine keeps_bind (keeps_applyRules h hadd hdel _) fun failed => ?_
    refine keeps_bind_ok (keeps_listExitInterfaces h) fun w found w' _ hfound => ?_
    refine keeps_bind (keeps_forM fun entry hentry => ?_) fun _ => keeps_pure _
    exact keeps_removeExit h (hflush _) (hlink _ _ (id_of_listed hfound hentry))

theorem keeps_applyExits (h : Stable P C) {plan : ExitPlan} {privateKey : String}
    (hprobe : ∀ pid, Keeps P (probeKernel ("wgprobe" ++ pid)))
    (hexit : ∀ entry ∈ plan.exits.entries, ∀ c, Cmd.ofExit entry.2 c → C c)
    (hadd : ∀ rule ∈ plan.rules, C (.ruleAdd rule.source rule.table rule.priority))
    (hdel : ∀ w, P w → ∀ r ∈ w.box.rules, ∀ m, r.managed = some m → m.key ∉ plan.rules.map ExitRule.key →
      C (.ruleDel m.source (.int m.table) (.int m.priority)))
    (hflush : ∀ n : Nat, .int n ∉ plan.exits.keys → C (.routeFlush (tableFor (.int n))))
    (hlink : ∀ name n, exitIfaceId name = some n → .int n ∉ plan.exits.keys → C (.linkDel name)) :
    Keeps P (applyExits plan privateKey) :=
  keeps_applyExits_of h (fun entry hentry => keeps_bringUpExit (h.mono (hexit entry hentry)) hprobe)
    hadd hdel hflush hlink

theorem returns_tryRun (c : Cmd) : Returns (tryRun c) := fun _ => ⟨_,_,rfl⟩

theorem returns_query {α : Type} (c : Cmd) (output : Box → α) : Returns (query c output) :=
  returns_bind (returns_tryRun c) fun _ => returns_bind (fun w => ⟨w,w,rfl⟩) fun _ => returns_pure _

theorem returns_removeExit (wanted : List Num) (entry : Nat × String) :
    Returns (removeExit wanted entry) := by
  unfold removeExit
  split
  · exact returns_bind (returns_tryRun _) fun _ => returns_bind (returns_tryRun _) fun _ => returns_pure _
  · exact returns_pure _

theorem returns_removeRuleOf (wanted : List String) (failed : List ExitFailure) (m : ManagedRule) :
    Returns (removeRuleOf wanted failed m) := by
  unfold removeRuleOf
  split
  · exact returns_pure _
  · refine returns_bind (returns_tryRun _) fun res => ?_
    cases res <;> exact returns_pure _

theorem returns_addRuleOf (installed : List ManagedRule) (failed : List ExitFailure) (rule : ExitRule) :
    Returns (addRuleOf installed failed rule) := by
  unfold addRuleOf
  split
  · exact returns_pure _
  · refine returns_bind (returns_tryRun _) fun res => ?_
    cases res <;> exact returns_pure _

theorem returns_applyRules (rules : List ExitRule) (failed : List ExitFailure) :
    Returns (applyRules rules failed) := by
  refine returns_bind (returns_bind (returns_query _ _) fun _ => returns_pure _) fun installed => ?_
  refine returns_bind (returns_foldlM (fun failed m _ => returns_removeRuleOf _ failed m) _) fun failed =>
    returns_foldlM (fun failed rule _ => returns_addRuleOf installed failed rule) _

theorem returns_applyExits (plan : ExitPlan) (privateKey : String) : Returns (applyExits plan privateKey) := by
  refine returns_bind (returns_foldlM (fun done exit _ => ?_) _) fun done => ?_
  · intro w
    obtain ⟨done',hrun⟩ := tryCatch_ok (bringUpExit privateKey exit) (done.1 ++ [exit.iface],done.2)
      (fun err => (done.1,done.2 ++ [{ iface := some exit.iface, error := err }])) w
    exact ⟨done',_,hrun⟩
  · refine returns_bind (returns_applyRules plan.rules done.2) fun failed => ?_
    refine returns_bind (returns_bind (returns_query _ _) fun _ => returns_pure _) fun found => ?_
    exact returns_bind (returns_forM fun entry _ => returns_removeExit _ entry) fun _ => returns_pure _

end Exits

end JumpHost.Mesh
