import Mathlib.Data.List.Dedup
import JumpHost.Mesh.Changes

namespace JumpHost.Mesh

open Effect

def Box.peersOn (b : Box) (dev : String) : Option (OrdMap String WgPeer) :=
  (b.links.get? dev).map Link.peers

def Box.peers (b : Box) (dev : String) : OrdMap String WgPeer := (b.peersOn dev).getD OrdMap.empty

def Cmd.sparesPeers (dev : String) : Cmd → Prop
  | .wgSetPeer d _ _ _ _ | .wgRemovePeer d _ | .linkDel d => d ≠ dev
  | _ => True

theorem peersOn_set {b b' : Box} {dev d : String} {link link' : Link}
    (hlink : b.links.get? d = some link) (hb : b'.links = b.links.set d link')
    (hpeers : link'.peers = link.peers) : b'.peersOn dev = b.peersOn dev := by
  by_cases hd : dev = d
  · subst hd
    simp [Box.peersOn, hb, OrdMap.get?_set_self, hlink, hpeers]
  · simp [Box.peersOn, hb, OrdMap.get?_set_of_ne _ hd]

theorem peersOn_new {b b' : Box} {dev d : String} (hd : b.links.has d = false)
    (hb : b'.links = b.links.set d {}) : b'.peersOn dev = b.peersOn dev ∨
      b.peersOn dev = none ∧ b'.peersOn dev = some OrdMap.empty := by
  by_cases hdev : dev = d
  · subst hdev
    have hnone : b.links.get? dev = none := by
      rw [OrdMap.get?_eq_none_iff, ← OrdMap.has_iff, hd]
      exact Bool.false_ne_true
    exact .inr ⟨by simp [Box.peersOn, hnone],by simp [Box.peersOn, hb, OrdMap.get?_set_self]⟩
  · exact .inl (by simp [Box.peersOn, hb, OrdMap.get?_set_of_ne _ hdev])

theorem peersOn_step {b b' : Box} {c : Cmd} {dev : String} (hc : c.sparesPeers dev)
    (h : b.step c = .ok b') : b'.peersOn dev = b.peersOn dev ∨
      b.peersOn dev = none ∧ b'.peersOn dev = some OrdMap.empty := by
  cases links_change h with
  | same hb => exact .inl (by simp [Box.peersOn, hb])
  | new d _ hd hb => exact peersOn_new hd hb
  | gone d hd hb =>
    subst hd
    exact .inl (by simp [Box.peersOn, hb, OrdMap.get?_delete_of_ne (Ne.symm hc)])
  | edit d link link' hlink hedit hb =>
    refine .inl ?_
    cases hedit with
    | up | addrAdd | addrDel | key => exact peersOn_set hlink hb rfl
    | setPeer key ips nets endpoint keepalive hd =>
      subst hd
      simp [Box.peersOn, hb, OrdMap.get?_set_of_ne _ (Ne.symm hc)]
    | removePeer key hd =>
      subst hd
      simp [Box.peersOn, hb, OrdMap.get?_set_of_ne _ (Ne.symm hc)]

theorem peers_step {b b' : Box} {c : Cmd} {dev : String} (hc : c.sparesPeers dev)
    (h : b.step c = .ok b') : b'.peers dev = b.peers dev := by
  unfold Box.peers
  rcases peersOn_step hc h with heq | ⟨hnone,hempty⟩
  · rw [heq]
  · rw [hnone, hempty]
    rfl

theorem stable_peers (dev : String) (ps : OrdMap String WgPeer) :
    Stable (fun w => w.box.peers dev = ps) (Cmd.sparesPeers dev) :=
  stable_box fun _ _ _ hc h hb => (peers_step hc h).trans hb

theorem stable_peersOn (dev : String) (ps : OrdMap String WgPeer) :
    Stable (fun w => w.box.peersOn dev = some ps) (Cmd.sparesPeers dev) := by
  refine stable_box (I := fun b => b.peersOn dev = some ps) fun b c b' hc h hb => ?_
  rcases peersOn_step hc h with heq | ⟨hnone,-⟩
  · rw [heq, hb]
  · rw [hnone] at hb
    cases hb

theorem peers_linkAdd {b b' : Box} {d : String} (h : b.step (.linkAdd d) = .ok b') :
    b'.peers d = OrdMap.empty := by
  simp only [Box.step, Box.linkAdd] at h
  split at h
  · cases h
  · split at h <;> cases h
    simp [Box.peers, Box.peersOn, OrdMap.get?_set_self]

theorem peers_linkDel {b b' : Box} {d dev : String} (h : b.step (.linkDel d) = .ok b')
    (hd : b.peers d = OrdMap.empty) : b'.peers dev = b.peers dev := by
  obtain ⟨link,-,hb⟩ := onLink_ok h
  cases hb
  by_cases hdev : dev = d
  · subst hdev
    have hgone : (b.links.delete dev).get? dev = none := by
      rw [OrdMap.get?_eq_none_iff, OrdMap.mem_keys_delete]
      exact fun hmem => hmem.2 rfl
    rw [hd]
    simp [Box.peers, Box.peersOn, hgone]
  · simp [Box.peers, Box.peersOn, OrdMap.get?_delete_of_ne hdev]

theorem keeps_probeKernel_peers (dev probeName : String) (ps : OrdMap String WgPeer) :
    Keeps (fun w => w.box.peers dev = ps) (probeKernel probeName) := by
  intro w hw
  obtain ⟨res,w₁,hadd,-,hres⟩ := tryRun_cases (.linkAdd probeName) w
  unfold probeKernel
  rw [bind_of_ok hadd]
  rcases hres with ⟨hbox,failed,rfl⟩ | ⟨rfl,-,hstep⟩
  · change w₁.box.peers dev = ps
    rw [hbox, hw]
  · have hspare : Cmd.sparesPeers dev (.linkAdd probeName) := trivial
    have hps : w₁.box.peers dev = ps := (peers_step hspare hstep).trans hw
    obtain ⟨res,w₂,hdel,-,hres⟩ := tryRun_cases (.linkDel probeName) w₁
    rw [if_pos (show (Except.ok () : Except Failed Unit).toBool = true from rfl), bind_of_ok hdel]
    change w₂.box.peers dev = ps
    rcases hres with ⟨hbox,-⟩ | ⟨-,-,hgone⟩
    · rw [hbox, hps]
    · rw [peers_linkDel hgone (peers_linkAdd hstep), hps]

theorem peersOn_linkUp {b b' : Box} {dev : String} (h : b.step (.linkUp dev) = .ok b') :
    ∃ ps, b'.peersOn dev = some ps := by
  obtain ⟨link,hlink,hb⟩ := onLink_ok h
  refine ⟨link.peers,?_⟩
  split at hb <;> cases hb <;> simp [Box.peersOn, Box.addRoutes, OrdMap.get?_set_self]

theorem peers_bringUp {conf : MeshConf} {plan : Plan} {privateKey : String} {w w' : World}
    (h : bringUp conf plan privateKey w = .ok () w') :
    w'.box.peersOn conf.IFACE = some (w.box.peers conf.IFACE) := by
  have hkeep : Keeps (fun v => v.box.peers conf.IFACE = w.box.peers conf.IFACE)
      (bringUp conf plan privateKey) :=
    keeps_bringUp (stable_peers _ _) (fun _ => keeps_probeKernel_peers _ _ _)
      trivial trivial (fun _ _ => trivial) (fun _ _ => trivial) (fun _ _ => trivial) trivial
  have hpeers := hkeep.of_ok h rfl
  obtain ⟨_,_,-,h⟩ := bind_ok h
  obtain ⟨_,_,-,h⟩ := bind_ok h
  obtain ⟨_,_,-,h⟩ := bind_ok h
  obtain ⟨_,_,-,h⟩ := bind_ok h
  obtain ⟨_,_,-,h⟩ := bind_ok h
  obtain ⟨ps,hps⟩ := peersOn_linkUp (run_ok h)
  rw [hps, ← hpeers, Box.peers, hps]
  rfl

section Assign

variable {ps : OrdMap String WgPeer} {key : String} {nets : List Net} {endpoint : Option String}
  {keepalive : Option Nat}

theorem get?_assignPeer_self : ∃ peer, (assignPeer ps key nets endpoint keepalive).get? key =
    some peer ∧ peer.allowedIPs = nets.dedup := ⟨_,OrdMap.get?_set_self _ _ _,rfl⟩

theorem get?_assignPeer_of_ne {k : String} (h : k ≠ key) :
    (assignPeer ps key nets endpoint keepalive).get? k = (ps.get? k).map fun p =>
      { p with allowedIPs := p.allowedIPs.filter fun net => !nets.contains net } := by
  rw [assignPeer, OrdMap.get?_set_of_ne _ h, OrdMap.get?_mapValues]

theorem mem_keys_assignPeer {k : String} :
    k ∈ (assignPeer ps key nets endpoint keepalive).keys ↔ k ∈ ps.keys ∨ k = key := by
  rw [assignPeer, OrdMap.mem_keys_set, OrdMap.keys_mapValues]

end Assign

section Keys

theorem keys_step {b b' : Box} {c : Cmd} {dev key : String} (hlink : c ≠ .linkDel dev)
    (hremove : c ≠ .wgRemovePeer dev key) (h : b.step c = .ok b') (hkey : key ∈ (b.peers dev).keys) :
    key ∈ (b'.peers dev).keys := by
  by_cases hc : c.sparesPeers dev
  · rwa [peers_step hc h]
  · cases c <;> simp [Cmd.sparesPeers] at hc
    case linkDel d => exact absurd (by rw [hc]) hlink
    case wgSetPeer d k ips endpoint keepalive =>
      subst hc
      obtain ⟨link,hget,hb⟩ := onLink_ok h
      split at hb <;> cases hb
      simp only [Box.peers, Box.peersOn, hget, OrdMap.get?_set_self, Option.map_some, Option.getD_some]
        at hkey ⊢
      exact mem_keys_assignPeer.mpr (.inl hkey)
    case wgRemovePeer d k =>
      subst hc
      obtain ⟨link,hget,hb⟩ := onLink_ok h
      cases hb
      simp only [Box.peers, Box.peersOn, hget, OrdMap.get?_set_self, Option.map_some, Option.getD_some]
        at hkey ⊢
      exact OrdMap.mem_keys_delete.mpr ⟨hkey,fun heq => hremove (by rw [heq])⟩

theorem stable_key (dev key : String) : Stable (fun w => key ∈ (w.box.peers dev).keys) fun c =>
    c ≠ .linkDel dev ∧ c ≠ .wgRemovePeer dev key :=
  stable_box (I := fun b => key ∈ (b.peers dev).keys) fun _ _ _ hc h hb => keys_step hc.1 hc.2 h hb

theorem keys_added {b b' : Box} {c : Cmd} {dev key : String} (h : b.step c = .ok b')
    (hkey : key ∈ (b'.peers dev).keys) : key ∈ (b.peers dev).keys ∨
      ∃ ips endpoint keepalive, c = .wgSetPeer dev key ips endpoint keepalive := by
  by_cases hc : c.sparesPeers dev
  · exact .inl (peers_step hc h ▸ hkey)
  · cases c <;> simp [Cmd.sparesPeers] at hc
    case linkDel d =>
      subst hc
      obtain ⟨link,-,hb⟩ := onLink_ok h
      cases hb
      have hgone : (b.links.delete d).get? d = none := by
        rw [OrdMap.get?_eq_none_iff, OrdMap.mem_keys_delete]
        exact fun hmem => hmem.2 rfl
      simp [Box.peers, Box.peersOn, hgone] at hkey
    case wgSetPeer d k ips endpoint keepalive =>
      subst hc
      obtain ⟨link,hget,hb⟩ := onLink_ok h
      split at hb <;> cases hb
      simp only [Box.peers, Box.peersOn, hget, OrdMap.get?_set_self, Option.map_some, Option.getD_some]
        at hkey ⊢
      rcases mem_keys_assignPeer.mp hkey with hold | rfl
      · exact .inl hold
      · exact .inr ⟨_,_,_,rfl⟩
    case wgRemovePeer d k =>
      subst hc
      obtain ⟨link,hget,hb⟩ := onLink_ok h
      cases hb
      simp only [Box.peers, Box.peersOn, hget, OrdMap.get?_set_self, Option.map_some, Option.getD_some]
        at hkey ⊢
      exact .inl (OrdMap.mem_keys_delete.mp hkey).1

def Cmd.setsOnly (dev key : String) : Cmd → Prop
  | .wgSetPeer d k _ _ _ => d = dev → k = key
  | _ => True

theorem stable_only (dev key : String) :
    Stable (fun w => ∀ k ∈ (w.box.peers dev).keys, k = key) (Cmd.setsOnly dev key) := by
  refine stable_box (I := fun b => ∀ k ∈ (b.peers dev).keys, k = key) fun b c b' hc h hb k hk => ?_
  rcases keys_added h hk with hold | ⟨_,_,_,rfl⟩
  · exact hb k hold
  · exact hc rfl

end Keys

def Peer.lists (p : Peer) (net : Net) : Prop := ∃ cidr ∈ p.allowedIPs, Net.parse cidr = some net

def Peer.setCmd (p : Peer) (iface : String) : Cmd :=
  .wgSetPeer iface p.publicKey p.allowedIPs (firstTruthy [some p.endpoint])
    (if p.keepalive = 0 then none else some p.keepalive)

def Holds (ps : OrdMap String WgPeer) (p : Peer) : Prop :=
  ∃ peer, ps.get? p.publicKey = some peer ∧ ∀ net, net ∈ peer.allowedIPs ↔ p.lists net

theorem mem_mapM {α β : Type} {f : α → Option β} {as : List α} {bs : List β}
    (h : as.mapM f = some bs) (b : β) : b ∈ bs ↔ ∃ a ∈ as, f a = some b := by
  induction as generalizing bs with
  | nil =>
    cases h
    simp
  | cons a as ih =>
    rw [List.mapM_cons] at h
    cases hfa : f a with
    | none => simp [hfa] at h
    | some c =>
      cases hrest : as.mapM f with
      | none => simp [hfa, hrest] at h
      | some cs =>
        obtain rfl : c :: cs = bs := by simpa [hfa, hrest] using h
        simp [ih hrest, hfa, eq_comm]

theorem holds_assign_self {ps : OrdMap String WgPeer} {p : Peer} {nets : List Net}
    (h : p.allowedIPs.mapM Net.parse = some nets) (endpoint : Option String)
    (keepalive : Option Nat) : Holds (assignPeer ps p.publicKey nets endpoint keepalive) p := by
  obtain ⟨peer,hget,hips⟩ := get?_assignPeer_self
  refine ⟨peer,hget,fun net => ?_⟩
  rw [hips, List.mem_dedup, mem_mapM h]
  rfl

theorem holds_assign_of_ne {ps : OrdMap String WgPeer} {p q : Peer} {nets : List Net}
    (h : p.allowedIPs.mapM Net.parse = some nets) (hkey : q.publicKey ≠ p.publicKey)
    (hdisjoint : ∀ net, q.lists net → ¬ p.lists net) (hq : Holds ps q) (endpoint : Option String)
    (keepalive : Option Nat) : Holds (assignPeer ps p.publicKey nets endpoint keepalive) q := by
  obtain ⟨peer,hget,hips⟩ := hq
  refine ⟨_,by rw [get?_assignPeer_of_ne hkey, hget]; rfl,fun net => ?_⟩
  simp only [List.mem_filter, hips, Bool.not_eq_true', List.contains_eq_mem, decide_eq_false_iff_not]
  refine ⟨And.left,fun hnet => ⟨hnet,fun hmem => ?_⟩⟩
  exact hdisjoint net hnet ((mem_mapM h net).mp hmem)

structure RejectsExactly (iface : String) (peers : List Peer) (F : Peer → Bool)
    (faults : Nat → Cmd → Option Failed) : Prop where
  rejected : ∀ n, ∀ p ∈ peers,
    F p = ((faults n (p.setCmd iface)).isSome || (p.allowedIPs.mapM Net.parse).isNone)
  listed : ∀ n, faults n (.wgShowPeers iface) = none
  removed : ∀ n key, faults n (.wgRemovePeer iface key) = none

theorem RejectsExactly.later {iface : String} {peers : List Peer} {F : Peer → Bool}
    {faults : Nat → Cmd → Option Failed} (h : RejectsExactly iface peers F faults) :
    RejectsExactly iface peers F fun n => faults (n + 1) :=
  ⟨fun n => h.rejected (n + 1),fun n => h.listed (n + 1),fun n => h.removed (n + 1)⟩

theorem stable_rejects {iface : String} {peers : List Peer} {F : Peer → Bool} (C : Cmd → Prop) :
    Stable (fun w => RejectsExactly iface peers F w.faults) C :=
  stable_faults (fun _ h => h.later) C

def Carries (iface : String) (peers : List Peer) (F : Peer → Bool) (ps : OrdMap String WgPeer)
    (w : World) : Prop :=
  w.box.peersOn iface = some ps ∧ RejectsExactly iface peers F w.faults

theorem Carries.unique {iface : String} {peers : List Peer} {F : Peer → Bool}
    {ps ps' : OrdMap String WgPeer} {w : World} (h : Carries iface peers F ps w)
    (h' : Carries iface peers F ps' w) : ps = ps' := Option.some.inj (h.1.symm.trans h'.1)

theorem stable_carries {iface : String} {peers : List Peer} {F : Peer → Bool}
    (ps : OrdMap String WgPeer) : Stable (Carries iface peers F ps) (Cmd.sparesPeers iface) :=
  (stable_peersOn iface ps).and (stable_rejects _)

theorem returns_dropPeerRoutes (name : String) (allowedIPs : List String) :
    Returns (dropPeerRoutes name allowedIPs) :=
  returns_forM fun _ _ => returns_bind (returns_tryRun _) fun _ => returns_pure _

section Loops

variable {conf : MeshConf} {peers : List Peer} {F : Peer → Bool} {ps : OrdMap String WgPeer}
  {w : World}

theorem step_setCmd {b : Box} {p : Peer} {nets : List Net} (hps : b.peersOn conf.IFACE = some ps)
    (hnets : p.allowedIPs.mapM Net.parse = some nets) :
    ∃ b' endpoint keepalive, b.step (p.setCmd conf.IFACE) = .ok b' ∧
      b'.peersOn conf.IFACE = some (assignPeer ps p.publicKey nets endpoint keepalive) := by
  obtain ⟨link,hlink,rfl⟩ := Option.map_eq_some_iff.mp hps
  refine ⟨_,firstTruthy [some p.endpoint],if p.keepalive = 0 then none else some p.keepalive,
    by simp only [Peer.setCmd, Box.step, Box.wgSetPeer, Box.onLink, hlink, hnets]; rfl,?_⟩
  simp [Box.peersOn, OrdMap.get?_set_self, Link.setPeer]

def Rejected (p : Peer) (F : Peer → Bool) (ps ps' : OrdMap String WgPeer) : Prop :=
  F p = true ∧ ps' = ps

def Accepted (p : Peer) (F : Peer → Bool) (ps ps' : OrdMap String WgPeer) : Prop :=
  F p = false ∧ ∃ nets endpoint keepalive, p.allowedIPs.mapM Net.parse = some nets ∧
    ps' = assignPeer ps p.publicKey nets endpoint keepalive

theorem parses_of_setCmd {b b' : Box} {p : Peer} (h : b.step (p.setCmd conf.IFACE) = .ok b') :
    (p.allowedIPs.mapM Net.parse).isNone = false := by
  obtain ⟨link,-,hb⟩ := onLink_ok h
  split at hb
  · cases hb
  · next nets hnets => simp [hnets]

theorem carries_setPeer {p : Peer} (hp : p ∈ peers) (hw : Carries conf.IFACE peers F ps w) :
    ∃ ps', Carries conf.IFACE peers F ps'
        (final (setPeer conf.IFACE p.publicKey p.endpoint p.allowedIPs p.keepalive w)) ∧
      (Rejected p F ps ps' ∨ Accepted p F ps ps') := by
  have hF := hw.2.rejected 0 p hp
  cases hFp : F p with
  | true =>
    obtain ⟨res,w₁,hset,hlater,⟨hbox,failed,rfl⟩ | ⟨-,hnone,hstep⟩⟩ :=
      tryRun_cases (p.setCmd conf.IFACE) w
    · refine ⟨ps,?_,.inl ⟨hFp,rfl⟩⟩
      have hthrow : setPeer conf.IFACE p.publicKey p.endpoint p.allowedIPs p.keepalive w =
          .error ("Command failed: " ++ failed.err) w₁ := by
        change ((tryRun (p.setCmd conf.IFACE) >>= _) >>= _) w = _
        rw [bind_apply, bind_of_ok hset]
        rfl
      rw [hthrow]
      exact ⟨by rw [final_error, hbox, hw.1],by rw [final_error, hlater]; exact hw.2.later⟩
    · rw [hFp, hnone, parses_of_setCmd hstep] at hF
      cases hF
  | false =>
    rw [hFp] at hF
    obtain ⟨hnone,hparse⟩ := Bool.or_eq_false_iff.mp hF.symm
    cases hnets : p.allowedIPs.mapM Net.parse with
    | none => simp [hnets] at hparse
    | some nets =>
      obtain ⟨b',endpoint,keepalive,hstep,hps⟩ := step_setCmd hw.1 hnets
      refine ⟨_,?_,.inr ⟨hFp,nets,endpoint,keepalive,hnets,rfl⟩⟩
      have hset := tryRun_ok (by simpa using hnone) hstep
      have hrun : setPeer conf.IFACE p.publicKey p.endpoint p.allowedIPs p.keepalive w =
          addPeerRoutes conf.IFACE p.allowedIPs
            { w with box := b', faults := fun n => w.faults (n + 1) } := by
        change ((tryRun (p.setCmd conf.IFACE) >>= _) >>= _) w = _
        rw [bind_apply, bind_of_ok hset]
        rfl
      rw [hrun]
      exact keeps_addPeerRoutes (stable_carries _) (fun _ _ => trivial) _ ⟨hps,hw.2.later⟩

def Disjoint (peers : List Peer) : Prop :=
  ∀ p ∈ peers, ∀ q ∈ peers, p.publicKey ≠ q.publicKey → ∀ net, p.lists net → ¬ q.lists net

def Separate (peers : List Peer) : Prop := (peers.map Peer.publicKey).Nodup ∧ Disjoint peers

def Known (F : Peer → Bool) (before : OrdMap String WgPeer) (peers : List Peer)
    (ps : OrdMap String WgPeer) : Prop :=
  ∀ key ∈ ps.keys, key ∈ before.keys ∨ ∃ p ∈ peers, F p = false ∧ p.publicKey = key

structure Placed (F : Peer → Bool) (before : OrdMap String WgPeer) (peers : List Peer)
    (ps : OrdMap String WgPeer) : Prop where
  holds : ∀ p ∈ peers, F p = false → Holds ps p
  known : Known F before peers ps

section Turn

variable {before ps' : OrdMap String WgPeer} {p q : Peer}

theorem holds_turn_self (hps : Rejected p F ps ps' ∨ Accepted p F ps ps') (hF : F p = false) :
    Holds ps' p := by
  rcases hps with ⟨hrejected,-⟩ | ⟨-,nets,endpoint,keepalive,hnets,rfl⟩
  · rw [hF] at hrejected
    cases hrejected
  · exact holds_assign_self hnets _ _

theorem holds_turn (hseparate : Separate peers) (hp : p ∈ peers) (hq : q ∈ peers)
    (hps : Rejected p F ps ps' ∨ Accepted p F ps ps') (hF : F q = false) (h : Holds ps q) :
    Holds ps' q := by
  by_cases hkey : q.publicKey = p.publicKey
  · obtain rfl : q = p := List.inj_on_of_nodup_map hseparate.1 hq hp hkey
    exact holds_turn_self hps hF
  · rcases hps with ⟨-,rfl⟩ | ⟨-,nets,endpoint,keepalive,hnets,rfl⟩
    · exact h
    · exact holds_assign_of_ne hnets hkey (hseparate.2 q hq p hp hkey) h _ _

theorem known_turn (hp : p ∈ peers) (hps : Rejected p F ps ps' ∨ Accepted p F ps ps')
    (h : Known F before peers ps) : Known F before peers ps' := by
  rcases hps with ⟨-,rfl⟩ | ⟨hF,nets,endpoint,keepalive,hnets,rfl⟩
  · exact h
  · intro key hkey
    rcases mem_keys_assignPeer.mp hkey with hkey | rfl
    · exact h key hkey
    · exact .inr ⟨p,hp,hF,rfl⟩

end Turn

theorem placed_all {before : OrdMap String WgPeer} (hw : Carries conf.IFACE peers F before w) :
    ∃ failed w' ps, peers.foldlM (applyPeer conf) [] w = .ok failed w' ∧
      Carries conf.IFACE peers F ps w' ∧ (Separate peers → Placed F before peers ps) := by
  let J : List Failure → World → Prop := fun _ v => ∃ ps, Carries conf.IFACE peers F ps v ∧
    Known F before peers ps
  let D : Peer → List Failure → World → Prop := fun p _ v => ∀ ps,
    Carries conf.IFACE peers F ps v → Separate peers → F p = false → Holds ps p
  have hstart : J [] w := ⟨before,hw,fun key hkey => .inl hkey⟩
  have hturn : ∀ p ∈ peers, ∀ failed v, J failed v → ∃ failed' v',
      applyPeer conf failed p v = .ok failed' v' ∧ J failed' v' ∧ D p failed' v' ∧
        ∀ q ∈ peers, D q failed v → D q failed' v' := by
    rintro p hp failed v ⟨ps,hcarries,hknown⟩
    obtain ⟨failed',happly⟩ := noting_ok failed p.label
      (setPeer conf.IFACE p.publicKey p.endpoint p.allowedIPs p.keepalive) v
    obtain ⟨ps',hcarries',hps⟩ := carries_setPeer hp hcarries
    refine ⟨failed',_,happly,⟨ps',hcarries',known_turn hp hps hknown⟩,?_,?_⟩
    · intro ps'' hcarries'' _ hF
      obtain rfl := hcarries''.unique hcarries'
      exact holds_turn_self hps hF
    · intro q hq hold ps'' hcarries'' hseparate hF
      obtain rfl := hcarries''.unique hcarries'
      exact holds_turn hseparate hp hq hps hF (hold ps hcarries hseparate hF)
  obtain ⟨failed,w',hrun,⟨ps,hcarries,hknown⟩,hheld⟩ := foldlM_each J D hturn hstart
  exact ⟨failed,w',ps,hrun,hcarries,fun hseparate =>
    ⟨fun p hp => hheld p hp ps hcarries hseparate,hknown⟩⟩

structure Pruned (wanted : List String) (ps ps' : OrdMap String WgPeer) : Prop where
  listed : ∀ key ∈ ps'.keys, key ∈ wanted
  kept : ∀ key ∈ wanted, ps'.get? key = ps.get? key
  known : ∀ key ∈ ps'.keys, key ∈ ps.keys

theorem carries_removePeer (key : String) (hw : Carries conf.IFACE peers F ps w) :
    ∃ w', removePeer conf.IFACE key w = .ok () w' ∧
      Carries conf.IFACE peers F (ps.delete key) w' := by
  obtain ⟨shown,w₁,hshow⟩ : ∃ shown w₁, query (.wgShowAllowedIPs conf.IFACE)
      (fun b => b.allowedIPs conf.IFACE key) w = .ok shown w₁ := ⟨_,_,rfl⟩
  have hw₁ : Carries conf.IFACE peers F ps w₁ := (keeps_query (stable_carries ps) rfl _).of_ok hshow hw
  obtain ⟨link,hlink,rfl⟩ := Option.map_eq_some_iff.mp hw₁.1
  have hstep : w₁.box.step (.wgRemovePeer conf.IFACE key) =
      .ok { w₁.box with links := w₁.box.links.set conf.IFACE (link.removePeer key) } := by
    simp only [Box.step, Box.wgRemovePeer, Box.onLink, hlink]
  have hremove := tryRun_ok (hw₁.2.removed 0 key) hstep
  obtain ⟨_,w₃,hdrop⟩ := returns_dropPeerRoutes conf.IFACE (shown.toOption.getD [])
    { w₁ with
      box := { w₁.box with links := w₁.box.links.set conf.IFACE (link.removePeer key) }
      faults := fun n => w₁.faults (n + 1) }
  refine ⟨w₃,?_,?_⟩
  · unfold removePeer
    rw [bind_of_ok hshow, bind_of_ok hremove, hdrop]
  · refine (keeps_dropPeerRoutes (stable_carries _) (fun _ _ => trivial)).of_ok hdrop ⟨?_,hw₁.2.later⟩
    simp [Box.peersOn, OrdMap.get?_set_self, Link.removePeer]

theorem pruned_all (wanted : List String) (hw : Carries conf.IFACE peers F ps w) :
    ∃ w' ps', ps.keys.forM (removeUnlisted conf wanted) w = .ok () w' ∧
      Carries conf.IFACE peers F ps' w' ∧ Pruned wanted ps ps' := by
  let J : World → Prop := fun v => ∃ ps', Carries conf.IFACE peers F ps' v ∧
    (∀ key ∈ wanted, ps'.get? key = ps.get? key) ∧ ∀ key ∈ ps'.keys, key ∈ ps.keys
  let D : String → World → Prop := fun key v => ∀ ps', Carries conf.IFACE peers F ps' v →
    key ∈ ps'.keys → key ∈ wanted
  have hstart : J w := ⟨ps,hw,fun _ _ => rfl,fun _ h => h⟩
  have hturn : ∀ key ∈ ps.keys, ∀ v, J v → ∃ v', removeUnlisted conf wanted key v = .ok () v' ∧
      J v' ∧ D key v' ∧ ∀ k ∈ ps.keys, D k v → D k v' := by
    rintro key - v ⟨ps',hcarries,hkept,hknown⟩
    unfold removeUnlisted
    split
    · next hunwanted =>
      obtain ⟨v',hrun,hcarries'⟩ := carries_removePeer key hcarries
      refine ⟨v',hrun,⟨ps'.delete key,hcarries',fun k hk => ?_,fun k hk => ?_⟩,?_,?_⟩
      · have hne : k ≠ key := by
          rintro rfl
          simp [hk] at hunwanted
        rw [OrdMap.get?_delete_of_ne hne, hkept k hk]
      · exact hknown k (OrdMap.mem_keys_delete.mp hk).1
      · intro ps'' hcarries'' hk
        obtain rfl := hcarries''.unique hcarries'
        exact absurd rfl (OrdMap.mem_keys_delete.mp hk).2
      · intro k _ hold ps'' hcarries'' hk
        obtain rfl := hcarries''.unique hcarries'
        exact hold ps' hcarries (OrdMap.mem_keys_delete.mp hk).1
    · next hwanted =>
      exact ⟨v,rfl,⟨ps',hcarries,hkept,hknown⟩,fun _ _ _ => by simpa using hwanted,fun _ _ h => h⟩
  obtain ⟨w',hrun,⟨ps',hcarries,hkept,hknown⟩,hgone⟩ := forM_each J D hturn hstart
  exact ⟨w',ps',hrun,hcarries,⟨fun key hkey => hgone key (hknown key hkey) ps' hcarries hkey,
    hkept,hknown⟩⟩

theorem listPeers_ok (hw : Carries conf.IFACE peers F ps w) :
    ∃ w', listPeers conf.IFACE w = .ok ps.keys w' ∧ Carries conf.IFACE peers F ps w' := by
  obtain ⟨link,hlink,hpeers⟩ := Option.map_eq_some_iff.mp hw.1
  have hstep : w.box.step (.wgShowPeers conf.IFACE) = .ok w.box := by
    simp only [Box.step, Box.onLink, hlink]
  have hshow := tryRun_ok (hw.2.listed 0) hstep
  refine ⟨{ w with faults := fun n => w.faults (n + 1) },?_,⟨hw.1,hw.2.later⟩⟩
  unfold listPeers query
  rw [bind_apply, bind_of_ok hshow]
  change EStateM.Result.ok (((w.box.links.get? conf.IFACE).map (·.peers.keys)).getD []) _ = _
  rw [hlink, ← hpeers]
  rfl

theorem applyPeers_ok {before : OrdMap String WgPeer} (hw : Carries conf.IFACE peers F before w) :
    ∃ failed w' ps ps', applyPeers conf peers w = .ok failed w' ∧
      Carries conf.IFACE peers F ps' w' ∧ (Separate peers → Placed F before peers ps) ∧
      Pruned (peers.map Peer.publicKey) ps ps' := by
  obtain ⟨failed,w₁,ps,hplace,hw₁,hplaced⟩ := placed_all hw
  obtain ⟨w₂,hlist,hw₂⟩ := listPeers_ok hw₁
  obtain ⟨w₃,ps',hprune,hw₃,hpruned⟩ := pruned_all (peers.map Peer.publicKey) hw₂
  refine ⟨failed,w₃,ps,ps',?_,hw₃,hplaced,hpruned⟩
  unfold applyPeers
  rw [bind_of_ok hplace, bind_of_ok hlist, bind_of_ok hprune]
  rfl

theorem carries_bringUp {plan : Plan} {privateKey : String} {w₁ : World}
    (hup : bringUp conf plan privateKey w = .ok () w₁)
    (hF : RejectsExactly conf.IFACE peers F w.faults) :
    Carries conf.IFACE peers F (w.box.peers conf.IFACE) w₁ := by
  have hstable : Stable (fun v => RejectsExactly conf.IFACE peers F v.faults) fun _ => True :=
    stable_rejects _
  have hkeep : Keeps (fun v => RejectsExactly conf.IFACE peers F v.faults)
      (bringUp conf plan privateKey) :=
    keeps_bringUp hstable (fun _ => keeps_probeKernel hstable trivial trivial) trivial
      trivial (fun _ _ => trivial) (fun _ _ => trivial) (fun _ _ => trivial) trivial
  exact ⟨peers_bringUp hup,hkeep.of_ok hup hF⟩

theorem applyPlan_carries {plan : Plan} {privateKey : String} {w₁ : World}
    (hup : bringUp conf plan privateKey w = .ok () w₁)
    (hF : RejectsExactly conf.IFACE plan.peers F w.faults) : ∃ ps,
      (Separate plan.peers → Placed F (w.box.peers conf.IFACE) plan.peers ps) ∧
      Pruned (plan.peers.map Peer.publicKey) ps
        ((final (applyPlan conf plan privateKey w)).box.peers conf.IFACE) := by
  obtain ⟨failed,w₂,ps,ps',hpeers,hcarries,hplaced,hpruned⟩ :=
    applyPeers_ok (carries_bringUp hup hF)
  have hrouting : Keeps (Carries conf.IFACE plan.peers F ps') (applyRouting conf plan failed) :=
    keeps_applyRouting ((stable_carries ps').mono fun c hc => by cases c <;> trivial) plan failed
  have hrun : applyPlan conf plan privateKey w = applyRouting conf plan failed w₂ := by
    unfold applyPlan
    rw [bind_of_ok hup, bind_of_ok hpeers]
  have hafter := (hrouting w₂ hcarries).1
  rw [← hrun] at hafter
  refine ⟨ps,hplaced,?_⟩
  rw [Box.peers, hafter]
  exact hpruned

theorem peers_converge {plan : Plan} {privateKey : String} {w₁ : World}
    (hkeys : (plan.peers.map Peer.publicKey).Nodup) (hdisjoint : Disjoint plan.peers)
    (hup : bringUp conf plan privateKey w = .ok () w₁)
    (hF : RejectsExactly conf.IFACE plan.peers F w.faults) :
    let before := w.box.peers conf.IFACE
    let after := (final (applyPlan conf plan privateKey w)).box.peers conf.IFACE
    (∀ p ∈ plan.peers, F p = false → Holds after p) ∧
      (∀ key ∈ after.keys, ∃ p ∈ plan.peers, p.publicKey = key) ∧
      ∀ p ∈ plan.peers, F p = true → p.publicKey ∈ after.keys → p.publicKey ∈ before.keys := by
  intro before after
  obtain ⟨ps,hplaced,hpruned⟩ := applyPlan_carries hup hF
  have hplaced := hplaced ⟨hkeys,hdisjoint⟩
  refine ⟨fun p hp hFp => ?_,fun key hkey => ?_,fun p hp hFp hkey => ?_⟩
  · obtain ⟨peer,hget,hips⟩ := hplaced.holds p hp hFp
    exact ⟨peer,(hpruned.kept _ (List.mem_map_of_mem hp)).trans hget,hips⟩
  · exact List.mem_map.mp (hpruned.listed key hkey)
  · rcases hplaced.known _ (hpruned.known _ hkey) with hbefore | ⟨q,hq,hFq,heq⟩
    · exact hbefore
    · obtain rfl : q = p := List.inj_on_of_nodup_map hkeys hq hp heq
      rw [hFp] at hFq
      cases hFq

end Loops

def phone : Peer where
  kind := .client
  label := "alice/phone"
  publicKey := "phone"
  endpoint := ""
  allowedIPs := ["10.1.128.7/32"]
  keepalive := 0

def laptop : Peer := { phone with
  label := "alice/laptop"
  publicKey := "laptop"
  allowedIPs := ["10.1.128.8/32"] }

def homePlan : Plan where
  siteId := .ofInt 1
  addresses := ["172.24.0.1/32","10.1.0.1/16"]
  peers := [phone,laptop]
  routes := []
  netmaps := []
  siteCidr := "10.1.0.0/16"

def homeBox : Box where
  links := OrdMap.empty.set "wg-mesh"
    { peers := assignPeer OrdMap.empty "tablet" ((Net.parse "10.1.128.7").toList) none none }

def Peer.isLaptop (p : Peer) : Bool := p.publicKey == "laptop"

def laptopRejected : Cmd → Option Failed
  | .wgSetPeer _ "laptop" _ _ _ => some { err := "Key is not the correct length or format" }
  | _ => none

def homeWorld : World where
  box := homeBox
  faults _ := laptopRejected

theorem home_disjoint : Disjoint homePlan.peers := by
  have hne : Net.parse "10.1.128.7/32" ≠ Net.parse "10.1.128.8/32" := by decide
  intro p hp q hq hkey net ⟨c,hc,hcnet⟩ ⟨d,hd,hdnet⟩
  have heq : Net.parse c = Net.parse d := hcnet.trans hdnet.symm
  simp only [homePlan, List.mem_cons, List.not_mem_nil, or_false] at hp hq
  rcases hp with rfl | rfl <;> rcases hq with rfl | rfl
  · exact hkey rfl
  · simp only [phone, laptop, List.mem_singleton] at hc hd
    exact hne (by rw [← hc, ← hd, heq])
  · simp only [phone, laptop, List.mem_singleton] at hc hd
    exact hne (by rw [← hc, ← hd, heq])
  · exact hkey rfl

theorem home_rejects :
    RejectsExactly "wg-mesh" homePlan.peers Peer.isLaptop homeWorld.faults := by
  have hparse : ∀ p ∈ homePlan.peers, (p.allowedIPs.mapM Net.parse).isNone = false := by decide
  have hfaults : ∀ p ∈ homePlan.peers,
      p.isLaptop = (laptopRejected (p.setCmd "wg-mesh")).isSome := by decide
  refine ⟨fun n p hp => ?_,fun _ => rfl,fun _ _ => rfl⟩
  rw [hparse p hp, Bool.or_false]
  exact hfaults p hp

theorem peers_converge_home :
    let after := (final (applyPlan wgMesh homePlan "key" homeWorld)).box.peers "wg-mesh"
    (∀ p ∈ [phone,laptop], p.isLaptop = false → Holds after p) ∧
      (∀ key ∈ after.keys, ∃ p ∈ [phone,laptop], p.publicKey = key) ∧
      ∀ p ∈ [phone,laptop], p.isLaptop = true → p.publicKey ∈ after.keys →
        p.publicKey ∈ (homeBox.peers "wg-mesh").keys := by
  obtain ⟨w₁,hup⟩ : ∃ w₁, bringUp wgMesh homePlan "key" homeWorld = .ok () w₁ := ⟨_,rfl⟩
  exact peers_converge (by decide) home_disjoint hup home_rejects

end JumpHost.Mesh
