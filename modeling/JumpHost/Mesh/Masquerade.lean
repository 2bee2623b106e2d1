import JumpHost.Library.Chain
import JumpHost.Mesh.MainTable
import JumpHost.Mesh.Removal

namespace JumpHost.Mesh

open Effect

section Leaving

variable {wide : Bool} {iface : String} {b b' : Box} {e : IptEntry} {s p : Net}

def IptEntry.leaving (wide : Bool) (iface : String) (e : IptEntry) : Bool :=
  e.table = .nat && e.chain = "POSTROUTING" && e.rule.outIface.elim wide (· == iface)

def Box.leaving (wide : Bool) (iface : String) (b : Box) : List IptEntry :=
  b.iptables.filter (IptEntry.leaving wide iface)

def IptRule.matchesSource (rule : IptRule Net) (src : Addr) : Bool := rule.source.all fun net => net.contains src

@[simp] theorem leaving_outbound : (outbound iface s p).leaving wide iface = true := by
  simp [IptEntry.leaving, outbound, postroutingNetmap]

@[simp] theorem leaving_masquerade : (masquerade iface p).leaving wide iface = true := by
  simp [IptEntry.leaving, masquerade, lanMasquerade]

@[simp] theorem leaving_inbound : (inbound iface s p).leaving wide iface = false := by
  simp [IptEntry.leaving, inbound]

theorem leaving_ensure_of_not (h : e.leaving wide iface = false) :
    (b.ensure e).leaving wide iface = b.leaving wide iface := by
  unfold Box.ensure
  split
  · rfl
  · simp [Box.leaving, h]

def ensureIn (e : IptEntry) (es : List IptEntry) : List IptEntry := if e ∈ es then es else es ++ [e]

theorem leaving_ensure (h : e.leaving wide iface = true) :
    (b.ensure e).leaving wide iface = ensureIn e (b.leaving wide iface) := by
  have hmem : e ∈ b.leaving wide iface ↔ e ∈ b.iptables := by
    rw [Box.leaving, List.mem_filter]
    exact and_iff_left h
  unfold Box.ensure ensureIn
  by_cases hold : e ∈ b.iptables
  · rw [if_pos hold, if_pos (hmem.mpr hold)]
  · rw [if_neg hold, if_neg fun hin => hold (hmem.mp hin)]
    simp [Box.leaving, h]

theorem leaving_netmap : (b.netmap iface s p).leaving wide iface =
    ensureIn (masquerade iface p) (ensureIn (outbound iface s p) (b.leaving wide iface)) := by
  have hclaim : ∀ b : Box, (b.claim s).leaving wide iface = b.leaving wide iface := fun b => by
    rw [Box.leaving, iptables_claim]
    rfl
  rw [Box.netmap, leaving_ensure leaving_masquerade, hclaim, leaving_ensure leaving_outbound,
    leaving_ensure_of_not leaving_inbound]

structure Shaped (iface : String) (es : List IptEntry) : Prop where
  only : ∀ e ∈ es, (∃ s p, e = outbound iface s p) ∨ ∃ p, e = masquerade iface p
  guarded : Chain.Guarded (fun e => ∃ p, e = masquerade iface p)
    (fun e e' => ∃ s p, e = masquerade iface p ∧ e' = outbound iface s p) es
  few : ∀ e, es.count e ≤ 33

theorem count_ensureIn {es : List IptEntry} {e' : IptEntry} (h : es.count e' ≤ 33) : (ensureIn e es).count e' ≤ 33 := by
  unfold ensureIn
  split
  · exact h
  · next hnew =>
    by_cases heq : e' = e
    · subst heq
      simp [List.count_eq_zero_of_not_mem hnew]
    · simpa [List.count_append, List.count_singleton, Ne.symm heq] using h

theorem mem_ensureIn {es : List IptEntry} {e' : IptEntry} : e' ∈ ensureIn e es ↔ e' ∈ es ∨ e' = e := by
  unfold ensureIn
  split
  · next h => exact ⟨.inl,fun hmem => hmem.elim id fun heq => heq ▸ h⟩
  · simp

theorem Shaped.ensureIn {es : List IptEntry} (h : Shaped iface es)
    (hkind : (∃ s p, e = outbound iface s p) ∨ ∃ p, e = masquerade iface p)
    (hguard : ∀ p, e = masquerade iface p → ∃ s, outbound iface s p ∈ es) : Shaped iface (ensureIn e es) where
  only e' he' := by
    rcases mem_ensureIn.mp he' with he' | rfl
    · exact h.only e' he'
    · exact hkind
  guarded := by
    unfold JumpHost.Mesh.ensureIn
    split
    · exact h.guarded
    · refine h.guarded.concat fun ⟨p,hp⟩ => ?_
      obtain ⟨s,hs⟩ := hguard p hp
      exact ⟨_,hs,s,p,hp,rfl⟩
  few e' := count_ensureIn (h.few e')

theorem shaped_netmap (h : Shaped iface (b.leaving wide iface)) :
    Shaped iface ((b.netmap iface s p).leaving wide iface) := by
  rw [leaving_netmap]
  refine (h.ensureIn (.inl ⟨s,p,rfl⟩) fun p' hp' => ?_).ensureIn (.inr ⟨p,rfl⟩) fun p' hp' => ?_
  · exact absurd hp' (Maps.ne_masquerade (.inr rfl) p')
  · obtain rfl : p = p' := by simpa [masquerade, lanMasquerade] using hp'
    exact ⟨s,mem_ensureIn.mpr (.inr rfl)⟩

theorem leaving_unmap (hb : Booked iface b) (h : Shaped iface (b.leaving wide iface)) :
    (b.unmap iface s p).leaving wide iface =
      (b.leaving wide iface).filter fun e => !(ownRules iface s p).contains e := by
  have hfew : ∀ e ∈ ownRules iface s p, b.iptables.count e ≤ 33 := by
    intro e he
    simp only [ownRules, List.mem_cons, List.not_mem_nil, or_false] at he
    rcases he with rfl | rfl | rfl
    · exact hb.few s p _ (.inl rfl)
    · exact hb.few s p _ (.inr rfl)
    · have hcount := h.few (masquerade iface p)
      rwa [Box.leaving, List.count_filter leaving_masquerade] at hcount
  rw [Box.leaving, iptables_unmap_few hfew, Box.leaving, List.filter_filter, List.filter_filter]
  exact List.filter_congr fun e _ => Bool.and_comm _ _

theorem shaped_unmap (hb : Booked iface b) (h : Shaped iface (b.leaving wide iface)) :
    Shaped iface ((b.unmap iface s p).leaving wide iface) := by
  rw [leaving_unmap hb h]
  refine ⟨fun e he => h.only e (List.mem_filter.mp he).1,h.guarded.filter fun e e' _ hR hkept => ?_,
    fun e => (List.filter_sublist.count_le e).trans (h.few e)⟩
  -- the NETMAP goes with the mapping only together with the masquerade it guards
  obtain ⟨s',p',rfl,rfl⟩ := hR
  simp only [ownRules, List.contains_cons, List.contains_nil, Bool.or_false, Bool.not_or, Bool.and_eq_true,
    Bool.not_eq_true', beq_eq_false_iff_ne, ne_eq] at hkept ⊢
  have hp : p' ≠ p := fun heq => hkept.2.2 (by rw [heq])
  refine ⟨fun heq => ?_,fun heq => hp ?_,Maps.ne_masquerade (.inr rfl) p⟩
  · simp [inbound, outbound] at heq
  · exact (Maps.unique (.inr rfl) (.inr heq)).2

theorem first_leaving {es : List IptEntry} {src : Addr} (h : Shaped iface es)
    (hfirst : es.find? (fun e => e.rule.matchesSource src) = some e) : ∃ s p, e = outbound iface s p := by
  have hmatch : ∀ e e', (∃ s p, e = masquerade iface p ∧ e' = outbound iface s p) →
      e.rule.matchesSource src = true → e'.rule.matchesSource src = true := by
    rintro _ _ ⟨s,p,rfl,rfl⟩ hsource
    exact hsource
  have hself : ∀ e e', (∃ s p, e = masquerade iface p ∧ e' = outbound iface s p) → ¬ ∃ p, e' = masquerade iface p := by
    rintro _ _ ⟨s,p,rfl,rfl⟩ ⟨p',hp'⟩
    exact Maps.ne_masquerade (.inr rfl) p' hp'
  exact (h.only e (List.mem_of_find?_eq_some hfirst)).resolve_right (h.guarded.find? hmatch hself hfirst)

end Leaving

section Uplink

variable {own : Bool} {wan : String} {b b' : Box} {c : Cmd} {rs : List Route} {r : Route}

def Route.isDefault (r : Route) : Bool := r.table = MAIN ∧ r.net = anywhere

def uplinkOf (rs : List Route) : Option String := (rs.find? Route.isDefault).map Route.dev

-- a default route without a metric goes before those with one
def Box.uplink (b : Box) : Option String := uplinkOf (b.routes ++ b.metered)

theorem uplink_eq (b : Box) : b.uplink = (uplinkOf b.routes).or (uplinkOf b.metered) := by
  rw [Box.uplink, uplinkOf, List.find?_append, uplinkOf, uplinkOf]
  cases b.routes.find? Route.isDefault <;> rfl

theorem uplinkOf_eq_none : uplinkOf rs = none ↔ ∀ r ∈ rs, r.isDefault = false := by
  rw [uplinkOf, Option.map_eq_none_iff, List.find?_eq_none]
  exact forall₂_congr fun r _ => iff_of_eq (Bool.not_eq_true _)

theorem uplinkOf_append {more : List Route} (h : uplinkOf rs = some wan) : uplinkOf (rs ++ more) = some wan := by
  obtain ⟨r,hr,hdev⟩ := Option.map_eq_some_iff.mp h
  rw [uplinkOf, List.find?_append, hr]
  exact congrArg some hdev

theorem uplinkOf_filter {keep : Route → Bool} (hkeep : ∀ r, r.dev = wan → keep r = true)
    (h : uplinkOf rs = some wan) : uplinkOf (rs.filter keep) = some wan := by
  obtain ⟨r,hr,hdev⟩ := Option.map_eq_some_iff.mp h
  obtain ⟨hdefault,before,after,hsplit,hbefore⟩ := List.find?_eq_some_iff_append.mp hr
  have hfound : (rs.filter keep).find? Route.isDefault = some r := by
    refine List.find?_eq_some_iff_append.mpr ⟨hdefault,before.filter keep,after.filter keep,?_,fun r' hr' => ?_⟩
    · rw [hsplit, List.filter_append, List.filter_cons_of_pos (hkeep r hdev)]
    · exact hbefore r' (List.mem_filter.mp hr').1
  rw [uplinkOf, hfound]
  exact congrArg some hdev

theorem uplinkOf_erase (hne : r.dev ≠ wan ∨ r.table ≠ MAIN) (h : uplinkOf rs = some wan) :
    uplinkOf (rs.erase r) = some wan := by
  obtain ⟨d,hd,hdev⟩ := Option.map_eq_some_iff.mp h
  obtain ⟨hdefault,before,after,hsplit,hbefore⟩ := List.find?_eq_some_iff_append.mp hd
  have hother : d ≠ r := by
    rintro rfl
    rw [Route.isDefault, decide_eq_true_eq] at hdefault
    exact hne.elim (fun hne => hne hdev) fun hne => hne hdefault.1
  have hfound : (rs.erase r).find? Route.isDefault = some d := by
    rw [hsplit]
    by_cases hr : r ∈ before
    · rw [List.erase_append_left _ hr]
      exact List.find?_eq_some_iff_append.mpr ⟨hdefault,_,_,rfl,fun r' hr' => hbefore r' (List.mem_of_mem_erase hr')⟩
    · rw [List.erase_append_right _ hr, List.erase_cons_tail (by simpa using hother)]
      exact List.find?_eq_some_iff_append.mpr ⟨hdefault,_,_,rfl,hbefore⟩
  rw [uplinkOf, hfound]
  exact congrArg some hdev

theorem isDefault_ownRoutes {dev cidr : String} (h : r ∈ Box.ownRoutes dev cidr) : r.isDefault = false := by
  unfold Box.ownRoutes at h
  split at h
  · cases h
  · next address net _ =>
    rcases List.mem_cons.mp h with rfl | h
    · simp [Route.isDefault, LOCAL, MAIN]
    · split at h
      · cases h
      · next hnet =>
        obtain rfl := List.mem_singleton.mp h
        have hne : net ≠ anywhere := by
          rintro rfl
          exact hnet (.inr rfl)
        simp [Route.isDefault, hne]

structure Led (own : Bool) (wan : String) (b : Box) : Prop where
  routes : uplinkOf b.routes = if own then some wan else none
  metered : own = false → uplinkOf b.metered = some wan

theorem Led.uplink (h : Led own wan b) : b.uplink = some wan := by
  rw [uplink_eq, h.routes]
  cases own with
  | true => rfl
  | false => exact h.metered rfl

theorem led_of_uplink (h : b.uplink = some wan) : Led (uplinkOf b.routes).isSome wan b := by
  rw [uplink_eq] at h
  cases hroutes : uplinkOf b.routes with
  | some d =>
    rw [hroutes] at h
    exact ⟨hroutes.trans h,nofun⟩
  | none =>
    rw [hroutes] at h
    exact ⟨hroutes,fun _ => h⟩

def Cmd.sparesUplink (own : Bool) (wan : String) : Cmd → Prop
  | .linkDel d | .addrDel _ d | .routeDel _ d => d ≠ wan
  | .routeAdd cidr _ => own = true ∨ Net.parse cidr ≠ some anywhere
  | .routeReplaceDefault _ _ | .routeFlush _ => False
  | _ => True

theorem uplinkOf_step (hc : c.sparesUplink true wan) (h : b.step c = .ok b') (hb : uplinkOf b.routes = some wan) :
    uplinkOf b'.routes = some wan := by
  cases routes_change h with
  | same hb' => rwa [hb']
  | unlinked dev hc' hb' =>
    subst hc'
    refine hb' ▸ uplinkOf_filter (fun r hr => ?_) hb
    rw [bne_iff_ne, hr]
    exact Ne.symm hc
  | own dev routes _ _ hb' => exact hb' ▸ uplinkOf_append hb
  | disowned cidr dev kept hc' _ hb' =>
    subst hc'
    refine hb' ▸ uplinkOf_filter (fun r hr => ?_) hb
    have hforeign : r ∉ Box.ownRoutes dev cidr := fun hown => hc ((dev_ownRoutes hown).symm.trans hr)
    have hother : r.dev ≠ dev := fun heq => hc (heq.symm.trans hr)
    simp [hforeign, Box.strippedOf, hother]
  | added cidr dev net _ _ hb' => exact (addRoute_ok hb').2 ▸ uplinkOf_append hb
  | deleted cidr dev net hc' _ hb' =>
    subst hc'
    exact delRoute_ok hb' ▸ uplinkOf_erase (.inl hc) hb
  | claimed net hb' => exact (addRoute_ok hb').2 ▸ uplinkOf_append hb
  | unclaimed net hb' => exact delRoute_ok hb' ▸ uplinkOf_erase (.inr (show LOCAL ≠ MAIN by decide)) hb
  | default dev t hc' _ _ =>
    subst hc'
    exact hc.elim
  | flushed t hc' _ _ =>
    subst hc'
    exact hc.elim

theorem noDefault_step (hc : c.sparesUplink false wan) (h : b.step c = .ok b')
    (hb : ∀ r ∈ b.routes, r.isDefault = false) : ∀ r ∈ b'.routes, r.isDefault = false := by
  intro r hr
  cases routes_change h with
  | same hb' => exact hb r (hb' ▸ hr)
  | unlinked _ _ hb' | disowned _ _ _ _ _ hb' | flushed _ _ _ hb' =>
    rw [hb'] at hr
    exact hb r (List.mem_filter.mp hr).1
  | own dev routes _ hown hb' =>
    rw [hb'] at hr
    rcases List.mem_append.mp hr with hold | hnew
    · exact hb r hold
    · obtain ⟨cidr,-,hown⟩ := hown r (List.mem_filter.mp hnew).1
      exact isDefault_ownRoutes hown
  | added cidr dev net hc' hnet hb' =>
    subst hc'
    rw [(addRoute_ok hb').2] at hr
    rcases List.mem_append.mp hr with hold | hnew
    · exact hb r hold
    · obtain rfl := List.mem_singleton.mp hnew
      have hne : net ≠ anywhere := fun heq => hc.elim nofun fun hother => hother (hnet.trans (congrArg some heq))
      simp [Route.isDefault, hne]
  | deleted _ _ _ _ _ hb' | unclaimed _ hb' => exact hb r (List.mem_of_mem_erase (delRoute_ok hb' ▸ hr))
  | claimed net hb' =>
    rw [(addRoute_ok hb').2] at hr
    rcases List.mem_append.mp hr with hold | hnew
    · exact hb r hold
    · obtain rfl := List.mem_singleton.mp hnew
      simp [Route.isDefault, LOCAL, MAIN]
  | default dev t hc' _ _ =>
    subst hc'
    exact hc.elim

theorem stable_led (own : Bool) (wan : String) : Stable (fun w => Led own wan w.box) (Cmd.sparesUplink own wan) := by
  refine stable_box (I := fun b => Led own wan b) fun b c b' hc h hb => ⟨?_,fun hmetered => ?_⟩
  · cases own with
    | true => exact uplinkOf_step hc h hb.routes
    | false => exact uplinkOf_eq_none.mpr (noDefault_step hc h (uplinkOf_eq_none.mp hb.routes))
  · obtain ⟨keep,hkept,hdrops⟩ := metered_step h
    refine hkept ▸ uplinkOf_filter (fun r hr => ?_) (hb.metered hmetered)
    by_contra hgone
    rcases hdrops r (Bool.eq_false_of_not_eq_true hgone) with rfl | ⟨cidr,rfl⟩ | rfl
    · exact hc hr
    · exact hc hr
    · exact hc

end Uplink

section Passes

variable {wide own : Bool} {conf : MeshConf} {wan : String} {w w₁ w' : World} {b b' : Box}

def Cmd.sparesLeaving (iface : String) : Cmd → Prop
  | .iptables _ table _ rule => table = .nat → ∃ d, rule.outIface = some d ∧ d ≠ iface
  | _ => True

theorem parse_outIface {rule : IptRule String} {rule' : IptRule Net} (h : rule.parse = some rule') :
    rule'.outIface = rule.outIface := by
  unfold IptRule.parse at h
  simp only [Option.bind_eq_bind, Option.bind_eq_some_iff, Option.some.injEq] at h
  obtain ⟨_,-,_,-,_,-,rfl⟩ := h
  rfl

theorem leaving_step {iface : String} {c : Cmd} (hc : c.sparesLeaving iface) (h : b.step c = .ok b') :
    b'.leaving wide iface = b.leaving wide iface := by
  by_cases hw : .iptables ∈ c.writes
  · cases c <;> simp [Cmd.writes] at hw
    case iptables op table chain rule =>
      simp only [Box.step, Box.iptablesOp] at h
      cases hparse : rule.parse with
      | none => simp [hparse, Box.refuse] at h
      | some rule' =>
        have hentry : IptEntry.leaving wide iface ⟨table,chain,rule'⟩ = false := by
          cases table with
          | filter => rfl
          | nat =>
            obtain ⟨d,hout,hd⟩ := hc rfl
            simp [IptEntry.leaving, parse_outIface hparse, hout, hd]
        simp only [hparse] at h
        cases op with
        | append =>
          cases h
          simp [Box.leaving, hentry]
        | insert =>
          cases h
          rw [Box.leaving, List.filter_cons_of_neg (by simp [hentry])]
          rfl
        | check =>
          simp only at h
          split at h <;> cases h
          rfl
        | delete =>
          simp only at h
          split at h <;> cases h
          exact filter_erase hentry
  · rw [Box.leaving, (sameBut_step h).iptables hw]
    rfl

theorem stable_leaving (iface : String) (es : List IptEntry) :
    Stable (fun w => w.box.leaving wide iface = es) (Cmd.sparesLeaving iface) :=
  stable_box (I := fun b => b.leaving wide iface = es) fun _ _ _ hc h hb => (leaving_step hc h).trans hb

theorem forwarding_leaves {wan iface : String} (hwan : wan ≠ iface) {entry : Table × String × IptRule String}
    (h : entry ∈ forwardingRules wan [iface]) (htable : entry.1 = .nat) :
    ∃ d, entry.2.2.outIface = some d ∧ d ≠ iface := by
  simp only [forwardingRules, List.mem_cons, List.mem_flatMap, List.mem_map, List.not_mem_nil, or_false] at h
  rcases h with rfl | ⟨tun,-,rfl | rfl | ⟨other,-,rfl⟩⟩
  · exact ⟨wan,rfl,hwan⟩
  all_goals cases htable

structure Uplinked (conf : MeshConf) (b : Box) : Prop where
  uplink : ∃ wan, b.uplink = some wan ∧ wan ≠ conf.IFACE ∧ wan ∈ b.links.keys

def Via (own : Bool) (wan : String) (w : World) : Prop := Led own wan w.box ∧ wan ∈ w.box.links.keys

theorem stable_via (own : Bool) (wan : String) : Stable (Via own wan) (Cmd.sparesUplink own wan) := by
  refine ((stable_led own wan).both (stable_link wan)).mono fun c hc => ⟨hc,?_⟩
  rintro rfl
  exact hc rfl

theorem keeps_probe_via {P : World → Prop} {C : Cmd → Prop} (h : Stable P C) (hadd : ∀ d, C (.linkAdd d))
    (hdel : ∀ d, d ≠ wan → C (.linkDel d)) (hP : ∀ w, P w → wan ∈ w.box.links.keys) (name : String) :
    Keeps P (probeKernel name) := by
  by_cases hname : name = wan
  · subst hname
    intro w hw
    have hkept : P (w.issue (.linkAdd name)).2 := h.issue w _ (.inr (hadd name)) hw
    obtain ⟨res,v,hrun,-,hres⟩ := tryRun_cases (.linkAdd name) w
    have hv : P v := by
      rw [tryRun] at hrun
      cases hrun
      exact hkept
    rcases hres with ⟨-,failed,rfl⟩ | ⟨-,-,hstep⟩
    · unfold probeKernel
      rw [bind_of_ok hrun]
      exact hv
    · have hhas : w.box.links.has name = true := OrdMap.has_iff.mpr (hP w hw)
      rw [Box.step, Box.linkAdd, if_pos hhas] at hstep
      cases hstep
  · exact keeps_probeKernel h (hadd name) (hdel name hname)

theorem detectWan_ok (hw : Calm w) : detectWanInterface w = .ok w.box.uplink w := by
  have hread : w.box.step .routeShowDefault = .ok w.box := rfl
  unfold detectWanInterface query
  rw [bind_apply, bind_of_ok (tryRun_quiet hw.quiet hread)]
  rfl

def Plan.Inward (plan : Plan) : Prop := ∀ cidr ∈ plan.routed, Net.parse cidr ≠ some anywhere

theorem ofMesh_sparesUplink {plan : Plan} (hwan : wan ≠ conf.IFACE) (hroutes : own = true ∨ plan.Inward) (c : Cmd)
    (hc : c.ofMesh conf.IFACE plan.peers) (honly : c.routesOnly plan.routed) : c.sparesUplink own wan := by
  cases c <;> simp_all [Cmd.ofMesh, Cmd.sparesUplink, eq_comm]
  case routeAdd cidr d => exact hroutes.imp_right fun hinward => hinward cidr honly

theorem via_applyPlan {plan : Plan} {privateKey : String} (hwan : wan ≠ conf.IFACE)
    (hroutes : own = true ∨ plan.Inward) : Keeps (Via own wan) (applyPlan conf plan privateKey) := by
  refine keeps_applyPlan_routed (stable_via own wan) (ofMesh_sparesUplink hwan hroutes) (fun c hc => ?_)
    (fun pid => keeps_probe_via (stable_via own wan) (fun _ => trivial) (fun _ hd => hd) (fun _ hw => hw.2) _)
    privateKey
  cases c <;> first | exact trivial | exact hc.elim

theorem leaving_beforeNetmaps {plan : Plan} {privateKey : String} (hwan : wan ≠ conf.IFACE)
    (hroutes : own = true ∨ plan.Inward) (es : List IptEntry) :
    Keeps (fun w => Calm w ∧ Via own wan w ∧ w.box.leaving wide conf.IFACE = es)
      (beforeNetmaps conf plan privateKey) := by
  have hleaving : Stable (fun w => w.box.leaving wide conf.IFACE = es) (Cmd.sparesLeaving conf.IFACE) :=
    stable_leaving conf.IFACE es
  have hstable := (stable_calm fun _ => True).both ((stable_via own wan).both hleaving)
  refine keeps_beforeNetmaps_of (hstable.mono fun c hc => ?_)
    (fun pid => keeps_probe_via hstable (fun _ => ⟨trivial,trivial,trivial⟩) (fun _ hd => ⟨trivial,hd,trivial⟩)
      (fun _ hw => hw.2.1.2) _) (fun v found v' failed hv hdetect => ?_) privateKey
  · refine ⟨trivial,ofMesh_sparesUplink hwan hroutes c (ofMesh_of_ofLinks c hc.1) hc.2,?_⟩
    cases c <;> first | exact trivial | exact hc.1.elim
  · have huplink : v.box.uplink = some wan := hv.2.1.1.uplink
    rw [detectWan_ok hv.1, huplink] at hdetect
    cases hdetect
    refine keeps_noting (keeps_applyForwarding hstable fun uplink huplink entry hentry op _ => ?_) _ _
    obtain rfl : wan = uplink := by
      unfold firstTruthy at huplink
      split at huplink
      · exact Option.some.inj huplink
      · cases huplink
    exact ⟨trivial,trivial,forwarding_leaves hwan hentry⟩

theorem shaped_pass {pass : Pass} (hwan : wan ≠ conf.IFACE) (hroutes : own = true ∨ pass.plan.Inward)
    (hblocks : ∀ m ∈ pass.plan.netmaps, m.blocks.isSome) (hw : Calm w) (hb : Booked conf.IFACE w.box)
    (hup : Via own wan w) (hs : Shaped conf.IFACE (w.box.leaving wide conf.IFACE)) (h : passStep conf w pass = some w') :
    Via own wan w' ∧ Shaped conf.IFACE (w'.box.leaving wide conf.IFACE) := by
  unfold passStep at h
  split at h
  · next applied v happly =>
    cases h
    refine ⟨(via_applyPlan hwan hroutes).of_ok happly hup,?_⟩
    rw [applyPlan_eq] at happly
    obtain ⟨done,w₁,hbefore,happly⟩ := bind_ok happly
    obtain ⟨hw₁,-,hleaving⟩ := (leaving_beforeNetmaps hwan hroutes _).of_ok hbefore ⟨hw,hup,rfl⟩
    have hb₁ := (keeps_beforeNetmaps (stable_booked w.box.applied conf.IFACE _)
      (fun _ => probe_booked _) pass.privateKey).of_ok hbefore ⟨hb,rfl⟩
    obtain ⟨failed,w₂,hmaps,happly⟩ := bind_ok happly
    cases happly
    refine applyNetmaps_keeps (I := fun b => Shaped conf.IFACE (b.leaving wide conf.IFACE))
      (fun b s p member hI => ?_) (fun b s p member hbooked hI => ?_)
      (fun m hm => Netmap.stated_of_blocks (hblocks m hm)) hw₁ hb₁.1 (hleaving ▸ hs) hmaps
    · rw [Box.leaving, iptables_record]
      exact shaped_netmap hI
    · exact shaped_unmap hbooked hI
  · cases h

structure Unmapped (wide : Bool) (conf : MeshConf) (b : Box) : Prop where
  nat : ∀ e ∈ b.iptables, e.table = .nat →
    e.rule.inIface ≠ some conf.IFACE ∧ e.rule.outIface ≠ some conf.IFACE
  leaving : b.leaving wide conf.IFACE = []
  written : ∀ member ∈ b.applied, Written member

theorem Unmapped.booked (h : Unmapped wide conf b) : Booked conf.IFACE b :=
  booked_of_none h.written fun _ _ _ hmaps => not_mem_of_nat h.nat hmaps

theorem Unmapped.shaped (h : Unmapped wide conf b) : Shaped conf.IFACE (b.leaving wide conf.IFACE) := by
  rw [h.leaving]
  exact ⟨fun e he => absurd he List.not_mem_nil,Chain.guarded_nil,fun e => Nat.zero_le 33⟩

theorem first_is_shadow {passes : List Pass} {last : Pass} (hcalm : Calm w) (hstart : Unmapped wide conf w.box)
    (huplinked : Uplinked conf w.box)
    (hroutes : (uplinkOf w.box.routes).isSome = true ∨ ∀ pass ∈ passes ++ [last], pass.plan.Inward)
    (hblocks : ∀ pass ∈ passes ++ [last], ∀ m ∈ pass.plan.netmaps, m.blocks.isSome)
    (h₁ : Run.exec (passStep conf) w passes = some w₁) (h : passStep conf w₁ last = some w') (src : Addr)
    (e : IptEntry) (hfirst : (w'.box.leaving wide conf.IFACE).find? (fun e => e.rule.matchesSource src) = some e) :
    (∃ m ∈ last.plan.netmaps, ∃ s p, m.blocks = some (s,p) ∧ e = outbound conf.IFACE s p) ∧
      ∀ p, e ≠ masquerade conf.IFACE p := by
  obtain ⟨wan,huplink,hwan,hlink⟩ := huplinked.uplink
  have hled := led_of_uplink huplink
  generalize (uplinkOf w.box.routes).isSome = own at hroutes hled
  have hroutes' : ∀ pass ∈ passes ++ [last], own = true ∨ pass.plan.Inward :=
    fun pass hpass => hroutes.imp_right fun hinward => hinward pass hpass
  have hrun : Calm w₁ ∧ Booked conf.IFACE w₁.box ∧ Via own wan w₁ ∧
      Shaped conf.IFACE (w₁.box.leaving wide conf.IFACE) := by
    refine Run.invariant_of_mem (P := fun v => Calm v ∧ Booked conf.IFACE v.box ∧ Via own wan v ∧
      Shaped conf.IFACE (v.box.leaving wide conf.IFACE)) (fun v pass v' hv hpass hstep => ?_)
      ⟨hcalm,hstart.booked,⟨hled,hlink⟩,hstart.shaped⟩ h₁
    obtain ⟨hv,hb,hup,hs⟩ := hv
    have hmem := List.mem_append_left [last] hpass
    obtain ⟨hv',hb',-,-⟩ := passStep_ok hstep (hblocks pass hmem) hv hb
    exact ⟨hv',hb',shaped_pass hwan (hroutes' pass hmem) (hblocks pass hmem) hv hb hup hs hstep⟩
  obtain ⟨hw₁,hb₁,hup₁,hs₁⟩ := hrun
  have hlast := hblocks last (by simp)
  obtain ⟨-,hb,hleft,-⟩ := passStep_ok h hlast hw₁ hb₁
  obtain ⟨-,hs⟩ := shaped_pass hwan (hroutes' last (by simp)) hlast hw₁ hb₁ hup₁ hs₁ h
  obtain ⟨s,p,rfl⟩ := first_leaving hs hfirst
  refine ⟨?_,Maps.ne_masquerade (.inr rfl)⟩
  by_contra hnone
  have hother : ∀ m ∈ last.plan.netmaps, m.blocks ≠ some (s,p) := fun m hm hsp => hnone ⟨m,hm,s,p,hsp,rfl⟩
  have hmem : outbound conf.IFACE s p ∈ w'.box.iptables := (List.mem_filter.mp (List.mem_of_find?_eq_some hfirst)).1
  exact others_absent hlast hb hleft hother (.inr rfl) hmem

end Passes

section TwoLans

def leased : World where
  box := { links := OrdMap.empty.set "eth0" { up := true }, metered := [⟨MAIN,anywhere,"eth0"⟩] }
  faults _ _ := none

theorem leased_calm : Calm leased := ⟨rfl,nofun⟩

theorem leased_unmapped : Unmapped true wgMesh leased.box :=
  ⟨fun _ he => absurd he List.not_mem_nil,rfl,fun _ hmem => absurd hmem List.not_mem_nil⟩

theorem leased_uplinked : Uplinked wgMesh leased.box := ⟨"eth0",by decide +kernel,by decide,by decide⟩

theorem first_is_shadow_lan : ∃ src w₁ w' e, Text.addr "172.16.0.7".toList = some src ∧
    Run.exec (passStep wgMesh) leased [oneLan] = some w₁ ∧ passStep wgMesh w₁ otherLan = some w' ∧
    (w'.box.leaving true "wg-mesh").find? (fun e => e.rule.matchesSource src) = some e ∧
    (∃ m ∈ otherLan.plan.netmaps, ∃ s p, m.blocks = some (s,p) ∧ e = outbound "wg-mesh" s p) ∧
    ∀ p, e ≠ masquerade "wg-mesh" p := by
  have hrun : (Text.addr "172.16.0.7".toList).any (fun src => (Run.exec (passStep wgMesh) leased [oneLan]).any fun w₁ =>
      (passStep wgMesh w₁ otherLan).any fun w' =>
        ((w'.box.leaving true "wg-mesh").find? fun e => e.rule.matchesSource src).isSome) = true := by
    decide +kernel
  obtain ⟨src,hsrc,hrun⟩ := (Option.any_eq_true _ _).mp hrun
  obtain ⟨w₁,h₁,hrun⟩ := (Option.any_eq_true _ _).mp hrun
  obtain ⟨w',h,hrun⟩ := (Option.any_eq_true _ _).mp hrun
  obtain ⟨e,hfirst⟩ := Option.isSome_iff_exists.mp hrun
  have hinward : ∀ pass ∈ [oneLan] ++ [otherLan], ∀ cidr ∈ pass.plan.routed, Net.parse cidr ≠ some anywhere := by
    decide +kernel
  have hblocks : ∀ pass ∈ [oneLan] ++ [otherLan], ∀ m ∈ pass.plan.netmaps, m.blocks.isSome :=
    fun pass hpass => lan_blocks pass (List.mem_append_left [movedLan] hpass)
  exact ⟨src,w₁,w',e,hsrc,h₁,h,hfirst,
    first_is_shadow leased_calm leased_unmapped leased_uplinked (.inr hinward) hblocks h₁ h src e hfirst⟩

def openLan : Pass where
  plan := { oneLan.plan with
    peers := [{
      kind := .site
      label := "exit"
      publicKey := "exit"
      endpoint := ""
      allowedIPs := ["0.0.0.0/0"]
      keepalive := 0
      exitSiteId := .null }] }
  privateKey := "key"

theorem masquerade_first : Calm leased ∧ Unmapped true wgMesh leased.box ∧ Uplinked wgMesh leased.box ∧
    (∀ m ∈ openLan.plan.netmaps, m.blocks.isSome = true) ∧ ∃ src w' e, Text.addr "192.168.1.7".toList = some src ∧
      passStep wgMesh leased openLan = some w' ∧ w'.box.uplink = some "wg-mesh" ∧
      (w'.box.leaving true "wg-mesh").find? (fun e => e.rule.matchesSource src) = some e ∧
      ∀ s p, e ≠ outbound "wg-mesh" s p := by
  refine ⟨leased_calm,leased_unmapped,leased_uplinked,by decide +kernel,?_⟩
  have hrun : (Text.addr "192.168.1.7".toList).any (fun src => (passStep wgMesh leased openLan).any fun w' =>
      decide (w'.box.uplink = some "wg-mesh") &&
      ((w'.box.leaving true "wg-mesh").find? fun e => e.rule.matchesSource src).any fun e =>
        e.rule.target == .MASQUERADE) = true := by
    decide +kernel
  obtain ⟨src,hsrc,hrun⟩ := (Option.any_eq_true _ _).mp hrun
  obtain ⟨w',h,hrun⟩ := (Option.any_eq_true _ _).mp hrun
  obtain ⟨huplink,hrun⟩ := Bool.and_eq_true_iff.mp hrun
  obtain ⟨e,hfirst,htarget⟩ := (Option.any_eq_true _ _).mp hrun
  refine ⟨src,w',e,hsrc,h,of_decide_eq_true huplink,hfirst,?_⟩
  rintro s p rfl
  simp [outbound, postroutingNetmap] at htarget

end TwoLans

end JumpHost.Mesh
