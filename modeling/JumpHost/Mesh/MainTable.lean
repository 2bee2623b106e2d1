import JumpHost.Mesh.ExitLinks

namespace JumpHost.Mesh

open Effect

section Main

variable {b b' : Box} {c : Cmd} {d : String} {net : Net} {r : Route}

def mainRoute (d : String) (net : Net) : Route := ⟨MAIN,net,d⟩

def Connected (d : String) (addrs : List String) (net : Net) : Prop :=
  mainRoute d net ∈ addrs.flatMap (Box.ownRoutes d)

instance (d : String) (addrs : List String) (net : Net) : Decidable (Connected d addrs net) :=
  inferInstanceAs (Decidable (_ ∈ _))

theorem connected_iff {addrs : List String} :
    Connected d addrs net ↔ ∃ cidr ∈ addrs, mainRoute d net ∈ Box.ownRoutes d cidr := by
  rw [Connected, List.mem_flatMap]

theorem dev_ownRoutes {dev cidr : String} (h : r ∈ Box.ownRoutes dev cidr) : r.dev = dev := by
  unfold Box.ownRoutes at h
  split at h
  · cases h
  · next address net' _ =>
    rcases List.mem_cons.mp h with rfl | h
    · rfl
    · split at h
      · cases h
      · obtain rfl := List.mem_singleton.mp h
        rfl

theorem addrs_set {dev : String} {link link' : Link} (hlink : b.links.get? dev = some link)
    (hb : b'.links = b.links.set dev link') (haddrs : link'.addrs = link.addrs) :
    b'.addrs d = b.addrs d := by
  by_cases hd : d = dev
  · subst hd
    simp [Box.addrs, hb, OrdMap.get?_set_self, hlink, haddrs]
  · simp [Box.addrs, hb, OrdMap.get?_set_of_ne _ hd]

theorem addrs_new {dev : String} (hdev : b.links.has dev = false) (hb : b'.links = b.links.set dev {}) :
    b'.addrs d = b.addrs d := by
  by_cases hd : d = dev
  · subst hd
    have hnone : b.links.get? d = none := by
      rw [OrdMap.get?_eq_none_iff, ← OrdMap.has_iff, hdev]
      exact Bool.false_ne_true
    simp [Box.addrs, hb, OrdMap.get?_set_self, hnone]
  · simp [Box.addrs, hb, OrdMap.get?_set_of_ne _ hd]

inductive AddrsStep (d : String) (c : Cmd) (b b' : Box) : Prop where
  | same (h : b'.addrs d = b.addrs d)
  | added (cidr : String) (hc : c = .addrAdd cidr d) (h : b'.addrs d = b.addrs d ++ [cidr])
  | removed (cidr : String) (hc : c = .addrDel cidr d) (h : b'.addrs d = (b.addrs d).filter (· != cidr))
  | gone (hc : c = .linkDel d) (h : b'.addrs d = [])

theorem addrs_step (d : String) (h : b.step c = .ok b') : AddrsStep d c b b' := by
  cases links_change h with
  | same h => exact .same (by rw [Box.addrs, h, Box.addrs])
  | new dev _ hdev h => exact .same (addrs_new hdev h)
  | gone dev hc h =>
    by_cases hd : d = dev
    · subst hd
      have hgone : (b.links.delete d).get? d = none := by
        rw [OrdMap.get?_eq_none_iff, OrdMap.mem_keys_delete]
        exact fun hmem => hmem.2 rfl
      exact .gone hc (by simp [Box.addrs, h, hgone])
    · exact .same (by simp [Box.addrs, h, OrdMap.get?_delete_of_ne hd])
  | edit dev link link' hlink hedit h =>
    by_cases hd : d = dev
    · subst hd
      cases hedit with
      | up | key | setPeer | removePeer => exact .same (addrs_set hlink h rfl)
      | addrAdd cidr hc => exact .added cidr hc (by simp [Box.addrs, h, OrdMap.get?_set_self, hlink])
      | addrDel cidr hc => exact .removed cidr hc (by simp [Box.addrs, h, OrdMap.get?_set_self, hlink])
    · exact .same (by simp [Box.addrs, h, OrdMap.get?_set_of_ne _ hd])

inductive MainStep (d : String) (net : Net) (c : Cmd) (b b' : Box) : Prop where
  | fewer (h : b'.routes.count (mainRoute d net) ≤ b.routes.count (mainRoute d net))
  | own (hc : c = .linkUp d ∨ ∃ cidr, c = .addrAdd cidr d) (h : Connected d (b'.addrs d) net)
  | added (cidr : String) (hc : c = .routeAdd cidr d) (hnet : Net.parse cidr = some net)
      (h : b'.routes.count (mainRoute d net) ≤ 1)
  | default (table : Num) (hc : c = .routeReplaceDefault d table)

theorem mainStep_addRoutes {routes : List Route} (hb : b'.routes = (b.addRoutes routes).routes)
    (h : mainRoute d net ∈ routes →
      (c = .linkUp d ∨ ∃ cidr, c = .addrAdd cidr d) ∧ Connected d (b'.addrs d) net) :
    MainStep d net c b b' := by
  by_cases hmem : mainRoute d net ∈ routes
  · exact .own (h hmem).1 (h hmem).2
  · have hnew : mainRoute d net ∉ routes.filter fun r => !b.routes.contains r :=
      fun hin => hmem (List.mem_filter.mp hin).1
    refine .fewer ?_
    rw [hb, Box.addRoutes, List.count_append, List.count_eq_zero_of_not_mem hnew]
    exact Nat.le_refl _

theorem mainStep_sublist (h : b'.routes.Sublist b.routes) : MainStep d net c b b' := .fewer (h.count_le _)

theorem count_other {x : Route} (rs : List Route) (h : r ≠ x) : (rs ++ [x]).count r = rs.count r := by
  rw [List.count_append, List.count_eq_zero_of_not_mem fun hmem => h (List.mem_singleton.mp hmem), Nat.add_zero]

theorem main_step (d : String) (net : Net) (h : b.step c = .ok b') : MainStep d net c b b' := by
  have hlocal : ∀ net', mainRoute d net ≠ ⟨LOCAL, net',"lo"⟩ := fun _ => by simp [mainRoute, MAIN, LOCAL]
  cases routes_change h with
  | same h => exact .fewer (by rw [h])
  | unlinked dev _ h => exact mainStep_sublist (h ▸ List.filter_sublist)
  | own dev routes hc hown h =>
    refine mainStep_addRoutes h fun hmem => ?_
    obtain ⟨cidr,hcidr,hroute⟩ := hown _ hmem
    obtain rfl : d = dev := dev_ownRoutes hroute
    exact ⟨hc,connected_iff.mpr ⟨cidr,hcidr,hroute⟩⟩
  | disowned cidr dev kept _ _ h => exact mainStep_sublist (h ▸ List.filter_sublist)
  | added cidr dev net' hc hparse h =>
    obtain ⟨hfree,hroutes⟩ := addRoute_ok h
    by_cases heq : mainRoute d net = ⟨MAIN,net',dev⟩
    · obtain ⟨-,rfl,rfl⟩ : MAIN = MAIN ∧ net = net' ∧ d = dev := by simpa [mainRoute] using heq
      refine .added cidr hc hparse ?_
      have hnot : mainRoute d net ∉ b.routes := fun hmem => hfree _ hmem rfl rfl
      rw [hroutes, List.count_append, List.count_eq_zero_of_not_mem hnot, heq]
      simp
    · exact .fewer (by rw [hroutes, count_other _ heq])
  | deleted cidr dev net' _ _ h => exact mainStep_sublist (delRoute_ok h ▸ List.erase_sublist)
  | claimed net' h => exact .fewer (by rw [(addRoute_ok h).2, count_other _ (hlocal net')])
  | unclaimed net' h => exact mainStep_sublist (delRoute_ok h ▸ List.erase_sublist)
  | default dev t hc _ h =>
    by_cases hd : dev = d
    · exact .default _ (hd ▸ hc)
    · have hother : mainRoute d net ≠ ⟨t,anywhere,dev⟩ := fun heq => hd (congrArg Route.dev heq).symm
      exact .fewer (by rw [h, count_other _ hother]; exact List.filter_sublist.count_le _)
  | flushed t _ _ h => exact mainStep_sublist (h ▸ List.filter_sublist)

inductive MainGone (d : String) (net : Net) (b b' : Box) (c : Cmd) : Prop where
  | link (hc : c = .linkDel d)
  | deleted (cidr : String) (hc : c = .routeDel cidr d) (hnet : Net.parse cidr = some net)
  | address (cidr : String) (hc : c = .addrDel cidr d) (h : Connected d (b.addrs d) net)
  | stripped (cidr : String) (hc : c = .addrDel cidr d) (hfamily : net.family = .v4)
      (h : Box.stripped cidr (b'.addrs d) = true)
  | flushed (hc : c = .routeFlush (.int MAIN))
  | default (dev : String) (hc : c = .routeReplaceDefault dev (.int MAIN))

theorem main_gone (h : b.step c = .ok b') (hr : mainRoute d net ∈ b.routes)
    (hgone : mainRoute d net ∉ b'.routes) : MainGone d net b b' c := by
  cases routes_change h with
  | same h => exact absurd (h ▸ hr) hgone
  | unlinked dev hc h =>
    by_cases hd : d = dev
    · exact .link (hd ▸ hc)
    · exact absurd (h ▸ List.mem_filter.mpr ⟨hr,by simpa [mainRoute] using hd⟩) hgone
  | own dev routes _ _ h => exact absurd (h ▸ List.mem_append_left _ hr) hgone
  | disowned cidr dev kept hc hcidr h =>
    by_cases hown : mainRoute d net ∈ Box.ownRoutes dev cidr
    · obtain rfl : d = dev := dev_ownRoutes hown
      exact .address cidr hc (connected_iff.mpr ⟨cidr,hcidr,hown⟩)
    · have hstripped : (Box.stripped cidr (b'.addrs dev) && Box.strippedOf dev (mainRoute d net)) = true := by
        by_contra hnot
        exact hgone (h ▸ List.mem_filter.mpr ⟨hr,by simp [hown, hnot]⟩)
      simp only [Bool.and_eq_true, Box.strippedOf, beq_iff_eq] at hstripped
      obtain ⟨hbare,rfl,hfamily⟩ := hstripped
      exact .stripped cidr hc hfamily hbare
  | added cidr dev net' _ _ h => exact absurd ((addRoute_ok h).2 ▸ List.mem_append_left _ hr) hgone
  | deleted cidr dev net' hc hparse h =>
    rw [delRoute_ok h] at hgone
    by_cases heq : mainRoute d net = ⟨MAIN,net',dev⟩
    · obtain ⟨-,rfl,rfl⟩ : MAIN = MAIN ∧ net = net' ∧ d = dev := by simpa [mainRoute] using heq
      exact .deleted cidr hc hparse
    · exact absurd ((List.mem_erase_of_ne heq).mpr hr) hgone
  | claimed net' h => exact absurd ((addRoute_ok h).2 ▸ List.mem_append_left _ hr) hgone
  | unclaimed net' h =>
    rw [delRoute_ok h] at hgone
    have hlocal : mainRoute d net ≠ ⟨LOCAL, net',"lo"⟩ := by simp [mainRoute, MAIN, LOCAL]
    exact absurd ((List.mem_erase_of_ne hlocal).mpr hr) hgone
  | default dev t hc _ h =>
    by_cases ht : t = MAIN
    · exact .default dev (ht ▸ hc)
    · have hkept : mainRoute d net ∈ b.routes.filter fun r => !(r.table == t && r.net == anywhere) :=
        List.mem_filter.mpr ⟨hr,by simp [mainRoute, Ne.symm ht]⟩
      exact absurd (h ▸ List.mem_append_left _ hkept) hgone
  | flushed t hc _ h =>
    by_cases ht : t = MAIN
    · exact .flushed (ht ▸ hc)
    · exact absurd (h ▸ List.mem_filter.mpr ⟨hr,by simp [mainRoute, Ne.symm ht]⟩) hgone

theorem connected_lost (h : b.step c = .ok b') (hb : Connected d (b.addrs d) net)
    (hlost : ¬ Connected d (b'.addrs d) net) : mainRoute d net ∉ b'.routes := by
  obtain ⟨cidr,hcidr,hown⟩ := connected_iff.mp hb
  rcases addrs_step d h with hsame | ⟨added,-,hadded⟩ | ⟨removed,rfl,hremoved⟩ | ⟨rfl,-⟩
  · exact absurd (hsame ▸ hb) hlost
  · exact absurd (connected_iff.mpr ⟨cidr,by rw [hadded]; exact List.mem_append_left _ hcidr,hown⟩) hlost
  · intro hr
    obtain ⟨link,hlink,hb'⟩ := onLink_ok h
    have haddrs : b.addrs d = link.addrs := by simp [Box.addrs, hlink]
    split at hb' <;> cases hb'
    have hcontains := (List.mem_filter.mp hr).2
    have hkept : mainRoute d net ∉ (link.addrs.filter (· != removed)).flatMap (Box.ownRoutes d) := by
      intro hmem
      rw [hremoved, haddrs] at hlost
      exact hlost hmem
    have hsame : cidr = removed := by
      by_contra hne
      refine hkept (List.mem_flatMap.mpr ⟨cidr,List.mem_filter.mpr ⟨haddrs ▸ hcidr,by simpa using hne⟩,hown⟩)
    subst hsame
    simp [hown, hkept] at hcontains
  · intro hr
    obtain ⟨link,-,hb'⟩ := onLink_ok h
    cases hb'
    simpa [mainRoute] using (List.mem_filter.mp hr).2

end Main

section Routed

variable {d : String} {net : Net}

def Box.routed (b : Box) (d : String) (net : Net) : Prop := mainRoute d net ∈ b.routes

def Box.added (b : Box) (d : String) (net : Net) : Prop :=
  b.routed d net ∧ ¬ Connected d (b.addrs d) net

theorem routed_of_fewer {b b' : Box} (h : b'.routes.count (mainRoute d net) ≤ b.routes.count (mainRoute d net))
    (hr : b'.routed d net) : b.routed d net :=
  List.count_pos_iff.mp ((List.count_pos_iff.mpr hr).trans_le h)

def Cmd.addsNot (d : String) (net : Net) (c : Cmd) : Prop :=
  (∀ cidr, c = .routeAdd cidr d → Net.parse cidr ≠ some net) ∧ ∀ table, c ≠ .routeReplaceDefault d table

theorem stable_notAdded (X : Prop) : Stable
    (fun w => w.box.routed d net → Connected d (w.box.addrs d) net ∨ X) (Cmd.addsNot d net) := by
  refine stable_box (I := fun b => b.routed d net → Connected d (b.addrs d) net ∨ X)
    fun b c b' hc h hb hr => ?_
  rcases main_step d net h with hfewer | ⟨-,hown⟩ | ⟨cidr,rfl,hnet,-⟩ | ⟨table,rfl⟩
  · refine (hb (routed_of_fewer hfewer hr)).imp_left fun hconnected => ?_
    by_contra hlost
    exact connected_lost h hconnected hlost hr
  · exact .inl hown
  · exact absurd hnet (hc.1 cidr rfl)
  · exact absurd rfl (hc.2 table)

structure Single (d : String) (net : Net) (b : Box) : Prop where
  once : b.routes.count (mainRoute d net) ≤ 1 ∨ Connected d (b.addrs d) net
  hosted : b.routed d net → d ∈ b.links.keys

theorem single_step {b b' : Box} {c : Cmd} (hc : ∀ table, c ≠ .routeReplaceDefault d table)
    (h : b.step c = .ok b') (hb : Single d net b) : Single d net b' := by
  have hgone : d ∉ b'.links.keys → ¬ b'.routed d net := by
    intro hnone hr
    rcases main_step d net h with hfewer | ⟨-,hown⟩ | ⟨cidr,rfl,-,-⟩ | ⟨table,rfl⟩
    · rcases (links_step h).removed d (hb.hosted (routed_of_fewer hfewer hr)) with hlink | rfl
      · exact hnone hlink
      · obtain ⟨link,-,hb'⟩ := onLink_ok h
        cases hb'
        simpa [mainRoute] using (List.mem_filter.mp hr).2
    · have hlink : b'.links.get? d = none := OrdMap.get?_eq_none_iff.mpr hnone
      simp [Connected, Box.addrs, hlink] at hown
    · obtain ⟨net',-,h'⟩ := onPrefix_ok h
      obtain ⟨link,hlink,-⟩ := onLink_ok h'
      have hlinks := (sameBut_step h).links (by simp [Cmd.writes])
      exact hnone (hlinks ▸ OrdMap.mem_keys_iff.mpr ⟨link,hlink⟩)
    · exact hc table rfl
  refine ⟨?_,fun hr => by_contra fun hnone => hgone hnone hr⟩
  rcases main_step d net h with hfewer | ⟨-,hown⟩ | ⟨_,_,_,hone⟩ | ⟨table,rfl⟩
  · rcases hb.once with hone | hconnected
    · exact .inl (hfewer.trans hone)
    · by_cases hlost : Connected d (b'.addrs d) net
      · exact .inr hlost
      · refine .inl ?_
        rw [List.count_eq_zero_of_not_mem (connected_lost h hconnected hlost)]
        exact Nat.zero_le 1
  · exact .inr hown
  · exact .inl hone
  · exact absurd rfl (hc table)

theorem stable_single (d : String) (net : Net) : Stable (fun w => Single d net w.box)
    fun c => ∀ table, c ≠ .routeReplaceDefault d table :=
  stable_box fun _ _ _ hc h hb => single_step hc h hb

def Cmd.leavesRoute (d : String) (net : Net) (c : Cmd) : Prop :=
  c ≠ .linkDel d ∧ (∀ cidr, c = .routeDel cidr d → Net.parse cidr ≠ some net) ∧
    (∀ cidr, c = .addrAdd cidr d → mainRoute d net ∉ Box.ownRoutes d cidr) ∧
    c ≠ .routeFlush (.int MAIN) ∧ ∀ dev, c ≠ .routeReplaceDefault dev (.int MAIN)

def Cmd.sparesRoute (d : String) (net : Net) (c : Cmd) : Prop := c.leavesRoute d net ∧ ∀ cidr, c ≠ .addrDel cidr d

theorem added_step {b b' : Box} {c : Cmd} (hc : c.leavesRoute d net) (h : b.step c = .ok b')
    (hleft : ∀ cidr, c = .addrDel cidr d → net.family = .v4 → Box.stripped cidr (b'.addrs d) = false)
    (hb : b.added d net) : b'.added d net := by
  obtain ⟨hlink,hdel,haddr,hflush,hdefault⟩ := hc
  constructor
  · by_contra hgone
    rcases main_gone h hb.1 hgone with hc | ⟨cidr,hc,hnet⟩ | ⟨cidr,hc,hown⟩ | ⟨cidr,hc,hfamily,hbare⟩ | hc | ⟨dev,hc⟩
    · exact hlink hc
    · exact hdel cidr hc hnet
    · exact hb.2 hown
    · rw [hleft cidr hc hfamily] at hbare
      cases hbare
    · exact hflush hc
    · exact hdefault dev hc
  · intro hconnected
    obtain ⟨cidr,hcidr,hown⟩ := connected_iff.mp hconnected
    rcases addrs_step d h with hsame | ⟨added,hadd,hadded⟩ | ⟨removed,-,hremoved⟩ | ⟨hgone,-⟩
    · exact hb.2 (hsame ▸ hconnected)
    · rw [hadded] at hcidr
      rcases List.mem_append.mp hcidr with hold | hnew
      · exact hb.2 (connected_iff.mpr ⟨cidr,hold,hown⟩)
      · exact haddr added hadd (List.mem_singleton.mp hnew ▸ hown)
    · rw [hremoved] at hcidr
      exact hb.2 (connected_iff.mpr ⟨cidr,(List.mem_filter.mp hcidr).1,hown⟩)
    · exact hlink hgone

theorem stable_added (d : String) (net : Net) :
    Stable (fun w => w.box.added d net) (Cmd.sparesRoute d net) :=
  stable_box (I := fun b => b.added d net) fun _ _ _ hc h hb =>
    added_step hc.1 h (fun cidr heq => absurd heq (hc.2 cidr)) hb

theorem stable_count (d : String) (net : Net) (k : Nat) :
    Stable (fun w => w.box.routes.count (mainRoute d net) ≤ k) fun c =>
    c.addsNot d net ∧ c ≠ .linkUp d ∧ ∀ cidr, c ≠ .addrAdd cidr d := by
  refine stable_box (I := fun b => b.routes.count (mainRoute d net) ≤ k) fun b c b' hc h hb => ?_
  rcases main_step d net h with hfewer | ⟨hown,-⟩ | ⟨cidr,rfl,hnet,-⟩ | ⟨table,rfl⟩
  · exact hfewer.trans hb
  · rcases hown with rfl | ⟨cidr,rfl⟩
    · exact absurd rfl hc.2.1
    · exact absurd rfl (hc.2.2 cidr)
  · exact absurd hnet (hc.1.1 cidr rfl)
  · exact absurd rfl (hc.1.2 table)

theorem not_routed_iff {b : Box} : b.routes.count (mainRoute d net) ≤ 0 ↔ ¬ b.routed d net := by
  rw [Nat.le_zero, List.count_eq_zero, Box.routed]

def Box.clearFor (b : Box) (d : String) (net : Net) : Prop :=
  ∀ r ∈ b.routes, r.table = MAIN → r.net = net → r.dev = d

def Cmd.routesOn (d : String) : Cmd → Prop
  | .linkUp dev | .addrAdd _ dev | .routeAdd _ dev => dev = d
  | .routeReplaceDefault _ _ => False
  | _ => True

theorem stable_clearFor (d : String) (net : Net) :
    Stable (fun w => w.box.clearFor d net) (Cmd.routesOn d) := by
  refine stable_box (I := fun b => b.clearFor d net) fun b c b' hc h hb r hr htable hnet => ?_
  have hmain : r = mainRoute r.dev net := by
    obtain ⟨table,net',dev⟩ := r
    simp_all [mainRoute]
  rcases main_step r.dev net h with hfewer | ⟨rfl | ⟨cidr,rfl⟩,-⟩ | ⟨cidr,rfl,-,-⟩ | ⟨table,rfl⟩
  · have hold : b.routed r.dev net := routed_of_fewer hfewer (hmain ▸ hr)
    rw [Box.routed, ← hmain] at hold
    exact hb r hold htable hnet
  · exact hc
  · exact hc
  · exact hc
  · exact hc.elim

end Routed

section Addresses

variable {d : String} {cidrs : List String} {w w' : World}

theorem stable_addrs (Q : String → Prop) : Stable (fun w => ∀ cidr ∈ w.box.addrs d, Q cidr)
    fun c => ∀ cidr, c = .addrAdd cidr d → Q cidr := by
  refine stable_box (I := fun b => ∀ cidr ∈ b.addrs d, Q cidr) fun b c b' hc h hb cidr hcidr => ?_
  rcases addrs_step d h with hsame | ⟨added,hadd,hadded⟩ | ⟨removed,-,hremoved⟩ | ⟨-,hgone⟩
  · exact hb cidr (hsame ▸ hcidr)
  · rw [hadded] at hcidr
    rcases List.mem_append.mp hcidr with hold | hnew
    · exact hb cidr hold
    · exact List.mem_singleton.mp hnew ▸ hc added hadd
  · rw [hremoved] at hcidr
    exact hb cidr (List.mem_filter.mp hcidr).1
  · rw [hgone] at hcidr
    cases hcidr

theorem stable_addr (d cidr : String) : Stable (fun w => cidr ∈ w.box.addrs d)
    fun c => c ≠ .linkDel d ∧ c ≠ .addrDel cidr d := by
  refine stable_box (I := fun b => cidr ∈ b.addrs d) fun b c b' hc h hb => ?_
  rcases addrs_step d h with hsame | ⟨added,-,hadded⟩ | ⟨removed,hremove,hremoved⟩ | ⟨hgone,-⟩
  · exact hsame ▸ hb
  · exact hadded ▸ List.mem_append_left _ hb
  · have hne : cidr ≠ removed := fun heq => hc.2 (heq ▸ hremove)
    exact hremoved ▸ List.mem_filter.mpr ⟨hb,by simpa using hne⟩
  · exact absurd hgone hc.1

theorem addrDel_gone (d cidr : String) (hw : Quiet w) :
    ∃ res w', tryRun (.addrDel cidr d) w = .ok res w' ∧ Quiet w' ∧ cidr ∉ w'.box.addrs d := by
  cases hstep : w.box.step (.addrDel cidr d) with
  | ok b' =>
    refine ⟨_,_,tryRun_quiet hw hstep,⟨hw.faults⟩,fun hcidr => ?_⟩
    obtain ⟨link,hlink,hb⟩ := onLink_ok hstep
    split at hb <;> cases hb
    simp [Box.addrs, OrdMap.get?_set_self] at hcidr
  | error failed =>
    refine ⟨_,_,tryRun_refused hw hstep,hw,fun hcidr => ?_⟩
    simp only [Box.step, Box.addrDel, Box.onLink] at hstep
    cases hlink : w.box.links.get? d with
    | none => simp [Box.addrs, hlink] at hcidr
    | some link =>
      have hmem : cidr ∈ link.addrs := by simpa [Box.addrs, hlink] using hcidr
      simp [hlink, hmem] at hstep

theorem addrShow_ok (d : String) (hw : Quiet w) : ∃ shown,
    query (.addrShow d) (fun b => ((b.links.get? d).map Link.addrs).getD []) w = .ok shown w ∧
      shown.toOption.getD [] = w.box.addrs d := by
  cases hlink : w.box.links.get? d with
  | none =>
    have hstep : w.box.step (.addrShow d) = .error ⟨"Cannot find device \"" ++ d ++ "\"",false⟩ := by
      simp [Box.step, Box.onLink, hlink, Box.refuse]
    refine ⟨_,by rw [query, bind_of_ok (tryRun_refused hw hstep)]; rfl,?_⟩
    simp [Except.toOption, Except.map, Box.addrs, hlink]
  | some link =>
    have hstep : w.box.step (.addrShow d) = .ok w.box := by simp [Box.step, Box.onLink, hlink]
    exact ⟨_,by rw [query, bind_of_ok (tryRun_quiet hw hstep)]; rfl,rfl⟩

theorem quiet_addrs (Q : String → Prop) : Stable (fun w => Quiet w ∧ ∀ cidr ∈ w.box.addrs d, Q cidr)
    fun c => ∀ cidr, c = .addrAdd cidr d → Q cidr :=
  (stable_quiet _).and (stable_addrs Q)

theorem dropStale_ok {present : List String} {w : World}
    (hw : Quiet w ∧ ∀ cidr ∈ w.box.addrs d, cidr ∈ cidrs ∨ cidr ∈ present) : ∃ w',
      (present.forM fun cidr => (if !cidrs.eraseDups.contains cidr then do
          let _ ← tryRun (.addrDel cidr d)
        else pure () : Shell Unit)) w = .ok () w' ∧ ∀ cidr ∈ w'.box.addrs d, cidr ∈ cidrs := by
  let J : World → Prop := fun v => Quiet v ∧ ∀ cidr ∈ v.box.addrs d, cidr ∈ cidrs ∨ cidr ∈ present
  let D : String → World → Prop := fun cidr v => cidr ∉ cidrs → cidr ∉ v.box.addrs d
  have hturn : ∀ cidr ∈ present, ∀ v, J v → ∃ v', (if !cidrs.eraseDups.contains cidr then do
        let _ ← tryRun (.addrDel cidr d)
      else pure () : Shell Unit) v = .ok () v' ∧ J v' ∧ D cidr v' ∧
        ∀ other ∈ present, D other v → D other v' := by
    rintro cidr - v hv
    by_cases hwanted : cidr ∈ cidrs
    · have hkept : (!cidrs.eraseDups.contains cidr) = false := by simp [hwanted]
      rw [hkept]
      exact ⟨v,rfl,hv,fun hnot => absurd hwanted hnot,fun _ _ hother => hother⟩
    · have hstale : (!cidrs.eraseDups.contains cidr) = true := by simp [hwanted]
      rw [hstale, if_pos rfl]
      obtain ⟨res,v',hrun,-,hgone⟩ := addrDel_gone d cidr hv.1
      refine ⟨v',by rw [bind_of_ok hrun]; rfl,(keeps_tryRun (quiet_addrs _) (by simp)).of_ok hrun hv,
        fun _ => hgone,fun other _ hother hnot hmem => ?_⟩
      have hsub := (keeps_tryRun (stable_addrs (d := d) fun c => c ∈ v.box.addrs d) (by simp)).of_ok hrun
        fun c hc => hc
      exact hother hnot (hsub other hmem)
  obtain ⟨w',hrun,⟨-,hall⟩,hdone⟩ := forM_each J D hturn hw
  refine ⟨w',hrun,fun cidr hcidr => (hall cidr hcidr).elim id fun hold => ?_⟩
  by_contra hnot
  exact hdone cidr hold hnot hcidr

theorem setAddresses_addrs (hw : Quiet w) (h : setAddresses d cidrs w = .ok () w') :
    ∀ cidr ∈ w'.box.addrs d, cidr ∈ cidrs := by
  obtain ⟨shown,hshow,hpresent⟩ := addrShow_ok d hw
  unfold setAddresses at h
  rw [bind_of_ok hshow] at h
  simp only [hpresent] at h
  obtain ⟨_,w₁,hadd,h⟩ := bind_ok h
  obtain ⟨_,w₂,hdel,h⟩ := bind_ok h
  have hkeep : Keeps (fun v => Quiet v ∧ ∀ cidr ∈ v.box.addrs d, cidr ∈ cidrs ∨ cidr ∈ w.box.addrs d)
      (cidrs.eraseDups.forM fun cidr =>
        if (!(w.box.addrs d).contains cidr) = true then addAddress d cidr else pure ()) := by
    refine keeps_forM fun cidr hcidr => ?_
    split
    · refine keeps_addAddress (quiet_addrs _) fun cidr' heq => ?_
      obtain rfl : cidr = cidr' := by simpa using heq
      exact .inl (List.mem_eraseDups.mp hcidr)
    · exact keeps_pure _
  obtain ⟨v,hrun,hleft⟩ := dropStale_ok (hkeep.of_ok hadd ⟨hw,fun cidr hcidr => .inr hcidr⟩)
  rw [hdel] at hrun
  cases hrun
  exact (keeps_run (stable_addrs (d := d) fun cidr => cidr ∈ cidrs) (by simp)).of_ok h hleft

theorem stripped_lost {b b' : Box} {net : Net} {cidr : String} (h : b.step (.addrDel cidr d) = .ok b')
    (hfamily : net.family = .v4) (hbare : Box.stripped cidr (b'.addrs d) = true) : ¬ b'.routed d net := by
  intro hr
  obtain ⟨link,hlink,hb⟩ := onLink_ok h
  split at hb <;> cases hb
  simp only [Box.addrs, OrdMap.get?_set_self, Option.map_some, Option.getD_some] at hbare
  have hkept := (List.mem_filter.mp hr).2
  rw [hbare] at hkept
  simp [Box.strippedOf, mainRoute, hfamily] at hkept

theorem stable_fed {net : Net} (hfamily : net.family = .v4) : Stable
    (fun w => w.box.routed d net → Connected d (w.box.addrs d) net ∨ ∃ cidr ∈ w.box.addrs d, Box.isV4 cidr = true)
    (Cmd.addsNot d net) := by
  refine stable_box (I := fun b => b.routed d net →
    Connected d (b.addrs d) net ∨ ∃ cidr ∈ b.addrs d, Box.isV4 cidr = true) fun b c b' hc h hb hr => ?_
  rcases main_step d net h with hfewer | ⟨-,hown⟩ | ⟨cidr,rfl,hnet,-⟩ | ⟨table,rfl⟩
  · rcases hb (routed_of_fewer hfewer hr) with hconnected | ⟨cidr,hcidr,hv4⟩
    · refine .inl ?_
      by_contra hlost
      exact connected_lost h hconnected hlost hr
    · refine .inr ?_
      rcases addrs_step d h with hsame | ⟨added,-,hadded⟩ | ⟨removed,rfl,hremoved⟩ | ⟨rfl,-⟩
      · exact ⟨cidr,hsame ▸ hcidr,hv4⟩
      · exact ⟨cidr,hadded ▸ List.mem_append_left _ hcidr,hv4⟩
      · by_cases hsame : cidr = removed
        · subst hsame
          by_contra hnone
          refine stripped_lost h hfamily ?_ hr
          have hleft : (b'.addrs d).any Box.isV4 = false := by
            rw [List.any_eq_false]
            exact fun other hother hother' => hnone ⟨other,hother,hother'⟩
          rw [Box.stripped, hv4, hleft]
          rfl
        · exact ⟨cidr,hremoved ▸ List.mem_filter.mpr ⟨hcidr,by simpa using hsame⟩,hv4⟩
      · obtain ⟨link,-,hb'⟩ := onLink_ok h
        cases hb'
        simp [Box.routed, mainRoute] at hr
  · exact .inl hown
  · exact absurd hnet (hc.1 cidr rfl)
  · exact absurd rfl (hc.2 table)

def Anchored (d : String) (cidrs : List String) (net : Net) (b : Box) : Prop :=
  net.family = .v4 → (∀ cidr ∈ b.addrs d, Box.isV4 cidr = false) ∨
    ∃ cidr ∈ cidrs, Box.isV4 cidr = true ∧ cidr ∈ b.addrs d

theorem stable_anchored (d : String) (cidrs : List String) (net : Net) :
    Stable (fun w => w.box.added d net ∧ Anchored d cidrs net w.box) fun c => c.leavesRoute d net ∧
      (∀ cidr, c ≠ .addrAdd cidr d) ∧ ∀ cidr, c = .addrDel cidr d → cidr ∉ cidrs := by
  refine stable_box (I := fun b => b.added d net ∧ Anchored d cidrs net b) fun b c b' hc h hb => ?_
  obtain ⟨hroute,hnoadd,hdel⟩ := hc
  have hanchored : Anchored d cidrs net b' := by
    intro hfamily
    rcases addrs_step d h with hsame | ⟨added,hadd,-⟩ | ⟨removed,hremove,hremoved⟩ | ⟨hgone,-⟩
    · rw [hsame]
      exact hb.2 hfamily
    · exact absurd hadd (hnoadd added)
    · rw [hremoved]
      refine (hb.2 hfamily).imp (fun hnone cidr hcidr => hnone cidr (List.mem_filter.mp hcidr).1) ?_
      rintro ⟨cidr,hcidr,hv4,hmem⟩
      have hne : cidr ≠ removed := fun heq => hdel removed hremove (heq ▸ hcidr)
      exact ⟨cidr,hcidr,hv4,List.mem_filter.mpr ⟨hmem,by simpa using hne⟩⟩
    · exact absurd hgone hroute.1
  refine ⟨added_step hroute h (fun cidr heq hfamily => ?_) hb.1,hanchored⟩
  subst heq
  obtain ⟨link,hlink,hb'⟩ := onLink_ok h
  split at hb'
  · next hmem =>
    rcases hb.2 hfamily with hnone | ⟨anchor,hanchor,hv4,hin⟩
    · rw [Box.stripped, hnone cidr (by simpa [Box.addrs, hlink] using hmem)]
      rfl
    · rcases addrs_step d h with hsame | ⟨added,hadd,-⟩ | ⟨removed,hremove,hremoved⟩ | ⟨hgone,-⟩
      · rw [Box.stripped, hsame, List.any_eq_true.mpr ⟨anchor,hin,hv4⟩]
        simp
      · cases hadd
      · cases hremove
        have hne : anchor ≠ cidr := fun heq => hdel cidr rfl (heq ▸ hanchor)
        have hleft : anchor ∈ b'.addrs d := hremoved ▸ List.mem_filter.mpr ⟨hin,by simpa using hne⟩
        rw [Box.stripped, List.any_eq_true.mpr ⟨anchor,hleft,hv4⟩]
        simp
      · cases hgone
  · cases hb'

theorem parse_of_isV4 {cidr : String} (h : Box.isV4 cidr = true) : (Net.parseIface cidr).isSome = true := by
  obtain ⟨own,hown,-⟩ := (Option.any_eq_true _ _).mp h
  rw [hown]
  rfl

theorem addAddress_added {cidr : String} (hw : Quiet w) (hlink : d ∈ w.box.links.keys)
    (hcidr : (Net.parseIface cidr).isSome = true) (h : addAddress d cidr w = .ok () w') : cidr ∈ w'.box.addrs d := by
  obtain ⟨link,hlink⟩ := OrdMap.mem_keys_iff.mp hlink
  unfold addAddress at h
  cases hstep : w.box.step (.addrAdd cidr d) with
  | ok b' =>
    rw [bind_of_ok (tryRun_quiet hw hstep)] at h
    cases h
    simp only [Box.step, Box.addrAdd, Box.onLink, hlink] at hstep
    split at hstep
    · cases hstep
    · split at hstep
      · cases hstep
      · split at hstep <;> cases hstep <;> simp [Box.addrs, Box.addRoutes, OrdMap.get?_set_self]
  | error failed =>
    rw [bind_of_ok (tryRun_refused hw hstep)] at h
    have hmem : cidr ∈ link.addrs := by
      by_contra hnew
      have hsome : (Net.parseIface cidr).isNone = false := by simpa using hcidr
      simp only [Box.step, Box.addrAdd, Box.onLink, hlink, hsome, Bool.false_eq_true, if_false] at hstep
      rw [if_neg (by simpa using hnew)] at hstep
      cases hstep
    dsimp only at h
    split at h
    · cases h
      simpa [Box.addrs, hlink] using hmem
    · cases h

def Strips (cidrs present : List String) (net : Net) : Prop :=
  net.family = .v4 ∧ (∃ cidr ∈ present, Box.isV4 cidr = true) ∧ ∀ cidr ∈ cidrs, Box.isV4 cidr = false

theorem anchored_adding {net : Net} (hw : Quiet w) (hlink : d ∈ w.box.links.keys)
    (hnot : ¬ Strips cidrs (w.box.addrs d) net)
    (h : (cidrs.eraseDups.forM fun cidr =>
      if (!(w.box.addrs d).contains cidr) = true then addAddress d cidr else pure ()) w = .ok () w') :
    Anchored d cidrs net w'.box := by
  intro hfamily
  by_cases hwanted : ∃ cidr ∈ cidrs, Box.isV4 cidr = true
  · obtain ⟨anchor,hanchor,hv4⟩ := hwanted
    let J : World → Prop := fun v => Quiet v ∧ d ∈ v.box.links.keys ∧ ∀ cidr : {cidr // cidr ∈ w.box.addrs d},
      cidr.1 ∈ v.box.addrs d
    have hpresent : Stable (fun v => ∀ cidr : {cidr // cidr ∈ w.box.addrs d}, cidr.1 ∈ v.box.addrs d)
        fun c => c ≠ .linkDel d ∧ ∀ cidr, c ≠ .addrDel cidr d :=
      Stable.all fun cidr => (stable_addr d cidr.1).mono fun c hc => ⟨hc.1,hc.2 cidr.1⟩
    have hstable : Stable J fun c => c ≠ .linkDel d ∧ ∀ cidr, c ≠ .addrDel cidr d :=
      ((stable_quiet fun _ => True).both ((stable_link d).both hpresent)).mono fun c hc => ⟨trivial,hc.1,hc⟩
    obtain ⟨-,hadded⟩ := forM_done J (fun cidr v => Box.isV4 cidr = true → cidr ∈ v.box.addrs d)
      (fun cidr _ v v' hv hturn => by
        split at hturn
        · have hsub : ∀ other, other ∈ v.box.addrs d → other ∈ v'.box.addrs d := fun other hother =>
            (keeps_addAddress (stable_addr d other) ⟨by simp,by simp⟩).of_ok hturn hother
          exact ⟨(keeps_addAddress hstable ⟨by simp,by simp⟩).of_ok hturn hv,
            fun hv4 => addAddress_added hv.1 hv.2.1 (parse_of_isV4 hv4) hturn,
            fun other _ hother hv4 => hsub other (hother hv4)⟩
        · next hpresent =>
          cases hturn
          exact ⟨hv,fun _ => hv.2.2 ⟨cidr,by simpa using hpresent⟩,fun _ _ hother => hother⟩)
      ⟨hw,hlink,fun cidr => cidr.2⟩ h
    exact .inr ⟨anchor,hanchor,hv4,hadded anchor (List.mem_eraseDups.mpr hanchor) hv4⟩
  · have hnone : ∀ cidr ∈ cidrs, Box.isV4 cidr = false := fun cidr hcidr => by
      rw [← Bool.not_eq_true]
      exact fun hv4 => hwanted ⟨cidr,hcidr,hv4⟩
    have hpresent : ∀ cidr ∈ w.box.addrs d, Box.isV4 cidr = false := fun cidr hcidr => by
      rw [← Bool.not_eq_true]
      exact fun hv4 => hnot ⟨hfamily,⟨cidr,hcidr,hv4⟩,hnone⟩
    have hkeep : Keeps (fun v => ∀ cidr ∈ v.box.addrs d, Box.isV4 cidr = false) (cidrs.eraseDups.forM fun cidr =>
        if (!(w.box.addrs d).contains cidr) = true then addAddress d cidr else pure ()) := by
      refine keeps_forM fun cidr hcidr => ?_
      split
      · refine keeps_addAddress (stable_addrs (d := d) fun cidr => Box.isV4 cidr = false) fun cidr' heq => ?_
        obtain rfl : cidr = cidr' := by simpa using heq
        exact hnone cidr (List.mem_eraseDups.mp hcidr)
      · exact keeps_pure _
    exact .inl (hkeep.of_ok h hpresent)

theorem Strips.mono {present present' : List String} {net : Net} (h : Strips cidrs present' net)
    (hsub : ∀ cidr ∈ present', cidr ∈ present) : Strips cidrs present net := by
  obtain ⟨hfamily,⟨cidr,hcidr,hv4⟩,hnone⟩ := h
  exact ⟨hfamily,⟨cidr,hsub cidr hcidr,hv4⟩,hnone⟩

theorem added_setAddresses {net : Net} (hw : Quiet w) (hlink : d ∈ w.box.links.keys) (hadded : w.box.added d net)
    (hown : ¬ Connected d cidrs net) (hnot : ¬ Strips cidrs (w.box.addrs d) net)
    (h : setAddresses d cidrs w = .ok () w') : w'.box.added d net := by
  obtain ⟨shown,hshow,hpresent⟩ := addrShow_ok d hw
  unfold setAddresses at h
  rw [bind_of_ok hshow] at h
  simp only [hpresent] at h
  obtain ⟨_,w₁,hadd,h⟩ := bind_ok h
  obtain ⟨_,w₂,hdel,hup⟩ := bind_ok h
  have hadded₁ : w₁.box.added d net := by
    have hkeep : Keeps (fun v => v.box.added d net) (cidrs.eraseDups.forM fun cidr =>
        if (!(w.box.addrs d).contains cidr) = true then addAddress d cidr else pure ()) := by
      refine keeps_forM fun cidr hcidr => ?_
      split
      · have hroute : mainRoute d net ∉ Box.ownRoutes d cidr := fun hmem =>
          hown (connected_iff.mpr ⟨cidr,List.mem_eraseDups.mp hcidr,hmem⟩)
        refine keeps_addAddress (stable_added d net) ?_
        simpa [Cmd.sparesRoute, Cmd.leavesRoute] using hroute
      · exact keeps_pure _
    exact hkeep.of_ok hadd hadded
  have hadded₂ : w₂.box.added d net := by
    have hkeep : Keeps (fun v => v.box.added d net ∧ Anchored d cidrs net v.box)
        ((w.box.addrs d).forM fun cidr => (if !cidrs.eraseDups.contains cidr then do
            let _ ← tryRun (.addrDel cidr d)
          else pure () : Shell Unit)) := by
      refine keeps_forM fun cidr _ => ?_
      split
      · next hstale =>
        have hstale : cidr ∉ cidrs := fun hmem => by simp [hmem] at hstale
        refine keeps_bind (keeps_tryRun (stable_anchored d cidrs net) ?_) fun _ => keeps_pure _
        simpa [Cmd.leavesRoute] using hstale
      · exact keeps_pure _
    exact (hkeep.of_ok hdel ⟨hadded₁,anchored_adding hw hlink hnot hadd⟩).1
  exact (keeps_run (stable_added d net) (by simp [Cmd.sparesRoute, Cmd.leavesRoute])).of_ok hup hadded₂

theorem bringUp_addrs {conf : MeshConf} {plan : Plan} {privateKey : String} (hw : Quiet w)
    (h : bringUp conf plan privateKey w = .ok () w') :
    ∀ cidr ∈ w'.box.addrs conf.IFACE, cidr ∈ plan.addresses := by
  obtain ⟨_,w₁,hensure,h⟩ := bind_ok h
  obtain ⟨_,w₂,hkey,h⟩ := bind_ok h
  have hquiet : ∀ C, Stable Quiet C := stable_quiet
  have hprobe : ∀ pid, Keeps Quiet (probeKernel ("wgprobe" ++ pid)) := fun pid =>
    keeps_probeKernel (hquiet fun _ => True) trivial trivial
  have hw₁ := (keeps_ensureInterface (hquiet fun _ => True) hprobe trivial trivial).of_ok hensure hw
  have hw₂ := (keeps_setPrivateKey (hquiet fun _ => True) fun _ _ => trivial).of_ok hkey hw₁
  exact setAddresses_addrs hw₂ h

end Addresses

end JumpHost.Mesh
