import JumpHost.Mesh.Exits
import JumpHost.Mesh.Routes

namespace JumpHost.Mesh

open Effect

theorem or_again {α : Type} (a b : Option α) : a.or (a.or b) = a.or b := by cases a <;> rfl

section Raised

variable {conf : MeshConf} {plan : Plan} {privateKey : String} {b b' : Box} {d cidr : String} {net : Net}
  {w w' : World}

def Unread (cidr : String) : Prop := (Net.parseIface cidr).isNone = true ∧
  Failed.fileExists { err := "inet prefix is expected rather than \"" ++ cidr ++ "\"." } = true

structure Keyed (conf : MeshConf) (privateKey : String) (link : Link) : Prop where
  key : link.privateKey = some privateKey
  port : ((some conf.LISTEN_PORT).filter Num.truthy).or link.listenPort = link.listenPort

structure Raised (conf : MeshConf) (plan : Plan) (privateKey : String) (link : Link) : Prop
    extends Keyed conf privateKey link where
  up : link.up = true
  given : ∀ cidr ∈ plan.addresses, cidr ∈ link.addrs ∨ Unread cidr
  only : ∀ cidr ∈ link.addrs, cidr ∈ plan.addresses

def Box.linked (b : Box) (d : String) (Q : Link → Prop) : Prop := ∃ link, b.links.get? d = some link ∧ Q link

theorem links_same {link : Link} (h : b.links.get? d = some link) :
    { b with links := b.links.set d link } = b := by rw [OrdMap.set_eq h]

theorem takes_run {c : Cmd} (h : b.step c = .ok b') : Takes Calm World.box (run c) b b' :=
  (gives_tryRun h).takes_bind (takes_pure _)

theorem takes_ensured (h : b.step (.linkShow d) = .ok b) : Takes Calm World.box (ensureInterface d) b b := by
  refine ((gives_tryRun h).bind (gives_pure true)).takes_bind ?_
  rintro w hw rfl
  exact ⟨_,w,rfl,hw,rfl⟩

theorem takes_addAddress {link : Link} (hlink : b.links.get? d = some link)
    (hunread : Unread cidr) : Takes Calm World.box (addAddress d cidr) b b := by
  have hstep : b.step (.addrAdd cidr d) =
      .error { err := "inet prefix is expected rather than \"" ++ cidr ++ "\"." } := by
    simp only [Box.step, Box.addrAdd, Box.onLink, hlink, hunread.1, if_true, Box.refuse]
  refine (gives_refused hstep).takes_bind ?_
  simp only [hunread.2, if_true]
  exact takes_pure _

theorem takes_bringUp (h : b.linked conf.IFACE (Raised conf plan privateKey)) :
    Takes Calm World.box (bringUp conf plan privateKey) b b := by
  obtain ⟨link,hlink,⟨hkey,hport⟩,hup,hgiven,honly⟩ := h
  have hshow : b.step (.linkShow conf.IFACE) = .ok b := by simp only [Box.step, Box.onLink, hlink]
  have hset : b.step (.wgSetKey conf.IFACE privateKey ((some conf.LISTEN_PORT).filter Num.truthy)) = .ok b := by
    have hsame : { link with privateKey := some privateKey, listenPort :=
        ((some conf.LISTEN_PORT).filter Num.truthy).or link.listenPort } = link := by rw [hport, ← hkey]
    simp only [Box.step, Box.wgSetKey, Box.onLink, hlink, hsame, links_same hlink]
  have hlist : b.step (.addrShow conf.IFACE) = .ok b := by simp only [Box.step, Box.onLink, hlink]
  have hraise : b.step (.linkUp conf.IFACE) = .ok b := by
    have hsame : { link with up := true } = link := by rw [← hup]
    simp only [Box.step, Box.linkUp, Box.onLink, hlink, hup, if_true, hsame, links_same hlink]
  refine (takes_ensured hshow).bind fun _ => (takes_run hset).bind fun _ => ?_
  have haddrs : (Except.ok (((b.links.get? conf.IFACE).map Link.addrs).getD []) :
      Except Failed (List String)).toOption.getD [] = link.addrs := by
    rw [hlink]
    rfl
  refine (gives_query hlist).takes_bind ?_
  rw [haddrs]
  refine (takes_forM fun cidr hcidr => ?_).bind fun _ => (takes_forM fun cidr hcidr => ?_).bind fun _ =>
    takes_run hraise
  · split
    · next hnew =>
      have hnot : cidr ∉ link.addrs := by simpa using hnew
      exact takes_addAddress hlink ((hgiven cidr (List.mem_eraseDups.mp hcidr)).resolve_left hnot)
    · exact takes_pure _
  · have hwanted : (!plan.addresses.eraseDups.contains cidr) = false := by simp [honly cidr hcidr]
    rw [hwanted]
    exact takes_pure _

end Raised

section BringUp

variable {conf : MeshConf} {plan : Plan} {privateKey : String} {b b' : Box} {d cidr : String} {cidrs : List String}
  {Q : Link → Prop} {C : Cmd → Prop} {w w' : World}

theorem stable_linked (hdel : ¬ C (.linkDel d))
    (hedit : ∀ c link link', C c → LinkEdit c d link link' → Q link → Q link') :
    Stable (fun w => w.box.linked d Q) C := by
  refine stable_box (I := fun b => b.linked d Q) fun b c b' hc h hb => ?_
  obtain ⟨link,hlink,hQ⟩ := hb
  cases links_change h with
  | same hsame => exact ⟨link,hsame ▸ hlink,hQ⟩
  | new dev _ hdev hnew =>
    have hne : d ≠ dev := by
      rintro rfl
      rw [OrdMap.has_iff.mpr (OrdMap.mem_keys_iff.mpr ⟨link,hlink⟩)] at hdev
      cases hdev
    exact ⟨link,by rw [hnew, OrdMap.get?_set_of_ne _ hne, hlink],hQ⟩
  | gone dev hgone hb =>
    have hne : d ≠ dev := by
      rintro rfl
      exact hdel (hgone ▸ hc)
    exact ⟨link,by rw [hb, OrdMap.get?_delete_of_ne hne, hlink],hQ⟩
  | edit dev old new hold hedit' hnew =>
    by_cases hne : d = dev
    · subst hne
      obtain rfl := Option.some.inj (hlink.symm.trans hold)
      exact ⟨new,by rw [hnew, OrdMap.get?_set_self],hedit c link new hc hedit' hQ⟩
    · exact ⟨link,by rw [hnew, OrdMap.get?_set_of_ne _ hne, hlink],hQ⟩

def Cmd.keepsKey (d : String) (c : Cmd) : Prop := c ≠ .linkDel d ∧ ∀ key port, c ≠ .wgSetKey d key port

def Cmd.keepsLink (d : String) (c : Cmd) : Prop :=
  c.keepsKey d ∧ ∀ cidr, c ≠ .addrAdd cidr d ∧ c ≠ .addrDel cidr d

theorem stable_keyed : Stable (fun w => w.box.linked conf.IFACE (Keyed conf privateKey)) (Cmd.keepsKey conf.IFACE) := by
  refine stable_linked (fun hc => hc.1 rfl) fun c link link' hc hedit hkeyed => ?_
  cases hedit with
  | key key port heq => exact absurd heq (hc.2 key port)
  | up | addrAdd | addrDel | setPeer | removePeer => exact ⟨hkeyed.key,hkeyed.port⟩

theorem stable_raised :
    Stable (fun w => w.box.linked conf.IFACE (Raised conf plan privateKey)) (Cmd.keepsLink conf.IFACE) := by
  refine stable_linked (fun hc => hc.1.1 rfl) fun c link link' hc hedit hraised => ?_
  cases hedit with
  | up => exact { hraised with up := rfl }
  | addrAdd cidr heq => exact absurd heq (hc.2 cidr).1
  | addrDel cidr heq => exact absurd heq (hc.2 cidr).2
  | key key port heq => exact absurd heq (hc.1.2 key port)
  | setPeer | removePeer => exact ⟨⟨hraised.key,hraised.port⟩,hraised.up,hraised.given,hraised.only⟩

theorem stable_given : Stable (fun w => w.box.linked d fun link => cidr ∈ link.addrs ∨ Unread cidr)
    fun c => c ≠ .linkDel d ∧ c ≠ .addrDel cidr d := by
  refine stable_linked (fun hc => hc.1 rfl) fun c link link' hc hedit hgiven => ?_
  cases hedit with
  | addrAdd added => exact hgiven.imp_left fun hmem => List.mem_append_left _ hmem
  | addrDel dropped heq =>
    refine hgiven.imp_left fun hmem => List.mem_filter.mpr ⟨hmem,?_⟩
    have hne : cidr ≠ dropped := by
      rintro rfl
      exact hc.2 heq
    simpa using hne
  | up | key | setPeer | removePeer => exact hgiven

theorem stable_exists : Stable (fun w => w.box.linked d fun _ => True) fun c => c ≠ .linkDel d :=
  stable_linked (fun hc => hc rfl) fun _ _ _ _ _ h => h

theorem addAddress_given (hw : Calm w) (hlink : w.box.linked d fun _ => True)
    (h : addAddress d cidr w = .ok () w') : w'.box.linked d fun link => cidr ∈ link.addrs ∨ Unread cidr := by
  obtain ⟨link,hlink,-⟩ := hlink
  have hstep : w.box.step (.addrAdd cidr d) = w.box.addrAdd cidr d := rfl
  simp only [Box.addrAdd, Box.onLink, hlink] at hstep
  unfold addAddress at h
  cases hres : w.box.step (.addrAdd cidr d) with
  | ok b' =>
    rw [bind_of_ok (tryRun_quiet hw.quiet hres)] at h
    cases h
    rw [hres] at hstep
    split at hstep
    · cases hstep
    · split at hstep
      · cases hstep
      · split at hstep <;> cases hstep <;>
          exact ⟨{ link with addrs := link.addrs ++ [cidr] },by simp [Box.addRoutes, OrdMap.get?_set_self],by simp⟩
  | error failed =>
    rw [bind_of_ok (tryRun_refused hw.quiet hres)] at h
    rw [hres] at hstep
    simp only at h
    split at h
    · next hexists =>
      cases h
      refine ⟨link,hlink,?_⟩
      split at hstep
      · next hunread =>
        cases hstep
        exact .inr ⟨hunread,hexists⟩
      · split at hstep
        · next hmem => exact .inl (by simpa using hmem)
        · split at hstep <;> cases hstep
    · cases h

theorem setAddresses_given (hw : Calm w) (hlink : w.box.linked d fun _ => True)
    (h : setAddresses d cidrs w = .ok () w') : ∀ cidr ∈ cidrs, w'.box.linked d fun link =>
      cidr ∈ link.addrs ∨ Unread cidr := by
  obtain ⟨shown,hshow,hpresent⟩ := addrShow_ok d hw.quiet
  unfold setAddresses at h
  rw [bind_of_ok hshow] at h
  simp only [hpresent] at h
  obtain ⟨_,w₁,hadd,h⟩ := bind_ok h
  obtain ⟨_,w₂,hdel,h⟩ := bind_ok h
  let J : World → Prop := fun v => Calm v ∧ (v.box.linked d fun _ => True) ∧
    ∀ cidr ∈ w.box.addrs d, v.box.linked d fun link => cidr ∈ link.addrs ∨ Unread cidr
  let D : String → World → Prop := fun cidr v => v.box.linked d fun link => cidr ∈ link.addrs ∨ Unread cidr
  have hstart : J w := by
    refine ⟨hw,hlink,fun cidr hcidr => ?_⟩
    obtain ⟨link,hget,-⟩ := hlink
    exact ⟨link,hget,.inl (by simpa [Box.addrs, hget] using hcidr)⟩
  have hturn : ∀ cidr ∈ cidrs.eraseDups, ∀ v v', J v →
      (if !(w.box.addrs d).contains cidr then addAddress d cidr else pure ()) v = .ok () v' →
      J v' ∧ D cidr v' ∧ ∀ other ∈ cidrs.eraseDups, D other v → D other v' := by
    rintro cidr - v v' ⟨hv,hlink',hold⟩ hrun
    split at hrun
    · have hgiven : ∀ other, Keeps (fun u => u.box.linked d fun link => other ∈ link.addrs ∨ Unread other)
          (addAddress d cidr) := fun other => keeps_addAddress stable_given (by simp)
      refine ⟨⟨(keeps_addAddress (stable_calm fun _ => True) trivial).of_ok hrun hv,
        (keeps_addAddress stable_exists (by simp)).of_ok hrun hlink',
        fun other hother => (hgiven other).of_ok hrun (hold other hother)⟩,addAddress_given hv hlink' hrun,
        fun other _ hother => (hgiven other).of_ok hrun hother⟩
    · next hpresent =>
      cases hrun
      exact ⟨⟨hv,hlink',hold⟩,hold cidr (by simpa using hpresent),fun _ _ hother => hother⟩
  obtain ⟨-,hall⟩ := forM_done J D hturn hstart hadd
  intro cidr hcidr
  have hkeep : Keeps (fun v => v.box.linked d fun link => cidr ∈ link.addrs ∨ Unread cidr)
      ((w.box.addrs d).forM fun old => if !cidrs.eraseDups.contains old then do
          let _ ← tryRun (.addrDel old d)
        else pure ()) := by
    refine keeps_forM fun old _ => ?_
    split
    · next hstale =>
      refine keeps_bind (keeps_tryRun stable_given ⟨by simp,fun heq => ?_⟩) fun _ => keeps_pure _
      obtain rfl : old = cidr := by simpa using heq
      simp [hcidr] at hstale
    · exact keeps_pure _
  have hdone := hkeep.of_ok hdel (hall cidr (List.mem_eraseDups.mpr hcidr))
  exact (keeps_run stable_given (by simp)).of_ok h hdone

theorem bringUp_raised (hw : Calm w) (h : bringUp conf plan privateKey w = .ok () w') :
    w'.box.linked conf.IFACE (Raised conf plan privateKey) := by
  have honly := bringUp_addrs hw.quiet h
  obtain ⟨_,w₁,hensure,h⟩ := bind_ok h
  obtain ⟨_,w₂,hkey,h⟩ := bind_ok h
  have hw₁ := (keeps_ensureInterface (stable_calm fun _ => True) keeps_calm_probe trivial trivial).of_ok hensure hw
  have hw₂ := (keeps_setPrivateKey (stable_calm fun _ => True) fun _ _ => trivial).of_ok hkey hw₁
  have hkeyed : w₂.box.linked conf.IFACE (Keyed conf privateKey) := by
    obtain ⟨link,-,hb⟩ := onLink_ok (run_ok hkey)
    have hlinks := congrArg Box.links (Except.ok.inj hb)
    exact ⟨_,by rw [← hlinks, OrdMap.get?_set_self],rfl,or_again _ _⟩
  have hlink : w₂.box.linked conf.IFACE fun _ => True := by
    obtain ⟨link,hlink,-⟩ := hkeyed
    exact ⟨link,hlink,trivial⟩
  have hgiven := setAddresses_given hw₂ hlink h
  obtain ⟨link,hget,hup⟩ := isUp_setAddresses h
  obtain ⟨link',hget',hkeyed⟩ := (keeps_setAddresses stable_keyed (by simp [Cmd.keepsKey]) (by simp [Cmd.keepsKey])
    (by simp [Cmd.keepsKey])).of_ok h hkeyed
  obtain rfl := Option.some.inj (hget.symm.trans hget')
  refine ⟨link,hget,hkeyed,hup,fun cidr hcidr => ?_,fun cidr hcidr => ?_⟩
  · obtain ⟨link',hget',hmem⟩ := hgiven cidr hcidr
    obtain rfl := Option.some.inj (hget.symm.trans hget')
    exact hmem
  · exact honly cidr (by simpa [Box.addrs, hget] using hcidr)

end BringUp

end JumpHost.Mesh
