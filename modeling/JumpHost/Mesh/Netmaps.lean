import JumpHost.Library.Run
import JumpHost.Mesh.Calm

namespace JumpHost.Mesh

open Effect

section Copies

variable {b : Box} {e e' : IptEntry} {s s' : Net} {member member' : String}

theorem mem_eraseCopies_of_ne (h : e' ≠ e) (n : Nat) (es : List IptEntry) :
    e' ∈ eraseCopies e n es ↔ e' ∈ es := by
  induction n generalizing es with
  | zero => rw [eraseCopies]
  | succ n ih => rw [eraseCopies, ih, List.mem_erase_of_ne h]

theorem eraseCopies_sublist (e : IptEntry) (n : Nat) (es : List IptEntry) :
    (eraseCopies e n es).Sublist es := by
  induction n generalizing es with
  | zero => rw [eraseCopies]
  | succ n ih =>
    rw [eraseCopies]
    exact (ih _).trans List.erase_sublist

theorem mem_ensure : e' ∈ (b.ensure e).iptables ↔ e' ∈ b.iptables ∨ e' = e := by
  unfold Box.ensure
  split
  · next h => exact ⟨.inl,fun hmem => hmem.elim id fun heq => heq ▸ h⟩
  · simp

theorem count_ensure {n : Nat} (hn : 1 ≤ n) (h : b.iptables.count e' ≤ n) : (b.ensure e).iptables.count e' ≤ n := by
  unfold Box.ensure
  split
  · exact h
  · next hnew =>
    by_cases heq : e' = e
    · subst heq
      simpa [List.count_eq_zero_of_not_mem hnew] using hn
    · simpa [List.count_append, List.count_singleton, Ne.symm heq] using h

@[simp] theorem routes_ensure : (b.ensure e).routes = b.routes := by
  unfold Box.ensure
  split <;> rfl

@[simp] theorem applied_ensure : (b.ensure e).applied = b.applied := by
  unfold Box.ensure
  split <;> rfl

theorem iptables_withdraw : (b.withdraw e).iptables = eraseCopies e 33 b.iptables := rfl

theorem mem_withdraw_of_ne (h : e' ≠ e) : e' ∈ (b.withdraw e).iptables ↔ e' ∈ b.iptables := by
  rw [iptables_withdraw, mem_eraseCopies_of_ne h]

theorem withdraw_sublist : (b.withdraw e).iptables.Sublist b.iptables := by
  rw [iptables_withdraw]
  exact eraseCopies_sublist _ _ _

theorem eraseCopies_all {n : Nat} {es : List IptEntry} (h : es.count e ≤ n) :
    eraseCopies e n es = es.filter fun e' => !(e' == e) := by
  induction n generalizing es with
  | zero =>
    have hnone : e ∉ es := List.count_eq_zero.mp (Nat.le_zero.mp h)
    rw [eraseCopies, List.filter_eq_self.mpr]
    intro e' he'
    have hne : e' ≠ e := fun heq => hnone (heq ▸ he')
    simp [hne]
  | succ n ih =>
    have hcount : (es.erase e).count e ≤ n := by
      rw [List.count_erase_self]
      omega
    rw [eraseCopies, ih hcount]
    exact filter_erase (by simp)

theorem not_mem_withdraw (h : b.iptables.count e ≤ 33) : e ∉ (b.withdraw e).iptables := by
  rw [iptables_withdraw, eraseCopies_all h]
  simp

theorem exists_claim : ∃ r ∈ (b.claim s).routes, r.table = LOCAL ∧ r.net = s := by
  unfold Box.claim
  split
  · next h => simpa using h
  · exact ⟨⟨LOCAL,s,"lo"⟩,by simp,rfl,rfl⟩

theorem mem_claim {r : Route} (h : r ∈ b.routes) : r ∈ (b.claim s).routes := by
  unfold Box.claim
  split
  · exact h
  · exact List.mem_append_left _ h

@[simp] theorem iptables_claim : (b.claim s).iptables = b.iptables := by
  unfold Box.claim
  split <;> rfl

@[simp] theorem applied_claim : (b.claim s).applied = b.applied := by
  unfold Box.claim
  split <;> rfl

theorem mem_record : member' ∈ (b.record member).applied ↔ member' ∈ b.applied ∨ member' = member := by
  unfold Box.record
  split
  · next h =>
    have hmem : member ∈ b.applied := by simpa using h
    exact ⟨.inl,fun h => h.elim id fun heq => heq ▸ hmem⟩
  · simp

@[simp] theorem iptables_record : (b.record member).iptables = b.iptables := by
  unfold Box.record
  split <;> rfl

@[simp] theorem routes_record : (b.record member).routes = b.routes := by
  unfold Box.record
  split <;> rfl

theorem mem_forget : member' ∈ (b.forget member).applied ↔ member' ∈ b.applied ∧ member' ≠ member := by
  simp [Box.forget]

end Copies

section Text

theorem splitRecorded_recorded {shadow physical : String} {s p : Net}
    (hs : Net.parse shadow = some s) (hp : Net.parse physical = some p) :
    splitRecorded (recorded shadow physical) = (shadow,some physical) := by
  have hsbar : '|' ∉ shadow.toList := Net.not_mem_of_parse hs rfl
  have hpbar : '|' ∉ physical.toList := Net.not_mem_of_parse hp rfl
  have hsplit : (recorded shadow physical).toList.splitOn '|' = [shadow.toList,physical.toList] := by
    have htext : (recorded shadow physical).toList = shadow.toList ++ '|' :: physical.toList := by
      simp [recorded]
    rw [htext, List.splitOn_append_cons_self_of_not_mem hsbar, List.splitOn_eq_singleton hpbar]
  simp [splitRecorded, hsplit]

def blocksOf (member : String) : Option (Net × Net) :=
  match splitRecorded member with
  | (shadow,some physical) => do return (← Net.parse shadow,← Net.parse physical)
  | _ => none

theorem blocksOf_recorded {shadow physical : String} {s p : Net}
    (hs : Net.parse shadow = some s) (hp : Net.parse physical = some p) :
    blocksOf (recorded shadow physical) = some (s,p) := by
  simp [blocksOf, splitRecorded_recorded hs hp, hs, hp]

def Netmap.text (m : Netmap) : String := recorded m.shadow m.physical

def Netmap.blocks (m : Netmap) : Option (Net × Net) := do
  return (← Net.parse m.shadow,← Net.parse m.physical)

theorem Netmap.blocks_eq_some {m : Netmap} {s p : Net} :
    m.blocks = some (s,p) ↔ Net.parse m.shadow = some s ∧ Net.parse m.physical = some p := by
  simp only [Netmap.blocks]
  cases Net.parse m.shadow <;> cases Net.parse m.physical <;> simp

end Text

section Books

variable {iface : String} {b b' : Box} {e : IptEntry} {s p s' p' : Net}

def Maps (iface : String) (s p : Net) (e : IptEntry) : Prop :=
  e = inbound iface s p ∨ e = outbound iface s p

theorem Maps.unique (h : Maps iface s p e) (h' : Maps iface s' p' e) : s = s' ∧ p = p' := by
  rcases h with rfl | rfl <;> rcases h' with h' | h' <;>
    simp_all [inbound, outbound, preroutingNetmap, postroutingNetmap]

theorem Maps.ne_masquerade (h : Maps iface s p e) (p' : Net) : e ≠ masquerade iface p' := by
  rintro rfl
  rcases h with h | h <;> simp [inbound, outbound, masquerade, preroutingNetmap, postroutingNetmap,
    lanMasquerade] at h

theorem Maps.target (h : Maps iface s p e) : ∃ net, e.rule.target = .NETMAP net := by
  rcases h with rfl | rfl
  · exact ⟨p,rfl⟩
  · exact ⟨s,rfl⟩

theorem mem_netmap : e ∈ (b.netmap iface s p).iptables ↔
    e ∈ b.iptables ∨ Maps iface s p e ∨ e = masquerade iface p := by
  simp only [Box.netmap, mem_ensure, iptables_claim, Maps, or_assoc]

theorem mem_unmap_of_not_maps (hmaps : ¬ Maps iface s p e) (hne : e ≠ masquerade iface p) :
    e ∈ (b.unmap iface s p).iptables ↔ e ∈ b.iptables := by
  unfold Maps at hmaps
  push Not at hmaps
  simp only [Box.unmap, Box.unclaim]
  rw [mem_withdraw_of_ne hne, mem_withdraw_of_ne hmaps.2, mem_withdraw_of_ne hmaps.1]

theorem not_mem_unmap (hfew : b.iptables.count e ≤ 33) (hmaps : Maps iface s p e) :
    e ∉ (b.unmap iface s p).iptables := by
  intro hmem
  have hmem := withdraw_sublist.subset hmem
  rcases hmaps with rfl | rfl
  · exact not_mem_withdraw hfew (withdraw_sublist.subset hmem)
  · exact not_mem_withdraw ((withdraw_sublist.count_le _).trans hfew) hmem

theorem unmap_sublist : (b.unmap iface s p).iptables.Sublist b.iptables := by
  simp only [Box.unmap, Box.unclaim]
  exact withdraw_sublist.trans (withdraw_sublist.trans withdraw_sublist)

def Written (member : String) : Prop := ∃ shadow physical s p, member = recorded shadow physical ∧
  Net.parse shadow = some s ∧ Net.parse physical = some p

structure Booked (iface : String) (b : Box) : Prop where
  written : ∀ member ∈ b.applied, Written member
  known : ∀ s p e, Maps iface s p e → e ∈ b.iptables → ∃ member ∈ b.applied,
    blocksOf member = some (s,p)
  few : ∀ s p e, Maps iface s p e → b.iptables.count e ≤ 33

def OnRecord (b : Box) (pair : Net × Net) : Prop := ∃ member ∈ b.applied, blocksOf member = some pair

instance (b : Box) (pair : Net × Net) : Decidable (OnRecord b pair) :=
  inferInstanceAs (Decidable (∃ member ∈ b.applied, _))

structure Partly (iface : String) (s p : Net) (b b' : Box) : Prop where
  applied : b'.applied = b.applied
  own : ∀ e ∈ b'.iptables, e ∈ b.iptables ∨ Maps iface s p e ∨ e = masquerade iface p
  few : ∀ s' p' e, Maps iface s' p' e → b'.iptables.count e ≤ 33

theorem partly_refl (h : Booked iface b) (hiptables : b'.iptables = b.iptables) (happlied : b'.applied = b.applied) :
    Partly iface s p b b' := by
  refine ⟨happlied,fun e he => .inl (hiptables ▸ he),?_⟩
  rw [hiptables]
  exact h.few

theorem Partly.booked (h : Partly iface s p b b') (hb : Booked iface b) {applied : List String}
    (hwritten : ∀ member ∈ applied, Written member) (hold : ∀ member ∈ b.applied, member ∈ applied)
    (hpair : ∃ member ∈ applied, blocksOf member = some (s,p)) : Booked iface { b' with applied } where
  written := hwritten
  known s' p' e hmaps hmem := by
    rcases h.own e hmem with hmem | hself | hmasq
    · obtain ⟨member,hmember,hblocks⟩ := hb.known s' p' e hmaps hmem
      exact ⟨member,hold member hmember,hblocks⟩
    · obtain ⟨rfl,rfl⟩ := hmaps.unique hself
      exact hpair
    · exact absurd hmasq (hmaps.ne_masquerade p)
  few := h.few

theorem Partly.congr {b'' : Box} (h : Partly iface s p b b') (hiptables : b''.iptables = b'.iptables)
    (happlied : b''.applied = b'.applied) : Partly iface s p b b'' := by
  refine ⟨happlied.trans h.applied,?_,?_⟩
  · rw [hiptables]
    exact h.own
  · rw [hiptables]
    exact h.few

theorem Partly.known (h : Partly iface s p b b') (hb : Booked iface b) (hpair : OnRecord b (s,p)) :
    Booked iface b' := by
  have hbooked := h.booked hb hb.written (fun _ hmem => hmem) hpair
  rwa [← h.applied] at hbooked

theorem Partly.recorded {shadow physical : String} (h : Partly iface s p b b') (hb : Booked iface b)
    (hs : Net.parse shadow = some s) (hp : Net.parse physical = some p) :
    Booked iface (b'.record (recorded shadow physical)) := by
  have hrecord : b'.record (JumpHost.Mesh.recorded shadow physical) =
      { b' with applied := (b'.record (JumpHost.Mesh.recorded shadow physical)).applied } := by
    unfold Box.record
    split <;> rfl
  rw [hrecord]
  refine h.booked hb (fun member hmem => ?_) (fun member hmem => ?_) ⟨_,?_,blocksOf_recorded hs hp⟩
  · rw [mem_record, h.applied] at hmem
    rcases hmem with hmem | rfl
    · exact hb.written member hmem
    · exact ⟨shadow,physical,s,p,rfl,hs,hp⟩
  · rw [mem_record, h.applied]
    exact .inl hmem
  · exact mem_record.mpr (.inr rfl)

theorem partly_netmap (h : Booked iface b) : Partly iface s p b (b.netmap iface s p) where
  applied := by simp [Box.netmap]
  own e he := mem_netmap.mp he
  few s' p' e hmaps := by
    have hroom : 1 ≤ 33 := by decide
    refine count_ensure hroom ?_
    rw [iptables_claim]
    exact count_ensure hroom (count_ensure hroom (h.few s' p' e hmaps))

theorem booked_map {shadow physical : String} (h : Booked iface b) (hs : Net.parse shadow = some s)
    (hp : Net.parse physical = some p) :
    Booked iface ((b.netmap iface s p).record (recorded shadow physical)) := (partly_netmap h).recorded h hs hp

theorem booked_forget {member : String} (h : Booked iface b) (happlied : b'.applied = b.applied)
    (hsub : b'.iptables.Sublist b.iptables)
    (hblocks : blocksOf member = some (s,p))
    (hgone : (∃ other ∈ b.applied, other ≠ member ∧ blocksOf other = some (s,p)) ∨
      ∀ e, Maps iface s p e → e ∉ b'.iptables) : Booked iface (b'.forget member) where
  written member' hmem := h.written member' (happlied ▸ (mem_forget.mp hmem).1)
  known s' p' e hmaps hmem := by
    obtain ⟨member',hmember,hblocks'⟩ := h.known s' p' e hmaps (hsub.subset hmem)
    by_cases hself : member' = member
    · subst hself
      obtain ⟨rfl,rfl⟩ : s = s' ∧ p = p' := by simpa [hblocks] using hblocks'
      obtain ⟨other,hother,hne,hknown⟩ := hgone.resolve_right fun hgone => hgone e hmaps hmem
      exact ⟨other,mem_forget.mpr ⟨happlied ▸ hother,hne⟩,hknown⟩
    · exact ⟨member',mem_forget.mpr ⟨happlied ▸ hmember,hself⟩,hblocks'⟩
  few s' p' e hmaps := (hsub.count_le e).trans (h.few s' p' e hmaps)

theorem booked_unmap {member : String} (h : Booked iface b) (hblocks : blocksOf member = some (s,p)) :
    Booked iface ((b.unmap iface s p).forget member) :=
  booked_forget h rfl unmap_sublist hblocks (.inr fun e hmaps => not_mem_unmap (h.few s p e hmaps) hmaps)

theorem booked_of_none (hwritten : ∀ member ∈ b.applied, Written member)
    (hnone : ∀ s p e, Maps iface s p e → e ∉ b.iptables) : Booked iface b := by
  refine ⟨hwritten,fun s p e hmaps hmem => absurd hmem (hnone s p e hmaps),fun s p e hmaps => ?_⟩
  rw [List.count_eq_zero_of_not_mem (hnone s p e hmaps)]
  exact Nat.zero_le 33

theorem not_mem_of_nat (h : ∀ e ∈ b.iptables, e.table = .nat →
      e.rule.inIface ≠ some iface ∧ e.rule.outIface ≠ some iface)
    (hmaps : Maps iface s p e) : e ∉ b.iptables := by
  intro hmem
  rcases hmaps with rfl | rfl
  · exact (h _ hmem rfl).1 rfl
  · exact (h _ hmem rfl).2 rfl

theorem Booked.congr (h : Booked iface b) (happlied : b'.applied = b.applied)
    (hcount : ∀ e net, e.rule.target = .NETMAP net → b'.iptables.count e = b.iptables.count e) :
    Booked iface b' where
  written := by
    rw [happlied]
    exact h.written
  known s p e hmaps hmem := by
    obtain ⟨net,hnet⟩ := hmaps.target
    rw [← List.count_pos_iff, hcount e net hnet, List.count_pos_iff] at hmem
    rw [happlied]
    exact h.known s p e hmaps hmem
  few s p e hmaps := by
    obtain ⟨net,hnet⟩ := hmaps.target
    rw [hcount e net hnet]
    exact h.few s p e hmaps

theorem parse_target {rule : IptRule String} {rule' : IptRule Net} (h : rule.parse = some rule') :
    rule.target.parse = some rule'.target := by
  unfold IptRule.parse at h
  cases hsource : optional Net.parse rule.source with
  | none => simp [hsource] at h
  | some source =>
    cases hdest : optional Net.parse rule.dest with
    | none => simp [hsource, hdest] at h
    | some dest =>
      cases htarget : rule.target.parse with
      | none => simp [hsource, hdest, htarget] at h
      | some target =>
        simp only [hsource, hdest, htarget, Option.bind_eq_bind, Option.bind_some,
          Option.some.injEq] at h
        rw [← h]

theorem count_iptablesOp {op : IptOp} {table : Table} {chain : String} {rule : IptRule String}
    (h : b.iptablesOp op table chain rule = .ok b') (hrule : ∀ net, rule.target ≠ .NETMAP net)
    {e : IptEntry} {net : Net} (he : e.rule.target = .NETMAP net) :
    b'.iptables.count e = b.iptables.count e := by
  unfold Box.iptablesOp at h
  cases hparse : rule.parse with
  | none => simp [hparse, Box.refuse] at h
  | some rule' =>
    have hne : e ≠ ⟨table,chain,rule'⟩ := by
      rintro rfl
      have htarget := parse_target hparse
      rw [he] at htarget
      cases hr : rule.target <;> simp [hr, Target.parse] at htarget
      exact hrule _ hr
    simp only [hparse] at h
    cases op <;> simp only at h
    case check =>
      split at h <;> cases h
      rfl
    case append =>
      cases h
      simp [List.count_append, Ne.symm hne]
    case insert =>
      cases h
      rw [List.count_cons_of_ne (Ne.symm hne)]
    case delete =>
      split at h <;> cases h
      rw [List.count_erase_of_ne hne]

theorem booked_step {c : Cmd} {d : String} {peers : List Peer} (hc : c.ofMesh d peers) (h : b.step c = .ok b')
    (hb : Booked iface b) : Booked iface b' ∧ b'.applied = b.applied := by
  have hsame := sameBut_step h
  have happlied : b'.applied = b.applied := hsame.applied (by cases c <;> simp_all [Cmd.writes, Cmd.ofMesh])
  refine ⟨hb.congr happlied fun e net he => ?_,happlied⟩
  by_cases hw : .iptables ∈ c.writes
  · cases c <;> simp [Cmd.writes] at hw
    exact count_iptablesOp h hc he
  · rw [hsame.iptables hw]

theorem stable_booked (applied : List String) (d : String) (peers : List Peer) :
    Stable (fun w => Booked iface w.box ∧ w.box.applied = applied) (Cmd.ofMesh d peers) := by
  refine stable_box (I := fun b => Booked iface b ∧ b.applied = applied) fun b c b' hc h hb => ?_
  obtain ⟨hbooked,happlied⟩ := booked_step hc h hb.1
  exact ⟨hbooked,happlied.trans hb.2⟩

def Cmd.leavesNat (c : Cmd) : Prop := .iptables ∉ c.writes ∧ .applied ∉ c.writes

theorem stable_leftNat (applied : List String) :
    Stable (fun w => Booked iface w.box ∧ w.box.applied = applied) Cmd.leavesNat := by
  refine stable_box (I := fun b => Booked iface b ∧ b.applied = applied) fun b c b' hc h hb => ?_
  have hsame := sameBut_step h
  have happlied := hsame.applied hc.2
  exact ⟨hb.1.congr happlied fun e _ _ => by rw [hsame.iptables hc.1],happlied.trans hb.2⟩

theorem probe_booked {probeName : String} (applied : List String) :
    Keeps (fun w => Booked iface w.box ∧ w.box.applied = applied) (probeKernel probeName) :=
  keeps_probeKernel (stable_leftNat applied) (by simp [Cmd.leavesNat, Cmd.writes])
    (by simp [Cmd.leavesNat, Cmd.writes])

structure Mapped (iface : String) (b : Box) (s p : Net) : Prop where
  inbound : inbound iface s p ∈ b.iptables
  outbound : outbound iface s p ∈ b.iptables
  masquerade : masquerade iface p ∈ b.iptables
  route : ∃ r ∈ b.routes, r.table = LOCAL ∧ r.net = s

theorem mapped_self {member : String} : Mapped iface ((b.netmap iface s p).record member) s p := by
  refine ⟨?_,?_,?_,?_⟩
  · rw [iptables_record, mem_netmap]
    exact .inr (.inl (.inl rfl))
  · rw [iptables_record, mem_netmap]
    exact .inr (.inl (.inr rfl))
  · rw [iptables_record, mem_netmap]
    exact .inr (.inr rfl)
  · rw [routes_record, Box.netmap, routes_ensure]
    exact exists_claim

theorem mapped_map {member : String} (h : Mapped iface b s' p') :
    Mapped iface ((b.netmap iface s p).record member) s' p' := by
  have hmem : ∀ e ∈ b.iptables, e ∈ ((b.netmap iface s p).record member).iptables := fun e he => by
    rw [iptables_record, mem_netmap]
    exact .inl he
  obtain ⟨r,hr,htable,hnet⟩ := h.route
  refine ⟨hmem _ h.inbound,hmem _ h.outbound,hmem _ h.masquerade,r,?_,htable,hnet⟩
  rw [routes_record, Box.netmap, routes_ensure]
  exact mem_claim (by simpa using hr)

theorem mapped_unmap {member : String} (hs : s' ≠ s) (hp : p' ≠ p) (h : Mapped iface b s' p') :
    Mapped iface ((b.unmap iface s p).forget member) s' p' := by
  have hmaps : ∀ e, Maps iface s' p' e → ¬ Maps iface s p e :=
    fun e he hself => hs (he.unique hself).1
  have hrule : ∀ e, Maps iface s' p' e → e ∈ b.iptables → e ∈ (b.unmap iface s p).iptables :=
    fun e he hmem => (mem_unmap_of_not_maps (hmaps e he) (he.ne_masquerade p)).mpr hmem
  have hmasq : ∀ e, Maps iface s p e → masquerade iface p' ≠ e :=
    fun e he heq => he.ne_masquerade p' heq.symm
  refine ⟨hrule _ (.inl rfl) h.inbound,hrule _ (.inr rfl) h.outbound,?_,?_⟩
  · refine (mem_unmap_of_not_maps (fun hself => hmasq _ hself rfl) ?_).mpr h.masquerade
    simpa [JumpHost.Mesh.masquerade, lanMasquerade] using hp
  · obtain ⟨r,hr,htable,rfl⟩ := h.route
    refine ⟨r,?_,htable,rfl⟩
    simp only [Box.forget, Box.unmap, Box.unclaim, Box.withdraw]
    rw [List.mem_erase_of_ne fun heq => hs (by rw [heq])]
    exact hr

end Books

section Pass

variable {conf : MeshConf} {netmaps : List Netmap} {b : Box} {w w' : World}

def clashes (member : String) (m : Netmap) : Bool :=
  (blocksOf member).any fun q => Net.parse m.shadow == some q.1 || Net.parse m.physical == some q.2

def Undisturbed (netmaps : List Netmap) (applied : List String) : Prop :=
  ∀ member ∈ applied, member ∈ netmaps.map Netmap.text ∨ ∀ m ∈ netmaps, clashes member m = false

instance (netmaps : List Netmap) (applied : List String) : Decidable (Undisturbed netmaps applied) :=
  inferInstanceAs (Decidable (∀ member ∈ applied, _ ∨ _))

theorem takes_applyMap {m : Netmap} {s p : Net} (hm : m.blocks = some (s,p))
    (failed : List Failure) : Takes Calm World.box (applyMap conf failed m) b
      ((b.netmap conf.IFACE s p).record m.text) := by
  obtain ⟨hs,hp⟩ := Netmap.blocks_eq_some.mp hm
  refine takes_noting ((takes_applyNetmap conf.named hs hp).bind fun changed => ?_) _ _
  have hrecord : (b.netmap conf.IFACE s p).step (.sAdd m.text) =
      .ok ((b.netmap conf.IFACE s p).record m.text) := by
    simp only [Box.step, Box.record]
  exact (gives_tryRun hrecord).takes_bind (takes_pure _)

theorem takes_removeStale {wanted : List String} {shadow physical : String} {s p : Net}
    (hs : Net.parse shadow = some s) (hp : Net.parse physical = some p)
    (hstale : recorded shadow physical ∉ wanted) (failed : List Failure) :
    Takes Calm World.box (removeStale conf wanted failed (recorded shadow physical)) b
      ((b.unmap conf.IFACE s p).forget (recorded shadow physical)) := by
  have hcontains : ¬ wanted.contains (recorded shadow physical) = true := by simpa using hstale
  unfold removeStale
  rw [if_neg hcontains, splitRecorded_recorded hs hp]
  refine takes_noting ((gives_removeNetmap conf.named hs hp).takes.bind fun removed => ?_) _ _
  have hforget : (b.unmap conf.IFACE s p).step (.sRem (recorded shadow physical)) =
      .ok ((b.unmap conf.IFACE s p).forget (recorded shadow physical)) := rfl
  exact (gives_tryRun hforget).takes_bind (takes_pure _)

theorem takes_applyMap_refused {m : Netmap} (hm : m.blocks = none) (hshadow : m.shadow ≠ "")
    (hphysical : m.physical ≠ "") (failed : List Failure) :
    Takes Calm World.box (applyMap conf failed m) b b := by
  have hrule : (preroutingNetmap conf.IFACE m.shadow m.physical).parse = none := by
    simp only [Netmap.blocks] at hm
    simp only [IptRule.parse, preroutingNetmap, optional, Target.parse]
    cases hs : Net.parse m.shadow with
    | none => simp
    | some s =>
      cases hp : Net.parse m.physical with
      | none => simp
      | some p => simp [hs, hp] at hm
  have hfails := fails_applyNetmap (b := b) conf.named hshadow hphysical hrule
  unfold applyMap noting
  exact (hfails.bind _).caught failed fun err => failed ++ [Failure.mk ("netmap " ++ m.shadow) err]

def Standing (conf : MeshConf) (b : Box) (m : Netmap) : Prop :=
  ∀ s p, m.blocks = some (s,p) → m.text ∈ b.applied ∧ Mapped conf.IFACE b s p

def Netmap.Stated (m : Netmap) : Prop := m.shadow ≠ "" ∧ m.physical ≠ ""

theorem Netmap.stated_of_blocks {m : Netmap} (h : m.blocks.isSome) : m.Stated := by
  obtain ⟨⟨s,p⟩,hsp⟩ := Option.isSome_iff_exists.mp h
  obtain ⟨hs,hp⟩ := Netmap.blocks_eq_some.mp hsp
  exact ⟨ne_empty_of_parse hs,ne_empty_of_parse hp⟩

theorem standing_map {m : Netmap} {member : String} {s p : Net} (h : Standing conf b m) :
    Standing conf ((b.netmap conf.IFACE s p).record member) m := by
  intro s' p' hm
  obtain ⟨hold,hmapped⟩ := h s' p' hm
  exact ⟨mem_record.mpr (.inl (by simpa [Box.netmap] using hold)),mapped_map hmapped⟩

theorem applyMap_turn {m : Netmap} (hm : m.Stated) (hw : Calm w) (failed : List Failure) :
    ∃ failed' w', applyMap conf failed m w = .ok failed' w' ∧ Calm w' ∧ ((m.blocks = none ∧ w'.box = w.box) ∨
      ∃ s p, m.blocks = some (s,p) ∧ w'.box = (w.box.netmap conf.IFACE s p).record m.text) := by
  cases hsp : m.blocks with
  | none =>
    obtain ⟨failed',w',hrun,hw',hbox⟩ := takes_applyMap_refused hsp hm.1 hm.2 failed w hw rfl
    exact ⟨failed',w',hrun,hw',.inl ⟨rfl,hbox⟩⟩
  | some pair =>
    obtain ⟨failed',w',hrun,hw',hbox⟩ := takes_applyMap hsp failed w hw rfl
    exact ⟨failed',w',hrun,hw',.inr ⟨pair.1,pair.2,rfl,hbox⟩⟩

theorem removeStale_turn {wanted : List String} {member : String} (hmember : Written member) (hw : Calm w)
    (failed : List Failure) : ∃ failed' w', removeStale conf wanted failed member w = .ok failed' w' ∧ Calm w' ∧
      ((member ∈ wanted ∧ w'.box = w.box) ∨ ∃ s p, member ∉ wanted ∧ blocksOf member = some (s,p) ∧
        w'.box = (w.box.unmap conf.IFACE s p).forget member) := by
  by_cases hwanted : member ∈ wanted
  · have hrun : removeStale conf wanted failed member w = .ok failed w := by
      unfold removeStale
      rw [if_pos (by simpa using hwanted)]
      rfl
    exact ⟨failed,w,hrun,hw,.inl ⟨hwanted,rfl⟩⟩
  · obtain ⟨shadow,physical,s,p,rfl,hs,hp⟩ := hmember
    obtain ⟨failed',w',hrun,hw',hbox⟩ := takes_removeStale hs hp hwanted failed w hw rfl
    exact ⟨failed',w',hrun,hw',.inr ⟨s,p,hwanted,blocksOf_recorded hs hp,hbox⟩⟩

theorem applyMaps_ok (hstated : ∀ m ∈ netmaps, m.Stated) (hw : Calm w)
    (hb : Booked conf.IFACE w.box) (failed : List Failure) :
    ∃ failed' w', netmaps.foldlM (applyMap conf) failed w = .ok failed' w' ∧ Calm w' ∧
      Booked conf.IFACE w'.box ∧ (∀ m ∈ netmaps, Standing conf w'.box m) ∧
      ∀ member ∈ w'.box.applied, member ∈ w.box.applied ∨ member ∈ netmaps.map Netmap.text := by
  let J : List Failure → World → Prop := fun _ v => Calm v ∧ Booked conf.IFACE v.box ∧
    ∀ member ∈ v.box.applied, member ∈ w.box.applied ∨ member ∈ netmaps.map Netmap.text
  let D : Netmap → List Failure → World → Prop := fun m _ v => Standing conf v.box m
  have hturn : ∀ m ∈ netmaps, ∀ failed v, J failed v → ∃ failed' v',
      applyMap conf failed m v = .ok failed' v' ∧ J failed' v' ∧ D m failed' v' ∧
        ∀ q ∈ netmaps, D q failed v → D q failed' v' := by
    rintro m hm failed v ⟨hv,hbooked,hknown⟩
    obtain ⟨failed',v',hrun,hv',⟨hsp,hbox⟩ | ⟨s,p,hsp,hbox⟩⟩ := applyMap_turn (hstated m hm) hv failed
    · refine ⟨failed',v',hrun,⟨hv',hbox ▸ hbooked,hbox ▸ hknown⟩,fun s p hsp' => ?_,fun q _ hq => ?_⟩
      · rw [hsp] at hsp'
        cases hsp'
      · change Standing conf v'.box q
        rwa [hbox]
    · obtain ⟨hs,hp⟩ := Netmap.blocks_eq_some.mp hsp
      have happlied : ∀ member, member ∈ v'.box.applied ↔ member ∈ v.box.applied ∨ member = m.text := by
        intro member
        rw [hbox, mem_record]
        simp [Box.netmap]
      refine ⟨failed',v',hrun,⟨hv',?_,fun member hmem => ?_⟩,fun s' p' hsp' => ?_,fun q _ hq => ?_⟩
      · rw [hbox]
        exact booked_map hbooked hs hp
      · rcases (happlied member).mp hmem with hold | rfl
        · exact hknown member hold
        · exact .inr (List.mem_map_of_mem hm)
      · obtain ⟨rfl,rfl⟩ : s = s' ∧ p = p' := by simpa [hsp] using hsp'
        refine ⟨(happlied _).mpr (.inr rfl),?_⟩
        rw [hbox]
        exact mapped_self
      · change Standing conf v'.box q
        rw [hbox]
        exact standing_map hq
  obtain ⟨failed',w',hrun,⟨hw',hbooked,hknown⟩,hstanding⟩ :=
    foldlM_each J D hturn (show J failed w from ⟨hw,hb,fun member h => .inl h⟩)
  exact ⟨failed',w',hrun,hw',hbooked,hstanding,hknown⟩

theorem standing_unmap {m : Netmap} {member : String} {s p : Net}
    (hblocks : blocksOf member = some (s,p)) (hother : m.text ≠ member)
    (hclash : clashes member m = false) (h : Standing conf b m) :
    Standing conf ((b.unmap conf.IFACE s p).forget member) m := by
  intro s' p' hm
  obtain ⟨hs,hp⟩ := Netmap.blocks_eq_some.mp hm
  obtain ⟨hrecorded,hmapped⟩ := h s' p' hm
  have hne : s' ≠ s ∧ p' ≠ p := by simpa [clashes, hblocks, hs, hp] using hclash
  exact ⟨mem_forget.mpr ⟨hrecorded,hother⟩,mapped_unmap hne.1 hne.2 hmapped⟩

theorem removeStales_ok (netmaps : List Netmap) {listed : List String} (hw : Calm w)
    (hb : Booked conf.IFACE w.box) (hlisted : w.box.applied = listed) (failed : List Failure) :
    ∃ failed' w', listed.foldlM (removeStale conf (netmaps.map Netmap.text)) failed w =
        .ok failed' w' ∧ Calm w' ∧ Booked conf.IFACE w'.box ∧
      (∀ member ∈ w'.box.applied, member ∈ netmaps.map Netmap.text) ∧
      (Undisturbed netmaps listed → (∀ m ∈ netmaps, Standing conf w.box m) →
        ∀ m ∈ netmaps, Standing conf w'.box m) := by
  let wanted := netmaps.map Netmap.text
  let Stands : World → Prop := fun v => ∀ m ∈ netmaps, Standing conf v.box m
  let J : List Failure → World → Prop := fun _ v => Calm v ∧ Booked conf.IFACE v.box ∧
    (∀ member ∈ v.box.applied, member ∈ listed) ∧ (Undisturbed netmaps listed → Stands w → Stands v)
  let D : String → List Failure → World → Prop := fun member _ v =>
    member ∈ v.box.applied → member ∈ wanted
  have hturn : ∀ member ∈ listed, ∀ failed v, J failed v → ∃ failed' v',
      removeStale conf wanted failed member v = .ok failed' v' ∧ J failed' v' ∧ D member failed' v' ∧
        ∀ q ∈ listed, D q failed v → D q failed' v' := by
    rintro member hmember failed v ⟨hv,hbooked,hknown,hstands⟩
    obtain ⟨failed',v',hrun,hv',⟨hwanted,hbox⟩ | ⟨s,p,hunwanted,hblocks,hbox⟩⟩ :=
      removeStale_turn (hb.written member (hlisted ▸ hmember)) hv failed
    · refine ⟨failed',v',hrun,⟨hv',hbox ▸ hbooked,hbox ▸ hknown,fun hcalm hst => ?_⟩,fun _ => hwanted,
        fun q _ hq => ?_⟩
      · change ∀ m ∈ netmaps, Standing conf v'.box m
        rw [hbox]
        exact hstands hcalm hst
      · change q ∈ v'.box.applied → q ∈ wanted
        rw [hbox]
        exact hq
    · have happlied : ∀ member', member' ∈ v'.box.applied → member' ∈ v.box.applied ∧ member' ≠ member := by
        intro member' hmem
        rw [hbox] at hmem
        exact mem_forget.mp hmem
      refine ⟨failed',v',hrun,⟨hv',?_,fun q hq => hknown q (happlied q hq).1,fun hcalm hst m hm => ?_⟩,
        fun hmem => absurd rfl (happlied _ hmem).2,fun q _ hq hmem => hq (happlied q hmem).1⟩
      · rw [hbox]
        exact booked_unmap hbooked hblocks
      · have hclash := (hcalm _ hmember).resolve_left hunwanted m hm
        have hother : m.text ≠ member := fun heq => hunwanted (heq ▸ List.mem_map_of_mem hm)
        rw [hbox]
        exact standing_unmap hblocks hother hclash (hstands hcalm hst m hm)
  obtain ⟨failed',w',hrun,⟨hw',hbooked,hknown,hstands⟩,hleft⟩ :=
    foldlM_each J D hturn (show J failed w from ⟨hw,hb,fun member h => hlisted ▸ h,fun _ h => h⟩)
  exact ⟨failed',w',hrun,hw',hbooked,fun member hmem => hleft member (hknown member hmem) hmem,hstands⟩

theorem listApplied_ok (hw : Calm w) : listAppliedNetmaps w = .ok w.box.applied w := by
  have hread : w.box.step .sMembers = .ok w.box := rfl
  unfold listAppliedNetmaps query
  rw [bind_apply, bind_of_ok (tryRun_quiet hw.quiet hread)]
  rfl

theorem applyNetmaps_ok (hstated : ∀ m ∈ netmaps, m.Stated) (hw : Calm w)
    (hb : Booked conf.IFACE w.box) (failed : List Failure) :
    ∃ failed' w', applyNetmaps conf netmaps failed w = .ok failed' w' ∧ Calm w' ∧
      Booked conf.IFACE w'.box ∧ (∀ member ∈ w'.box.applied, member ∈ netmaps.map Netmap.text) ∧
      (Undisturbed netmaps w.box.applied → ∀ m ∈ netmaps, Standing conf w'.box m) := by
  obtain ⟨failed₁,w₁,hmaps,hw₁,hb₁,hstanding,hknown⟩ := applyMaps_ok hstated hw hb failed
  obtain ⟨failed₂,w₂,hstales,hw₂,hb₂,hleft,hstands⟩ :=
    removeStales_ok netmaps hw₁ hb₁ rfl failed₁
  refine ⟨failed₂,w₂,?_,hw₂,hb₂,hleft,fun hcalm => hstands (fun member hmem => ?_) hstanding⟩
  · unfold applyNetmaps
    rw [bind_of_ok hmaps, bind_of_ok (listApplied_ok hw₁)]
    exact hstales
  · rcases hknown member hmem with hold | hnew
    · exact hcalm member hold
    · exact .inl hnew

theorem applyMaps_keeps {I : Box → Prop} (hmap : ∀ b s p member, I b → I ((b.netmap conf.IFACE s p).record member))
    (hstated : ∀ m ∈ netmaps, m.Stated) (hw : Calm w) (hb : Booked conf.IFACE w.box) (hI : I w.box)
    (failed : List Failure) : ∃ failed' w', netmaps.foldlM (applyMap conf) failed w = .ok failed' w' ∧
      Calm w' ∧ Booked conf.IFACE w'.box ∧ I w'.box := by
  let J : List Failure → World → Prop := fun _ v => Calm v ∧ Booked conf.IFACE v.box ∧ I v.box
  refine foldlM_all J ?_ (show J failed w from ⟨hw,hb,hI⟩)
  rintro m hm failed v ⟨hv,hbooked,hIv⟩
  obtain ⟨failed',v',hrun,hv',⟨-,hbox⟩ | ⟨s,p,hsp,hbox⟩⟩ := applyMap_turn (hstated m hm) hv failed
  · exact ⟨failed',v',hrun,hv',hbox ▸ ⟨hbooked,hIv⟩⟩
  · obtain ⟨hs,hp⟩ := Netmap.blocks_eq_some.mp hsp
    refine ⟨failed',v',hrun,hv',?_⟩
    rw [hbox]
    exact ⟨booked_map hbooked hs hp,hmap _ s p m.text hIv⟩

theorem removeStales_keeps {I : Box → Prop} {wanted listed : List String}
    (hunmap : ∀ b s p member, Booked conf.IFACE b → I b → I ((b.unmap conf.IFACE s p).forget member))
    (hlisted : ∀ member ∈ listed, Written member) (hw : Calm w) (hb : Booked conf.IFACE w.box) (hI : I w.box)
    (failed : List Failure) : ∃ failed' w', listed.foldlM (removeStale conf wanted) failed w = .ok failed' w' ∧
      Calm w' ∧ Booked conf.IFACE w'.box ∧ I w'.box := by
  let J : List Failure → World → Prop := fun _ v => Calm v ∧ Booked conf.IFACE v.box ∧ I v.box
  refine foldlM_all J ?_ (show J failed w from ⟨hw,hb,hI⟩)
  rintro member hmember failed v ⟨hv,hbooked,hIv⟩
  obtain ⟨failed',v',hrun,hv',⟨-,hbox⟩ | ⟨s,p,-,hblocks,hbox⟩⟩ := removeStale_turn (hlisted member hmember) hv failed
  · exact ⟨failed',v',hrun,hv',hbox ▸ ⟨hbooked,hIv⟩⟩
  · refine ⟨failed',v',hrun,hv',?_⟩
    rw [hbox]
    exact ⟨booked_unmap hbooked hblocks,hunmap _ s p member hbooked hIv⟩

theorem applyNetmaps_keeps {I : Box → Prop} {failed failed' : List Failure}
    (hmap : ∀ b s p member, I b → I ((b.netmap conf.IFACE s p).record member))
    (hunmap : ∀ b s p member, Booked conf.IFACE b → I b → I ((b.unmap conf.IFACE s p).forget member))
    (hstated : ∀ m ∈ netmaps, m.Stated) (hw : Calm w) (hb : Booked conf.IFACE w.box) (hI : I w.box)
    (h : applyNetmaps conf netmaps failed w = .ok failed' w') : I w'.box := by
  obtain ⟨failed₁,w₁,hmaps,hw₁,hb₁,hI₁⟩ := applyMaps_keeps hmap hstated hw hb hI failed
  obtain ⟨failed₂,w₂,hstales,-,-,hI₂⟩ := removeStales_keeps hunmap hb₁.written hw₁ hb₁ hI₁ failed₁
  unfold applyNetmaps at h
  rw [bind_of_ok hmaps, bind_of_ok (listApplied_ok hw₁)] at h
  change w₁.box.applied.foldlM (removeStale conf (netmaps.map Netmap.text)) failed₁ w₁ = _ at h
  rw [hstales] at h
  cases h
  exact hI₂

structure Converged (conf : MeshConf) (netmaps : List Netmap) (b : Box) : Prop where
  planned : ∀ m ∈ netmaps, ∀ s p, m.blocks = some (s,p) → Mapped conf.IFACE b s p
  others : ∀ s p, (∀ m ∈ netmaps, m.blocks ≠ some (s,p)) →
    inbound conf.IFACE s p ∉ b.iptables ∧ outbound conf.IFACE s p ∉ b.iptables

theorem others_absent (hblocks : ∀ m ∈ netmaps, m.blocks.isSome) (hb : Booked conf.IFACE b)
    (hleft : ∀ member ∈ b.applied, member ∈ netmaps.map Netmap.text) {s p : Net} {e : IptEntry}
    (hother : ∀ m ∈ netmaps, m.blocks ≠ some (s,p)) (he : Maps conf.IFACE s p e) :
    e ∉ b.iptables := by
  intro hmem
  obtain ⟨member,happlied,hmember⟩ := hb.known s p e he hmem
  obtain ⟨m,hm,rfl⟩ := List.mem_map.mp (hleft member happlied)
  obtain ⟨⟨s',p'⟩,hsp⟩ := Option.isSome_iff_exists.mp (hblocks m hm)
  obtain ⟨hs,hp⟩ := Netmap.blocks_eq_some.mp hsp
  exact hother m hm (hsp.trans ((blocksOf_recorded hs hp).symm.trans hmember))

structure Pass where
  plan : Plan
  privateKey : String

def passStep (conf : MeshConf) (w : World) (pass : Pass) : Option World :=
  match applyPlan conf pass.plan pass.privateKey w with
  | .ok _ w' => some w'
  | .error _ _ => none

theorem applyPlan_maps {plan : Plan} {privateKey : String} {applied : Applied}
    (hstated : ∀ m ∈ plan.netmaps, m.Stated) (hw : Calm w) (hb : Booked conf.IFACE w.box)
    (h : applyPlan conf plan privateKey w = .ok applied w') : Calm w' ∧ Booked conf.IFACE w'.box ∧
      (∀ member ∈ w'.box.applied, member ∈ plan.netmaps.map Netmap.text) ∧
      (Undisturbed plan.netmaps w.box.applied → ∀ m ∈ plan.netmaps, Standing conf w'.box m) := by
  rw [applyPlan_eq] at h
  obtain ⟨done,w₁,hbefore,h⟩ := bind_ok h
  have hcalm := (keeps_beforeNetmaps (stable_calm _)
    (fun _ => keeps_probeKernel (stable_calm fun _ => True) trivial trivial) privateKey).of_ok hbefore hw
  have hbooks := (keeps_beforeNetmaps (stable_booked w.box.applied conf.IFACE _)
    (fun _ => probe_booked _) privateKey).of_ok hbefore ⟨hb,rfl⟩
  obtain ⟨failed,w₂,hrun,hw₂⟩ := applyNetmaps_ok hstated hcalm hbooks.1 done.1
  rw [bind_of_ok hrun] at h
  cases h
  rw [hbooks.2] at hw₂
  exact hw₂

theorem passStep_ok {pass : Pass} (h : passStep conf w pass = some w')
    (hblocks : ∀ m ∈ pass.plan.netmaps, m.blocks.isSome) (hw : Calm w)
    (hb : Booked conf.IFACE w.box) : Calm w' ∧ Booked conf.IFACE w'.box ∧
      (∀ member ∈ w'.box.applied, member ∈ pass.plan.netmaps.map Netmap.text) ∧
      (Undisturbed pass.plan.netmaps w.box.applied →
        ∀ m ∈ pass.plan.netmaps, Standing conf w'.box m) := by
  unfold passStep at h
  split at h
  · next applied v happly =>
    cases h
    exact applyPlan_maps (fun m hm => Netmap.stated_of_blocks (hblocks m hm)) hw hb happly
  · cases h

structure Fresh (conf : MeshConf) (b : Box) : Prop where
  nat : ∀ e ∈ b.iptables, e.table = .nat →
    e.rule.inIface ≠ some conf.IFACE ∧ e.rule.outIface ≠ some conf.IFACE
  applied : b.applied = []

theorem Fresh.booked (h : Fresh conf b) : Booked conf.IFACE b := by
  refine booked_of_none (fun member hmem => ?_) fun s p e hmaps => not_mem_of_nat h.nat hmaps
  rw [h.applied] at hmem
  cases hmem

theorem booked_run {passes : List Pass} (hw : Calm w) (hb : Booked conf.IFACE w.box)
    (hblocks : ∀ pass ∈ passes, ∀ m ∈ pass.plan.netmaps, m.blocks.isSome)
    (h : Run.exec (passStep conf) w passes = some w') : Calm w' ∧ Booked conf.IFACE w'.box := by
  refine Run.invariant_of_mem (P := fun v => Calm v ∧ Booked conf.IFACE v.box)
    (fun v pass v' hv hpass hstep => ?_) ⟨hw,hb⟩ h
  have hafter := passStep_ok hstep (hblocks pass hpass) hv.1 hv.2
  exact ⟨hafter.1,hafter.2.1⟩

theorem netmaps_converge {passes : List Pass} {last : Pass} {w₁ : World} (hcalm : Calm w)
    (hfresh : Fresh conf w.box)
    (hblocks : ∀ pass ∈ passes ++ [last], ∀ m ∈ pass.plan.netmaps, m.blocks.isSome)
    (h₁ : Run.exec (passStep conf) w passes = some w₁) (h : passStep conf w₁ last = some w')
    (hundisturbed : Undisturbed last.plan.netmaps w₁.box.applied) :
    Converged conf last.plan.netmaps w'.box := by
  have hearlier : ∀ pass ∈ passes, ∀ m ∈ pass.plan.netmaps, m.blocks.isSome :=
    fun pass hpass => hblocks pass (by simp [hpass])
  have hlast := hblocks last (by simp)
  obtain ⟨hw₁,hb₁⟩ := booked_run hcalm hfresh.booked hearlier h₁
  obtain ⟨-,hb,hleft,hstanding⟩ := passStep_ok h hlast hw₁ hb₁
  refine ⟨fun m hm s p hsp => (hstanding hundisturbed m hm s p hsp).2,fun s p hother => ?_⟩
  exact ⟨others_absent hlast hb hleft hother (.inl rfl),
    others_absent hlast hb hleft hother (.inr rfl)⟩

end Pass

section OneLan

def bare : World where
  box := {}
  faults _ _ := none

def lanPass (slot : Nat) (shadow physical : String) : Pass where
  privateKey := "key"
  plan := {
    siteId := .ofInt 2
    addresses := ["172.24.0.2/32","10.2.0.1/16"]
    peers := []
    routes := [⟨"10.0.0.0/8","wg-mesh"⟩,⟨"172.24.0.0/16","wg-mesh"⟩]
    netmaps := [⟨slot,shadow,physical⟩]
    siteCidr := "10.2.0.0/16" }

def oneLan : Pass := lanPass 168 "10.2.168.0/24" "192.168.1.0/24"

def otherLan : Pass := lanPass 172 "10.2.172.0/24" "172.16.0.0/24"

def movedLan : Pass := lanPass 168 "10.2.168.0/24" "192.168.50.0/24"

theorem bare_calm : Calm bare := ⟨rfl,nofun⟩

theorem bare_fresh : Fresh wgMesh bare.box := ⟨fun _ h => absurd h List.not_mem_nil,rfl⟩

theorem lan_blocks : ∀ pass ∈ [oneLan,otherLan,movedLan], ∀ m ∈ pass.plan.netmaps,
    m.blocks.isSome := by decide +kernel

theorem netmaps_converge_otherLan : ∃ w₁ w', Run.exec (passStep wgMesh) bare [oneLan] = some w₁ ∧
    passStep wgMesh w₁ otherLan = some w' ∧ Converged wgMesh otherLan.plan.netmaps w'.box := by
  have hrun : (Run.exec (passStep wgMesh) bare [oneLan]).any (fun w₁ =>
      decide (Undisturbed otherLan.plan.netmaps w₁.box.applied) &&
        (passStep wgMesh w₁ otherLan).isSome) = true := by decide +kernel
  obtain ⟨w₁,h₁,hlast⟩ := (Option.any_eq_true _ _).mp hrun
  obtain ⟨hundisturbed,hlast⟩ := Bool.and_eq_true_iff.mp hlast
  obtain ⟨w',h⟩ := Option.isSome_iff_exists.mp hlast
  have hblocks : ∀ pass ∈ [oneLan] ++ [otherLan], ∀ m ∈ pass.plan.netmaps, m.blocks.isSome :=
    fun pass hpass => lan_blocks pass (List.mem_append_left [movedLan] hpass)
  exact ⟨w₁,w',h₁,h,netmaps_converge bare_calm bare_fresh hblocks h₁ h (of_decide_eq_true hundisturbed)⟩

theorem netmaps_diverge : (∀ pass ∈ [oneLan,movedLan], (pass.plan.netmaps.map Netmap.shadow).Nodup ∧
      ∀ m ∈ pass.plan.netmaps, m.blocks.isSome) ∧ Calm bare ∧ Fresh wgMesh bare.box ∧
    ∃ w', Run.exec (passStep wgMesh) bare [oneLan,movedLan] = some w' ∧
      ¬ Converged wgMesh movedLan.plan.netmaps w'.box := by
  have hshadows : ∀ pass ∈ [oneLan,movedLan], (pass.plan.netmaps.map Netmap.shadow).Nodup := by decide
  refine ⟨fun pass hpass => ⟨hshadows pass hpass,lan_blocks pass (by grind)⟩,bare_calm,bare_fresh,?_⟩
  have hrun : (Run.exec (passStep wgMesh) bare [oneLan,movedLan]).any (fun w' =>
      w'.box.routes.all fun r => !(r.table == LOCAL && Net.parse "10.2.168.0/24" == some r.net)) =
        true := by decide +kernel
  obtain ⟨w',h,hnone⟩ := (Option.any_eq_true _ _).mp hrun
  refine ⟨w',h,fun hconverged => ?_⟩
  obtain ⟨⟨s,p⟩,hsp⟩ := Option.isSome_iff_exists.mp (lan_blocks movedLan (by simp) _ List.mem_cons_self)
  obtain ⟨r,hr,htable,rfl⟩ := (hconverged.planned _ List.mem_cons_self s p hsp).route
  have hshadow : Net.parse "10.2.168.0/24" = some r.net := (Netmap.blocks_eq_some.mp hsp).1
  have hr := List.all_eq_true.mp hnone r hr
  simp [htable, hshadow] at hr

end OneLan

end JumpHost.Mesh
