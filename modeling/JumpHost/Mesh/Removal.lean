import JumpHost.Library.Quad
import JumpHost.Mesh.Netmaps

namespace JumpHost.Mesh

open Effect

def ownRules (iface : String) (s p : Net) : List IptEntry :=
  [inbound iface s p,outbound iface s p,masquerade iface p]

structure Removed (iface : String) (s p : Net) (b : Box) (removed : Nat) (b' : Box) : Prop where
  own : ∀ e ∈ ownRules iface s p, b'.iptables.count e = b.iptables.count e - 33
  others : (b'.iptables.filter fun e => !(ownRules iface s p).contains e) =
    b.iptables.filter fun e => !(ownRules iface s p).contains e
  counted : removed + b'.iptables.length = b.iptables.length
  rest : b' = { b with iptables := b'.iptables, routes := b.routes.erase ⟨LOCAL,s,"lo"⟩ }

structure Traceless (iface : String) (s p : Net) (b : Box) : Prop where
  rules : ∀ e ∈ ownRules iface s p, e ∉ b.iptables
  routes : ∀ r ∈ b.routes, ¬ (r.table = LOCAL ∧ r.net = s)

section Copies

variable {b : Box} {e e' : IptEntry} {n : Nat} {es : List IptEntry}

theorem count_eraseCopies : (eraseCopies e n es).count e = es.count e - n := by
  induction n generalizing es with
  | zero => rw [eraseCopies, Nat.sub_zero]
  | succ n ih =>
    rw [eraseCopies, ih, List.count_erase_self]
    omega

theorem count_eraseCopies_of_ne (h : e' ≠ e) : (eraseCopies e n es).count e' = es.count e' := by
  induction n generalizing es with
  | zero => rw [eraseCopies]
  | succ n ih => rw [eraseCopies, ih, List.count_erase_of_ne h]

theorem length_eraseCopies (e : IptEntry) (n : Nat) (es : List IptEntry) :
    min n (es.count e) + (eraseCopies e n es).length = es.length := by
  induction n generalizing es with
  | zero => rw [eraseCopies, Nat.zero_min, Nat.zero_add]
  | succ n ih =>
    by_cases h : e ∈ es
    · have hrest := ih (es.erase e)
      have hpos : 0 < es.count e := List.count_pos_iff.mpr h
      rw [List.count_erase_self, List.length_erase_of_mem h] at hrest
      have hlen : 0 < es.length := List.length_pos_of_mem h
      rw [eraseCopies]
      omega
    · rw [eraseCopies_of_not_mem h, List.count_eq_zero_of_not_mem h, Nat.min_zero, Nat.zero_add]

theorem filter_eraseCopies {q : IptEntry → Bool} (h : q e = false) : (eraseCopies e n es).filter q = es.filter q := by
  induction n generalizing es with
  | zero => rw [eraseCopies]
  | succ n ih => rw [eraseCopies, ih, filter_erase h]

theorem eraseCopies_single {rest : List IptEntry} (h : e ∉ es) (hrest : e ∉ rest) :
    eraseCopies e (n + 1) (es ++ e :: rest) = es ++ rest := by
  have hgone : e ∉ es ++ rest := List.not_mem_append h hrest
  rw [eraseCopies, List.erase_append_right _ h, List.erase_cons_head, eraseCopies_of_not_mem hgone]

end Copies

section Mapping

variable {b : Box} {iface shadow physical : String} {s p : Net} {e : IptEntry}

theorem inbound_ne_outbound : inbound iface s p ≠ outbound iface s p := by
  simp [inbound, outbound]

theorem inbound_ne_masquerade : inbound iface s p ≠ masquerade iface p := by
  simp [inbound, masquerade]

theorem outbound_ne_masquerade : outbound iface s p ≠ masquerade iface p := by
  simp [outbound, masquerade, postroutingNetmap, lanMasquerade]

theorem iptables_unmap : (b.unmap iface s p).iptables = eraseCopies (masquerade iface p) 33
    (eraseCopies (outbound iface s p) 33 (eraseCopies (inbound iface s p) 33 b.iptables)) := rfl

theorem count_unmap (h : e ∈ ownRules iface s p) :
    (b.unmap iface s p).iptables.count e = b.iptables.count e - 33 := by
  rw [iptables_unmap]
  simp only [ownRules, List.mem_cons, List.not_mem_nil, or_false] at h
  rcases h with rfl | rfl | rfl
  · rw [count_eraseCopies_of_ne inbound_ne_masquerade, count_eraseCopies_of_ne inbound_ne_outbound, count_eraseCopies]
  · rw [count_eraseCopies_of_ne outbound_ne_masquerade, count_eraseCopies,
      count_eraseCopies_of_ne inbound_ne_outbound.symm]
  · rw [count_eraseCopies, count_eraseCopies_of_ne outbound_ne_masquerade.symm,
      count_eraseCopies_of_ne inbound_ne_masquerade.symm]

theorem filter_unmap : ((b.unmap iface s p).iptables.filter fun e => !(ownRules iface s p).contains e) =
    b.iptables.filter fun e => !(ownRules iface s p).contains e := by
  have hown : ∀ e ∈ ownRules iface s p, (!(ownRules iface s p).contains e) = false := by
    intro e he
    simpa using he
  rw [iptables_unmap, filter_eraseCopies (hown _ (by simp [ownRules])),
    filter_eraseCopies (hown _ (by simp [ownRules])), filter_eraseCopies (hown _ (by simp [ownRules]))]

theorem iptables_unmap_few (h : ∀ e ∈ ownRules iface s p, b.iptables.count e ≤ 33) :
    (b.unmap iface s p).iptables = b.iptables.filter fun e => !(ownRules iface s p).contains e := by
  rw [← filter_unmap]
  refine (List.filter_eq_self.mpr fun e he => ?_).symm
  by_contra hown
  have hown : e ∈ ownRules iface s p := by simpa using hown
  have hcount := count_unmap hown (b := b)
  have hfew := h e hown
  rw [Nat.sub_eq_zero_of_le hfew] at hcount
  exact List.count_eq_zero.mp hcount he

theorem length_unmap : b.unmapped iface s p + (b.unmap iface s p).iptables.length = b.iptables.length := by
  have hin := length_eraseCopies (inbound iface s p) 33 b.iptables
  have hout := length_eraseCopies (outbound iface s p) 33 (b.withdraw (inbound iface s p)).iptables
  have hmasq := length_eraseCopies (masquerade iface p) 33
    ((b.withdraw (inbound iface s p)).withdraw (outbound iface s p)).iptables
  rw [iptables_unmap]
  simp only [iptables_withdraw] at hout hmasq
  simp only [Box.unmapped, Box.copies, iptables_withdraw]
  omega

theorem removed_unmap : Removed iface s p b (b.unmapped iface s p) (b.unmap iface s p) :=
  ⟨fun _ => count_unmap,filter_unmap,length_unmap,rfl⟩

theorem netmap_traceless (h : Traceless iface s p b) : b.netmap iface s p = { b with
    iptables := b.iptables ++ [inbound iface s p,outbound iface s p,masquerade iface p]
    routes := b.routes ++ [⟨LOCAL,s,"lo"⟩] } := by
  have hin : inbound iface s p ∉ b.iptables := h.rules _ (by simp [ownRules])
  have hout : outbound iface s p ∉ b.iptables ++ [inbound iface s p] :=
    List.not_mem_append (h.rules _ (by simp [ownRules])) (by simpa using inbound_ne_outbound.symm)
  have hmasq : masquerade iface p ∉ b.iptables ++ [inbound iface s p] ++ [outbound iface s p] := by
    refine List.not_mem_append (List.not_mem_append (h.rules _ (by simp [ownRules])) ?_) ?_
    · simpa using inbound_ne_masquerade.symm
    · simpa using outbound_ne_masquerade.symm
  have hroutes : ¬ (b.routes.any fun r => r.table = LOCAL ∧ r.net = s) = true := by simpa using h.routes
  simp only [Box.netmap, Box.ensure, Box.claim, if_neg hin, if_neg hout, if_neg hroutes, if_neg hmasq]
  simp only [List.append_assoc, List.cons_append, List.nil_append]

theorem unmap_netmap (h : Traceless iface s p b) : (b.netmap iface s p).unmap iface s p = b := by
  have hown : ∀ e ∈ ownRules iface s p, e ∉ b.iptables := h.rules
  have hin : eraseCopies (inbound iface s p) 33 (b.netmap iface s p).iptables =
      b.iptables ++ [outbound iface s p,masquerade iface p] := by
    rw [netmap_traceless h]
    refine eraseCopies_single (hown _ (by simp [ownRules])) ?_
    simpa using ⟨inbound_ne_outbound,inbound_ne_masquerade⟩
  have hout : eraseCopies (outbound iface s p) 33 (b.iptables ++ [outbound iface s p,masquerade iface p]) =
      b.iptables ++ [masquerade iface p] :=
    eraseCopies_single (hown _ (by simp [ownRules])) (by simpa using outbound_ne_masquerade)
  have hmasq : eraseCopies (masquerade iface p) 33 (b.iptables ++ [masquerade iface p]) = b.iptables ++ [] :=
    eraseCopies_single (hown _ (by simp [ownRules])) List.not_mem_nil
  have hiptables : ((b.netmap iface s p).unmap iface s p).iptables = b.iptables := by
    rw [iptables_unmap, hin, hout, hmasq, List.append_nil]
  have hlocal : (⟨LOCAL,s,"lo"⟩ : Route) ∉ b.routes := fun hmem => h.routes _ hmem ⟨rfl,rfl⟩
  have hroutes : (b.netmap iface s p).routes.erase ⟨LOCAL,s,"lo"⟩ = b.routes := by
    rw [netmap_traceless h, List.erase_append_right _ hlocal, List.erase_cons_head, List.append_nil]
  rw [(removed_unmap (b := b.netmap iface s p)).rest, hiptables, hroutes, netmap_traceless h]

structure Removes (iface shadow physical : String) (s p : Net) : Prop where
  removed : ∀ w, Calm w → ∃ removed w', removeNetmap iface shadow physical w = .ok removed w' ∧
    Removed iface s p w.box removed w'.box
  undone : ∀ w, Calm w → Traceless iface s p w.box → ∃ changed w₁ removed w',
    applyNetmap iface shadow physical w = .ok changed w₁ ∧ removeNetmap iface shadow physical w₁ = .ok removed w' ∧
      w'.box = w.box

theorem removeNetmap_removes (conf : MeshConf) (shadow physical : String) (s p : Net)
    (hs : Net.parse shadow = some s) (hp : Net.parse physical = some p) :
    Removes conf.IFACE shadow physical s p := by
  constructor
  · intro w hw
    obtain ⟨w',hrun,-,hbox⟩ := gives_removeNetmap conf.named hs hp w hw rfl
    exact ⟨_,w',hrun,hbox ▸ removed_unmap⟩
  · intro w hw htrace
    obtain ⟨changed,w₁,happly,hw₁,hbox₁⟩ := takes_applyNetmap conf.named hs hp w hw rfl
    obtain ⟨w',hrun,-,hbox⟩ := gives_removeNetmap conf.named hs hp w₁ hw₁ rfl
    refine ⟨changed,w₁,_,w',happly,hrun,?_⟩
    rw [hbox, hbox₁, unmap_netmap htrace]

end Mapping

section Stacked

def lanShadow : Net := Net.block [10,2,168]

def lanRange : Net := Net.block [192,168,1]

theorem parse_lanShadow : Net.parse "10.2.168.0/24" = some lanShadow := by decide +kernel

theorem parse_lanRange : Net.parse "192.168.1.0/24" = some lanRange := by decide +kernel

theorem removes_lan : Removes wgMesh.IFACE "10.2.168.0/24" "192.168.1.0/24" lanShadow lanRange :=
  removeNetmap_removes wgMesh "10.2.168.0/24" "192.168.1.0/24" _ _ parse_lanShadow parse_lanRange

def stacked : World where
  box := { iptables := List.replicate 34 (inbound wgMesh.IFACE lanShadow lanRange) }
  faults _ _ := none

theorem stacked_calm : Calm stacked := ⟨rfl,fun _ h => by cases h⟩

theorem stacked_left : ¬ ∀ (conf : MeshConf) (shadow physical : String) (s p : Net) (w : World),
    Net.parse shadow = some s → Net.parse physical = some p → Calm w → ∃ removed w',
      removeNetmap conf.IFACE shadow physical w = .ok removed w' ∧
        ∀ e ∈ ownRules conf.IFACE s p, e ∉ w'.box.iptables := by
  intro hclaim
  obtain ⟨removed,w',hrun,hgone⟩ := hclaim wgMesh _ _ _ _ stacked parse_lanShadow parse_lanRange stacked_calm
  obtain ⟨w₂,hrun',-,hbox⟩ := gives_removeNetmap wgMesh.named parse_lanShadow parse_lanRange stacked stacked_calm rfl
  rw [hrun'] at hrun
  cases hrun
  have hmem : inbound wgMesh.IFACE lanShadow lanRange ∈ ownRules wgMesh.IFACE lanShadow lanRange := List.mem_cons_self
  have hcopies : stacked.box.iptables.count (inbound wgMesh.IFACE lanShadow lanRange) = 34 := List.count_replicate_self
  have hleft := count_unmap (b := stacked.box) hmem
  rw [hcopies] at hleft
  refine hgone _ hmem ?_
  rw [hbox, ← List.count_pos_iff, hleft]
  decide

end Stacked

end JumpHost.Mesh
