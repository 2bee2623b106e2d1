import JumpHost.Mesh.ExitPeers
import JumpHost.Mesh.MainTable

namespace JumpHost.Mesh

open Effect

section View

variable {exit : Exit} {b b' : Box} {c : Cmd}

def Cmd.sparesExit (exit : Exit) : Cmd → Prop
  | .linkAdd d | .linkDel d | .linkUp d | .wireguardGo d | .addrAdd _ d | .addrDel _ d | .wgSetKey d _ _
  | .wgSetPeer d _ _ _ _ | .wgRemovePeer d _ | .routeAdd _ d | .routeDel _ d => d ≠ exit.iface
  | .routeReplaceDefault d t => d ≠ exit.iface ∧ ∀ k : Nat, k < 4294967296 → t = .int k → exit.table ≠ .int k
  | .routeFlush t => ∀ k : Nat, k < 4294967296 → t = .int k → exit.table ≠ .int k
  | _ => True

theorem link_spared (hc : c.sparesExit exit) (h : b.step c = .ok b') :
    b'.links.get? exit.iface = b.links.get? exit.iface := by
  cases links_change h with
  | same hb => rw [hb]
  | new dev hdev _ hb =>
    have hne : exit.iface ≠ dev := by rcases hdev with rfl | rfl <;> exact Ne.symm hc
    rw [hb, OrdMap.get?_set_of_ne _ hne]
  | gone dev hdev hb =>
    subst hdev
    rw [hb, OrdMap.get?_delete_of_ne (Ne.symm hc)]
  | edit dev link link' _ hedit hb =>
    have hne : exit.iface ≠ dev := by
      cases hedit with
      | up hc' | addrAdd _ hc' | addrDel _ hc' | key _ _ hc' | setPeer _ _ _ _ _ hc' | removePeer _ hc' =>
        subst hc'
        exact Ne.symm hc
    rw [hb, OrdMap.get?_set_of_ne _ hne]

theorem default_spared (hlo : exit.iface ≠ "lo") (hc : c.sparesExit exit) (h : b.step c = .ok b') :
    exit.HasDefault b' ↔ exit.HasDefault b := by
  refine exists_congr fun t => and_congr_right fun htable => ?_
  cases routes_change h with
  | same hb => rw [hb]
  | unlinked dev hc' hb =>
    subst hc'
    rw [hb, List.mem_filter]
    exact and_iff_left (bne_iff_ne.mpr (Ne.symm hc))
  | own dev routes hc' hown hb =>
    have hne : dev ≠ exit.iface := by rcases hc' with rfl | ⟨cidr,rfl⟩ <;> exact hc
    rw [hb, Box.addRoutes, List.mem_append]
    refine or_iff_left fun hnew => ?_
    obtain ⟨cidr,-,hown⟩ := hown _ (List.mem_filter.mp hnew).1
    exact hne (dev_ownRoutes hown).symm
  | disowned cidr dev kept hc' _ hb =>
    subst hc'
    rw [hb, List.mem_filter]
    refine and_iff_left ?_
    have hforeign : ⟨t,anywhere,exit.iface⟩ ∉ Box.ownRoutes dev cidr := fun hown => hc (dev_ownRoutes hown).symm
    have hother : exit.iface ≠ dev := Ne.symm hc
    simp [hforeign, Box.strippedOf, hother]
  | added cidr dev net hc' _ hb =>
    subst hc'
    rw [(addRoute_ok hb).2, List.mem_append, List.mem_singleton]
    exact or_iff_left fun heq => hc (congrArg Route.dev heq).symm
  | deleted cidr dev net hc' _ hb =>
    subst hc'
    rw [delRoute_ok hb]
    exact List.mem_erase_of_ne fun heq => hc (congrArg Route.dev heq).symm
  | claimed net hb =>
    rw [(addRoute_ok hb).2, List.mem_append, List.mem_singleton]
    exact or_iff_left fun heq => hlo (congrArg Route.dev heq)
  | unclaimed net hb =>
    rw [delRoute_ok hb]
    exact List.mem_erase_of_ne fun heq => hlo (congrArg Route.dev heq)
  | default dev t' hc' ht hb =>
    subst hc'
    have hne : t ≠ t' := fun heq => hc.2 t' ht rfl (heq ▸ htable)
    rw [hb, List.mem_append, List.mem_filter, List.mem_singleton]
    simp [hne]
  | flushed t' hc' ht hb =>
    subst hc'
    have hne : t ≠ t' := fun heq => hc t' ht rfl (heq ▸ htable)
    rw [hb, List.mem_filter]
    simp [hne]

def Exit.view (exit : Exit) (b : Box) : Option Link × Prop := (b.links.get? exit.iface,exit.HasDefault b)

theorem stable_view (hlo : exit.iface ≠ "lo") (x : Option Link × Prop) :
    Stable (fun w => exit.view w.box = x) (Cmd.sparesExit exit) :=
  stable_box (I := fun b => exit.view b = x) fun _ _ _ hc h hb =>
    (Prod.ext (link_spared hc h) (propext (default_spared hlo hc h))).trans hb

end View

section BringUps

variable {privateKey : String} {exits : List Exit} {w w' : World} {done done' : List String × List ExitFailure}
  {exit : Exit}

def downs (failed : List ExitFailure) : List String := failed.filterMap ExitFailure.iface

def turn (privateKey : String) (w : World) (exit : Exit) : Option World := some (final (bringUpExit privateKey exit w))

theorem bringUps_cons (h : (exit :: exits).foldlM (applyExit privateKey) done w = .ok done' w') :
    ∃ done₁, ((∃ v, bringUpExit privateKey exit w = .ok () v ∧ done₁ = (done.1 ++ [exit.iface],done.2)) ∨
        ∃ err v, bringUpExit privateKey exit w = .error err v ∧
          done₁ = (done.1,done.2 ++ [{ iface := some exit.iface, error := err }])) ∧
      exits.foldlM (applyExit privateKey) done₁ (final (bringUpExit privateKey exit w)) = .ok done' w' := by
  rw [List.foldlM_cons] at h
  obtain ⟨done₁,v,hturn,hrest⟩ := bind_ok h
  unfold applyExit at hturn
  rw [tryCatch_apply, bind_apply] at hturn
  cases hup : bringUpExit privateKey exit w with
  | ok _ v' =>
    rw [hup] at hturn
    cases hturn
    exact ⟨_,.inl ⟨_,rfl,rfl⟩,hrest⟩
  | error err v' =>
    rw [hup] at hturn
    cases hturn
    exact ⟨_,.inr ⟨err,_,rfl,rfl⟩,hrest⟩

theorem silent (h : exits.foldlM (applyExit privateKey) done w = .ok done' w') {name : String}
    (hname : ∀ exit ∈ exits, exit.iface ≠ name) :
    (name ∈ done'.1 ↔ name ∈ done.1) ∧ (name ∈ downs done'.2 ↔ name ∈ downs done.2) := by
  induction exits generalizing done w with
  | nil =>
    cases h
    exact ⟨Iff.rfl,Iff.rfl⟩
  | cons exit exits ih =>
    obtain ⟨done₁,hturn,hrest⟩ := bringUps_cons h
    have hne : exit.iface ≠ name := hname exit List.mem_cons_self
    obtain ⟨hup,hdown⟩ := ih hrest fun other hother => hname other (List.mem_cons_of_mem exit hother)
    rw [hup, hdown]
    rcases hturn with ⟨v,-,rfl⟩ | ⟨err,v,-,rfl⟩ <;> simp [downs, hne.symm]

end BringUps

section Steering

variable {exit : Exit} {privateKey : String} {v v' : World}

end Steering

section Daemon

variable {privateKey name : String} {exit : Exit} {e : Bool} {v : World}

end Daemon

section Report

variable {clients : List ClientDoc} {sites : List SiteDoc} {siteId : Value} {plan : ExitPlan} {privateKey : String}
  {w w' : World} {result : ExitsApplied} {id id' : Num} {exit exit' : Exit} {done : List String × List ExitFailure}

theorem tableFor_inj {a b : Num} {k : Nat} (hk : k < 4294967296) (ha : tableFor a = .int k)
    (hb : tableFor b = .int k) : a = b := by
  have hexact : (k : Int).natAbs < 2 ^ 53 := by omega
  exact ((above_eq_iff hexact).mp ha).trans ((above_eq_iff hexact).mp hb).symm

theorem iface_ne_lo (hplan : plan.Formed sites) (h : plan.exits.get? id = some exit) : exit.iface ≠ "lo" := by
  rw [(hplan.exits id exit h).1]
  intro hlo
  have hlist := congrArg (fun s : String => s.toList.take 2) hlo
  simp [ifaceFor] at hlist

theorem view_afterwards (hplan : plan.Formed sites) (hchosen : plan.AllChosen sites)
    (h : plan.exits.get? id = some exit) {failed failed' : List ExitFailure} {found : OrdMap Nat String}
    {w₁ w₂ w₃ : World} (hrules : applyRules plan.rules failed w₁ = .ok failed' w₂)
    (hfound : listExitInterfaces w₂ = .ok found w₃)
    (hremove : found.entries.forM (removeExit plan.exits.keys) w₃ = .ok () w') :
    exit.view w'.box = exit.view w₁.box := by
  have hstable := stable_view (iface_ne_lo hplan h) (exit.view w₁.box)
  have h₂ := (keeps_applyRules hstable (fun _ _ => trivial) (fun _ _ _ _ _ _ _ => trivial) _).of_ok hrules rfl
  have h₃ := (keeps_listExitInterfaces hstable).of_ok hfound h₂
  refine (keeps_forM fun entry hentry => keeps_removeExit hstable (fun hunwanted k hk hflushed hown => ?_)
    fun hunwanted => iface_ne_removed hchosen h (id_of_listed hfound hentry) hunwanted).of_ok hremove h₃
  rw [(hplan.exits id exit h).2.1] at hown
  exact hunwanted (OrdMap.mem_keys_iff.mpr ⟨exit,tableFor_inj hk hown hflushed ▸ h⟩)

end Report

end JumpHost.Mesh
