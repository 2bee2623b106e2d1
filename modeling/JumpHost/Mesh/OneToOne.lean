import JumpHost.Library.Rewrite
import JumpHost.Mesh.Shadows

namespace JumpHost.Mesh

def Netmap.OneToOne (m : Netmap) : Prop := ∀ s p, m.blocks = some (s,p) → Net.OneToOne s p

def Netmap.Fits (m : Netmap) : Prop := ∀ s p, m.blocks = some (s,p) → p.family = .v4 ∧ 24 ≤ p.bits.length

section Shadow

variable {siteId : Value} {slot : Nat} {shadow : String} {s : Net} {m : Netmap}

theorem shadow_block (h : shadowCidr siteId slot = .ok shadow) (hparse : Net.parse shadow = some s) :
    s.family = .v4 ∧ s.bits.length = 24 := by
  obtain ⟨x,len,haddr,hlen,hle,rfl⟩ := Net.of_parse_slash hparse (toList_shadow h) (by decide)
  have hdecimal : Text.decimal ['2','4'] = some 24 := by decide
  obtain rfl := Option.some.inj (hdecimal.symm.trans hlen)
  refine ⟨family_of_dot haddr (by simp),?_⟩
  rw [Net.ofAddr, List.length_take, x.full, Nat.min_eq_left hle]

theorem oneToOne_iff_fits (h : shadowCidr siteId m.slot = .ok m.shadow) : m.OneToOne ↔ m.Fits := by
  refine forall_congr' fun s => forall_congr' fun p => imp_congr_right fun hblocks => ?_
  obtain ⟨hfamily,hlen⟩ := shadow_block h (Netmap.blocks_eq_some.mp hblocks).1
  rw [Net.oneToOne_iff, hfamily, hlen, eq_comm]

end Shadow

theorem netmap_oneToOne_iff (conf : MeshConf) (peersDoc : PeersDoc) (clientsDoc : Option ClientsDoc)
    (site : Option SiteDoc) (plan : Plan) (m : Netmap)
    (hplan : planReconcile conf (some peersDoc) clientsDoc site = .ok (.ready plan)) (hm : m ∈ plan.netmaps) :
    m.OneToOne ↔ m.Fits :=
  oneToOne_iff_fits ((mem_planNetmaps (planReconcile_ready hplan).2).mp hm).2.2

section Lan

def wideSite : SiteDoc := { siteId := .ofInt 1, lan168 := some "192.168.0.0/16" }

theorem oneToOne_lan : ∃ plan, planReconcile wgMesh (some loneDoc) none (some lanSite) = .ok (.ready plan) ∧
    ∃ m ∈ plan.netmaps, m.OneToOne := by
  obtain ⟨plan,hplan,hmem⟩ : ∃ plan, planReconcile wgMesh (some loneDoc) none (some lanSite) = .ok (.ready plan) ∧
      ⟨168,"10.1.168.0/24","192.168.1.0/24"⟩ ∈ plan.netmaps := ⟨_,rfl,List.mem_singleton_self _⟩
  refine ⟨plan,hplan,_,hmem,(netmap_oneToOne_iff wgMesh loneDoc none (some lanSite) plan _ hplan hmem).mpr ?_⟩
  intro s p hblocks
  have hparse : Net.parse "192.168.1.0/24" = some (Net.block [192,168,1]) := by decide +kernel
  obtain rfl := Option.some.inj (hparse.symm.trans (Netmap.blocks_eq_some.mp hblocks).2)
  exact ⟨rfl,by decide⟩

theorem wide_not_oneToOne : ¬ ∀ conf peersDoc clientsDoc site plan m,
    planReconcile conf (some peersDoc) clientsDoc site = .ok (.ready plan) → m ∈ plan.netmaps → m.OneToOne := by
  intro hclaim
  obtain ⟨plan,hplan,hmem⟩ : ∃ plan, planReconcile wgMesh (some loneDoc) none (some wideSite) = .ok (.ready plan) ∧
      ⟨168,"10.1.168.0/24","192.168.0.0/16"⟩ ∈ plan.netmaps := ⟨_,rfl,List.mem_singleton_self _⟩
  have hshadow : Net.parse "10.1.168.0/24" = some (Net.block [10,1,168]) := by decide +kernel
  have hphysical : Net.parse "192.168.0.0/16" = some (Net.block [192,168]) := by decide +kernel
  have hlaw := hclaim wgMesh loneDoc none (some wideSite) plan _ hplan hmem _ _
    (Netmap.blocks_eq_some.mpr ⟨hshadow,hphysical⟩)
  have hmeet := hlaw.distinct (.quad 192 168 0 5) (.quad 192 168 1 5) (by decide +kernel) (by decide +kernel)
    (by decide +kernel)
  have hne : Addr.quad 192 168 0 5 ≠ .quad 192 168 1 5 := by decide +kernel
  exact hne hmeet

end Lan

end JumpHost.Mesh
