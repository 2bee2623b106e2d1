import JumpHost.Mesh.Shadows

namespace JumpHost.Mesh

section Blocks

variable {ns ms : List Nat} {x : Addr}

theorem contains_of_prefix (h : ns <+: ms) (hlen : ms.length ≤ 4) (hx : (Net.block ms).contains x = true) :
    (Net.block ns).contains x = true := by
  simp only [Net.contains, Bool.and_eq_true, beq_iff_eq, List.isPrefixOf_iff_prefix] at hx ⊢
  refine ⟨hx.1,?_⟩
  obtain ⟨rest,rfl⟩ := h
  rw [List.length_append] at hlen
  rw [bits_block (by simpa using hlen), List.flatMap_append] at hx
  rw [bits_block (by omega)]
  exact (List.prefix_append _ _).trans hx.2

end Blocks

section Site

variable {conf : MeshConf} {peersDoc : PeersDoc} {clientsDoc : Option ClientsDoc} {site : Option SiteDoc}
  {siteId : Value} {plan : Plan} {n : Int} {slot : Nat}

theorem assertSiteId_ofInt (h : assertSiteId siteId = .ok n) : assertSiteId (.ofInt n) = .ok n := by
  obtain ⟨k,hlow,hhigh,rfl,-⟩ := assertSiteId_ok h
  have hrange : ¬ ((k : Int) < MIN_SITE_ID ∨ MAX_SITE_ID < (k : Int)) := by
    rw [MIN_SITE_ID, MAX_SITE_ID]
    omega
  have hnumber : (Value.ofInt (k : Int)).number = .int k := rfl
  simp only [assertSiteId, hnumber]
  rw [if_neg hrange]

theorem truthy_ofInt (h : assertSiteId siteId = .ok n) : (Value.ofInt n).truthy = true := by
  obtain ⟨k,hlow,-,rfl,-⟩ := assertSiteId_ok h
  have hne : (k : Int) ≠ 0 := by omega
  simpa [Value.ofInt] using hne

def shadowText (text : String) (slot : Nat) : String := "10." ++ text ++ "." ++ toString slot ++ ".0/24"

def mapping (text : String) (site : Option SiteDoc) (slot : Nat) : Option Netmap :=
  (lan site slot).map fun physical => ⟨slot,shadowText text slot,physical⟩

theorem planNetmap_eq {before : List Netmap} (hid : assertSiteId siteId = .ok n) (hslot : slot ∈ SHADOW_SLOTS) :
    planNetmap siteId site before slot = .ok (before ++ (mapping siteId.text site slot).toList) := by
  have hshadow : shadowCidr siteId slot = .ok (shadowText siteId.text slot) := by
    simp only [shadowCidr, hid, List.contains_eq_mem, hslot, decide_true, if_true, shadowText]
  simp only [planNetmap, mapping, lan]
  split
  · next hnone => rw [hnone, Option.map_none, Option.toList_none, List.append_nil]
  · next physical hsome =>
    rw [hsome, hshadow]
    rfl

theorem planNetmaps_eq (hid : assertSiteId siteId = .ok n) :
    planNetmaps siteId site = .ok (SHADOW_SLOTS.filterMap (mapping siteId.text site)) := by
  have hfold : ∀ (slots : List Nat) (before : List Netmap), (∀ slot ∈ slots, slot ∈ SHADOW_SLOTS) →
      slots.foldlM (planNetmap siteId site) before = .ok (before ++ slots.filterMap (mapping siteId.text site)) := by
    intro slots
    induction slots with
    | nil =>
      intro before _
      rw [List.filterMap_nil, List.append_nil]
      rfl
    | cons slot slots ih =>
      intro before hslots
      have hstep : planNetmap siteId site before slot = .ok (before ++ (mapping siteId.text site slot).toList) :=
        planNetmap_eq hid (hslots slot List.mem_cons_self)
      rw [List.foldlM_cons, hstep]
      refine (ih _ fun slot' hslot' => hslots slot' (List.mem_cons_of_mem slot hslot')).trans ?_
      rw [List.append_assoc, List.filterMap_cons]
      cases mapping siteId.text site slot <;> rfl
  exact hfold SHADOW_SLOTS [] fun _ hslot => hslot

structure Plan.Names (plan : Plan) (site : Option SiteDoc) (id : Int) (text : String) : Prop where
  addresses : plan.addresses = [MESH_PREFIX ++ "." ++ toString id ++ "/32","10." ++ toString id ++ ".0.1/16"]
  siteCidr : plan.siteCidr = "10." ++ toString id ++ ".0.0/16"
  netmaps : plan.netmaps = SHADOW_SLOTS.filterMap (mapping text site)

theorem planReconcile_names (hid : assertSiteId peersDoc.localSiteId = .ok n)
    (h : planReconcile conf (some peersDoc) clientsDoc site = .ok (.ready plan)) :
    plan.Names site n peersDoc.localSiteId.text := by
  unfold planReconcile at h
  simp only at h
  split at h
  · cases h
  · simp only [hid, meshAddress, siteGatewayCidr, siteCidr, planNetmaps_eq hid] at h
    cases h
    exact ⟨rfl,rfl,rfl⟩

theorem planReconcile_exists (hid : assertSiteId peersDoc.localSiteId = .ok n)
    (htruthy : peersDoc.localSiteId.truthy = true) :
    ∃ plan, planReconcile conf (some peersDoc) clientsDoc site = .ok (.ready plan) := by
  simp only [planReconcile, htruthy, Bool.not_true, Bool.false_eq_true, if_false, hid, meshAddress, siteGatewayCidr,
    siteCidr, planNetmaps_eq hid]
  exact ⟨_,rfl⟩

theorem shadowText_inj {text text' : String} (h : shadowText text slot = shadowText text' slot) : text = text' := by
  simp only [shadowText, String.append_assoc] at h
  have hrest := (String.append_right_inj _).mp h
  exact (String.append_left_inj _).mp hrest

theorem mappings_eq_iff {text text' : String} :
    SHADOW_SLOTS.filterMap (mapping text site) = SHADOW_SLOTS.filterMap (mapping text' site) ↔
      (∀ slot ∈ SHADOW_SLOTS, lan site slot = none) ∨ text = text' := by
  constructor
  · intro heq
    by_cases hnone : ∀ slot ∈ SHADOW_SLOTS, lan site slot = none
    · exact .inl hnone
    · push Not at hnone
      obtain ⟨slot,hslot,hlan⟩ := hnone
      obtain ⟨physical,hphysical⟩ := Option.ne_none_iff_exists'.mp hlan
      have hmem : ⟨slot,shadowText text slot,physical⟩ ∈ SHADOW_SLOTS.filterMap (mapping text' site) := by
        rw [← heq]
        exact List.mem_filterMap.mpr ⟨slot,hslot,by rw [mapping, hphysical]; rfl⟩
      obtain ⟨slot',-,hmapping⟩ := List.mem_filterMap.mp hmem
      obtain ⟨physical',-,hsame⟩ := Option.map_eq_some_iff.mp hmapping
      obtain ⟨rfl,htext,-⟩ := Netmap.mk.inj hsame
      exact .inr (shadowText_inj htext).symm
  · rintro (hnone | rfl)
    · have hall : ∀ text, SHADOW_SLOTS.filterMap (mapping text site) = [] := fun text =>
        List.filterMap_eq_nil_iff.mpr fun slot hslot => by rw [mapping, hnone slot hslot, Option.map_none]
      rw [hall, hall]
    · rfl

theorem parse_shadowText {k : Nat} (hk : k ≤ 254) (hslot : slot ∈ SHADOW_SLOTS) :
    Net.parse (shadowText (toString (k : Int)) slot) = some (Net.block [10,k,slot]) := by
  have hlt : slot < 256 := by
    simp only [SHADOW_SLOTS, List.mem_cons, List.not_mem_nil, or_false] at hslot
    omega
  have htext : (shadowText (toString (k : Int)) slot).toList = Net.quad [10,k,slot,0] ++ '/' :: Nat.toDigits 10 24 := by
    simp only [shadowText, String.toList_append, Text.toList_int, quad_four]
    simp
    rfl
  rw [(Net.parse_quad (octets_site hk hlt (by decide)) (by decide) htext).1]
  exact congrArg some (ofAddr_quad 10 k slot 0 3)

def Plan.ShadowsInside (plan : Plan) : Prop := ∃ own, Net.parse plan.siteCidr = some own ∧
  ∀ m ∈ plan.netmaps, ∃ shadow, Net.parse m.shadow = some shadow ∧
    ∀ x, shadow.contains x = true → own.contains x = true

theorem Plan.Names.inside (hid : assertSiteId siteId = .ok n) (h : plan.Names site n (toString n)) :
    plan.ShadowsInside := by
  obtain ⟨k,-,hhigh,rfl,-⟩ := assertSiteId_ok hid
  refine ⟨Net.block [10,k],h.siteCidr ▸ parse_site hhigh,fun m hm => ?_⟩
  rw [h.netmaps] at hm
  obtain ⟨slot,hslot,hmapping⟩ := List.mem_filterMap.mp hm
  obtain ⟨physical,-,rfl⟩ := Option.map_eq_some_iff.mp hmapping
  exact ⟨_,parse_shadowText hhigh hslot,fun x => contains_of_prefix (List.prefix_append [10,k] [slot]) (by simp)⟩

def PeersDoc.numbered (peersDoc : PeersDoc) (n : Int) : PeersDoc := { peersDoc with localSiteId := .ofInt n }

structure Plan.SameSite (plan plan' : Plan) : Prop where
  addresses : plan.addresses = plan'.addresses
  siteCidr : plan.siteCidr = plan'.siteCidr
  netmaps : plan.netmaps = plan'.netmaps

theorem one_site_iff (hid : assertSiteId peersDoc.localSiteId = .ok n)
    (h : planReconcile conf (some peersDoc) clientsDoc site = .ok (.ready plan)) :
    ((∃ plan', planReconcile conf (some (peersDoc.numbered n)) clientsDoc site = .ok (.ready plan') ∧
        plan.SameSite plan') ∧ plan.ShadowsInside) ↔
      (∀ slot ∈ SHADOW_SLOTS, lan site slot = none) ∨ peersDoc.localSiteId.text = toString n := by
  have hnames := planReconcile_names hid h
  have hid' := assertSiteId_ofInt hid
  constructor
  · rintro ⟨⟨plan',hplan',hsame⟩,-⟩
    have hnames' := planReconcile_names hid' hplan'
    exact mappings_eq_iff.mp (hnames.netmaps.symm.trans (hsame.netmaps.trans hnames'.netmaps))
  · intro hcond
    have hnetmaps := mappings_eq_iff.mpr hcond
    have hplain : plan.Names site n (toString n) :=
      ⟨hnames.addresses,hnames.siteCidr,hnames.netmaps.trans hnetmaps⟩
    obtain ⟨plan',hplan'⟩ : ∃ plan', planReconcile conf (some (peersDoc.numbered n)) clientsDoc site =
        .ok (.ready plan') := planReconcile_exists hid' (truthy_ofInt hid)
    have hnames' := planReconcile_names hid' hplan'
    exact ⟨⟨plan',hplan',hnames.addresses.trans hnames'.addresses.symm,hnames.siteCidr.trans hnames'.siteCidr.symm,
      hplain.netmaps.trans hnames'.netmaps.symm⟩,hplain.inside hid⟩

theorem one_site_text : ∃ plan,
    planReconcile wgMesh (some { localSiteId := ⟨"1",.int 1,true,false⟩ }) none (some lanSite) = .ok (.ready plan) ∧
      plan.ShadowsInside := by
  obtain ⟨plan,hplan⟩ : ∃ plan, planReconcile wgMesh (some { localSiteId := ⟨"1",.int 1,true,false⟩ }) none
      (some lanSite) = .ok (.ready plan) := ⟨_,rfl⟩
  exact ⟨plan,hplan,((one_site_iff (n := 1) rfl hplan).mpr (.inr rfl)).2⟩

theorem zero_led_shadow : ¬ ∀ conf peersDoc clientsDoc site plan n, assertSiteId peersDoc.localSiteId = .ok n →
    planReconcile conf (some peersDoc) clientsDoc site = .ok (.ready plan) →
      (∃ plan', planReconcile conf (some (peersDoc.numbered n)) clientsDoc site = .ok (.ready plan') ∧
        plan.SameSite plan') ∧ plan.ShadowsInside := by
  intro h
  obtain ⟨⟨plan',hplan',hsame⟩,-⟩ :=
    h wgMesh { localSiteId := ⟨"01",.int 1,true,false⟩ } none (some lanSite) _ 1 rfl rfl
  cases hplan'
  exact absurd hsame.netmaps (by decide)

end Site

end JumpHost.Mesh
