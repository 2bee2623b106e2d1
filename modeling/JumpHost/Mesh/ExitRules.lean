import JumpHost.Mesh.ExitChoices
import JumpHost.Mesh.Shadows

namespace JumpHost.Mesh

section Devices

variable {conf : MeshConf} {peersDoc : PeersDoc} {clientsDoc : Option ClientsDoc} {rosterDoc : Option RosterDoc}
  {plan : Plan} {client : ClientDoc}

def sitesOf (rosterDoc : Option RosterDoc) : List SiteDoc := (rosterDoc.bind RosterDoc.sites).getD []

structure NamesDevices (plan : Plan) (exits : ExitPlan) : Prop where
  rules : ∀ rule ∈ exits.rules, ∃ p ∈ plan.peers, p.kind = .client ∧ p.allowedIPs = [rule.source]
  used : ∀ exit ∈ exits.planned, ∃ rule ∈ exits.rules, rule.exitSiteId = exit.siteId ∧ rule.table = exit.table ∧
    ∃ p ∈ plan.peers, p.kind = .client ∧ p.allowedIPs = [rule.source]

def Addressed (clientsDoc : Option ClientsDoc) (client : ClientDoc) : Prop :=
  ∃ device ∈ clientsOf clientsDoc, truthy device.publicKey = true ∧ truthy device.assignedIp = true ∧
    device.assignedIp = some (shown client.assignedIp)

theorem firstTruthy_one {s : Option String} {t : String} : firstTruthy [s] = some t ↔ truthy s = true ∧ s = some t := by
  unfold firstTruthy
  split
  · next h => simp [h]
  · next h => simp [firstTruthy, h]

theorem addressed_iff (h : planReconcile conf (some peersDoc) clientsDoc (ownSite rosterDoc peersDoc.localSiteId) =
    .ok (.ready plan)) : Addressed clientsDoc client ↔
      ∃ p ∈ plan.peers, p.kind = .client ∧ p.allowedIPs = [client.rule.source] := by
  constructor
  · rintro ⟨device,hdevice,hkey,htruthy,hip⟩
    obtain ⟨p,hpeer⟩ := clientPeer_isSome hkey (firstTruthy_one.mpr ⟨htruthy,hip⟩)
    obtain ⟨hp,hkind⟩ := (clients_planned h).mpr ⟨device,hdevice,hpeer⟩
    obtain ⟨-,ip,hip',hips⟩ := clientPeer_ips hpeer
    obtain rfl := Option.some.inj (hip.symm.trans (firstTruthy_one.mp hip').2)
    exact ⟨p,hp,hkind,hips⟩
  · rintro ⟨p,hp,hkind,hips⟩
    obtain ⟨device,hdevice,hpeer⟩ := (clients_planned h).mp ⟨hp,hkind⟩
    obtain ⟨-,ip,hip,hips'⟩ := clientPeer_ips hpeer
    obtain ⟨htruthy,hassigned⟩ := firstTruthy_one.mp hip
    have htext : ip ++ "/32" = shown client.assignedIp ++ "/32" := (List.cons.inj (hips'.symm.trans hips)).1
    have hsame : ip = shown client.assignedIp := (String.append_left_inj _).mp htext
    exact ⟨device,hdevice,key_of_clientPeer hpeer,htruthy,hsame ▸ hassigned⟩

theorem names_devices_iff (h : planReconcile conf (some peersDoc) clientsDoc
    (ownSite rosterDoc peersDoc.localSiteId) = .ok (.ready plan)) :
    NamesDevices plan (planExits (clientsOf clientsDoc) (sitesOf rosterDoc) plan.siteId) ↔
      ∀ client ∈ clientsOf clientsDoc, choice (sitesOf rosterDoc) plan.siteId client = .routed →
        Addressed clientsDoc client := by
  constructor
  · intro hnames client hclient hrouted
    exact (addressed_iff h).mpr (hnames.rules client.rule (mem_rules.mpr ⟨client,hclient,hrouted,rfl⟩))
  · intro hall
    have hpeer : ∀ rule ∈ (planExits (clientsOf clientsDoc) (sitesOf rosterDoc) plan.siteId).rules,
        ∃ p ∈ plan.peers, p.kind = .client ∧ p.allowedIPs = [rule.source] := by
      intro rule hrule
      obtain ⟨client,hclient,hrouted,rfl⟩ := mem_rules.mp hrule
      exact (addressed_iff h).mp (hall client hclient hrouted)
    refine ⟨hpeer,fun exit hexit => ?_⟩
    obtain ⟨client,hclient,hrouted,rfl⟩ := mem_planned_exits.mp hexit
    have hrule := mem_rules.mpr ⟨client,hclient,hrouted,rfl⟩
    exact ⟨_,hrule,rfl,rfl,hpeer _ hrule⟩

def siteTwo : PeersDoc := { localSiteId := .ofInt 2 }

def siteFive : RosterDoc := { sites := some [gateway (.ofInt 5)] }

def oneDevice (client : ClientDoc) : ClientsDoc := { clients := some [client] }

theorem names_devices_keyed : ∃ plan, planReconcile wgMesh (some siteTwo)
      (some (oneDevice (deviceThrough "10.2.128.7" (.ofInt 5)))) (ownSite (some siteFive) siteTwo.localSiteId) =
      .ok (.ready plan) ∧
    NamesDevices plan (planExits (clientsOf (some (oneDevice (deviceThrough "10.2.128.7" (.ofInt 5)))))
      (sitesOf (some siteFive)) plan.siteId) := by
  obtain ⟨plan,hplan⟩ : ∃ plan, planReconcile wgMesh (some siteTwo)
      (some (oneDevice (deviceThrough "10.2.128.7" (.ofInt 5)))) (ownSite (some siteFive) siteTwo.localSiteId) =
      .ok (.ready plan) := ⟨_,rfl⟩
  refine ⟨plan,hplan,(names_devices_iff hplan).mpr fun client hclient _ => ?_⟩
  obtain rfl := List.mem_singleton.mp hclient
  exact ⟨_,List.mem_singleton_self _,by decide,by decide,rfl⟩

def keyless : ClientDoc := { deviceThrough "10.2.128.7" (.ofInt 5) with publicKey := none }

theorem keyless_steered : ¬ ∀ conf peersDoc clientsDoc rosterDoc plan,
    planReconcile conf (some peersDoc) clientsDoc (ownSite rosterDoc peersDoc.localSiteId) = .ok (.ready plan) →
      NamesDevices plan (planExits (clientsOf clientsDoc) (sitesOf rosterDoc) plan.siteId) := by
  intro h
  obtain ⟨p,hp,-⟩ := (h wgMesh siteTwo (some (oneDevice keyless)) (some siteFive) _ rfl).rules keyless.rule (by decide)
  exact absurd hp List.not_mem_nil

end Devices

section Band

variable {clients : List ClientDoc} {sites : List SiteDoc} {siteId : Value} {rule : ExitRule} {b b' : Box} {id : Int}

def reservedTables : List Int := [0,253,254,255]

def ExitRule.Banded (rule : ExitRule) : Prop := ∃ priority table : Int, rule.priority = .int priority ∧
  RULE_PRIORITY_BASE ≤ priority ∧ priority ≤ RULE_PRIORITY_BASE + 254 ∧ rule.table = .int table ∧
  table ∉ reservedTables

theorem banded_iff {client : ClientDoc} : client.rule.Banded ↔
    ∃ n : Int, client.exitSiteId.number = .int n ∧ 0 ≤ n ∧ n ≤ 254 := by
  simp only [ExitRule.Banded, ClientDoc.rule, tableFor, RULE_PRIORITY_BASE, TABLE_BASE, reservedTables]
  cases client.exitSiteId.number with
  | nan => simp [Num.above]
  | frac text inexact => simp [Num.above]
  | int n =>
    simp only [Num.above, Num.int.injEq]
    constructor
    · rintro ⟨_,_,hpriority,hlow,hhigh,-,-⟩
      have hsum := (Num.nearest_eq_iff (by omega)).mp hpriority
      exact ⟨n,rfl,by omega,by omega⟩
    · rintro ⟨_,rfl,hlow,hhigh⟩
      refine ⟨_,_,Num.nearest_of_lt (by omega),by omega,by omega,Num.nearest_of_lt (by omega),?_⟩
      simp only [List.mem_cons, List.not_mem_nil, or_false, not_or]
      refine ⟨?_,?_,?_,?_⟩ <;> omega

theorem cidr_of_parse {text : String} {net : Net} (h : Net.parse (text ++ "/32") = some net)
    (hfamily : net.family = .v4) : net.cidr = text ++ "/32" := by
  have htext : (text ++ "/32").toList = text.toList ++ '/' :: ['3','2'] := by simp
  obtain ⟨x,len,hx,-,-,rfl⟩ := Net.of_parse_slash h htext (by decide)
  obtain ⟨a,b,c,d,hoctets,hquad,-⟩ := addr_text hx hfamily
  obtain ⟨⟨y,hy,hyfamily,-⟩,-⟩ := Net.addr_text (Net.ofAddr x len)
  obtain ⟨a',b',c',d',hoctets',hquad',-⟩ := addr_text hy (hyfamily.trans hfamily)
  have hcidr : (Net.ofAddr x len).cidr = String.ofList (Net.ofAddr x len).text ++ "/32" := by
    rw [← String.toList_inj, Net.toList_cidr, Net.length_of_parse h, String.toList_append, String.toList_ofList]
    rfl
  have hsame : Net.parse (String.ofList (Net.ofAddr x len).text ++ "/32") = Net.parse (text ++ "/32") := by
    rw [← hcidr, Net.parse_cidr, h]
  have hdotted : Net.Dotted (String.ofList (Net.ofAddr x len).text) :=
    ⟨a',b',c',d',hoctets',String.toList_ofList.trans hquad'⟩
  rw [hcidr, hdotted.inj ⟨a,b,c,d,hoctets,hquad⟩ hsame]

def ExitRule.Followed (rule : ExitRule) : Prop := ∀ b b' : Box,
  b.step (.ruleAdd rule.source rule.table rule.priority) = .ok b' → ∃ r ∈ b'.rules, ∃ m, r.managed = some m ∧
    m.serves rule = true ∧ m.key = rule.key ∧
      ∃ b'', b'.step (.ruleDel m.source (.int m.table) (.int m.priority)) = .ok b''

-- `ip rule show` prints the rules of IPv4
def ExitRule.Shown (rule : ExitRule) : Prop := ∀ net, Net.parse rule.source = some net → net.family = .v4

theorem tableText_unreserved {t : Nat} (h : (t : Int) ∉ reservedTables) : tableText t = toString t := by
  simp only [reservedTables, List.mem_cons, List.not_mem_nil, or_false, not_or] at h
  unfold tableText
  rw [if_neg (by omega), if_neg (by omega), if_neg (by omega)]

theorem followed_of_banded {text : String} (hrule : rule.Banded) (hshown : rule.Shown)
    (htext : rule.source = text ++ "/32") : rule.Followed := by
  intro b b' hadd
  obtain ⟨p,t,hpriority,hlow,hhigh,htable,hreserved⟩ := hrule
  obtain ⟨net,t',p',hnet,ht,hp,hlt,-,hrules⟩ := ruleAdd_ok hadd
  obtain rfl : t = t' := Num.int.inj (htable.symm.trans ht)
  obtain rfl : p = p' := Num.int.inj (hpriority.symm.trans hp)
  have hfamily := hshown net hnet
  have hmem : ⟨p',some net,[],t'⟩ ∈ b'.rules := hrules ▸ mem_insertRule.mpr (.inr rfl)
  have hband : IpRule.inBand ⟨p',some net,[],t'⟩ = true := by
    rw [IpRule.inBand, decide_eq_true_eq]
    exact ⟨hlow,hhigh⟩
  have hmanaged := managed_of_own (own_added (p := p') (htext ▸ hnet) hlt) rfl hfamily hband
  have hcidr : net.cidr = rule.source := htext ▸ cidr_of_parse (htext ▸ hnet) hfamily
  have hname := tableText_unreserved hreserved
  refine ⟨_,hmem,_,hmanaged,?_,?_,?_⟩
  · simp only [ManagedRule.serves, Bool.decide_and, Bool.and_eq_true, decide_eq_true_eq]
    exact ⟨hcidr,hname,ht⟩
  · rw [ManagedRule.key, ExitRule.key, hcidr, hname, ht]
    rfl
  · have hany : b'.rules.any (IpRule.named p' (some net) t') = true :=
      List.any_eq_true.mpr ⟨_,hmem,by simp [IpRule.named]⟩
    have hall : net.cidr ≠ "all" := by
      intro hall
      rw [hcidr.symm.trans hall] at hnet
      simp [Net.parse, Text.allowed] at hnet
    have hpriority : p' < 4294967296 := by
      rw [RULE_PRIORITY_BASE] at hhigh
      omega
    refine ⟨{ b' with rules := b'.rules.eraseP (IpRule.named p' (some net) t') },?_⟩
    simp only [Box.step, Box.ruleDel, Box.onSelector, hall, if_false, Box.onNet, Net.parse_cidr, Box.onNumber,
      hlt, hpriority, if_true, hany]

theorem shown_of_followed (hrule : rule.Banded) (hpositive : ∃ t : Nat, rule.table = .int t ∧ t < 4294967296)
    (hfollowed : rule.Followed) : rule.Shown := by
  intro net hnet
  obtain ⟨p,-,hpriority,hlow,hhigh,-,-⟩ := hrule
  obtain ⟨t,ht,hlt⟩ := hpositive
  rw [RULE_PRIORITY_BASE] at hlow hhigh
  obtain ⟨p,rfl⟩ : ∃ n : Nat, p = n := ⟨p.toNat,by omega⟩
  have hp : p < 4294967296 := by omega
  have hadd : Box.step {} (.ruleAdd rule.source rule.table rule.priority) =
      .ok { ({} : Box) with rules := [⟨p,some net,[],t⟩] } := by
    rw [ht, hpriority]
    simp [Box.step, Box.ruleAdd, Box.onNet, hnet, Box.onNumber, hlt, hp, Box.insertRule]
  obtain ⟨r,hr,m,hm,-⟩ := hfollowed _ _ hadd
  obtain rfl := List.mem_singleton.mp hr
  exact (managed_some hm).2.2.1 net rfl

structure ClientDoc.InBand (client : ClientDoc) : Prop where
  number : ∃ n : Int, client.exitSiteId.number = .int n ∧ 0 ≤ n ∧ n ≤ 254
  shown : client.rule.Shown

theorem rules_banded_iff : (∀ rule ∈ (planExits clients sites siteId).rules, rule.Banded ∧ rule.Followed) ↔
    ∀ client ∈ clients, choice sites siteId client = .routed → client.InBand := by
  constructor
  · intro h client hclient hrouted
    obtain ⟨hbanded,hfollowed⟩ := h client.rule (mem_rules.mpr ⟨client,hclient,hrouted,rfl⟩)
    obtain ⟨n,hn,hlow,hhigh⟩ := banded_iff.mp hbanded
    obtain ⟨n,rfl⟩ : ∃ k : Nat, n = k := ⟨n.toNat,by omega⟩
    refine ⟨⟨n,hn,hlow,hhigh⟩,shown_of_followed hbanded ⟨2400 + n,?_,by omega⟩ hfollowed⟩
    rw [ClientDoc.rule, hn, tableFor_int (by omega)]
  · intro h rule hrule
    obtain ⟨client,hclient,hrouted,rfl⟩ := mem_rules.mp hrule
    obtain ⟨hnumber,hshown⟩ := h client hclient hrouted
    have hbanded := banded_iff.mpr hnumber
    exact ⟨hbanded,followed_of_banded hbanded hshown rfl⟩

theorem beyond_band : assertSiteId (.ofInt 2) = .ok 2 ∧ ¬ ∀ clients sites siteId n, assertSiteId siteId = .ok n →
    ∀ rule ∈ (planExits clients sites siteId).rules, rule.Banded ∧ rule.Followed := by
  refine ⟨rfl,fun h => ?_⟩
  have hrule := h [deviceThrough "10.2.128.7" (.ofInt 300)] [gateway (.ofInt 300)] (.ofInt 2) 2 rfl
    (deviceThrough "10.2.128.7" (.ofInt 300)).rule (by decide)
  obtain ⟨n,hn,-,hhigh⟩ := banded_iff.mp hrule.1
  obtain rfl : 300 = n := Num.int.inj hn
  omega

end Band

end JumpHost.Mesh
