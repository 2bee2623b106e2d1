import JumpHost.Mesh.ExitReport

namespace JumpHost.Mesh

section Values

variable {sites : List SiteDoc} {siteId : Value} {clients : List ClientDoc}

-- `[...exits.values()]`
def ExitPlan.planned (plan : ExitPlan) : List Exit := plan.exits.entries.map Prod.snd

theorem mem_planned_exits {exit : Exit} : exit ∈ (planExits clients sites siteId).planned ↔
    ∃ client ∈ clients, choice sites siteId client = .routed ∧ exit = exitAt sites client.exitSiteId.number := by
  rw [ExitPlan.planned, mem_exits]
  constructor
  · rintro ⟨id,hget⟩
    obtain ⟨rfl,client,hclient,hrouted,rfl⟩ := ((gathers_planExits clients sites siteId).exits id exit).mp hget
    exact ⟨client,hclient,hrouted,rfl⟩
  · rintro ⟨client,hclient,hrouted,rfl⟩
    exact ⟨_,((gathers_planExits clients sites siteId).exits _ _).mpr ⟨rfl,client,hclient,hrouted,rfl⟩⟩

end Values

section Partition

variable {clients clients' : List ClientDoc} {sites : List SiteDoc} {siteId : Value} {here : Int} {client : ClientDoc}

structure Value.Numbers (v : Value) (n : Int) : Prop where
  number : v.number = .int n
  given : v.nullish = false
  text : v.text ≠ ""

theorem numbers_inj {v : Value} {m n : Int} (hm : Value.Numbers v m) (hn : Value.Numbers v n) : m = n :=
  Num.int.inj (hm.number.symm.trans hn.number)

inductive Misses (site : Option SiteDoc) : String → Prop
  | entry (h : site = none) : Misses site "no such site in the roster"
  | publicKey (s : SiteDoc) (h : site = some s) (hkey : truthy s.gatewayPublicKey = false) :
      Misses site "that site has not published a public key"
  | endpoint (s : SiteDoc) (h : site = some s) (hkey : truthy s.gatewayPublicKey = true)
      (hendpoint : truthy s.gatewayEndpoint = false) : Misses site "that site has no reachable endpoint"

theorem misses_iff {site : Option SiteDoc} {reason : String} :
    Misses site reason ↔ unusableReason site = some reason := by
  constructor
  · rintro (rfl | ⟨s,rfl,hkey⟩ | ⟨s,rfl,hkey,hendpoint⟩)
    · rfl
    · simp [unusableReason, hkey]
    · simp [unusableReason, hkey, hendpoint]
  · intro h
    unfold unusableReason at h
    split at h
    · cases h
      exact .entry rfl
    · next s =>
      split at h
      · next hkey =>
        cases h
        exact .publicKey s rfl (by simpa using hkey)
      · next hkey =>
        split at h
        · next hendpoint =>
          cases h
          exact .endpoint s rfl (by simpa using hkey) (by simpa using hendpoint)
        · cases h

def Choice.Right (sites : List SiteDoc) (here : Int) (client : ClientDoc) : Choice → Prop
  | .noExit => client.exitSiteId.nullish = true ∨ client.exitSiteId.text = ""
  | .here => Value.Numbers client.exitSiteId here
  | .unusable reason => ∃ n, Value.Numbers client.exitSiteId n ∧ n ≠ here ∧ Misses (siteById sites (.int n)) reason
  | .routed => ∃ n, Value.Numbers client.exitSiteId n ∧ n ≠ here ∧
      ∀ reason, ¬ Misses (siteById sites (.int n)) reason

def ClientDoc.Chooses (client : ClientDoc) : Prop :=
  client.exitSiteId.nullish = true ∨ client.exitSiteId.text = "" ∨ ∃ n, Value.Numbers client.exitSiteId n

theorem choice_of_numbers {n : Int} (hn : Value.Numbers client.exitSiteId n) (hhere : siteId.number = .int here) :
    choice sites siteId client = if n = here then .here
      else match unusableReason (siteById sites (.int n)) with
        | some reason => .unusable reason
        | none => .routed := by
  unfold choice
  cases hreason : unusableReason (siteById sites (.int n)) with
  | none => simp [hn.number, hn.given, hn.text, hhere, hreason, Num.strictEq]
  | some reason => simp [hn.number, hn.given, hn.text, hhere, hreason, Num.strictEq]

theorem right_iff (hclient : ClientDoc.Chooses client) (hhere : siteId.number = .int here) {k : Choice} :
    k.Right sites here client ↔ choice sites siteId client = k := by
  have hblank : client.exitSiteId.nullish = true ∨ client.exitSiteId.text = "" →
      (k.Right sites here client ↔ choice sites siteId client = k) := by
    intro hblank
    have hnone : ∀ n, ¬ Value.Numbers client.exitSiteId n := by
      rintro n hn
      rcases hblank with h | h
      · simp [hn.given] at h
      · exact hn.text h
    have hchoice : choice sites siteId client = .noExit := by
      unfold choice
      rw [if_pos (by simpa using hblank)]
    rw [hchoice]
    cases k <;> simp [Choice.Right, hnone, hblank]
  rcases hclient with hnullish | htext | ⟨n,hn⟩
  · exact hblank (.inl hnullish)
  · exact hblank (.inr htext)
  · have hnumbers : ∀ m, Value.Numbers client.exitSiteId m ↔ m = n :=
      fun m => ⟨fun hm => numbers_inj hm hn,fun hm => hm ▸ hn⟩
    rw [choice_of_numbers hn hhere]
    by_cases hsame : n = here
    · subst hsame
      cases k <;> simp [Choice.Right, hnumbers, hn.given, hn.text]
    · have hother : here ≠ n := Ne.symm hsame
      rw [if_neg hsame]
      cases k <;> simp only [Choice.Right, hnumbers, misses_iff, exists_eq_left, hn.given, hn.text] <;>
        cases unusableReason (siteById sites (.int n)) <;> simp [hsame, hother]

theorem nodup_planned {α : Type} {key : Exit → α} (h : ∀ a b, key (exitAt sites a) = key (exitAt sites b) → a = b) :
    ((planExits clients sites siteId).planned.map key).Nodup := by
  have hkeys : (planExits clients sites siteId).planned.map key =
      (planExits clients sites siteId).exits.keys.map fun id => key (exitAt sites id) := by
    rw [ExitPlan.planned, OrdMap.keys, List.map_map, List.map_map]
    refine List.map_congr_left fun entry hentry => congrArg key ?_
    exact (((gathers_planExits clients sites siteId).exits _ _).mp (OrdMap.mem_entries_iff.mp hentry)).1
  rw [hkeys]
  exact (planExits clients sites siteId).exits.keys_nodup.map h

structure SamePlan (plan plan' : ExitPlan) : Prop where
  rules : plan.rules.Perm plan'.rules
  unusable : plan.unusable.Perm plan'.unusable
  exits : plan.planned.Perm plan'.planned

theorem samePlan_perm (h : clients.Perm clients') :
    SamePlan (planExits clients sites siteId) (planExits clients' sites siteId) := by
  refine ⟨?_,?_,?_⟩
  · rw [(gathers_planExits clients sites siteId).rules, (gathers_planExits clients' sites siteId).rules]
    exact h.filterMap _
  · rw [(gathers_planExits clients sites siteId).unusable, (gathers_planExits clients' sites siteId).unusable]
    exact h.filterMap _
  · have hnodup : ∀ clients : List ClientDoc, (planExits clients sites siteId).planned.Nodup :=
      fun clients => by
        have hids : ((planExits clients sites siteId).planned.map Exit.siteId).Nodup := nodup_planned fun _ _ h => h
        exact hids.of_map Exit.siteId
    refine (List.perm_ext_iff_of_nodup (hnodup clients) (hnodup clients')).mpr fun exit => ?_
    simp only [mem_planned_exits, h.mem_iff]

def SafeTable (id : Num) : Prop := ∃ n : Int, id = .int n ∧ (TABLE_BASE + n).natAbs < 2 ^ 53

theorem eq_of_table {a b : Num} (ha : SafeTable a) (h : tableFor a = tableFor b) : a = b := by
  obtain ⟨n,rfl,hn⟩ := ha
  have htable : tableFor (.int n) = .int (TABLE_BASE + n) := congrArg Num.int (Num.nearest_of_lt hn)
  rw [(above_eq_iff hn).mp (h.symm.trans htable), Num.int.injEq]
  omega

structure ExitPlan.Partitions (clients : List ClientDoc) (sites : List SiteDoc) (siteId : Value) (here : Int)
    (plan : ExitPlan) : Prop where
  classes : ∀ client ∈ clients, ∃! k : Choice, k.Right sites here client
  sorted : ∀ k : ClientDoc → Choice, (∀ client ∈ clients, (k client).Right sites here client) →
    plan.rules = clients.filterMap (fun client => (k client).rule client) ∧
    plan.unusable = clients.filterMap fun client => (k client).report client
  siteIds : (plan.planned.map Exit.siteId).Nodup
  ifaces : (plan.planned.map Exit.iface).Nodup
  tables : ∀ exit ∈ plan.planned, SafeTable exit.siteId → ∀ other ∈ plan.planned, other.table = exit.table → other = exit
  routed : ∀ rule ∈ plan.rules, ∃ exit ∈ plan.planned, exit.siteId = rule.exitSiteId ∧ exit.table = rule.table ∧
    ∀ other ∈ plan.planned, other.siteId = rule.exitSiteId → other = exit
  used : ∀ exit ∈ plan.planned, ∃ rule ∈ plan.rules, rule.exitSiteId = exit.siteId ∧ rule.table = exit.table
  order : ∀ clients', clients.Perm clients' → SamePlan plan (planExits clients' sites siteId)

theorem planExits_partitions (hhere : siteId.number = .int here) (hclients : ∀ client ∈ clients, client.Chooses) :
    (planExits clients sites siteId).Partitions clients sites siteId here where
  classes client hclient := by
    have hright : ∀ k : Choice, k.Right sites here client ↔ choice sites siteId client = k :=
      fun _ => right_iff (hclients client hclient) hhere
    exact ⟨_,(hright _).mpr rfl,fun k hk => ((hright k).mp hk).symm⟩
  sorted k hk := by
    have hchoice : ∀ client ∈ clients, choice sites siteId client = k client := fun client hclient =>
      (right_iff (hclients client hclient) hhere).mp (hk client hclient)
    obtain ⟨hrules,hunusable,-⟩ := gathers_planExits clients sites siteId
    rw [hrules, hunusable]
    constructor
    · exact List.filterMap_congr fun client hclient => by rw [hchoice client hclient]
    · exact List.filterMap_congr fun client hclient => by rw [hchoice client hclient]
  siteIds := nodup_planned fun _ _ h => h
  ifaces := nodup_planned fun _ _ h => ifaceFor_num_inj h
  tables exit hexit hsafe other hother htable := by
    obtain ⟨client,-,-,rfl⟩ := mem_planned_exits.mp hexit
    obtain ⟨client',-,-,rfl⟩ := mem_planned_exits.mp hother
    exact congrArg (exitAt sites) (eq_of_table hsafe htable.symm).symm
  routed rule hrule := by
    obtain ⟨client,hclient,hrouted,rfl⟩ := mem_rules.mp hrule
    refine ⟨_,mem_planned_exits.mpr ⟨client,hclient,hrouted,rfl⟩,rfl,rfl,fun other hother hsame => ?_⟩
    obtain ⟨client',-,-,rfl⟩ := mem_planned_exits.mp hother
    exact congrArg (exitAt sites) hsame
  used exit hexit := by
    obtain ⟨client,hclient,hrouted,rfl⟩ := mem_planned_exits.mp hexit
    exact ⟨client.rule,mem_rules.mpr ⟨client,hclient,hrouted,rfl⟩,rfl,rfl⟩
  order clients' h := samePlan_perm h

def gateway (siteId : Value) : SiteDoc where
  siteId := siteId
  gatewayPublicKey := some "key"
  gatewayEndpoint := some "site.example:51820"

def deviceThrough (ip : String) (exitSiteId : Value) : ClientDoc where
  publicKey := some "device"
  assignedIp := some ip
  exitSiteId := exitSiteId

def textId (text : String) (n : Int) : Value := ⟨text,.int n,true,false⟩

def fiveDevices : List ClientDoc := [deviceThrough "10.2.128.1" .null,deviceThrough "10.2.128.2" (textId "2" 2),
  deviceThrough "10.2.128.3" (.ofInt 9),deviceThrough "10.2.128.4" (.ofInt 5),deviceThrough "10.2.128.5" (textId "5" 5)]

theorem planExits_partitions_five :
    (planExits fiveDevices [gateway (textId "5" 5)] (.ofInt 2)).Partitions fiveDevices [gateway (textId "5" 5)]
      (.ofInt 2) 2 ∧
    (planExits fiveDevices [gateway (textId "5" 5)] (.ofInt 2)).rules.map ExitRule.source =
      ["10.2.128.4/32","10.2.128.5/32"] := by
  refine ⟨planExits_partitions rfl ?_,by decide⟩
  simp only [fiveDevices, List.forall_mem_cons]
  refine ⟨.inl rfl,.inr (.inr ⟨2,rfl,rfl,by decide⟩),.inr (.inr ⟨9,rfl,rfl,by decide⟩),
    .inr (.inr ⟨5,rfl,rfl,by decide⟩),.inr (.inr ⟨5,rfl,rfl,by decide⟩),nofun⟩

def farDevices : List ClientDoc := [deviceThrough "10.2.128.4" (textId "288230376151711744" 288230376151711744),
  deviceThrough "10.2.128.5" (textId "288230376151711808" 288230376151711808)]

def farSites : List SiteDoc := farDevices.map fun client => gateway client.exitSiteId

theorem planExits_far_table : (∀ client ∈ farDevices, client.Chooses) ∧
    (planExits farDevices farSites (.ofInt 2)).planned.map Exit.siteId =
      [.int 288230376151711744,.int 288230376151711808] ∧
    ¬ ((planExits farDevices farSites (.ofInt 2)).planned.map Exit.table).Nodup := by
  refine ⟨?_,by decide,by decide⟩
  simp only [farDevices, List.forall_mem_cons]
  exact ⟨.inr (.inr ⟨_,rfl,rfl,by decide⟩),.inr (.inr ⟨_,rfl,rfl,by decide⟩),nofun⟩

end Partition

end JumpHost.Mesh
