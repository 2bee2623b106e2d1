import Mathlib.Data.List.Induction
import JumpHost.Mesh.Plan

namespace JumpHost.Mesh

section Choices

variable (sites : List SiteDoc) (siteId : Value)

inductive Choice where
  | noExit
  | here
  | unusable (reason : String)
  | routed
deriving DecidableEq

def choice (client : ClientDoc) : Choice :=
  if client.exitSiteId.nullish || client.exitSiteId.text = "" then .noExit
  else if Num.strictEq client.exitSiteId.number siteId.number then .here
  else match unusableReason (siteById sites client.exitSiteId.number) with
    | some reason => .unusable reason
    | none => .routed

def exitAt (id : Num) : Exit where
  siteId := id
  slug := (firstTruthy [(siteById sites id).bind SiteDoc.slug]).getD ("site-" ++ id.text)
  iface := ifaceFor id
  table := tableFor id
  publicKey := ((siteById sites id).bind SiteDoc.gatewayPublicKey).getD ""
  endpoint := ((siteById sites id).bind SiteDoc.gatewayEndpoint).getD ""
  allowedIPs := ["0.0.0.0/0","::/0"]
  keepalive := 25

def ClientDoc.rule (client : ClientDoc) : ExitRule where
  source := shown client.assignedIp ++ "/32"
  table := tableFor client.exitSiteId.number
  priority := client.exitSiteId.number.above RULE_PRIORITY_BASE
  exitSiteId := client.exitSiteId.number

def Choice.rule (client : ClientDoc) : Choice → Option ExitRule
  | .routed => some client.rule
  | _ => none

def Choice.report (client : ClientDoc) : Choice → Option Unusable
  | .unusable reason => some ⟨shown client.assignedIp,client.exitSiteId.number,reason⟩
  | _ => none

structure ExitPlan.Gathers (clients : List ClientDoc) (plan : ExitPlan) : Prop where
  rules : plan.rules = clients.filterMap fun client => (choice sites siteId client).rule client
  unusable : plan.unusable = clients.filterMap fun client => (choice sites siteId client).report client
  exits : ∀ id exit, plan.exits.get? id = some exit ↔ exit = exitAt sites id ∧
    ∃ client ∈ clients, choice sites siteId client = .routed ∧ client.exitSiteId.number = id

variable {sites siteId} {plan : ExitPlan} {clients : List ClientDoc} {client : ClientDoc}

theorem usable_of_routed (h : choice sites siteId client = .routed) :
    unusableReason (siteById sites client.exitSiteId.number) = none := by
  unfold choice at h
  split at h
  · cases h
  · split at h
    · cases h
    · split at h
      · cases h
      · next husable => exact husable

theorem planExit_choice : planExit sites siteId plan client = match choice sites siteId client with
    | .noExit | .here => plan
    | .unusable reason =>
        { plan with unusable := plan.unusable ++ [⟨shown client.assignedIp,client.exitSiteId.number,reason⟩] }
    | .routed =>
        { plan with
          exits := if plan.exits.has client.exitSiteId.number then plan.exits
            else plan.exits.set client.exitSiteId.number (exitAt sites client.exitSiteId.number)
          rules := plan.rules ++ [client.rule] } := by
  unfold planExit choice
  simp only
  split
  · rfl
  · split
    · rfl
    · split <;> simp_all [exitAt, ClientDoc.rule]

theorem get?_routed {id : Num} {exit : Exit} (h : plan.Gathers sites siteId clients) :
    (if plan.exits.has client.exitSiteId.number then plan.exits
      else plan.exits.set client.exitSiteId.number (exitAt sites client.exitSiteId.number)).get? id = some exit ↔
    exit = exitAt sites id ∧ ((∃ c ∈ clients, choice sites siteId c = .routed ∧ c.exitSiteId.number = id) ∨
      client.exitSiteId.number = id) := by
  split
  · next hold =>
    obtain ⟨exit',hexit'⟩ := OrdMap.mem_keys_iff.mp (OrdMap.has_iff.mp hold)
    rw [h.exits]
    refine and_congr_right fun _ => ⟨.inl,fun hid => hid.elim (fun hold => hold) fun hid => ?_⟩
    exact hid ▸ ((h.exits _ _).mp hexit').2
  · next hnew =>
    by_cases hid : client.exitSiteId.number = id
    · subst hid
      rw [OrdMap.get?_set_self]
      simp [eq_comm]
    · rw [OrdMap.get?_set_of_ne _ (Ne.symm hid), h.exits]
      simp [hid]

theorem gathers_planExit (h : plan.Gathers sites siteId clients) :
    (planExit sites siteId plan client).Gathers sites siteId (clients ++ [client]) := by
  have hsame : ∀ k, choice sites siteId client = k → k ≠ .routed → ∀ id, (∃ c ∈ clients ++ [client],
      choice sites siteId c = .routed ∧ c.exitSiteId.number = id) ↔
      ∃ c ∈ clients, choice sites siteId c = .routed ∧ c.exitSiteId.number = id := by
    rintro k rfl hk id
    simp [or_and_right, exists_or, hk]
  rw [planExit_choice]
  cases hchoice : choice sites siteId client with
  | noExit | here | unusable =>
    refine ⟨?_,?_,fun id exit => ?_⟩
    · simp [h.rules, hchoice, Choice.rule]
    · simp [h.unusable, hchoice, Choice.report]
    · rw [hsame _ hchoice nofun]
      exact h.exits id exit
  | routed =>
    refine ⟨?_,?_,fun id exit => ?_⟩
    · simp [h.rules, hchoice, Choice.rule]
    · simp [h.unusable, hchoice, Choice.report]
    · refine (get?_routed h).trans (and_congr_right fun _ => ?_)
      simp [or_and_right, exists_or, hchoice]

theorem gathers_planExits (clients : List ClientDoc) (sites : List SiteDoc) (siteId : Value) :
    (planExits clients sites siteId).Gathers sites siteId clients := by
  induction clients using List.reverseRecOn with
  | nil => exact ⟨rfl,rfl,fun id exit => by simp [planExits, OrdMap.get?, OrdMap.empty]⟩
  | append_singleton clients client ih =>
    rw [planExits, List.foldl_append]
    exact gathers_planExit ih

theorem mem_rules {rule : ExitRule} : rule ∈ (planExits clients sites siteId).rules ↔
    ∃ client ∈ clients, choice sites siteId client = .routed ∧ rule = client.rule := by
  rw [(gathers_planExits clients sites siteId).rules, List.mem_filterMap]
  refine exists_congr fun client => and_congr_right fun _ => ?_
  cases choice sites siteId client <;> simp [Choice.rule, eq_comm]

theorem has_routed (hclient : client ∈ clients) (hrouted : choice sites siteId client = .routed) :
    (planExits clients sites siteId).exits.has client.exitSiteId.number = true := by
  have hget := ((gathers_planExits clients sites siteId).exits _ _).mpr ⟨rfl,client,hclient,hrouted,rfl⟩
  exact OrdMap.has_iff.mpr (OrdMap.mem_keys_iff.mpr ⟨_,hget⟩)

end Choices

end JumpHost.Mesh
