import JumpHost.Mesh.ExitPeers
import JumpHost.Mesh.PeerDump

namespace JumpHost.Mesh

open AuditEvent (isSpace)
open Effect

structure Answers where
  linkShow : String → Except Failed String
  links : Except Failed String
  rules : Except Failed String
  dump : String → Except Failed String

namespace Answers

variable (a : Answers) (now : Nat)

def listManagedRules : List LiveRule := (a.rules.map rulesOf).toOption.getD []

def listExitInterfaces : OrdMap Nat String := (a.links.map linksOf).toOption.getD .empty

def peerStatus (name : String) : OrdMap String PeerStatus := ((a.dump name).map (peersOf now)).toOption.getD .empty

structure ExitLive where
  iface : String
  peers : OrdMap String PeerStatus

def exitStatus : OrdMap Nat ExitLive :=
  a.listExitInterfaces.entries.foldl (fun out e => out.set e.1 ⟨e.2,a.peerStatus now e.2⟩) .empty

structure Live where
  up : Bool
  peers : OrdMap String PeerStatus

def liveState (IFACE : String) : Live :=
  if (a.linkShow IFACE).toBool then ⟨true,a.peerStatus now IFACE⟩ else ⟨false,.empty⟩

end Answers

section Console

structure Console where
  links : LinkShow
  wg : String → WgShow
  port : String → String

variable (c : Console) {b : Box} {now : Nat}

def noDevice : Failed := { err := "No such device" }

def Console.line (b : Box) (name : String) : Except Failed String :=
  if b.links.has name then .ok (String.ofList (c.links.front name ++ c.links.rest name)) else .error noDevice

def Console.answers (b : Box) : Answers where
  linkShow := c.line b
  links := .ok (b.linkText c.links)
  rules := .ok b.ruleText
  dump name := match b.links.get? name with
    | some l => .ok ((c.wg name).dump (c.port name) l)
    | none => .error noDevice

structure Legible (b : Box) : Prop where
  selectors : ∀ r ∈ b.rules, ∀ e ∈ r.extra, Selector e
  names : ∀ name ∈ b.links.keys, LinkName name
  printable : ∀ e ∈ b.links.entries, Printable (c.wg e.1) (c.port e.1) e.2

theorem legible_iff : Legible c b ↔ (∀ r ∈ b.rules, ∀ e ∈ r.extra, Selector e) ∧
    (∀ name ∈ b.links.keys, LinkName name) ∧ ∀ e ∈ b.links.entries, Printable (c.wg e.1) (c.port e.1) e.2 :=
  ⟨fun h => ⟨h.selectors,h.names,h.printable⟩,fun ⟨h₁,h₂,h₃⟩ => ⟨h₁,h₂,h₃⟩⟩

instance (b : Box) : Decidable (Legible c b) := decidable_of_iff _ (legible_iff c).symm

variable {c}

theorem listManagedRules_answers (h : Legible c b) :
    (c.answers b).listManagedRules = (b.rules.filterMap IpRule.managed).map ManagedRule.live :=
  rulesOf_ruleText h.selectors

theorem listExitInterfaces_answers (h : Legible c b) : (c.answers b).listExitInterfaces = b.exitInterfaces :=
  linksOf_linkText c.links h.names

theorem peerStatus_answers (h : Legible c b) (now : Nat) {name : String} {l : Link}
    (hlink : b.links.get? name = some l) : ((c.answers b).peerStatus now name).entries =
      l.peers.entries.map fun e => (e.1,(c.wg name).status now e.1 e.2) := by
  have hdump : (c.answers b).dump name = .ok ((c.wg name).dump (c.port name) l) := by
    simp only [Console.answers, hlink]
  have hstatus : (c.answers b).peerStatus now name = peersOf now ((c.wg name).dump (c.port name) l) := by
    simp only [Answers.peerStatus, hdump, Except.map, Except.toOption, Option.getD_some]
  rw [hstatus]
  exact peersOf_dump (h.printable _ (OrdMap.mem_entries_iff.mpr hlink)) now

theorem readback (h : Legible c b) (now : Nat) :
    (c.answers b).listManagedRules = (b.rules.filterMap IpRule.managed).map ManagedRule.live ∧
    (c.answers b).listExitInterfaces = b.exitInterfaces ∧
    (∀ name, (c.answers b).liveState now name = ⟨b.links.has name,(c.answers b).peerStatus now name⟩) ∧
    (∀ name l, b.links.get? name = some l → ((c.answers b).peerStatus now name).entries =
      l.peers.entries.map fun e => (e.1,(c.wg name).status now e.1 e.2)) ∧
    ∀ name, b.links.get? name = none → (c.answers b).peerStatus now name = .empty := by
  have hnone (name : String) (hlink : b.links.get? name = none) : (c.answers b).peerStatus now name = .empty := by
    simp [Answers.peerStatus, Console.answers, hlink, Except.map, Except.toOption]
  refine ⟨listManagedRules_answers h,listExitInterfaces_answers h,fun name => ?_,fun name l hlink => ?_,hnone⟩
  · by_cases hup : b.links.has name = true
    · simp [Answers.liveState, Console.answers, Console.line, hup, Except.toBool]
    · have hlink : b.links.get? name = none := OrdMap.get?_eq_none_iff.mpr (mt OrdMap.has_iff.mpr hup)
      rw [hnone name hlink]
      simp [Answers.liveState, Console.answers, Console.line, hup, Except.toBool]
  · exact peerStatus_answers h now hlink

def console : Console where
  links := ⟨fun _ => 7,fun _ => false,fun _ => " <POINTOPOINT,NOARP,UP,LOWER_UP> mtu 1420".toList,fun _ => by decide⟩
  wg _ := ⟨"own","off",fun _ => "(none)",fun _ => 0,fun _ => 9007199254740993,fun _ => 92⟩
  port _ := "51820"

def banded : Box where
  rules := [⟨3003,none,["to 10.0.0.0/8"],100⟩,⟨3003,some (.host (.quad 10 1 128 7)),[],2403⟩]
  links := OrdMap.empty.set "wg-exit-3"
    { privateKey := some "hidden", peers := OrdMap.empty.set "nl" ⟨[anywhere],none,25⟩ }

theorem readback_banded : (console.answers banded).listManagedRules = [⟨3003,"10.1.128.7/32","2403"⟩] ∧
    (console.answers banded).listExitInterfaces.entries = [(3,"wg-exit-3")] ∧
    ((console.answers banded).peerStatus 60 "wg-exit-3").entries = [("nl",⟨none,0,none,9007199254740992,92⟩)] := by
  have hlegible : Legible console banded := by decide +kernel
  obtain ⟨hrules,hlinks,-,hpeers,-⟩ := readback hlegible 60
  refine ⟨hrules.trans (by decide +kernel),?_,?_⟩
  · rw [hlinks]
    decide +kernel
  · rw [hpeers "wg-exit-3" _ rfl]
    decide +kernel

end Console

section Runs

variable {c : Console} {b b' : Box} {w w₁ w₂ : World} {result : ExitsApplied} {clients : List ClientDoc}
  {sites : List SiteDoc} {siteId : Value} {plan : ExitPlan}

theorem dotted_host {x : Addr} (h : x.family = .v4) :
    ∃ text, (Net.host x).cidr = text ++ "/32" ∧ Net.Dotted text := by
  have hv4 : (Net.host x).family = .v4 := h
  have hlength : (Net.host x).bits.length = 32 := by
    rw [Net.host, x.full, h]
    rfl
  have htext : (Net.host x).text = Net.quad (Net.host x).octets := by rw [Net.text, hv4]
  have hoctets := octet_lt (Net.host x) hv4
  refine ⟨String.ofList (Net.quad (Net.host x).octets),?_,_,_,_,_,⟨?_,?_,?_,?_⟩,String.toList_ofList⟩
  · rw [← String.toList_inj, Net.toList_cidr, htext, hlength, String.toList_append, String.toList_ofList]
    rfl
  all_goals exact hoctets _ (List.mem_map_of_mem (by decide))

theorem cidr_planned (hdevices : Devices clients) {rule : ExitRule} {x : Addr}
    (h : rule ∈ (planExits clients sites siteId).rules) (hx : Net.parse rule.source = some (Net.host x))
    (hfamily : x.family = .v4) : (Net.host x).cidr = rule.source := by
  obtain ⟨client,-,hsource,hdotted⟩ := dotted_planned hdevices h
  obtain ⟨text,hcidr,htext⟩ := dotted_host hfamily
  have hparse : Net.parse (text ++ "/32") = Net.parse (shown client.assignedIp ++ "/32") := by
    rw [← hcidr, Net.parse_cidr, ← hx, hsource, ClientDoc.source]
  rw [hcidr, htext.inj hdotted hparse, hsource, ClientDoc.source]

def ManagedRule.seen (m : ManagedRule) : String × Num × String := (m.source,.int m.priority,tableText m.table)

def ExitRule.seen (rule : ExitRule) : String × Num × String := (rule.source,rule.priority,rule.table.text)

theorem seen_kernel (hdevices : Devices clients) (hsites : SiteIds sites) {rule : ExitRule}
    (h : rule ∈ (planExits clients sites siteId).rules) :
    (rule.kernel.bind IpRule.managed).map ManagedRule.seen = some rule.seen := by
  have hplan := formed_planExits clients sites siteId
  obtain ⟨n,hpos,hle,hat,-⟩ := rule_at hplan hsites h
  obtain ⟨x,hfamily,hx⟩ := parse_planned hdevices h
  have hkernel := kernel_of_at hat hx
  have hv4 : (Net.host x).family = .v4 := hfamily
  have hband : RULE_PRIORITY_BASE ≤ 3000 + (n : Int) ∧ 3000 + (n : Int) ≤ RULE_PRIORITY_BASE + 254 := by
    unfold RULE_PRIORITY_BASE
    omega
  have hmanaged : IpRule.managed ⟨3000 + n,some (Net.host x),[],2400 + n⟩ =
      some ⟨3000 + n,(Net.host x).cidr,2400 + n⟩ := by
    simp [IpRule.managed, hband, hv4]
  have htable : rule.table.text = tableText (2400 + n) := by
    rw [tableText_band hpos, hat.table]
    rfl
  rw [hkernel, Option.bind_some, hmanaged, Option.map_some, ManagedRule.seen, ExitRule.seen,
    cidr_planned hdevices h hx hfamily, hat.priority, htable]

theorem seen_live (b : Box) : ((b.rules.filterMap IpRule.managed).map ManagedRule.live).map
    (fun r => (r.source,Num.int r.priority,r.table)) =
      (b.rules.filter IpRule.inBand).filterMap fun r => r.managed.map ManagedRule.seen := by
  rw [List.map_map, List.map_filterMap, List.filterMap_filter]
  refine List.filterMap_congr fun r _ => ?_
  cases hm : r.managed with
  | none => simp
  | some m =>
    rw [if_pos (managed_some hm).1]
    rfl

theorem rules_live (hdevices : Devices clients) (hsites : SiteIds sites)
    (h : AsPlanned (planExits clients sites siteId) b b') :
    (((b'.rules.filterMap IpRule.managed).map ManagedRule.live).map fun r => (r.source,Num.int r.priority,r.table)).Perm
      ((planExits clients sites siteId).rules.map ExitRule.seen) := by
  have hband := h.band.filterMap fun kernel => (kernel.bind IpRule.managed).map ManagedRule.seen
  have hplanned : (planExits clients sites siteId).rules.filterMap (fun rule =>
      (rule.kernel.bind IpRule.managed).map ManagedRule.seen) =
        (planExits clients sites siteId).rules.map ExitRule.seen := by
    rw [← List.filterMap_eq_map]
    exact List.filterMap_congr fun rule hrule => seen_kernel hdevices hsites hrule
  rw [List.filterMap_map, List.filterMap_map] at hband
  rw [seen_live]
  exact hplanned ▸ hband

theorem entries_exitStatus (a : Answers) (now : Nat) : (a.exitStatus now).entries =
    a.listExitInterfaces.entries.map fun e => (e.1,⟨e.2,a.peerStatus now e.2⟩) := by
  have hdistinct : (a.listExitInterfaces.entries.map fun e =>
      (e.1,(⟨e.2,a.peerStatus now e.2⟩ : Answers.ExitLive))).Pairwise fun e e' => e.1 ≠ e'.1 := by
    rw [List.pairwise_map]
    exact List.pairwise_map.mp a.listExitInterfaces.nodup
  have hfold := entries_foldl_set _ .empty hdistinct
  rw [List.foldl_map] at hfold
  exact hfold

theorem exits_live (hsettled : AsPlanned plan b b') (hnamed : NamedExits b') (n : Nat) (name : String) :
    (n,name) ∈ b'.exitInterfaces.entries ↔ .int n ∈ plan.exits.keys ∧ name = ifaceFor (.int n) := by
  constructor
  · intro hentry
    obtain ⟨hname,hid⟩ := mem_exitInterfaces hentry
    obtain ⟨id,hplanned,rfl⟩ := (hsettled.links name (exitNamed_of_id hid)).mp hname
    rw [id_of_exitIfaceId hid] at hplanned ⊢
    exact ⟨hplanned,rfl⟩
  · rintro ⟨hplanned,rfl⟩
    have hid := exitIfaceId_ifaceFor n
    exact exitInterfaces_complete hnamed ((hsettled.links _ (exitNamed_of_id hid)).mpr ⟨_,hplanned,rfl⟩) hid

theorem status_agrees {events : List ExitEvent} {last : ExitPass} (hstart : Untouched w.box)
    (hvalid : ∀ event ∈ events, event.Valid) (hrun : Run.exec exitStep w events = some w₁) (hlast : last.Valid)
    (hcalm : last.faults = fun _ _ => none) (hpass : last.run w₁ = .ok result w₂) (hnone : result.failed = [])
    (hlegible : Legible c w₂.box) (now : Nat) :
    ((c.answers w₂.box).listManagedRules.map fun r => (r.source,Num.int r.priority,r.table)).Perm
      (last.plan.rules.map ExitRule.seen) ∧
    (∀ n : Nat, n ∈ ((c.answers w₂.box).exitStatus now).keys ↔ .int n ∈ last.plan.exits.keys) ∧
    ∀ (n : Nat) exit, last.plan.exits.get? (.int n) = some exit →
      ∃ live, ((c.answers w₂.box).exitStatus now).get? n = some live ∧ live.iface = exit.iface ∧
        exit.publicKey ∈ live.peers.keys := by
  have hb₁ : Installed w₁.box := Run.invariant_of_mem (fun v event v' hv hevent hstep =>
    installed_exitStep (hvalid event hevent) hstep hv) hstart.installed hrun
  have hquiet : Quiet { w₁ with faults := last.faults } := ⟨hcalm⟩
  have hsettled := applyExits_asPlanned hlast.devices hlast.sites hquiet hb₁ hpass hnone
  have hb₂ : Installed w₂.box := (installed_applyExits hlast.devices hlast.sites).of_ok hpass hb₁
  have hentries := entries_exitStatus (c.answers w₂.box) now
  rw [listExitInterfaces_answers hlegible] at hentries
  refine ⟨?_,fun n => ?_,fun n exit hexit => ?_⟩
  · rw [listManagedRules_answers hlegible]
    exact rules_live hlast.devices hlast.sites hsettled
  · have hkeys : ((c.answers w₂.box).exitStatus now).keys = w₂.box.exitInterfaces.keys := by
      simp only [OrdMap.keys, hentries, List.map_map]
      rfl
    rw [hkeys, OrdMap.mem_keys_iff]
    constructor
    · rintro ⟨name,hname⟩
      exact ((exits_live hsettled hb₂.named n name).mp (OrdMap.mem_entries_iff.mpr hname)).1
    · intro hplanned
      exact ⟨_,OrdMap.mem_entries_iff.mp ((exits_live hsettled hb₂.named n _).mpr ⟨hplanned,rfl⟩)⟩
  · have hchosen := chosen_planExits last.clients last.sites last.siteId
    have hiface := (hchosen _ exit hexit).iface
    obtain ⟨ps,peer,hps,hpeer,-⟩ := peered_applyExits hchosen hquiet hpass hnone _ exit hexit
    obtain ⟨l,hlink,rfl⟩ := Option.map_eq_some_iff.mp hps
    have hentry : (n,exit.iface) ∈ w₂.box.exitInterfaces.entries :=
      (exits_live hsettled hb₂.named n _).mpr ⟨OrdMap.mem_keys_iff.mpr ⟨exit,hexit⟩,hiface⟩
    have hpeers := peerStatus_answers hlegible now hlink
    refine ⟨⟨exit.iface,(c.answers w₂.box).peerStatus now exit.iface⟩,?_,rfl,?_⟩
    · rw [← OrdMap.mem_entries_iff, hentries]
      exact List.mem_map.mpr ⟨_,hentry,rfl⟩
    · have hkeys : ((c.answers w₂.box).peerStatus now exit.iface).keys = l.peers.keys := by
        simp only [OrdMap.keys, hpeers, List.map_map]
        rfl
      rw [hkeys]
      exact OrdMap.mem_keys_iff.mpr ⟨peer,hpeer⟩

def Link.told (l : Link) : Option String × List (String × Option String) :=
  (l.privateKey,l.peers.entries.map fun e => (e.1,e.2.endpoint))

theorem legible_told {told : List (String × Option String × List (String × Option String))}
    (hextra : ∀ r ∈ b.rules, r.extra = []) (hlinks : (b.links.entries.map fun e => (e.1,e.2.told)) = told)
    (htold : ∀ t ∈ told, LinkName t.1 ∧ Scan.Field isSpace (orNone t.2.1) ∧ ∀ peer ∈ t.2.2,
      Scan.Field isSpace peer.1.toList ∧ Scan.Field isSpace (orNone peer.2) ∧ peer.2 ≠ some "(none)") :
    Legible console b := by
  have hentry : ∀ e ∈ b.links.entries, (e.1,e.2.told) ∈ told := fun e he => hlinks ▸ List.mem_map_of_mem he
  refine ⟨fun r hr e he => ?_,fun name hname => ?_,fun e he => ?_⟩
  · rw [hextra r hr] at he
    cases he
  · obtain ⟨e,he,rfl⟩ := List.mem_map.mp hname
    exact (htold _ (hentry e he)).1
  · obtain ⟨-,hkey,hpeers⟩ := htold _ (hentry e he)
    have hpeer : ∀ p ∈ e.2.peers.entries, _ := fun p hp =>
      hpeers _ (List.mem_map_of_mem (f := fun p => (p.1,p.2.endpoint)) hp)
    have hown : Scan.Field isSpace "own".toList := by decide
    have hport : Scan.Field isSpace "51820".toList := by decide
    have hoff : Scan.Field isSpace "off".toList := by decide
    have hshared : Scan.Field isSpace "(none)".toList := by decide
    refine ⟨hkey,hown,hport,hoff,fun key hmem => ?_,fun _ _ => hshared,fun p hp => (hpeer p hp).2.1,
      fun p hp => (hpeer p hp).2.2⟩
    obtain ⟨p,hp,rfl⟩ := List.mem_map.mp hmem
    exact (hpeer p hp).1

def phoneOut (id : Int) : ExitPass := { phoneThrough id with privateKey := "key" }

theorem status_agrees_phone : ∃ w₁ result w₂,
    Run.exec exitStep untouched [.pass (phoneThrough 3)] = some w₁ ∧ (phoneOut 4).run w₁ = .ok result w₂ ∧
    ((console.answers w₂.box).listManagedRules.map fun r => (r.source,Num.int r.priority,r.table)).Perm
      ((phoneOut 4).plan.rules.map ExitRule.seen) ∧
    ∀ n : Nat, n ∈ ((console.answers w₂.box).exitStatus 60).keys ↔ .int n ∈ (phoneOut 4).plan.exits.keys := by
  obtain ⟨w₁,hrun⟩ : ∃ w₁, Run.exec exitStep untouched [.pass (phoneThrough 3)] = some w₁ := ⟨_,rfl⟩
  have hcheck : (Run.exec exitStep untouched [.pass (phoneThrough 3)]).any (fun w =>
      okWith ((phoneOut 4).run w) fun result w' => decide (result.failed = []) &&
        decide (∀ r ∈ w'.box.rules, r.extra = []) && decide ((w'.box.links.entries.map fun e => (e.1,e.2.told)) =
          [("wg-exit-4",some "key",[("se",some "se:51820")])])) = true := by
    decide +kernel
  rw [hrun, Option.any_some] at hcheck
  obtain ⟨result,w₂,hpass,hclean⟩ := exists_of_okWith hcheck
  simp only [Bool.and_eq_true, decide_eq_true_eq] at hclean
  obtain ⟨⟨hnone,hextra⟩,hlinks⟩ := hclean
  have hvalid : ∀ event ∈ [ExitEvent.pass (phoneThrough 3)], event.Valid := by
    intro event hevent
    obtain rfl := List.mem_singleton.mp hevent
    exact phoneThrough_valid 3
  have hout : (phoneOut 4).Valid := ⟨(phoneThrough_valid 4).devices,(phoneThrough_valid 4).sites⟩
  have hagrees := status_agrees untouched_start hvalid hrun hout rfl hpass hnone
    (legible_told hextra hlinks (by decide)) 60
  exact ⟨w₁,result,w₂,hrun,hpass,hagrees.1,hagrees.2.1⟩

end Runs

end JumpHost.Mesh
