import JumpHost.Mesh.ExitState
import JumpHost.Mesh.Peers

namespace JumpHost.Mesh

open Effect

section Plan

variable {clients : List ClientDoc} {sites : List SiteDoc} {siteId : Value}

def tunnelIPs : List String := ["0.0.0.0/0","::/0"]

structure ExitPlan.Chosen (sites : List SiteDoc) (plan : ExitPlan) (id : Num) (exit : Exit) : Prop where
  iface : exit.iface = ifaceFor id
  site : ∃ site, siteById sites id = some site ∧ site.gatewayPublicKey = some exit.publicKey
  allowedIPs : exit.allowedIPs = tunnelIPs
  rule : ∃ rule ∈ plan.rules, rule.table = tableFor id

theorem published_of_usable {site : Option SiteDoc} (h : unusableReason site = none) :
    ∃ s, site = some s ∧ s.gatewayPublicKey = some ((site.bind SiteDoc.gatewayPublicKey).getD "") := by
  cases site with
  | none => simp [unusableReason] at h
  | some s =>
    refine ⟨s,rfl,?_⟩
    simp only [unusableReason] at h
    cases hkey : s.gatewayPublicKey with
    | none => simp [hkey, truthy] at h
    | some key => simp [hkey]

def ExitPlan.AllChosen (sites : List SiteDoc) (plan : ExitPlan) : Prop :=
  ∀ id exit, plan.exits.get? id = some exit → plan.Chosen sites id exit

theorem chosen_planExits (clients : List ClientDoc) (sites : List SiteDoc) (siteId : Value) :
    (planExits clients sites siteId).AllChosen sites := by
  intro id exit hget
  obtain ⟨rfl,client,hclient,hrouted,rfl⟩ := ((gathers_planExits clients sites siteId).exits id exit).mp hget
  obtain ⟨site,hsite,hkey⟩ := published_of_usable (usable_of_routed hrouted)
  exact ⟨rfl,⟨site,hsite,hkey⟩,rfl,client.rule,mem_rules.mpr ⟨client,hclient,hrouted,rfl⟩,rfl⟩

end Plan

section Tables

variable {plan : ExitPlan} {privateKey : String} {w w' : World} {result : ExitsApplied}
  {failed failed' : List ExitFailure}

theorem addRuleOf_table (installed : List ManagedRule) (failed : List ExitFailure) (rule : ExitRule) (w : World) :
    ∃ failed' w', addRuleOf installed failed rule w = .ok failed' w' ∧
      (failed' = [] → failed = [] ∧ ∃ t : Nat, rule.table = .int t) := by
  unfold addRuleOf
  split
  · next hserved =>
    obtain ⟨m,-,hserves⟩ := List.any_eq_true.mp hserved
    simp only [ManagedRule.serves, Bool.decide_and, Bool.and_eq_true, decide_eq_true_eq] at hserves
    exact ⟨failed,w,rfl,fun hnone => ⟨hnone,m.table,hserves.2.2⟩⟩
  · obtain ⟨res,w₁,hadd,-,hres⟩ := tryRun_cases (.ruleAdd rule.source rule.table rule.priority) w
    rw [bind_of_ok hadd]
    rcases hres with ⟨-,refused,rfl⟩ | ⟨rfl,-,hstep⟩
    · exact ⟨_,w₁,rfl,fun hnone => by simp at hnone⟩
    · obtain ⟨_,t,_,-,ht,-,-,-,-⟩ := ruleAdd_ok hstep
      exact ⟨_,w₁,rfl,fun hnone => ⟨hnone,t,ht⟩⟩

theorem applyRules_tables {rules : List ExitRule} (h : applyRules rules failed w = .ok failed' w')
    (hnone : failed' = []) : failed = [] ∧ ∀ rule ∈ rules, ∃ t : Nat, rule.table = .int t := by
  obtain ⟨installed,w₁,-,h⟩ := bind_ok h
  obtain ⟨failed₁,w₂,hremove,hadd⟩ := bind_ok h
  let D : ExitRule → List ExitFailure → World → Prop := fun rule failed₂ _ =>
    failed₂ = [] → ∃ t : Nat, rule.table = .int t
  have hturn : ∀ rule ∈ rules, ∀ failed₂ v, (failed₂ = [] → failed₁ = []) →
      ∃ failed₃ v', addRuleOf installed failed₂ rule v = .ok failed₃ v' ∧ (failed₃ = [] → failed₁ = []) ∧
        D rule failed₃ v' ∧ ∀ other ∈ rules, D other failed₂ v → D other failed₃ v' := by
    intro rule _ failed₂ v hfailed
    obtain ⟨failed₃,v',hrun,htable⟩ := addRuleOf_table installed failed₂ rule v
    exact ⟨failed₃,v',hrun,fun hnone => hfailed (htable hnone).1,fun hnone => (htable hnone).2,
      fun other _ hother hnone => hother (htable hnone).1⟩
  obtain ⟨failed₃,w₃,hrun,hfailed,htables⟩ :=
    foldlM_each (fun failed₂ _ => failed₂ = [] → failed₁ = []) D hturn (s := w₂) (b := failed₁) id
  rw [hadd] at hrun
  cases hrun
  have hkeep : ∀ failed₂ m v, (failed₂ = [] → failed = []) → ∃ failed₃ v',
      removeRuleOf (rules.map ExitRule.key) failed₂ m v = .ok failed₃ v' ∧ (failed₃ = [] → failed = []) := by
    intro failed₂ m v hfailed
    obtain ⟨failed₃,v',hrun⟩ := returns_removeRuleOf (rules.map ExitRule.key) failed₂ m v
    exact ⟨failed₃,v',hrun,fun hnone => hfailed (removeRuleOf_failed hrun hnone)⟩
  have hremoved : ∃ failed₄ w₄, installed.foldlM (removeRuleOf (rules.map ExitRule.key)) failed w₁ =
      .ok failed₄ w₄ ∧ (failed₄ = [] → failed = []) :=
    foldlM_ok (fun _ failed₂ _ => failed₂ = [] → failed = []) (fun failed₂ m _ v hv => hkeep failed₂ m v hv) id
  obtain ⟨failed₄,w₄,hrun,hfailed₄⟩ := hremoved
  rw [hremove] at hrun
  cases hrun
  exact ⟨hfailed₄ (hfailed hnone),fun rule hrule => htables rule hrule hnone⟩

theorem int_of_tableFor {id : Num} {t : Nat} (h : tableFor id = .int t) : ∃ n : Int, id = .int n := by
  cases id with
  | nan => simp [tableFor, Num.above] at h
  | int n => exact ⟨n,rfl⟩
  | frac text inexact => simp [tableFor, Num.above] at h

end Tables

def anywhere6 : Net := ⟨.v6,[],Nat.zero_le _⟩

section Peered

variable {exit : Exit} {privateKey : String} {w w' : World}

def Exit.Peered (exit : Exit) (b : Box) : Prop :=
  ∃ ps peer, b.peersOn exit.iface = some ps ∧ ps.get? exit.publicKey = some peer ∧
    peer.allowedIPs = [anywhere,anywhere6]

theorem peersOn_wgSetPeer {b b' : Box} {endpoint : Option String} {keepalive : Option Nat}
    (hips : exit.allowedIPs = tunnelIPs)
    (h : b.step (.wgSetPeer exit.iface exit.publicKey exit.allowedIPs endpoint keepalive) = .ok b') :
    exit.Peered b' := by
  have hnets : tunnelIPs.mapM Net.parse = some [anywhere,anywhere6] := by decide
  obtain ⟨link,-,hb⟩ := onLink_ok h
  rw [hips, hnets] at hb
  cases hb
  have hassigned : ∃ peer, (assignPeer link.peers exit.publicKey [anywhere,anywhere6] endpoint keepalive).get?
      exit.publicKey = some peer ∧ peer.allowedIPs = [anywhere,anywhere6] := get?_assignPeer_self
  obtain ⟨peer,hpeer,hnets⟩ := hassigned
  refine ⟨_,peer,?_,hpeer,hnets⟩
  rw [Box.peersOn, OrdMap.get?_set_self]
  rfl

theorem peered_bringUpExit (hips : exit.allowedIPs = tunnelIPs)
    (h : bringUpExit privateKey exit w = .ok () w') : exit.Peered w'.box := by
  obtain ⟨v,hprepare,hsteer⟩ := bringUpExit_ok h
  obtain ⟨-,b,_,_,hset⟩ := prepareExit_ok hprepare
  obtain ⟨ps,peer,hps,hpeer⟩ := peersOn_wgSetPeer hips hset
  have hstable := stable_peersOn exit.iface ps
  have hkeep : Keeps (fun x => x.box.peersOn exit.iface = some ps) (steerExit exit) := by
    refine keeps_bind (keeps_tryRun hstable trivial) fun _ => keeps_bind ?_ fun _ => keeps_pure _
    exact keeps_applySysctls hstable (fun _ _ => trivial) (fun _ _ => trivial) _
  exact ⟨ps,peer,hkeep.of_ok hsteer hps,hpeer⟩

theorem peered_other {other : Exit} (hprobe : ∀ pid, exit.iface ≠ "wgprobe" ++ pid)
    (hne : other.iface ≠ exit.iface) (done : List String × List ExitFailure) :
    Keeps (fun v => exit.Peered v.box) (applyExit privateKey done other) := by
  rintro v ⟨ps,peer,hps,hpeer⟩
  refine ⟨ps,peer,?_,hpeer⟩
  have hstable := stable_peersOn exit.iface ps
  refine keeps_applyExit (hstable.mono fun c hc => ?_) (fun pid => ?_) done v hps
  · cases c <;> simp_all [Cmd.ofExit, Cmd.sparesPeers]
  · exact keeps_probeKernel hstable trivial fun heq => hprobe pid heq.symm

end Peered

section Pass

variable {clients : List ClientDoc} {sites : List SiteDoc} {siteId : Value} {plan : ExitPlan}
  {privateKey : String} {w w' : World} {result : ExitsApplied} {id : Num} {exit : Exit}

def ExitPlan.Numbered (plan : ExitPlan) : Prop :=
  ∀ id exit, plan.exits.get? id = some exit → ∃ n : Int, id = .int n

theorem numbered_of_ok (hplan : plan.AllChosen sites) (h : applyExits plan privateKey w = .ok result w')
    (hnone : result.failed = []) : plan.Numbered := by
  obtain ⟨done,w₁,w₂,found,w₃,-,-,hrules,-,-⟩ := applyExits_ok h
  intro id exit hexit
  obtain ⟨rule,hrule,htable⟩ := (hplan id exit hexit).rule
  obtain ⟨t,ht⟩ := (applyRules_tables hrules hnone).2 rule hrule
  exact int_of_tableFor (htable.symm.trans ht)

theorem exit_of_iface (hplan : plan.AllChosen sites) (hnumbered : plan.Numbered) {id' : Num} {exit' : Exit}
    (h : plan.exits.get? id = some exit) (h' : plan.exits.get? id' = some exit')
    (hiface : exit.iface = exit'.iface) : exit = exit' := by
  obtain ⟨n,rfl⟩ := hnumbered id exit h
  obtain ⟨m,rfl⟩ := hnumbered id' exit' h'
  rw [(hplan _ exit h).iface, (hplan _ exit' h').iface] at hiface
  obtain rfl := ifaceFor_int_inj hiface
  exact Option.some.inj (h.symm.trans h')

theorem iface_ne_removed (hplan : plan.AllChosen sites) (h : plan.exits.get? id = some exit)
    {name : String} {n : Nat} (hname : exitIfaceId name = some n) (hunwanted : .int n ∉ plan.exits.keys) :
    name ≠ exit.iface := by
  rintro rfl
  rw [(hplan id exit h).iface] at hname
  rw [id_of_exitIfaceId hname] at h
  exact hunwanted (OrdMap.mem_keys_iff.mpr ⟨exit,h⟩)

theorem iface_ne_probe (hplan : plan.AllChosen sites) (h : plan.exits.get? id = some exit) (pid : String) :
    exit.iface ≠ "wgprobe" ++ pid := by
  rw [(hplan id exit h).iface]
  exact ifaceFor_ne_probe id pid

theorem peered_applyExits (hplan : plan.AllChosen sites) (hw : Quiet w)
    (h : applyExits plan privateKey w = .ok result w') (hnone : result.failed = []) :
    ∀ id exit, plan.exits.get? id = some exit → exit.Peered w'.box := by
  have hnumbered := numbered_of_ok hplan h hnone
  obtain ⟨done,w₁,w₂,found,w₃,-,hup,hrules,hfound,hremove⟩ := applyExits_ok h
  obtain ⟨done',w₁',hrun,-,hpeered⟩ := applyExits_each privateKey Exit.Peered
    (fun exit hexit v v' hv hup => by
      obtain ⟨id,hget⟩ := mem_exits.mp hexit
      exact peered_bringUpExit (hplan id exit hget).allowedIPs hup)
    (fun exit hexit other hother hne done => by
      obtain ⟨id,hget⟩ := mem_exits.mp hexit
      obtain ⟨id',hget'⟩ := mem_exits.mp hother
      exact peered_other (iface_ne_probe hplan hget)
        (fun heq => hne (exit_of_iface hplan hnumbered hget' hget heq)) done) hw
  rw [hup] at hrun
  cases hrun
  have hnone' := (applyRules_tables hrules hnone).1
  intro id exit hget
  have hmem : exit ∈ plan.exits.entries.map Prod.snd := mem_exits.mpr ⟨id,hget⟩
  obtain ⟨ps,peer,hps,hpeer⟩ := hpeered hnone' exit hmem
  have hstable := stable_peersOn exit.iface ps
  have hps₂ := (keeps_applyRules hstable (fun _ _ => trivial) (fun _ _ _ _ _ _ _ => trivial) _).of_ok
    hrules hps
  have hps₃ := (keeps_listExitInterfaces hstable).of_ok hfound hps₂
  have hkeep : Keeps (fun v => v.box.peersOn exit.iface = some ps)
      (found.entries.forM (removeExit plan.exits.keys)) := keeps_forM fun entry hentry =>
    keeps_removeExit hstable (fun _ => trivial) fun hunwanted =>
      iface_ne_removed hplan hget (id_of_listed hfound hentry) hunwanted
  exact ⟨ps,peer,hkeep.of_ok hremove hps₃,hpeer⟩

theorem only_applyExits (hplan : plan.AllChosen sites) (hnumbered : plan.Numbered)
    (h : plan.exits.get? id = some exit) : Keeps (fun v =>
      ∀ key ∈ (v.box.peers exit.iface).keys, key = exit.publicKey) (applyExits plan privateKey) := by
  have hstable := stable_only exit.iface exit.publicKey
  refine keeps_applyExits hstable (fun pid => keeps_probeKernel hstable trivial trivial)
    (fun entry hentry c hc => ?_) (fun _ _ => trivial) (fun _ _ _ _ _ _ _ => trivial)
    (fun _ _ => trivial) fun _ _ _ _ => trivial
  cases c <;> simp only [Cmd.setsOnly]
  case wgSetPeer d key ips endpoint keepalive =>
    rintro rfl
    have hentry := OrdMap.mem_entries_iff.mp hentry
    rw [exit_of_iface hplan hnumbered h hentry hc.1]
    exact hc.2

theorem key_applyExits (hplan : plan.AllChosen sites) (h : plan.exits.get? id = some exit) (key : String) :
    Keeps (fun v => key ∈ (v.box.peers exit.iface).keys) (applyExits plan privateKey) := by
  have hstable := stable_key exit.iface key
  refine keeps_applyExits hstable (fun pid => ?_) (fun entry hentry c hc => ?_)
    (fun _ _ => by simp) (fun _ _ _ _ _ _ _ => by simp) (fun _ _ => by simp) fun name n hname hunwanted => ?_
  · exact keeps_probeKernel hstable (by simp) (by simpa using (iface_ne_probe hplan h pid).symm)
  · cases c <;> simp_all [Cmd.ofExit]
  · simpa using iface_ne_removed hplan h hname hunwanted

def OnePeer (sites : List SiteDoc) (plan : ExitPlan) (b : Box) : Prop :=
  ∀ id exit, plan.exits.get? id = some exit → ∃ site key peer, siteById sites id = some site ∧
    site.gatewayPublicKey = some key ∧ (b.peers exit.iface).entries = [(key,peer)] ∧
    peer.allowedIPs = [anywhere,anywhere6]

def SameKeys (plan : ExitPlan) (b : Box) : Prop :=
  ∀ id exit, plan.exits.get? id = some exit → ∀ key ∈ (b.peers exit.iface).keys, key = exit.publicKey

theorem onePeer_iff (hplan : plan.AllChosen sites) (hw : Quiet w)
    (h : applyExits plan privateKey w = .ok result w') (hnone : result.failed = []) :
    OnePeer sites plan w'.box ↔ SameKeys plan w.box := by
  have hnumbered := numbered_of_ok hplan h hnone
  constructor
  · intro hone id exit hexit key hkey
    have hafter := (key_applyExits hplan hexit key).of_ok h hkey
    obtain ⟨site,key',peer,hsite,hkey',hentries,-⟩ := hone id exit hexit
    obtain ⟨site',hsite',hpublic⟩ := (hplan id exit hexit).site
    obtain rfl : site = site' := Option.some.inj (hsite.symm.trans hsite')
    obtain rfl : key' = exit.publicKey := Option.some.inj (hkey'.symm.trans hpublic)
    rw [OrdMap.keys, hentries] at hafter
    exact List.mem_singleton.mp hafter
  · intro hsame id exit hexit
    have honly := (only_applyExits hplan hnumbered hexit).of_ok h (hsame id exit hexit)
    obtain ⟨ps,peer,hps,hpeer,hips⟩ := peered_applyExits hplan hw h hnone id exit hexit
    obtain ⟨site,hsite,hpublic⟩ := (hplan id exit hexit).site
    have hpeers : w'.box.peers exit.iface = ps := by rw [Box.peers, hps]; rfl
    rw [hpeers] at honly
    exact ⟨site,_,peer,hsite,hpublic,hpeers ▸ OrdMap.entries_eq_singleton honly hpeer,hips⟩

end Pass

section Runs

variable {w w' : World}

def cleanStep (w : World) (pass : ExitPass) : Option World :=
  match pass.run w with
  | .ok result w' => if result.failed = [] then some w' else none
  | .error _ _ => none

theorem cleanStep_ok {pass : ExitPass} (h : cleanStep w pass = some w') :
    ∃ result, pass.run w = .ok result w' ∧ result.failed = [] := by
  unfold cleanStep at h
  split at h
  · next result v hrun =>
    split at h
    · next hnone =>
      cases h
      exact ⟨result,hrun,hnone⟩
    · cases h
  · cases h

theorem one_peer {passes : List ExitPass} (hcalm : ∀ pass ∈ passes, pass.faults = fun _ _ => none)
    (hrun : Run.exec cleanStep w passes = some w') :
    Run.Along cleanStep (fun v pass => ∀ v', cleanStep v pass = some v' →
      OnePeer pass.sites pass.plan v'.box) w passes ↔
    Run.Along cleanStep (fun v pass => SameKeys pass.plan v.box) w passes := by
  refine Run.along_congr (fun v pass hpass v' hstep => ?_) hrun
  obtain ⟨result,hok,hnone⟩ := cleanStep_ok hstep
  have hquiet : Quiet { v with faults := pass.faults } := ⟨hcalm pass hpass⟩
  have hplan := chosen_planExits pass.clients pass.sites pass.siteId
  have hiff := onePeer_iff hplan hquiet hok hnone
  refine Iff.trans ⟨fun hall => hall v' hstep,fun hone v'' hstep' => ?_⟩ hiff
  obtain rfl : v' = v'' := Option.some.inj (hstep.symm.trans hstep')
  exact hone

end Runs

section OneKey

theorem phone_again : ∃ w', Run.exec cleanStep untouched [phoneThrough 3,phoneThrough 3] = some w' := by
  have hrun : (Run.exec cleanStep untouched [phoneThrough 3,phoneThrough 3]).isSome = true := by
    decide +kernel
  exact Option.isSome_iff_exists.mp hrun

theorem one_peer_phone : Run.Along cleanStep (fun v pass => ∀ v', cleanStep v pass = some v' →
      OnePeer pass.sites pass.plan v'.box) untouched [phoneThrough 3,phoneThrough 3] ↔
    Run.Along cleanStep (fun v pass => SameKeys pass.plan v.box) untouched
      [phoneThrough 3,phoneThrough 3] := by
  obtain ⟨w',hrun⟩ := phone_again
  refine one_peer (fun pass hpass => ?_) hrun
  simp only [List.mem_cons, List.not_mem_nil, or_false] at hpass
  rcases hpass with rfl | rfl <;> rfl

def rekeyed : ExitPass := { phoneThrough 3 with
  sites := [{ siteId := .ofInt 3, gatewayPublicKey := some "nl2", gatewayEndpoint := some "nl:51820" }] }

theorem two_peers : rekeyed.faults = (fun _ _ => none) ∧ ∃ w₁ w₂,
    Run.exec cleanStep untouched [phoneThrough 3] = some w₁ ∧ cleanStep w₁ rekeyed = some w₂ ∧
    (w₂.box.peers "wg-exit-3").keys = ["nl","nl2"] ∧ ¬ OnePeer rekeyed.sites rekeyed.plan w₂.box := by
  have hcheck : ((Run.exec cleanStep untouched [phoneThrough 3]).bind fun w =>
      cleanStep w rekeyed).any (fun w => decide ((w.box.peers "wg-exit-3").keys = ["nl","nl2"])) = true := by
    decide +kernel
  obtain ⟨w₂,hw₂,hkeys⟩ := (Option.any_eq_true _ _).mp hcheck
  obtain ⟨w₁,hrun,hlast⟩ := Option.bind_eq_some_iff.mp hw₂
  have hkeys := of_decide_eq_true hkeys
  refine ⟨rfl,w₁,w₂,hrun,hlast,hkeys,fun hone => ?_⟩
  obtain ⟨exit,hexit,hiface⟩ : ∃ exit, rekeyed.plan.exits.get? (.int 3) = some exit ∧
    exit.iface = "wg-exit-3" := ⟨_,rfl,by decide⟩
  obtain ⟨_,_,_,-,-,hentries,-⟩ := hone _ exit hexit
  rw [hiface] at hentries
  rw [OrdMap.keys, hentries] at hkeys
  simp at hkeys

end OneKey

end JumpHost.Mesh
