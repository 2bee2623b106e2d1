import JumpHost.Ssh.Precedence
import JumpHost.Ssh.Teardown

namespace JumpHost.Session

open Keys Auth TargetMatch Connect UsernameGrammar

section Dials

variable {parseKey : String → Option PublicKey} (env : Env parseKey) (inputs : List Input) (i : Nat)

inductive Aimed (hs : List Host) : Option String → Option Host → Endpoint → Prop
  | named {target : String} {host : Option Host} {endpoint : Endpoint}
      (h : resolveTarget env.js env.conf target (.ok hs) = .ok (host,endpoint)) : Aimed hs (some target) host endpoint
  | picked {host : Host} (h : host ∈ hs) :
      Aimed hs none (some host) (hostEndpoint env.js host (.int env.conf.defaultPort))

structure LoggedIn (clientIp : Option String) (parsed : Parsed) : Prop where
  ip : Input.connect clientIp ∈ inputs
  login : ∃ a user, Input.on i (.attempt a) ∈ inputs ∧ parseUsername a.ctx.username = .ok parsed ∧
    a.directory.getUser parsed.uid = .ok (some user) ∧ Credential env.keys env.verify env.conf clientIp a user

structure Located (target : Option String) (host : Option Host) (endpoint : Endpoint) : Prop where
  aimed : ∃ hs, Input.on i (.hosts hs) ∈ inputs ∧ Aimed env hs target host endpoint

def Accounted (clientIp : Option String) (d : Dial) : Prop :=
  ∃ parsed host endpoint answers credential, LoggedIn env inputs i clientIp parsed ∧
    Located env inputs i parsed.target host endpoint ∧ Input.on i (.provisioned answers) ∈ inputs ∧
    provision env.conf (host.bind Host.slug) answers = .ok credential ∧
    d = dialArgs env.keys.clientKey parsed.uid host endpoint credential

def Stage.aiming : Stage → Bool
  | .targeting | .provisioning => true
  | _ => false

structure Accountable (c : Connection) : Prop where
  ip : Input.connect c.inbound.state.clientIp ∈ inputs
  login : c.stage ≠ .authenticating → ∃ parsed, LoggedIn env inputs i c.inbound.state.clientIp parsed ∧
    c.inbound.state.uid = some parsed.uid ∧
    if c.tui then parsed.target = none else c.inbound.state.target = parsed.target
  early : c.stage.inSession = false → c.tui = false
  named : c.stage.inSession = true → c.tui = false → c.inbound.state.target ≠ none
  picking : c.stage = .picking → c.tui = true
  hosts : ∀ hs, c.picker.hosts = some hs → Input.on i (.hosts hs) ∈ inputs
  chosen : ∀ host, c.picker.chosen = some (some host) → ∃ hs, Input.on i (.hosts hs) ∈ inputs ∧ host ∈ hs
  aimed : c.stage.aiming = true →
    Located env inputs i (if c.tui then none else c.inbound.state.target) c.host c.endpoint
  dialled : ∀ d, c.dialled = some d → Accounted env inputs i c.inbound.state.clientIp d

variable {env inputs i} {c c' : Connection} {op : RegistryOp} {count : Nat}

theorem Accountable.start {clientIp : Option String} (h : Input.connect clientIp ∈ inputs) :
    Accountable env inputs i (.start clientIp) where
  ip := h
  login := fun hs => absurd rfl hs
  early := fun _ => rfl
  named := nofun
  picking := nofun
  hosts := nofun
  chosen := nofun
  aimed := nofun
  dialled := nofun

structure Beside (c c' : Connection) : Prop where
  inbound : c'.inbound = c.inbound
  tui : c'.tui = c.tui
  picker : c'.picker.hosts = c.picker.hosts ∧ c'.picker.chosen = c.picker.chosen
  host : c'.host = c.host
  endpoint : c'.endpoint = c.endpoint
  dialled : c'.dialled = c.dialled
  login : c'.stage ≠ .authenticating → c.stage ≠ .authenticating
  session : c'.stage.inSession = c.stage.inSession
  picking : c'.stage = .picking → c.stage = .picking
  aiming : c'.stage.aiming = true → c.stage.aiming = true

theorem Accountable.beside (h : Accountable env inputs i c) (hb : Beside c c') : Accountable env inputs i c' where
  ip := hb.inbound ▸ h.ip
  login hs := by
    rw [hb.inbound, hb.tui]
    exact h.login (hb.login hs)
  early hs := hb.tui ▸ h.early (hb.session ▸ hs)
  named hs htui := by
    rw [hb.inbound]
    exact h.named (hb.session ▸ hs) (hb.tui ▸ htui)
  picking hs := hb.tui ▸ h.picking (hb.picking hs)
  hosts hs hhosts := h.hosts hs (hb.picker.1 ▸ hhosts)
  chosen host hchosen := h.chosen host (hb.picker.2 ▸ hchosen)
  aimed hs := by
    rw [hb.inbound, hb.tui, hb.host, hb.endpoint]
    exact h.aimed (hb.aiming hs)
  dialled d hd := by
    rw [hb.inbound]
    exact h.dialled d (hb.dialled ▸ hd)

theorem beside_settle (h : c.onSettle = some (c',op)) : Beside c c' := by
  unfold Connection.onSettle at h
  cases hs : c.stage <;> simp only [hs, Option.some.injEq, Prod.mk.injEq, reduceCtorEq] at h
  all_goals obtain ⟨rfl,-⟩ := h
  all_goals refine ⟨rfl,rfl,⟨rfl,rfl⟩,rfl,rfl,rfl,?_,?_,?_,?_⟩
  all_goals simp [hs, Stage.inSession, Stage.aiming]
  all_goals cases c.tui <;> simp

theorem beside_throw {err : Failure} (hs : c.stage.inSession = true) : Beside c (c.throw err) :=
  ⟨rfl,rfl,⟨rfl,rfl⟩,rfl,rfl,rfl,fun _ h => by simp [h, Stage.inSession] at hs,hs.symm,nofun,nofun⟩

theorem beside_abort (hs : c.stage.inSession = true) : Beside c c.abort :=
  ⟨rfl,rfl,⟨rfl,rfl⟩,rfl,rfl,rfl,fun _ h => by simp [h, Stage.inSession] at hs,hs.symm,nofun,nofun⟩

theorem beside_fail {message : String} (h : c.onFail message = some (c',op)) : Beside c c' := by
  unfold Connection.onFail at h
  cases hs : c.stage <;> simp only [hs, Option.some.injEq, Prod.mk.injEq, reduceCtorEq] at h
  all_goals obtain ⟨rfl,-⟩ := h
  case bridging =>
    exact ⟨rfl,rfl,⟨rfl,rfl⟩,rfl,rfl,rfl,by simp [hs],by simp [hs, Stage.inSession],nofun,nofun⟩
  case creating | finishing | failCounting => exact beside_abort (by rw [hs]; rfl)
  case directory | dialing => exact beside_throw (by rw [hs]; rfl)
  case targeting | marking | counting =>
    split
    · exact beside_abort (by rw [hs]; rfl)
    · exact beside_throw (by rw [hs]; rfl)

theorem Accountable.resumePick (h : Accountable env inputs i c) : Accountable env inputs i (c.resumePick env) := by
  unfold Connection.resumePick
  split
  · next hs =>
    have hsession : c.stage.inSession = true := by rw [hs]; rfl
    split
    · exact h
    · exact h.beside (beside_throw hsession)
    · next host hchosen =>
      have htui := h.picking hs
      obtain ⟨hs',hlisted,hmem⟩ := h.chosen host hchosen
      refine ⟨h.ip,fun _ => ?_,nofun,fun _ hgrammar => ?_,nofun,h.hosts,h.chosen,fun _ => ?_,h.dialled⟩
      · obtain ⟨parsed,hlogin,huid,htarget⟩ := h.login (by rw [hs]; nofun)
        rw [if_pos htui] at htarget
        exact ⟨parsed,hlogin,huid,by rw [if_pos htui]; exact htarget⟩
      · rw [htui] at hgrammar
        cases hgrammar
      · rw [if_pos htui]
        exact ⟨hs',hlisted,.picked hmem⟩
  · exact h

theorem Accountable.choose {choice : Option Host} (h : Accountable env inputs i c)
    (hchoice : ∀ host, choice = some host → ∃ hs, Input.on i (.hosts hs) ∈ inputs ∧ host ∈ hs) :
    Accountable env inputs i (c.choose env choice) := by
  refine Accountable.resumePick ⟨h.ip,h.login,h.early,h.named,h.picking,h.hosts,fun host hchosen => ?_,h.aimed,
    h.dialled⟩
  cases hold : c.picker.chosen with
  | none =>
    rw [show c.picker.chosen.or (some choice) = some choice by rw [hold]; rfl] at hchosen
    exact hchoice host (Option.some.inj hchosen)
  | some old =>
    rw [show c.picker.chosen.or (some choice) = c.picker.chosen by rw [hold]; rfl] at hchosen
    exact h.chosen host hchosen

theorem Accountable.afterHosts {hs : List Host} (h : Accountable env inputs i c) (hd : c.stage = .directory)
    (hin : Input.on i (.hosts hs) ∈ inputs) : Accountable env inputs i (c.afterHosts env hs) := by
  have hsession : c.stage.inSession = true := by rw [hd]; rfl
  unfold Connection.afterHosts
  split
  · next htui =>
    refine Accountable.resumePick ⟨h.ip,fun _ => ?_,nofun,fun _ => h.named hsession,fun _ => htui,?_,h.chosen,nofun,
      h.dialled⟩
    · exact h.login (by rw [hd]; nofun)
    · rintro hs' heq
      cases heq
      exact hin
  · next hgrammar =>
    have htui : c.tui = false := by simpa using hgrammar
    split
    · exact h.beside (beside_throw hsession)
    · next host endpoint hresolve =>
      refine ⟨h.ip,fun _ => h.login (by rw [hd]; nofun),nofun,fun _ => h.named hsession,nofun,h.hosts,h.chosen,
        fun _ => ⟨hs,hin,?_⟩,h.dialled⟩
      obtain ⟨target,htarget⟩ := Option.ne_none_iff_exists'.mp (h.named hsession htui)
      rw [htarget] at hresolve
      rw [if_neg hgrammar, htarget]
      exact .named hresolve

theorem Accountable.afterProvision {answers : Provision} (h : Accountable env inputs i c)
    (hp : c.stage = .provisioning) (hin : Input.on i (.provisioned answers) ∈ inputs) :
    Accountable env inputs i (c.afterProvision env answers) := by
  have hsession : c.stage.inSession = true := by rw [hp]; rfl
  have hlogin := h.login (by rw [hp]; nofun)
  unfold Connection.afterProvision
  split
  · exact h.beside (beside_throw hsession)
  · next credential hcredential =>
    refine ⟨h.ip,fun _ => hlogin,nofun,fun _ => h.named hsession,nofun,h.hosts,h.chosen,nofun,fun d hd => ?_⟩
    cases hd
    obtain ⟨parsed,hin',huid,htarget⟩ := hlogin
    refine ⟨parsed,c.host,c.endpoint,answers,credential,hin',?_,hin,hcredential,by rw [huid]; rfl⟩
    have haimed := h.aimed (by rw [hp]; rfl)
    cases htui : c.tui with
    | true =>
      simp only [htui, if_true] at htarget haimed
      rw [htarget]
      exact haimed
    | false =>
      simp only [htui, Bool.false_eq_true, if_false] at htarget haimed
      rw [← htarget]
      exact haimed

theorem Accountable.attempt {a : Attempt} {inbound : Inbound} (h : Accountable env inputs i c)
    (hs : c.stage = .authenticating) (hin : Input.on i (.attempt a) ∈ inputs)
    (ha : Auth.step env.keys env.verify env.conf c.inbound a = some inbound) :
    Accountable env inputs i { c with
      inbound := inbound
      attempts := c.attempts + 1
      stage := if inbound.accepted.isSome then .authenticated else .authenticating } := by
  obtain ⟨hip,haccepted⟩ := step_spec ha
  have htui : c.tui = false := h.early (by rw [hs]; rfl)
  have hearly : Stage.inSession (if inbound.accepted.isSome then .authenticated else .authenticating) = false := by
    split <;> rfl
  refine ⟨hip ▸ h.ip,fun hlogin => ?_,fun _ => htui,fun hsession => ?_,fun hpick => ?_,h.hosts,h.chosen,fun haim => ?_,
    fun d hd => hip ▸ h.dialled d hd⟩
  · obtain ⟨b,hb⟩ : ∃ b, inbound.accepted = some b := Option.ne_none_iff_exists'.mp (by simpa using hlogin)
    obtain ⟨rfl,parsed,user,hbound⟩ := haccepted b hb
    refine ⟨parsed,⟨hip ▸ h.ip,b,user,hin,hbound.named,hbound.found,hip ▸ hbound.credential⟩,?_,?_⟩
    · rw [hbound.state]
    · rw [if_neg (by rw [htui]; exact Bool.false_ne_true), hbound.state]
  · rw [hearly] at hsession
    cases hsession
  · split at hpick <;> cases hpick
  · split at haim <;> cases haim

theorem beside_stage {stage : Stage} (hs : c.stage.inSession = false) (hlogin : c.stage ≠ .authenticating)
    (hnew : stage.inSession = false) (client : Wire) : Beside c { c with stage := stage, client := client } := by
  refine ⟨rfl,rfl,⟨rfl,rfl⟩,rfl,rfl,rfl,fun _ => hlogin,hnew.trans hs.symm,fun heq => ?_,fun heq => ?_⟩
  · cases stage <;> cases heq
    cases hnew
  · cases stage <;> cases heq <;> cases hnew

theorem accountable_step {e : Event} (h : Accountable env inputs i c) (he : Input.on i e ∈ inputs)
    (hstep : c.step env count e = some (c',op)) : Accountable env inputs i c' := by
  cases Connection.moves_of_step hstep with
  | attempt hs _ ha => exact h.attempt hs he ha
  | refuse hs => exact h.beside (beside_stage (by rw [hs]; rfl) (by rw [hs]; nofun) rfl _)
  | ready hs => exact h.beside (beside_stage (by rw [hs]; rfl) (by rw [hs]; nofun) rfl _)
  | session hs =>
    have htui : c.tui = false := h.early (by rw [hs]; rfl)
    obtain ⟨parsed,hlogin,huid,htarget⟩ := h.login (by rw [hs]; nofun)
    rw [if_neg (by rw [htui]; exact Bool.false_ne_true)] at htarget
    refine ⟨h.ip,fun _ => ⟨parsed,hlogin,huid,?_⟩,nofun,fun _ hnone hnot => ?_,nofun,h.hosts,h.chosen,nofun,h.dialled⟩
    · simp only [htarget]
      split
      · next hnone => exact Option.isNone_iff_eq_none.mp hnone
      · trivial
    · simp only at hnone hnot
      rw [hnot] at hnone
      cases hnone
  | exec | subsystem | emptyTimer => exact h.choose fun _ hnone => by cases hnone
  | pick _ _ _ hlisted _ hmem => exact h.choose fun host hhost => ⟨_,h.hosts _ hlisted,hmem host hhost⟩
  | hosts hd => exact h.afterHosts hd he
  | provisioned hp => exact h.afterProvision hp he
  | settle hs => exact h.beside (beside_settle hs)
  | fail hs => exact h.beside (beside_fail hs)
  | asks | shell | hostKey | channel | written | writeFailed | clientClose | unregister | unheard | finished
  | finishFailed =>
    exact h.beside ⟨rfl,rfl,⟨rfl,rfl⟩,rfl,rfl,rfl,fun hs => hs,rfl,fun hs => hs,fun hs => hs⟩

theorem accountable_connect {g g' : Gateway} {clientIp : Option String}
    (hg : ∀ c, g.connections[i]? = some c → Accountable env inputs i c) (hin : Input.connect clientIp ∈ inputs)
    (h : g.step env (.connect clientIp) = some g') (hc : g'.connections[i]? = some c) :
    Accountable env inputs i c := by
  obtain ⟨-,rfl⟩ := Gateway.step_connect h
  have hconnections : (g.connections ++ [Connection.start clientIp])[i]? = some c := hc
  rw [List.getElem?_append] at hconnections
  split at hconnections
  · exact hg c hconnections
  · obtain rfl := List.mem_singleton.mp (List.mem_of_getElem? hconnections)
    exact .start hin

theorem accountable_run {g : Gateway} (h : Gateway.run env inputs = some g) (hc : g.connections[i]? = some c) :
    Accountable env inputs i c := by
  have hstep : Run.Preserves (Gateway.step env) (fun _ input => input ∈ inputs)
      fun g => ∀ c, g.connections[i]? = some c → Accountable env inputs i c := by
    intro g input g' hg hin hmove c hc
    cases input with
    | connect clientIp => exact accountable_connect hg hin hmove hc
    | on j e =>
      obtain ⟨old,new,op,hold,hact,rfl⟩ := Gateway.step_on hmove
      by_cases hj : j = i
      · subst hj
        have hlt : j < g.connections.length := (List.getElem?_eq_some_iff.mp hold).1
        obtain rfl : new = c := by simpa [hlt] using hc
        exact accountable_step (hg old hold) hin hact
      · exact hg c (by simpa [List.getElem?_set_ne hj] using hc)
  exact Run.invariant_of_mem hstep (s := .start) (fun _ hnone => absurd hnone (by simp [Gateway.start])) h c hc

theorem resolveTarget_cases {js : Js} {conf : Conf} {target : String} {hs : List Host} {host : Option Host}
    {endpoint : Endpoint} (h : resolveTarget js conf target (.ok hs) = .ok (host,endpoint)) :
    (∃ named named', host = some named ∧ Preferred js target hs named' named ∧
        endpoint = hostEndpoint js named (.int conf.defaultPort)) ∨
      (host = none ∧ conf.allowRawIPs = true ∧ isIPv4 target = true ∧ Unnamed js target hs ∧
        endpoint = ⟨some target,.int conf.defaultPort⟩) := by
  have hprec := byPrecedence js target hs conf.allowRawIPs
  cases hm : matchTarget js target hs conf.allowRawIPs with
  | error message => simp [resolveTarget, hm] at h
  | ok m =>
    rcases hprec.either m hm with ⟨g,rfl⟩ | ⟨raw,rfl⟩
    · obtain ⟨c,hpref⟩ := (hprec.host g).mp hm
      simp only [resolveTarget, hm] at h
      split at h <;> cases h
      exact .inl ⟨g,c,rfl,hpref,rfl⟩
    · obtain ⟨rfl,hallow,hip,hno⟩ := (hprec.raw raw).mp hm
      simp only [resolveTarget, hm] at h
      split at h <;> cases h
      exact .inr ⟨rfl,hallow,hip,hno,rfl⟩

def Reaches (env : Env parseKey) (d : Dial) (host : Host) : Prop :=
  (⟨d.host,d.port⟩ : Endpoint) = hostEndpoint env.js host (.int env.conf.defaultPort) ∧
    d.expectedHostKeyFp = host.metadata.bind Metadata.sshHostKeyFp

inductive Permitted (env : Env parseKey) (hs : List Host) (d : Dial) : Option String → Prop
  | named {target : String} {c : NameClass} {host : Host} (h : Preferred env.js target hs c host)
      (hd : Reaches env d host) : Permitted env hs d (some target)
  | raw {target : String} (hallow : env.conf.allowRawIPs = true) (hip : isIPv4 target = true)
      (hno : Unnamed env.js target hs) (hd : d.host = some target ∧ d.expectedHostKeyFp = none) :
      Permitted env hs d (some target)
  | picked {host : Host} (h : host ∈ hs) (hd : Reaches env d host) : Permitted env hs d none

theorem dials_permitted {g : Gateway} {d : Dial} (h : Gateway.run env inputs = some g)
    (hc : g.connections[i]? = some c) (hd : c.dialled = some d) :
    ∃ clientIp a parsed user hs, Input.connect clientIp ∈ inputs ∧ Input.on i (.attempt a) ∈ inputs ∧
      Input.on i (.hosts hs) ∈ inputs ∧ parseUsername a.ctx.username = .ok parsed ∧
      a.directory.getUser parsed.uid = .ok (some user) ∧ Credential env.keys env.verify env.conf clientIp a user ∧
      d.username = parsed.uid ∧ d.uid = parsed.uid ∧ d.privateKey = env.keys.clientKey ∧
      Permitted env hs d parsed.target ∧ ∃ answers slug, Input.on i (.provisioned answers) ∈ inputs ∧
        provision env.conf slug answers = .ok (d.cert,d.justInjected) := by
  obtain ⟨parsed,host,endpoint,answers,credential,hlogin,⟨hs,hlisted,haimed⟩,hanswered,hprovision,rfl⟩ :=
    (accountable_run h hc).dialled d hd
  obtain ⟨a,user,hin,hname,huser,hcredential⟩ := hlogin.login
  refine ⟨_,a,parsed,user,hs,hlogin.ip,hin,hlisted,hname,huser,hcredential,rfl,rfl,rfl,?_,answers,_,hanswered,
    hprovision⟩
  generalize parsed.target = target at haimed
  cases haimed with
  | named hresolve =>
    rcases resolveTarget_cases hresolve with ⟨named,c,rfl,hpref,rfl⟩ | ⟨rfl,hallow,hip,hno,rfl⟩
    · exact .named hpref ⟨rfl,rfl⟩
    · exact .raw hallow hip hno ⟨rfl,rfl⟩
  | picked hmem => exact .picked hmem ⟨rfl,rfl⟩

end Dials

section OneSlot

theorem dials_permitted_served : ∃ g c d, Gateway.run oneSlot servedRun = some g ∧ g.connections[0]? = some c ∧
    c.dialled = some d ∧ d.host = some "10.0.0.5" ∧
    ∃ clientIp a parsed user hs, Input.connect clientIp ∈ servedRun ∧ Input.on 0 (.attempt a) ∈ servedRun ∧
      Input.on 0 (.hosts hs) ∈ servedRun ∧ parseUsername a.ctx.username = .ok parsed ∧
      a.directory.getUser parsed.uid = .ok (some user) ∧
      Credential oneSlot.keys oneSlot.verify oneSlot.conf clientIp a user ∧
      d.username = parsed.uid ∧ d.uid = parsed.uid ∧ d.privateKey = oneSlot.keys.clientKey ∧
      Permitted oneSlot hs d parsed.target ∧ ∃ answers slug, Input.on 0 (.provisioned answers) ∈ servedRun ∧
        provision oneSlot.conf slug answers = .ok (d.cert,d.justInjected) :=
  ⟨_,_,_,rfl,rfl,rfl,rfl,dials_permitted rfl rfl rfl⟩

end OneSlot

end JumpHost.Session
