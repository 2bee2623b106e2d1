import JumpHost.Ssh.Reasons
import JumpHost.Ssh.Teardown

namespace JumpHost.Session

open Keys Auth TargetMatch Connect

inductive Outcome where
  | served
  | failed (code : String)
  | turnedAway
  | left
deriving DecidableEq, Repr

def Outcome.describes : Outcome → Record → Prop
  | .served, r => r.success = true ∧ r.failReason = ""
  | .failed code, r => r.success = false ∧ r.failReason = code
  | .turnedAway, r | .left, r => r.success = false

variable {parseKey : String → Option PublicKey}

def matching (env : Env parseKey) (target : String) (hs : List Host) : Option Outcome :=
  if hs.all (fun h => !answersTo env.js target h) && !permitted env.conf target then
    some (.failed "no-such-target")
  else match matchTarget env.js target hs env.conf.allowRawIPs with
    | .ok ⟨some host,_⟩ =>
        if (hostEndpoint env.js host (.int env.conf.defaultPort)).address = none then
          some (.failed "no-address")
        else none
    | _ => none

def decides (env : Env parseKey) (count : Nat) (c : Connection) : Event → Option Outcome
  | .clientClose => match c.stage with
      | .authenticating | .authenticated | .admitted => some .left
      | .picking => if c.picker.timer then none else some .left
      | _ => none
  | .ready => if maxSessions env.conf ≤ count then some .turnedAway else none
  | .hosts hs =>
      if c.tui then if c.picker.chosen = some none then some (.failed "cancelled") else none
      else matching env (c.inbound.state.target.getD "") hs
  | .provisioned answers =>
      if env.conf.pkiEnabled then
        if answers.getSignedCert.toBool then none else some (.failed "pki-cert-failed")
      else if answers.ensureKeyInjected.toBool then none else some (.failed "key-inject-failed")
  | .exec | .subsystem _ =>
      if c.tui ∧ c.stage = .picking ∧ c.picker.chosen = none then some (.failed "cancelled") else none
  | .emptyTimer | .pick none =>
      if c.stage = .picking ∧ c.picker.chosen = none then some (.failed "cancelled") else none
  | .fail _ => match c.stage with
      | .directory => some (.failed "directory-unreachable")
      | .dialing => some (.failed "upstream-unreachable")
      | .creating | .targeting | .marking | .counting => some (.failed "error")
      | _ => none
  | .upstreamClose => if c.stage = .wired then some .served else none
  | _ => none

def outcome (env : Env parseKey) (i : Nat) (inputs : List Input) : Option Outcome :=
  Run.observe (Gateway.step env) (Watching (fun count c e o => o.or (decides env count c e)) i) .start none
    inputs

def Audited (o : Option Outcome) (c : Connection) : Prop :=
  ∃ r out, c.records = [r] ∧ r.finished = 1 ∧ o = some out ∧ out.describes r

def Connection.Unfinished (c : Connection) : Prop :=
  ∃ r, c.records = [r] ∧ r.finished = 0 ∧ r.failReason = ""

def Connection.Marked (c : Connection) : Prop :=
  ∃ r, c.records = [r] ∧ r.finished = 0 ∧ r.failReason = "" ∧ r.success = true

variable {env : Env parseKey}

def auditable (env : Env parseKey) (count : Nat) (c : Connection) : Event → Bool
  | .clientClose => match c.stage with
      | .authenticating => c.attempts == 0
      | .authenticated | .refused | .admitted => false
      | .picking => c.picker.timer
      | _ => true
  | .ready => count < maxSessions env.conf
  | .hosts hs =>
      if c.tui then
        c.client != .closed || c.picker.chosen.isSome || (c.picker.requested && hs.isEmpty)
      else (matchTarget env.js (c.inbound.state.target.getD "") hs env.conf.allowRawIPs).toBool
  | .settle => !c.wires .settle || c.upstream != some .closed
  | .fail _ => match c.stage with
      | .creating | .finishing => false
      | .targeting | .marking | .counting => !c.tui
      | .bridging => c.upstream != some .closed
      | _ => true
  | .finishFailed => false
  | _ => true

def handled (env : Env parseKey) (_count : Nat) (c : Connection) : Event → Bool
  | .hosts hs => c.tui || c.asked ||
      (resolveTarget env.js env.conf (c.inbound.state.target.getD "") (.ok hs)).toBool
  | .provisioned answers => c.tui || c.asked || (provision env.conf c.slug answers).toBool
  | .fail _ => match c.stage with
      | .directory | .targeting | .dialing | .marking | .counting => c.tui || c.asked
      | _ => true
  | .writeFailed | .finishFailed => false
  | _ => true

def Orderly (env : Env parseKey) (i : Nat) (g : Gateway) (input : Input) : Bool :=
  Guarding (auditable env) i g input && Guards (handled env) g input

def Owed (o : Option Outcome) (c : Connection) (_registered : Bool) : Prop :=
  match c.stage with
  | .authenticating =>
      c.records = [] ∧ c.closing = false ∧ (c.client ≠ .closed → o = none) ∧ (c.client = .closed → c.attempts = 0)
  | .authenticated | .admitted => c.records = [] ∧ c.closing = false ∧ o = none ∧ c.client ≠ .closed
  | .refused => False
  | .creating => c.records = [] ∧ c.closing = false ∧ o = none
  | .directory | .targeting | .provisioning | .dialing => c.Unfinished ∧ c.closing = false ∧ o = none
  | .picking => c.Unfinished ∧ c.closing = false ∧ o = none ∧ c.picker.chosen = none ∧
      (c.client = .closed → c.picker.timer = true)
  | .marking => c.Unfinished ∧ c.closing = false ∧ o = none ∧ c.upstream ≠ none
  | .counting | .bridging => c.Marked ∧ c.closing = false ∧ o = none ∧ c.upstream ≠ none
  | .wired => c.upstream ≠ none ∧ ((c.Marked ∧ c.upstream ≠ some .closed ∧ c.closing = false ∧ o = none) ∨
      (c.Marked ∧ c.upstream = some .closed ∧ c.closing = true ∧ o = some .served) ∨
      c.upstream = some .closed ∧ c.closing = false ∧ Audited o c)
  | .finishing => c.Unfinished ∧ c.closing = false ∧ o = some (.failed c.failing.failReason)
  | .failCounting | .settled => Audited o c ∧ c.closing = false

variable {c c' : Connection} {op : RegistryOp} {registered : Bool} {count : Nat} {o : Option Outcome}

theorem owed_throw {err : Failure} (hc : c.Unfinished) (hclosing : c.closing = false)
    (ho : o = some (.failed err.failReason)) : Owed o (c.throw err) registered := ⟨hc,hclosing,ho⟩

theorem owed_resumePick (hs : c.stage = .picking) (hc : c.Unfinished) (hclosing : c.closing = false)
    (ho : o = if c.picker.chosen = some none then some (.failed "cancelled") else none)
    (htimer : c.client = .closed → c.picker.chosen = none → c.picker.timer = true) :
    Owed o (c.resumePick env) registered := by
  unfold Connection.resumePick
  rw [if_pos hs]
  split
  · next hchosen =>
    simp only [Owed, hs]
    exact ⟨hc,hclosing,by simpa [hchosen] using ho,hchosen,fun h => htimer h hchosen⟩
  · next hchosen => exact owed_throw hc hclosing (by rw [ho, if_pos hchosen]; rfl)
  · next hchosen => exact ⟨hc,hclosing,by simpa [hchosen] using ho⟩

theorem owed_choose (env : Env parseKey) (choice : Option Host) (h : Owed o c registered) :
    Owed (o.or (if c.stage = .picking ∧ c.picker.chosen = none ∧ choice = none then
      some (.failed "cancelled") else none)) (c.choose env choice) registered := by
  by_cases hs : c.stage = .picking
  · simp only [Owed, hs] at h
    obtain ⟨hc,hclosing,rfl,hnone,-⟩ := h
    refine owed_resumePick hs hc hclosing ?_ fun _ hchosen => ?_
    · cases choice <;> simp [hs, hnone]
    · simp [hnone] at hchosen
  · have hstay : c.choose env choice =
        { c with picker := { c.picker with chosen := c.picker.chosen.or (some choice) } } := by
      simp [Connection.choose, Connection.resumePick, hs]
    rw [hstay, if_neg (fun hpick => hs hpick.1), Option.or_none]
    unfold Owed at h ⊢
    cases hst : c.stage <;> simp_all [Connection.Unfinished, Connection.Marked, Audited]

theorem toBool_ok {ε α : Type} {x : Except ε α} (h : x.toBool = true) : ∃ a, x = .ok a := by
  cases x with
  | error e => simp [Except.toBool] at h
  | ok a => exact ⟨a,rfl⟩

theorem matching_eq {target : String} {hs : List Host} {m : Matched}
    (hm : matchTarget env.js target hs env.conf.allowRawIPs = .ok m) : matching env target hs =
      match resolveTarget env.js env.conf target (.ok hs) with
      | .error err => some (.failed err.failReason)
      | .ok _ => none := by
  have hfound : (hs.all (fun h => !answersTo env.js target h) && !permitted env.conf target) = false := by
    rw [Bool.eq_false_iff]
    intro hno
    simp only [Bool.and_eq_true, List.all_eq_true, Bool.not_eq_true'] at hno
    rw [matchTarget_unmatched hno.1 hno.2] at hm
    cases hm
  simp only [matching, hfound, Bool.false_eq_true, if_false, hm, resolveTarget]
  obtain ⟨host,raw⟩ := m
  cases host with
  | none => simp [matchTarget_raw hm rfl]
  | some host =>
    by_cases haddress : (hostEndpoint env.js host (.int env.conf.defaultPort)).address = none
    · simp [haddress, truthy, fail, Failure.failReason, firstTruthy]
    · simp [haddress, (hostEndpoint_truthy env.js).mpr haddress]

theorem owed_afterHosts {hs : List Host} (hd : c.stage = .directory) (h : Owed o c registered)
    (hg : auditable env count c (.hosts hs) = true) :
    Owed (o.or (decides env count c (.hosts hs))) (c.afterHosts env hs) registered := by
  simp only [Owed, hd] at h
  obtain ⟨hc,hclosing,rfl⟩ := h
  unfold Connection.afterHosts
  simp only [decides, Option.none_or]
  cases ht : c.tui with
  | true =>
    rw [if_pos rfl, if_pos rfl]
    refine owed_resumePick rfl hc hclosing rfl fun hclient hchosen => ?_
    simp only at hclient hchosen
    simpa [auditable, ht, hclient, hchosen, Picker.timer] using hg
  | false =>
    simp only [auditable, ht, Bool.false_eq_true, if_false] at hg
    obtain ⟨m,hm⟩ := toBool_ok hg
    rw [if_neg Bool.false_ne_true, if_neg Bool.false_ne_true, matching_eq hm]
    cases resolveTarget env.js env.conf (c.inbound.state.target.getD "") (.ok hs) with
    | error err => exact owed_throw hc hclosing rfl
    | ok found => exact ⟨hc,hclosing,rfl⟩

theorem owed_afterProvision {answers : Provision} (hp : c.stage = .provisioning) (h : Owed o c registered) :
    Owed (o.or (decides env count c (.provisioned answers))) (c.afterProvision env answers) registered := by
  simp only [Owed, hp] at h
  obtain ⟨hc,hclosing,rfl⟩ := h
  unfold Connection.afterProvision provision
  simp only [decides, Option.none_or]
  cases env.conf.pkiEnabled with
  | true =>
    cases answers.getSignedCert with
    | error message => exact owed_throw hc hclosing rfl
    | ok cert => exact ⟨hc,hclosing,rfl⟩
  | false =>
    cases answers.ensureKeyInjected with
    | error message => exact owed_throw hc hclosing rfl
    | ok justInjected => exact ⟨hc,hclosing,rfl⟩

theorem marked_patch (h : c.Unfinished) :
    Connection.Marked { c with stage := .counting, records := c.records.map (·.patch true) } := by
  obtain ⟨r,hr,hfin,hreason⟩ := h
  exact ⟨r.patch true,by simp [hr],hfin,hreason,rfl⟩

theorem audited_fail (h : c.Unfinished) (ho : o = some (.failed c.failing.failReason)) :
    Audited o { c with
      stage := .failCounting
      records := c.records.map (·.finish false (some c.failing.failReason)) } := by
  obtain ⟨r,hr,hfin,-⟩ := h
  refine ⟨r.finish false (some c.failing.failReason),.failed c.failing.failReason,?_,?_,ho,rfl,rfl⟩
  · simp [hr]
  · simp [Record.finish, hfin]

theorem audited_serve (h : c.Marked) (ho : o = some .served) :
    Audited o { c with
      closing := false
      records := c.records.map (·.finish true none) } := by
  obtain ⟨r,hr,hfin,hreason,-⟩ := h
  refine ⟨r.finish true none,.served,by simp [hr],?_,ho,rfl,?_⟩
  · simp [Record.finish, hfin]
  · simp [Record.finish, hreason]

theorem owed_settle (h : Owed o c registered) (hg : auditable env count c .settle = true)
    (hs : c.onSettle = some (c',op)) : Owed o c' (op.after registered) := by
  cases hst : c.stage <;> simp only [Connection.onSettle, hst, reduceCtorEq] at hs <;>
    simp only [Owed, hst] at h <;> cases hs
  case creating => exact ⟨⟨{},by simp [h.1],rfl,rfl⟩,h.2⟩
  case targeting => exact h
  case dialing => exact ⟨h.1,h.2.1,h.2.2,by simp⟩
  case marking => exact ⟨marked_patch h.1,h.2⟩
  case counting =>
    obtain ⟨hmarked,hclosing,hnone,hup⟩ := h
    cases ht : c.tui with
    | true => exact ⟨hmarked,hclosing,hnone,hup⟩
    | false =>
      have hopen : c.upstream ≠ some .closed := by
        simpa [auditable, Connection.wires, hst, ht] using hg
      exact ⟨hup,.inl ⟨hmarked,hopen,hclosing,hnone⟩⟩
  case bridging =>
    obtain ⟨hmarked,hclosing,hnone,hup⟩ := h
    have hopen : c.upstream ≠ some .closed := by
      simpa [auditable, Connection.wires, hst] using hg
    exact ⟨hup,.inl ⟨hmarked,hopen,hclosing,hnone⟩⟩
  case finishing => exact ⟨audited_fail h.1 h.2.2,h.2.1⟩
  case failCounting => exact h

theorem owed_fail {message : String} (h : Owed o c registered)
    (hg : auditable env count c (.fail message) = true) (hs : c.onFail message = some (c',op)) :
    Owed (o.or (decides env count c (.fail message))) c' (op.after registered) := by
  cases hst : c.stage <;> simp only [Connection.onFail, hst, reduceCtorEq] at hs <;>
    simp only [auditable, hst, Bool.false_eq_true] at hg <;>
    simp only [Owed, hst] at h <;> cases hs <;> simp only [decides, hst]
  case directory | dialing =>
    obtain ⟨hc,hclosing,rfl⟩ := h
    exact owed_throw hc hclosing rfl
  case targeting =>
    obtain ⟨hc,hclosing,rfl⟩ := h
    rw [if_neg (by simpa using hg)]
    exact owed_throw hc hclosing rfl
  case marking =>
    obtain ⟨hc,hclosing,rfl,-⟩ := h
    rw [if_neg (by simpa using hg)]
    exact owed_throw hc hclosing rfl
  case counting =>
    obtain ⟨⟨r,hr,hfin,hreason,-⟩,hclosing,rfl,-⟩ := h
    rw [if_neg (by simpa using hg)]
    exact owed_throw ⟨r,hr,hfin,hreason⟩ hclosing rfl
  case bridging =>
    obtain ⟨hmarked,hclosing,rfl,hup⟩ := h
    have hopen : c.upstream ≠ some .closed := by simpa using hg
    exact ⟨hup,.inl ⟨hmarked,hopen,hclosing,rfl⟩⟩
  case failCounting =>
    rw [Option.or_none]
    exact h

theorem owed_clientClose {upstream : Option Wire} (h : Owed o c registered)
    (hg : auditable env count c .clientClose = true) (hup : upstream = none ↔ c.upstream = none)
    (hclosed : upstream = some .closed ↔ c.upstream = some .closed) :
    Owed (o.or (decides env count c .clientClose)) { c with client := .closed, upstream := upstream }
      registered := by
  unfold Owed at h ⊢
  cases hst : c.stage <;> simp only [auditable, hst, Bool.false_eq_true] at hg <;>
    simp_all [decides, Connection.Unfinished, Connection.Marked, Audited, Picker.timer]

theorem owed_unregister (hs : c.stage = .wired) (hup : c.upstream.all (· == .closed) = false)
    (h : Owed o c registered) : Owed (o.or (decides env count c .upstreamClose))
      { c with upstream := some .closed, closing := true } (RegistryOp.remove.after registered) := by
  simp only [Owed, hs] at h ⊢
  obtain ⟨-,⟨hm,-,-,rfl⟩ | ⟨-,hclosed,-⟩ | ⟨hclosed,-⟩⟩ := h
  · exact ⟨by simp,.inr (.inl ⟨hm,by simp,by simp,by simp [decides, hs]⟩)⟩
  · simp [hclosed] at hup
  · simp [hclosed] at hup

theorem owed_unheard (hs : c.stage ≠ .wired) (hup : c.upstream ≠ none) (h : Owed o c registered) :
    Owed (o.or (decides env count c .upstreamClose)) { c with upstream := some .closed } registered := by
  rw [decides, if_neg hs, Option.or_none]
  unfold Owed at h ⊢
  cases hst : c.stage <;> simp_all [Connection.Unfinished, Connection.Marked, Audited]

theorem owed_finished (hclosing : c.closing = true) (h : Owed o c registered) :
    Owed o { c with closing := false, records := c.records.map (·.finish true none) } registered := by
  unfold Owed at h ⊢
  cases hst : c.stage <;> simp [hst, hclosing] at h
  obtain ⟨hsome,hmarked,hclosed,hserved⟩ := h
  exact ⟨hsome,.inr (.inr ⟨hclosed,rfl,audited_serve hmarked hserved⟩)⟩

theorem owed_note {asked requested writing unhandled : Bool} (h : Owed o c registered)
    (hrequested : c.picker.requested = true → requested = true) : Owed o { c with
      asked := asked
      picker := { c.picker with requested := requested }
      writing := writing
      unhandled := unhandled } registered := by
  unfold Owed at h ⊢
  cases hst : c.stage <;> simp_all [Connection.Unfinished, Connection.Marked, Audited, Picker.timer]

theorem decides_asks {e : Event} (he : e.asks = true) (htui : c.tui = false) : decides env count c e = none := by
  cases e <;> simp [Event.asks] at he <;> simp [decides, htui]

theorem owed_undecided {e : Event} (hnone : decides env count c e = none) (h : Owed o c' registered) :
    Owed (o.or (decides env count c e)) c' registered := by rwa [hnone, Option.or_none]

theorem owed_step (count : Nat) (c : Connection) (e : Event) (c' : Connection) (op : RegistryOp)
    (registered : Bool) (o : Option Outcome) (h : Owed o c registered)
    (hg : auditable env count c e = true) (hs : c.step env count e = some (c',op)) :
    Owed (o.or (decides env count c e)) c' (op.after registered) := by
  cases Connection.moves_of_step hs with
  | settle hsettle => exact owed_undecided rfl (owed_settle h hg hsettle)
  | fail hfail => exact owed_fail h hg hfail
  | clientClose =>
    refine owed_clientClose h hg ?_ ?_
    · split <;> simp
    · split
      · cases hu : c.upstream with
        | none => simp
        | some w => cases w <;> simp [Wire.end]
      · exact Iff.rfl
  | unregister hstage hup => exact owed_unregister hstage hup h
  | unheard hstage hup => exact owed_unheard hstage (fun hnone => by simp [hnone] at hup) h
  | exec htui | subsystem htui => simpa [decides, htui, RegistryOp.after] using owed_choose env none h
  | emptyTimer => simpa [decides, RegistryOp.after] using owed_choose env none h
  | @pick choice =>
    have hnext := owed_choose env choice h
    cases choice with
    | none => simpa [decides, RegistryOp.after] using hnext
    | some host => simpa [decides, RegistryOp.after] using hnext
  | hosts hd => exact owed_afterHosts hd h hg
  | provisioned hp => exact owed_afterProvision hp h
  | attempt hstage hopen =>
    refine owed_undecided rfl ?_
    simp only [Owed, hstage] at h
    obtain ⟨hrecords,hclosing,hnone,-⟩ := h
    split
    · exact ⟨hrecords,hclosing,hnone hopen,hopen⟩
    · exact ⟨hrecords,hclosing,hnone,fun hclosed => absurd hclosed hopen⟩
  | refuse hstage hopen hfull =>
    simp only [auditable, decide_eq_true_eq] at hg
    exact absurd hfull (Nat.not_le.mpr hg)
  | ready hstage hopen hfree =>
    refine owed_undecided (if_neg (Nat.not_le.mpr hfree)) ?_
    simpa only [Owed, hstage] using h
  | session hstage =>
    refine owed_undecided rfl ?_
    simp only [Owed, hstage] at h
    exact ⟨h.1,h.2.1,h.2.2.1⟩
  | asks he htui => exact owed_undecided (decides_asks he htui) (owed_note h id)
  | shell => exact owed_undecided rfl (owed_note h fun _ => rfl)
  | hostKey | channel | written | writeFailed => exact owed_undecided rfl (owed_note h id)
  | finished hclosing => exact owed_undecided rfl (owed_finished hclosing h)
  | finishFailed => exact absurd hg Bool.false_ne_true

theorem audited_of_quiescent (h : Owed o c registered) (hattempts : 0 < c.attempts)
    (hclient : c.client = .closed) (hup : c.upstream.all (· == .closed) = true)
    (hq : c.Quiescent env) : Audited o c := by
  have hsettle := hq .settle trivial 0
  simp only [Connection.step] at hsettle
  unfold Owed at h
  cases hst : c.stage <;> simp only [hst] at h
  case authenticating => exact absurd (h.2.2.2 hclient) (by omega)
  case authenticated | admitted => exact absurd hclient h.2.2.2
  case directory =>
    have hlookup := hq (.hosts []) trivial 0
    simp [Connection.step, hst] at hlookup
  case picking =>
    have htimer := hq .emptyTimer trivial 0
    simp [Connection.step, h.2.2.2.2 hclient] at htimer
  case provisioning =>
    have hanswer := hq (.provisioned ⟨.ok "",.ok false⟩) trivial 0
    simp [Connection.step, hst] at hanswer
  case wired =>
    obtain ⟨hsome,⟨-,hopen,-⟩ | ⟨-,-,hclosing,-⟩ | ⟨-,-,haudited⟩⟩ := h
    · cases hu : c.upstream with
      | none => exact absurd hu hsome
      | some w =>
        have hw : w = .closed := by simpa [hu] using hup
        exact absurd (by rw [hu, hw]) hopen
    · have hfinish := hq .finished trivial 0
      simp [Connection.step, hclosing] at hfinish
    · exact haudited
  case failCounting | settled => exact h.1
  all_goals simp [Connection.onSettle, hst] at hsettle

structure Handled (c : Connection) : Prop where
  none : c.unhandled = false
  picking : c.stage = .picking → c.tui = true

theorem handled_throw {err : Failure} (h : (c.tui || c.asked) = true) : Handled (c.throw err) :=
  ⟨by cases ht : c.tui <;> simp_all [Connection.throw],nofun⟩

theorem handled_resumePick (h : Handled c) : Handled (c.resumePick env) := by
  unfold Connection.resumePick
  split
  · next hs =>
    split
    · exact h
    · exact handled_throw (by rw [h.picking hs]; rfl)
    · exact ⟨h.none,nofun⟩
  · exact h

theorem handled_afterHosts {hs : List Host} (h : Handled c) (hg : handled env count c (.hosts hs) = true) :
    Handled (c.afterHosts env hs) := by
  unfold Connection.afterHosts
  split
  · next htui => exact handled_resumePick ⟨h.none,fun _ => htui⟩
  · next hgrammar =>
    simp only [handled, Bool.or_eq_true] at hg
    split
    · next err herr => exact handled_throw (by simpa [herr, Except.toBool] using hg)
    · exact ⟨h.none,nofun⟩

theorem handled_afterProvision {answers : Provision} (h : Handled c)
    (hg : handled env count c (.provisioned answers) = true) : Handled (c.afterProvision env answers) := by
  unfold Connection.afterProvision
  simp only [handled, Bool.or_eq_true] at hg
  split
  · next err herr => exact handled_throw (by simpa [herr, Except.toBool] using hg)
  · exact ⟨h.none,nofun⟩

theorem handled_settle (h : Handled c) (hs : c.onSettle = some (c',op)) : Handled c' := by
  unfold Connection.onSettle at hs
  split at hs <;> cases hs
  case h_5 => exact ⟨h.none,fun hpicking => by split at hpicking <;> cases hpicking⟩
  all_goals exact ⟨h.none,nofun⟩

theorem handled_fail {message : String} (h : Handled c) (hg : handled env count c (.fail message) = true)
    (hs : c.onFail message = some (c',op)) : Handled c' := by
  cases hst : c.stage <;> simp only [Connection.onFail, hst, reduceCtorEq] at hs <;>
    simp only [handled, hst] at hg <;> cases hs
  case directory | dialing => exact handled_throw hg
  case creating | bridging | finishing | failCounting => exact ⟨h.none,fun hpicking => by cases hpicking⟩
  case targeting | marking | counting =>
    split
    · exact ⟨h.none,fun hpicking => by cases hpicking⟩
    · exact handled_throw hg

theorem handled_step {e : Event} (h : Handled c) (hg : handled env count c e = true)
    (hs : c.step env count e = some (c',op)) : Handled c' := by
  cases Connection.moves_of_step hs with
  | settle hsettle => exact handled_settle h hsettle
  | fail hfail => exact handled_fail h hg hfail
  | hosts => exact handled_afterHosts h hg
  | provisioned => exact handled_afterProvision h hg
  | exec | subsystem | emptyTimer | pick => exact handled_resumePick ⟨h.none,h.picking⟩
  | attempt => exact ⟨h.none,fun hpicking => by split at hpicking <;> cases hpicking⟩
  | refuse | ready | session => exact ⟨h.none,nofun⟩
  | asks | shell | hostKey | channel | written | clientClose | unregister | unheard | finished =>
    exact ⟨h.none,h.picking⟩
  | writeFailed | finishFailed => cases hg

theorem not_ended {inputs : List Input} {g : Gateway}
    (hg : Run.Along (Gateway.step env) (Guards (handled env) · ·) .start inputs)
    (h : Gateway.run env inputs = some g) : g.ended = false := by
  have hstep : Run.Preserves (Gateway.step env) (Guards (handled env) · ·)
      fun g => g.ended = false ∧ ∀ c ∈ g.connections, Handled c := by
    rintro g (ip | ⟨i,e⟩) g' ⟨hup,hall⟩ hguard hmove
    · obtain ⟨-,rfl⟩ := Gateway.step_connect hmove
      refine ⟨hup,fun c hc => ?_⟩
      rcases List.mem_append.mp hc with hold | hnew
      · exact hall c hold
      · obtain rfl := List.mem_singleton.mp hnew
        exact ⟨rfl,nofun⟩
    · obtain ⟨c,c',op,hc,hs,rfl⟩ := Gateway.step_on hmove
      have hguard' : handled env g.registry.count c e = true := by simpa [Guards, hc] using hguard
      have hnext := handled_step (hall c (List.mem_of_getElem? hc)) hguard' hs
      refine ⟨hnext.none,fun d hd => ?_⟩
      rcases List.mem_or_eq_of_mem_set hd with hold | rfl
      · exact hall d hold
      · exact hnext
  exact (Run.invariant hstep ⟨rfl,by simp [Gateway.start]⟩ hg h).1

def Over (env : Env parseKey) (g : Gateway) (c : Connection) : Prop :=
  g.ended = true ∨ c.client = .closed ∧ c.upstream.all (· == .closed) = true ∧ c.Quiescent env

def AuditComplete (env : Env parseKey) (inputs : List Input) (i : Nat) : Prop :=
  ∀ g c, Gateway.run env inputs = some g → g.connections[i]? = some c → 0 < c.attempts → Over env g c →
    Audited (outcome env i inputs) c

theorem complete_audit_trail {i : Nat} {inputs : List Input}
    (hg : Run.Along (Gateway.step env) (Orderly env i · ·) .start inputs) : AuditComplete env inputs i := by
  intro g c h hc hattempts hover
  have howed : Owed (outcome env i inputs) c (g.registry.has i) :=
    keeps_observed none _ Owed (fun ip => ⟨rfl,rfl,fun _ => rfl,fun _ => rfl⟩) owed_step
      (Run.along_mono (fun _ _ horderly => (Bool.and_eq_true_iff.mp horderly).1) hg) h hc
  rcases hover with hended | ⟨hclient,hup,hq⟩
  · rw [not_ended (Run.along_mono (fun _ _ horderly => (Bool.and_eq_true_iff.mp horderly).2) hg) h] at hended
    cases hended
  · exact audited_of_quiescent howed hattempts hclient hup hq

section OneSlot

theorem complete_audit_trail_served :
    ∃ g c, Gateway.run oneSlot servedRun = some g ∧ g.connections[0]? = some c ∧
      c.records = [⟨true,"",1⟩] ∧ Audited (outcome oneSlot 0 servedRun) c := by
  have hg : Run.Along (Gateway.step oneSlot) (Orderly oneSlot 0 · ·) .start servedRun := by decide
  refine ⟨_,_,rfl,rfl,rfl,?_⟩
  exact complete_audit_trail hg _ _ rfl rfl (by decide)
    (.inr ⟨rfl,rfl,quiescent_of_idle rfl rfl (by decide) rfl rfl rfl⟩)

def wrongPassword : List Input := [.connect none,.on 0 (.attempt bobGuess),.on 0 .clientClose]

def leftInPicker : List Input :=
  [.connect none,.on 0 (.attempt aliceProbe),.on 0 (.attempt aliceLogin),.on 0 .ready,.on 0 .session,
    .on 0 .settle,.on 0 (.hosts [web01]),.on 0 .shell,.on 0 .clientClose]

def refusedEarly : List Input :=
  .connect (some "10.0.0.9") :: toReady 0 ++ [.on 0 .session,.on 0 .settle,.on 0 (.hosts [db01])]

theorem incomplete_audit_trail :
    (∃ g c, Gateway.run oneSlot wrongPassword = some g ∧ g.connections[0]? = some c ∧ c.records = [] ∧
      ¬ AuditComplete oneSlot wrongPassword 0) ∧
    (∃ g c, Gateway.run oneSlot leftInPicker = some g ∧ g.connections[0]? = some c ∧
      c.records = [⟨false,"",0⟩] ∧ ¬ AuditComplete oneSlot leftInPicker 0) ∧
    ∃ g c, Gateway.run oneSlot refusedEarly = some g ∧ g.ended = true ∧ g.connections[0]? = some c ∧
      c.records = [⟨false,"",0⟩] ∧ ¬ AuditComplete oneSlot refusedEarly 0 := by
  refine ⟨⟨_,_,rfl,rfl,rfl,fun h => ?_⟩,⟨_,_,rfl,rfl,rfl,fun h => ?_⟩,⟨_,_,rfl,rfl,rfl,rfl,fun h => ?_⟩⟩
  · obtain ⟨r,out,hr,-⟩ := h _ _ rfl rfl (by decide)
      (.inr ⟨rfl,rfl,quiescent_of_idle rfl rfl (by decide) rfl rfl rfl⟩)
    cases hr
  · obtain ⟨r,out,hr,hfin,-⟩ := h _ _ rfl rfl (by decide)
      (.inr ⟨rfl,rfl,quiescent_of_idle rfl rfl (by decide) rfl rfl rfl⟩)
    cases hr
    cases hfin
  · obtain ⟨r,out,hr,hfin,-⟩ := h _ _ rfl rfl (by decide) (.inl rfl)
    cases hr
    cases hfin

end OneSlot

end JumpHost.Session
