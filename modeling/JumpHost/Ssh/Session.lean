import JumpHost.Library.OrdMap
import JumpHost.Library.Run
import JumpHost.Ssh.Connect

namespace JumpHost.Session

open Keys Auth TargetMatch Connect

structure Env (parseKey : String → Option PublicKey) where
  keys : JumpKeys parseKey
  verify : PublicKey → Blob → Blob → Option String → Bool
  conf : Conf
  js : Js

inductive Wire where
  | opened
  | ending
  | closed
deriving DecidableEq, Repr

def Wire.end : Wire → Wire
  | .opened => .ending
  | w => w

inductive Stage where
  | authenticating
  | authenticated
  | refused
  | admitted
  | creating
  | directory
  | picking
  | targeting
  | provisioning
  | dialing
  | marking
  | counting
  | bridging
  | wired
  | finishing
  | failCounting
  | settled
deriving DecidableEq, Repr

structure Record where
  success : Bool := false
  failReason : String := ""
  finished : Nat := 0
deriving DecidableEq, Repr

def Record.patch (r : Record) (success : Bool) : Record := { r with success }

def Record.finish (r : Record) (success : Bool) (failReason : Option String) : Record where
  success := success
  failReason := failReason.getD r.failReason
  finished := r.finished + 1

-- the promise runTui returns: settled once, by a keystroke, an exec or the empty-list timer
structure Picker where
  requested : Bool := false
  hosts : Option (List Host) := none
  chosen : Option (Option Host) := none

def Picker.timer (p : Picker) : Bool := p.requested && p.hosts == some [] && p.chosen.isNone

structure Connection where
  inbound : Inbound
  attempts : Nat := 0
  stage : Stage := .authenticating
  tui : Bool := false
  client : Wire := .opened
  upstream : Option Wire := none
  picker : Picker := {}
  host : Option Host := none
  endpoint : Endpoint := ⟨none,.nan⟩
  dialled : Option Dial := none
  failing : Failure := {}
  records : List Record := []
  closing : Bool := false
  asked : Bool := false
  writing : Bool := false
  unhandled : Bool := false

structure Desc where
  uid : Option String
  target : Option String
  slug : Option String
deriving DecidableEq

inductive RegistryOp where
  | keep
  | add (desc : Desc)
  | remove
deriving DecidableEq

inductive Event where
  | attempt (a : Attempt)
  | ready
  | session
  | shell
  | exec
  | subsystem (sftp : Bool)
  | pick (choice : Option Host)
  | emptyTimer
  | hosts (hs : List Host)
  | provisioned (answers : Provision)
  | settle
  | fail (message : String)
  | hostKey
  | channel
  | written
  | writeFailed
  | clientClose
  | upstreamClose
  | finished
  | finishFailed

def maxSessions (conf : Conf) : Nat := if conf.maxSessions = 0 then 100 else conf.maxSessions

variable {parseKey : String → Option PublicKey} (env : Env parseKey)

-- in grammar mode the catch rejects upstreamPromise, which only a requested channel handles
def Connection.throw (c : Connection) (err : Failure) : Connection :=
  { c with stage := .finishing, failing := err, unhandled := !c.tui && !c.asked }

-- a rejection nobody catches reaches onReady, which ends the client
def Connection.abort (c : Connection) : Connection :=
  { c with stage := .settled, client := c.client.end }

def Connection.slug (c : Connection) : Option String := c.host.bind Host.slug

-- runTuiSession from `await tuiPromise` on, once that promise is settled
def Connection.resumePick (c : Connection) : Connection :=
  if c.stage = .picking then
    match c.picker.chosen with
    | none => c
    | some none => c.throw (Connect.fail "cancelled" none none)
    | some (some host) =>
        { c with
          stage := .targeting
          host := some host
          endpoint := hostEndpoint env.js host (.int env.conf.defaultPort)
          inbound := { c.inbound with state := { c.inbound.state with target := host.slug } } }
  else c

def Connection.choose (c : Connection) (choice : Option Host) : Connection :=
  let picker := { c.picker with chosen := c.picker.chosen.or (some choice) }
  { c with picker := picker }.resumePick env

def Connection.afterHosts (c : Connection) (hs : List Host) : Connection :=
  if c.tui then
    let picker := { c.picker with hosts := some hs }
    { c with stage := .picking, picker := picker }.resumePick env
  else match resolveTarget env.js env.conf (c.inbound.state.target.getD "") (.ok hs) with
    | .error err => c.throw err
    | .ok (host,endpoint) => { c with stage := .targeting, host := host, endpoint := endpoint }

def Connection.afterProvision (c : Connection) (answers : Provision) : Connection :=
  match provision env.conf c.slug answers with
  | .error err => c.throw err
  | .ok credential =>
      let dial := dialArgs env.keys.clientKey (c.inbound.state.uid.getD "") c.host c.endpoint credential
      { c with stage := .dialing, dialled := some dial }

def Connection.desc (c : Connection) : Desc :=
  ⟨c.inbound.state.uid,c.endpoint.address,if c.host.isNone then some "raw-ip" else c.slug⟩

def Connection.onSettle (c : Connection) : Option (Connection × RegistryOp) :=
  match c.stage with
  | .creating => some ({ c with stage := .directory, records := c.records ++ [{}] },.keep)
  | .targeting => some ({ c with stage := .provisioning },.keep)
  | .dialing => some ({ c with stage := .marking, upstream := some .opened },.add c.desc)
  | .marking =>
      some ({ c with stage := .counting, records := c.records.map (·.patch true) },.keep)
  | .counting => some ({ c with stage := if c.tui then .bridging else .wired },.keep)
  | .bridging => some ({ c with stage := .wired, writing := true },.keep)
  | .finishing =>
      let records := c.records.map (·.finish false (some c.failing.failReason))
      some ({ c with stage := .failCounting, records := records },.keep)
  | .failCounting =>
      some ({ c with stage := .settled, client := if c.tui then c.client.end else c.client },.keep)
  | _ => none

def Connection.onFail (c : Connection) (message : String) : Option (Connection × RegistryOp) :=
  match c.stage with
  | .creating => some (c.abort,.keep)
  | .directory => some (c.throw (Connect.fail "directory-unreachable" none none),.keep)
  | .targeting | .marking | .counting => some (if c.tui then c.abort else c.throw {},.keep)
  | .dialing => some (c.throw (Connect.fail "upstream-unreachable" (some message) c.slug),.keep)
  | .bridging => some ({ c with stage := .wired },.keep)
  | .finishing | .failCounting => some (c.abort,.keep)
  | _ => none

def Stage.inSession : Stage → Bool
  | .authenticating | .authenticated | .refused | .admitted => false
  | _ => true

def Connection.request (c picking : Connection) : Option (Connection × RegistryOp) :=
  if c.stage.inSession ∧ c.client ≠ .closed then
    some (if c.tui then picking else { c with asked := true },.keep)
  else none

def Connection.step (count : Nat) (c : Connection) : Event → Option (Connection × RegistryOp)
  | .attempt a =>
      if c.stage = .authenticating ∧ c.client ≠ .closed then
        (Auth.step env.keys env.verify env.conf c.inbound a).map fun inbound =>
          let stage := if inbound.accepted.isSome then .authenticated else .authenticating
          ({ c with inbound := inbound, attempts := c.attempts + 1, stage := stage },.keep)
      else none
  | .ready =>
      if c.stage = .authenticated ∧ c.client ≠ .closed then
        if maxSessions env.conf ≤ count then
          some ({ c with stage := .refused, client := c.client.end },.keep)
        else some ({ c with stage := .admitted },.keep)
      else none
  | .session =>
      if c.stage = .admitted ∧ c.client ≠ .closed then
        some ({ c with stage := .creating, tui := c.inbound.state.target.isNone },.keep)
      else none
  | .shell => c.request { c with picker := { c.picker with requested := true } }
  | .exec => c.request (c.choose env none)
  | .subsystem sftp => if c.tui ∨ sftp then c.request (c.choose env none) else none
  | .pick choice =>
      -- keystrokes reach pickHost only while the client is there to type them
      if c.picker.requested ∧ c.picker.chosen = none ∧ c.client ≠ .closed ∧
          c.picker.hosts.any (fun hs => hs != [] && choice.all hs.contains) then
        some (c.choose env choice,.keep)
      else none
  | .emptyTimer => if c.picker.timer then some (c.choose env none,.keep) else none
  | .hosts hs => if c.stage = .directory then some (c.afterHosts env hs,.keep) else none
  | .provisioned answers =>
      if c.stage = .provisioning then some (c.afterProvision env answers,.keep) else none
  | .settle => c.onSettle
  | .fail message => c.onFail message
  -- the patches nobody awaits: of the host key, at each key exchange, and of a bridged channel
  | .hostKey =>
      if c.stage = .dialing ∨ c.upstream = some .opened then some ({ c with writing := true },.keep)
      else none
  | .channel =>
      if c.asked ∧ c.stage = .wired ∧ c.upstream ≠ some .closed then
        some ({ c with writing := true },.keep)
      else none
  | .written => if c.writing then some ({ c with writing := false },.keep) else none
  | .writeFailed =>
      if c.writing then some ({ c with writing := false, unhandled := true },.keep) else none
  | .clientClose =>
      if c.client = .closed then none
      else
        -- wireTeardown's listener; a close that came earlier is never seen by it
        let upstream := if c.stage = .wired then c.upstream.map Wire.end else c.upstream
        some ({ c with client := .closed, upstream := upstream },.keep)
  | .upstreamClose =>
      if c.upstream.all (· == .closed) then none
      else if c.stage = .wired then
        some ({ c with upstream := some .closed, closing := true },.remove)
      else some ({ c with upstream := some .closed },.keep)
  | .finished =>
      if c.closing then
        some ({ c with closing := false, records := c.records.map (·.finish true none) },.keep)
      else none
  | .finishFailed =>
      if c.closing then some ({ c with closing := false, unhandled := true },.keep) else none

def Event.asks : Event → Bool
  | .shell | .exec | .subsystem true => true
  | _ => false

inductive Connection.Moves (count : Nat) (c : Connection) : Event → Connection → RegistryOp → Prop where
  | attempt {a : Attempt} {inbound : Inbound} (hs : c.stage = .authenticating)
      (hopen : c.client ≠ .closed)
      (ha : Auth.step env.keys env.verify env.conf c.inbound a = some inbound) :
      Connection.Moves count c (.attempt a) { c with
        inbound := inbound
        attempts := c.attempts + 1
        stage := if inbound.accepted.isSome then .authenticated else .authenticating } .keep
  | refuse (hs : c.stage = .authenticated) (hopen : c.client ≠ .closed)
      (hfull : maxSessions env.conf ≤ count) :
      Connection.Moves count c .ready { c with stage := .refused, client := c.client.end } .keep
  | ready (hs : c.stage = .authenticated) (hopen : c.client ≠ .closed)
      (hfree : count < maxSessions env.conf) :
      Connection.Moves count c .ready { c with stage := .admitted } .keep
  | session (hs : c.stage = .admitted) (hopen : c.client ≠ .closed) :
      Connection.Moves count c .session { c with
        stage := .creating
        tui := c.inbound.state.target.isNone } .keep
  | asks {e : Event} (he : e.asks = true) (htui : c.tui = false) (hs : c.stage.inSession = true)
      (hopen : c.client ≠ .closed) : Connection.Moves count c e { c with asked := true } .keep
  | shell (htui : c.tui = true) (hs : c.stage.inSession = true) (hopen : c.client ≠ .closed) :
      Connection.Moves count c .shell { c with picker := { c.picker with requested := true } } .keep
  | exec (htui : c.tui = true) (hs : c.stage.inSession = true) (hopen : c.client ≠ .closed) :
      Connection.Moves count c .exec (c.choose env none) .keep
  | subsystem {sftp : Bool} (htui : c.tui = true) (hs : c.stage.inSession = true)
      (hopen : c.client ≠ .closed) :
      Connection.Moves count c (.subsystem sftp) (c.choose env none) .keep
  | pick {choice : Option Host} {hs : List Host} (hasked : c.picker.requested)
      (hnone : c.picker.chosen = none) (hopen : c.client ≠ .closed)
      (hlisted : c.picker.hosts = some hs) (hne : hs ≠ []) (hmem : ∀ h ∈ choice, h ∈ hs) :
      Connection.Moves count c (.pick choice) (c.choose env choice) .keep
  | emptyTimer (htimer : c.picker.timer) :
      Connection.Moves count c .emptyTimer (c.choose env none) .keep
  | hosts {hs : List Host} (hd : c.stage = .directory) :
      Connection.Moves count c (.hosts hs) (c.afterHosts env hs) .keep
  | provisioned {answers : Provision} (hp : c.stage = .provisioning) :
      Connection.Moves count c (.provisioned answers) (c.afterProvision env answers) .keep
  | settle {c' : Connection} {op : RegistryOp} (hs : c.onSettle = some (c',op)) :
      Connection.Moves count c .settle c' op
  | fail {message : String} {c' : Connection} {op : RegistryOp}
      (hs : c.onFail message = some (c',op)) : Connection.Moves count c (.fail message) c' op
  | hostKey (hs : c.stage = .dialing ∨ c.upstream = some .opened) :
      Connection.Moves count c .hostKey { c with writing := true } .keep
  | channel (hasked : c.asked = true) (hs : c.stage = .wired) (hup : c.upstream ≠ some .closed) :
      Connection.Moves count c .channel { c with writing := true } .keep
  | written (hwriting : c.writing = true) :
      Connection.Moves count c .written { c with writing := false } .keep
  | writeFailed (hwriting : c.writing = true) :
      Connection.Moves count c .writeFailed { c with writing := false, unhandled := true } .keep
  | clientClose (hopen : c.client ≠ .closed) : Connection.Moves count c .clientClose { c with
      client := .closed
      upstream := if c.stage = .wired then c.upstream.map Wire.end else c.upstream } .keep
  | unregister (hs : c.stage = .wired) (hup : c.upstream.all (· == .closed) = false) :
      Connection.Moves count c .upstreamClose
        { c with upstream := some .closed, closing := true } .remove
  | unheard (hs : c.stage ≠ .wired) (hup : c.upstream.all (· == .closed) = false) :
      Connection.Moves count c .upstreamClose { c with upstream := some .closed } .keep
  | finished (hclosing : c.closing = true) : Connection.Moves count c .finished { c with
      closing := false
      records := c.records.map (·.finish true none) } .keep
  | finishFailed (hclosing : c.closing = true) :
      Connection.Moves count c .finishFailed { c with closing := false, unhandled := true } .keep

variable {env}

theorem Connection.request_eq_some {c c' picking : Connection} {op : RegistryOp}
    (h : c.request picking = some (c',op)) : c.stage.inSession = true ∧ c.client ≠ .closed ∧ op = .keep ∧
      ((c.tui = true ∧ c' = picking) ∨ (c.tui = false ∧ c' = { c with asked := true })) := by
  rw [Connection.request, Option.ite_none_right_eq_some] at h
  obtain ⟨⟨hs,hopen⟩,heq⟩ := h
  cases heq
  refine ⟨hs,hopen,rfl,?_⟩
  cases htui : c.tui with
  | true => exact .inl ⟨rfl,rfl⟩
  | false => exact .inr ⟨rfl,rfl⟩

theorem Connection.moves_of_step {count : Nat} {c c' : Connection} {e : Event} {op : RegistryOp}
    (h : c.step env count e = some (c',op)) : c.Moves env count e c' op := by
  cases e <;> simp only [Connection.step] at h
  case settle => exact .settle h
  case fail message => exact .fail h
  case ready =>
    split at h
    · next ha =>
      split at h <;> cases h
      · next hfull => exact .refuse ha.1 ha.2 hfull
      · next hfree => exact .ready ha.1 ha.2 (Nat.lt_of_not_le hfree)
    · simp at h
  case clientClose =>
    split at h
    · simp at h
    · next hopen =>
      cases h
      exact .clientClose hopen
  case upstreamClose =>
    split at h
    · simp at h
    · next hopen =>
      split at h <;> cases h
      · next hs => exact .unregister hs (Bool.eq_false_of_not_eq_true hopen)
      · next hs => exact .unheard hs (Bool.eq_false_of_not_eq_true hopen)
  case attempt a =>
    split at h
    · next ha =>
      obtain ⟨inbound,hinbound,heq⟩ := Option.map_eq_some_iff.mp h
      cases heq
      exact .attempt ha.1 ha.2 hinbound
    · simp at h
  case shell =>
    obtain ⟨hs,hopen,rfl,⟨htui,rfl⟩ | ⟨htui,rfl⟩⟩ := Connection.request_eq_some h
    · exact .shell htui hs hopen
    · exact .asks rfl htui hs hopen
  case exec =>
    obtain ⟨hs,hopen,rfl,⟨htui,rfl⟩ | ⟨htui,rfl⟩⟩ := Connection.request_eq_some h
    · exact .exec htui hs hopen
    · exact .asks rfl htui hs hopen
  case subsystem sftp =>
    obtain ⟨hasks,h⟩ := Option.ite_none_right_eq_some.mp h
    obtain ⟨hs,hopen,rfl,⟨htui,rfl⟩ | ⟨htui,rfl⟩⟩ := Connection.request_eq_some h
    · exact .subsystem htui hs hopen
    · obtain rfl : sftp = true := hasks.resolve_left (by simp [htui])
      exact .asks rfl htui hs hopen
  all_goals rw [Option.ite_none_right_eq_some] at h
  all_goals obtain ⟨hg,heq⟩ := h
  all_goals cases heq
  case session => exact .session hg.1 hg.2
  case pick choice =>
    obtain ⟨hasked,hnone,hopen,hany⟩ := hg
    obtain ⟨hs,hlisted,hpick⟩ := (Option.any_eq_true _ _).mp hany
    simp only [Bool.and_eq_true, bne_iff_ne, Option.all_eq_true, List.contains_iff_mem] at hpick
    exact .pick hasked hnone hopen hlisted hpick.1 hpick.2
  case emptyTimer => exact .emptyTimer hg
  case hosts hs => exact .hosts hg
  case provisioned answers => exact .provisioned hg
  case hostKey => exact .hostKey hg
  case channel => exact .channel hg.1 hg.2.1 hg.2.2
  case written => exact .written hg
  case writeFailed => exact .writeFailed hg
  case finished => exact .finished hg
  case finishFailed => exact .finishFailed hg

variable (env)

def Event.internal (c : Connection) : Event → Prop
  | .emptyTimer | .hosts _ | .provisioned _ | .settle | .fail _ => True
  | .written | .writeFailed | .finished | .finishFailed => True
  | .upstreamClose => c.upstream = some .ending
  | .clientClose => c.client = .ending
  | _ => False

def Connection.Quiescent (c : Connection) : Prop :=
  ∀ e : Event, e.internal c → ∀ count, c.step env count e = none

end JumpHost.Session
