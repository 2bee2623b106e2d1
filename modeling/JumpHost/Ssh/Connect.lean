import JumpHost.Ssh.Auth
import JumpHost.Ssh.TargetMatch

namespace JumpHost.Connect

open Auth TargetMatch

-- a thrown Error: `fail` sets the first three properties, matchTarget only the last
structure Failure where
  reason : Option String := none
  detail : Option String := none
  hostSlug : Option String := none
  code : Option String := none
deriving DecidableEq

def fail (reason : String) (detail hostSlug : Option String) : Failure :=
  { reason := some reason, detail, hostSlug }

-- `err.reason || 'error'`
def Failure.failReason (err : Failure) : String := (firstTruthy [err.reason]).getD "error"

structure Dial where
  host : Option String
  port : Num
  username : String
  privateKey : String
  cert : Option String
  uid : String
  justInjected : Bool
  expectedHostKeyFp : Option String
deriving DecidableEq

structure Provision where
  getSignedCert : Except String String
  ensureKeyInjected : Except String Bool

inductive Onward where
  | dial (args : Dial)
  | refuse (err : Failure)
deriving DecidableEq

variable (js : Js) (conf : Conf) (clientKey uid : String)

def resolveTarget (target : String) (hosts : Except String (List Host)) :
    Except Failure (Option Host × Endpoint) :=
  match hosts with
  | .error _ => .error (fail "directory-unreachable" none none)
  | .ok hosts => match matchTarget js target hosts conf.allowRawIPs with
    | .error _ => .error { code := some "no-such-target" }
    | .ok m =>
        let endpoint := match m.host with
          | some host => hostEndpoint js host (.int conf.defaultPort)
          | none => ⟨m.raw,.int conf.defaultPort⟩
        if !truthy endpoint.address then .error (fail "no-address" none none)
        else .ok (m.host,endpoint)

def provision (slug : Option String) (answers : Provision) :
    Except Failure (Option String × Bool) :=
  if conf.pkiEnabled then
    match answers.getSignedCert with
    | .error message => .error (fail "pki-cert-failed" (some message) slug)
    | .ok cert => .ok (some cert,false)
  else
    match answers.ensureKeyInjected with
    | .error message => .error (fail "key-inject-failed" (some message) slug)
    | .ok justInjected => .ok (none,justInjected)

def dialArgs (host : Option Host) (endpoint : Endpoint) (credential : Option String × Bool) : Dial where
  host := endpoint.address
  port := endpoint.port
  username := uid
  privateKey := clientKey
  cert := credential.1
  uid := uid
  justInjected := credential.2
  expectedHostKeyFp := host.bind fun h => h.metadata.bind Metadata.sshHostKeyFp

def onward (host : Option Host) (endpoint : Endpoint) (answers : Provision) : Onward :=
  match provision conf (host.bind Host.slug) answers with
  | .error err => .refuse err
  | .ok credential => .dial (dialArgs clientKey uid host endpoint credential)

def grammarOnward (target : String) (hosts : Except String (List Host)) (answers : Provision) :
    Onward :=
  match resolveTarget js conf target hosts with
  | .error err => .refuse err
  | .ok (host,endpoint) => onward conf clientKey uid host endpoint answers

-- the same stretch of runTuiSession, written out there without the address check
def tuiOnward (host : Host) (answers : Provision) : Onward :=
  onward conf clientKey uid (some host) (hostEndpoint js host (.int conf.defaultPort)) answers

def SameOnward (h : Host) (target : String) (hosts : List Host) (answers : Provision) : Prop :=
  let grammar := grammarOnward js conf clientKey uid target (.ok hosts) answers
  let tui := tuiOnward js conf clientKey uid h answers
  grammar = tui ∧ ((hostEndpoint js h (.int conf.defaultPort)).address = none →
    ∀ args, grammar ≠ .dial args ∧ tui ≠ .dial args)

theorem resolveTarget_host {h : Host} {target : String} {hosts : List Host}
    (hm : matchTarget js target hosts conf.allowRawIPs = .ok ⟨some h,none⟩) :
    resolveTarget js conf target (.ok hosts) =
      if (hostEndpoint js h (.int conf.defaultPort)).address = none then
        .error (fail "no-address" none none)
      else .ok (some h,hostEndpoint js h (.int conf.defaultPort)) := by
  have ht : (!truthy (hostEndpoint js h (.int conf.defaultPort)).address) = true ↔
      (hostEndpoint js h (.int conf.defaultPort)).address = none := by
    rw [Bool.not_eq_true', ← Bool.not_eq_true, hostEndpoint_truthy, not_not]
  simp only [resolveTarget, hm, ht]

theorem provision_reason {slug : Option String} {answers : Provision} {err : Failure}
    (h : provision conf slug answers = .error err) : err.reason ≠ some "no-address" := by
  unfold provision at h
  split at h <;> split at h <;> cases h <;> simp [fail]

theorem onward_ne_noAddress (host : Option Host) (endpoint : Endpoint) (answers : Provision) :
    onward conf clientKey uid host endpoint answers ≠ .refuse (fail "no-address" none none) := by
  unfold onward
  split
  · next err herr =>
    intro h
    cases h
    exact provision_reason conf herr rfl
  · simp

theorem sameOnward_iff (h : Host) (target : String) (hosts : List Host) (answers : Provision)
    (hm : matchTarget js target hosts conf.allowRawIPs = .ok ⟨some h,none⟩) :
    SameOnward js conf clientKey uid h target hosts answers ↔
      (hostEndpoint js h (.int conf.defaultPort)).address ≠ none := by
  have hr := resolveTarget_host js conf hm
  by_cases ha : (hostEndpoint js h (.int conf.defaultPort)).address = none
  · rw [if_pos ha] at hr
    refine iff_of_false ?_ (by simpa using ha)
    rintro ⟨heq,-⟩
    simp only [grammarOnward, hr] at heq
    exact onward_ne_noAddress conf clientKey uid _ _ answers heq.symm
  · rw [if_neg ha] at hr
    refine iff_of_true ⟨?_,fun h0 => absurd h0 ha⟩ ha
    simp only [grammarOnward, hr, tuiOnward]

section Inventory

def asciiJs : Js where
  toLowerCase s := String.ofList (s.toList.map Char.toLower)
  hostname url := some (String.ofList ((url.toList.drop 6).takeWhile (· != ':')))

def web01 : Host := { slug := some "host_web01", metadata := some { ip := some "10.0.0.5" } }

def db01 : Host := { slug := some "host_db01" }

theorem sameOnward_web01 :
    SameOnward asciiJs {} "key" "alice" web01 "host_web01" [db01,web01] ⟨.ok "cert",.ok true⟩ :=
  (sameOnward_iff asciiJs {} "key" "alice" web01 "host_web01" [db01,web01] ⟨.ok "cert",.ok true⟩
    rfl).mpr (by decide)

theorem not_sameOnward_db01 :
    matchTarget asciiJs "host_db01" [db01,web01] false = .ok ⟨some db01,none⟩ ∧
      grammarOnward asciiJs {} "key" "alice" "host_db01" (.ok [db01,web01]) ⟨.ok "cert",.ok true⟩ =
        .refuse (fail "no-address" none none) ∧
      ¬ SameOnward asciiJs {} "key" "alice" db01 "host_db01" [db01,web01]
        ⟨.ok "cert",.ok true⟩ := by
  refine ⟨rfl,rfl,fun h => ?_⟩
  exact (h.2 rfl ⟨none,.int 22,"alice","key",none,"alice",true,none⟩).2 rfl

end Inventory

end JumpHost.Connect
