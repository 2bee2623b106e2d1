import JumpHost.Ssh.Connect

namespace JumpHost.Connect

open Auth TargetMatch UsernameGrammar

section Grammar

structure Login where
  target : String
  asked : Bool
  hosts : Except String (List Host)
  answers : Provision
  dialled : Dial → Except String Unit

variable (js : Js) (conf : Conf) (clientKey uid : String)

def resolveAndConnect (login : Login) : Except Failure (Option Host × Endpoint) :=
  match resolveTarget js conf login.target login.hosts with
  | .error err => .error err
  | .ok (host,endpoint) => match provision conf (host.bind Host.slug) login.answers with
    | .error err => .error err
    | .ok credential => match login.dialled (dialArgs clientKey uid host endpoint credential) with
      | .error message => .error (fail "upstream-unreachable" (some message) (host.bind Host.slug))
      | .ok _ => .ok (host,endpoint)

def reasonMessage (reason : String) : String :=
  if reason = "no-such-target" then "no host you can access matches that target"
  else if reason = "no-access" then "you do not have access to that host"
  else if reason = "directory-unreachable" then "directory service unavailable"
  else if reason = "upstream-unreachable" then "could not reach the target host"
  else if reason = "key-inject-failed" then "could not provision your access key"
  else reason

structure Refusal where
  failReason : String
  failDetail : Option String
  shown : String
deriving DecidableEq

def shownFor (reason : String) : String := "jump-host: " ++ reasonMessage reason ++ "\r\n"

inductive Ending where
  | served
  | refused (refusal : Refusal)
  | exited
deriving DecidableEq

-- with no channel to handle it the rejection of upstreamPromise ends the process, before `finish`
def runGrammar (login : Login) : Ending :=
  match resolveAndConnect js conf clientKey uid login with
  | .ok _ => .served
  | .error err =>
      if login.asked then .refused ⟨err.failReason,err.detail,shownFor err.failReason⟩ else .exited

end Grammar

section Stages

variable {js : Js} {conf : Conf} {clientKey uid : String} {login : Login} {code : String} {target : String}
  {hosts : List Host} {m : Matched}

def finders (js : Js) (target : String) : List (Host → Bool) :=
  let t := js.toLowerCase target
  [fun h => isNamed js h.slug t,fun h => isNamed js h.slug ("host_" ++ t),fun h => isNamed js h.name t,
    fun h => h.metadata.any fun md => md.ip == some target,
    fun h => isNamed js (addrHost js (h.metadata.bind Metadata.address)) t]

def answersTo (js : Js) (target : String) (h : Host) : Bool := (finders js target).any fun p => p h

def permitted (conf : Conf) (target : String) : Bool := isIPv4 target && conf.allowRawIPs

def Unmatched (js : Js) (conf : Conf) (login : Login) : Prop :=
  ∃ hosts, login.hosts = .ok hosts ∧ (∀ h ∈ hosts, answersTo js login.target h = false) ∧
    permitted conf login.target = false

theorem matchTarget_eq (conf : Conf) : matchTarget js target hosts conf.allowRawIPs =
    match (finders js target).findSome? (fun p => hosts.find? p) with
    | some h => .ok ⟨some h,none⟩
    | none =>
        if permitted conf target then .ok ⟨none,some target⟩
        else .error ("No accessible host matches '" ++ target ++ "'") := by
  simp only [matchTarget, finders, permitted, List.findSome?_cons, List.findSome?_nil]
  cases hosts.find? (fun h => isNamed js h.slug (js.toLowerCase target)) with
  | some h => rfl
  | none => cases hosts.find? (fun h => isNamed js h.slug ("host_" ++ js.toLowerCase target)) with
    | some h => rfl
    | none => cases hosts.find? (fun h => isNamed js h.name (js.toLowerCase target)) with
      | some h => rfl
      | none => cases hosts.find? (fun h => h.metadata.any fun md => md.ip == some target) with
        | some h => rfl
        | none => cases hosts.find? (fun h =>
              isNamed js (addrHost js (h.metadata.bind Metadata.address)) (js.toLowerCase target)) with
          | some h => rfl
          | none => rfl

theorem findSome_none_iff : (finders js target).findSome? (fun p => hosts.find? p) = none ↔
    ∀ h ∈ hosts, answersTo js target h = false := by
  simp only [List.findSome?_eq_none_iff, List.find?_eq_none, answersTo, List.any_eq_false]
  exact ⟨fun hnone h hmem p hp => hnone p hp h hmem,fun hnone p hp h hmem => hnone h hmem p hp⟩

theorem matchTarget_unmatched (hno : ∀ h ∈ hosts, answersTo js target h = false)
    (hraw : permitted conf target = false) :
    matchTarget js target hosts conf.allowRawIPs = .error ("No accessible host matches '" ++ target ++ "'") := by
  simp [matchTarget_eq, findSome_none_iff.mpr hno, hraw]

theorem matchTarget_error {message : String} (h : matchTarget js target hosts conf.allowRawIPs = .error message) :
    (∀ h ∈ hosts, answersTo js target h = false) ∧ permitted conf target = false := by
  rw [matchTarget_eq] at h
  split at h
  · cases h
  · next hnone =>
    split at h
    · cases h
    · next hraw => exact ⟨findSome_none_iff.mp hnone,Bool.eq_false_iff.mpr hraw⟩

theorem matchTarget_raw (h : matchTarget js target hosts conf.allowRawIPs = .ok m) (hhost : m.host = none) :
    truthy m.raw = true := by
  rw [matchTarget_eq] at h
  split at h
  · cases h
    cases hhost
  · split at h
    · next hraw =>
      cases h
      have hne : target ≠ "" := by
        rintro rfl
        simp [permitted, isIPv4] at hraw
      simpa [truthy] using hne
    · cases h

def endpointOf (js : Js) (conf : Conf) (m : Matched) : Endpoint :=
  m.host.elim ⟨m.raw,.int conf.defaultPort⟩ fun host => hostEndpoint js host (.int conf.defaultPort)

structure Addressed (js : Js) (conf : Conf) (login : Login) (m : Matched) : Prop where
  matched : ∃ hosts, login.hosts = .ok hosts ∧ matchTarget js login.target hosts conf.allowRawIPs = .ok m
  address : ∀ host, m.host = some host → (hostEndpoint js host (.int conf.defaultPort)).address ≠ none

inductive FirstFailed (js : Js) (conf : Conf) (clientKey uid : String) (login : Login) : String → Prop
  | directory {message : String} (hdir : login.hosts = .error message) :
      FirstFailed js conf clientKey uid login "directory-unreachable"
  | target (hno : Unmatched js conf login) : FirstFailed js conf clientKey uid login "no-such-target"
  | address {hosts : List Host} {m : Matched} {host : Host} (hdir : login.hosts = .ok hosts)
      (hmatch : matchTarget js login.target hosts conf.allowRawIPs = .ok m) (hhost : m.host = some host)
      (hnone : (hostEndpoint js host (.int conf.defaultPort)).address = none) :
      FirstFailed js conf clientKey uid login "no-address"
  | inject {m : Matched} {message : String} (haddr : Addressed js conf login m) (hpki : conf.pkiEnabled = false)
      (hinject : login.answers.ensureKeyInjected = .error message) :
      FirstFailed js conf clientKey uid login "key-inject-failed"
  | cert {m : Matched} {message : String} (haddr : Addressed js conf login m) (hpki : conf.pkiEnabled = true)
      (hcert : login.answers.getSignedCert = .error message) :
      FirstFailed js conf clientKey uid login "pki-cert-failed"
  | dial {m : Matched} {credential : Option String × Bool} {message : String} (haddr : Addressed js conf login m)
      (hcred : provision conf (m.host.bind Host.slug) login.answers = .ok credential)
      (hdial : login.dialled (dialArgs clientKey uid m.host (endpointOf js conf m) credential) = .error message) :
      FirstFailed js conf clientKey uid login "upstream-unreachable"

structure Classified (js : Js) (conf : Conf) (clientKey uid : String) (login : Login) : Prop where
  stored : ∀ refusal, runGrammar js conf clientKey uid login = .refused refusal →
    FirstFailed js conf clientKey uid login refusal.failReason ∧ refusal.shown = shownFor refusal.failReason
  reported : ∀ code, FirstFailed js conf clientKey uid login code →
    ∃ refusal, runGrammar js conf clientKey uid login = .refused refusal ∧ refusal.failReason = code
  unreachable : ∀ refusal, runGrammar js conf clientKey uid login = .refused refusal →
    refusal.failReason = "directory-unreachable" → ∃ message, login.hosts = .error message

theorem resolveTarget_addressed (h : Addressed js conf login m) :
    resolveTarget js conf login.target login.hosts = .ok (m.host,endpointOf js conf m) := by
  obtain ⟨⟨hosts,hdir,hmatch⟩,haddress⟩ := h
  simp only [resolveTarget, hdir, hmatch, endpointOf]
  cases hhost : m.host with
  | none => simp [matchTarget_raw hmatch hhost]
  | some host => simp [(hostEndpoint_truthy js).mpr (haddress host hhost)]

theorem runGrammar_error {err : Failure} (hasked : login.asked = true)
    (h : resolveAndConnect js conf clientKey uid login = .error err) :
    runGrammar js conf clientKey uid login = .refused ⟨err.failReason,err.detail,shownFor err.failReason⟩ := by
  simp only [runGrammar, h, hasked, if_true]

theorem runGrammar_unmatched (hasked : login.asked = true) (h : Unmatched js conf login) :
    runGrammar js conf clientKey uid login = .refused ⟨"error",none,shownFor "error"⟩ := by
  obtain ⟨hosts,hdir,hno,hraw⟩ := h
  have herr : resolveAndConnect js conf clientKey uid login = .error { code := some "no-such-target" } := by
    simp only [resolveAndConnect, resolveTarget, hdir, matchTarget_unmatched hno hraw]
  exact runGrammar_error hasked herr

theorem refused_iff {refusal : Refusal} : runGrammar js conf clientKey uid login = .refused refusal ↔
    login.asked = true ∧ ∃ err, resolveAndConnect js conf clientKey uid login = .error err ∧
      refusal = ⟨err.failReason,err.detail,shownFor err.failReason⟩ := by
  unfold runGrammar
  cases resolveAndConnect js conf clientKey uid login with
  | ok found => simp
  | error err => cases login.asked <;> simp [eq_comm]

theorem resolveTarget_cases (hmatched : ¬ Unmatched js conf login) :
    (∃ message, login.hosts = .error message ∧
      resolveTarget js conf login.target login.hosts = .error (fail "directory-unreachable" none none)) ∨
    (FirstFailed js conf clientKey uid login "no-address" ∧
      resolveTarget js conf login.target login.hosts = .error (fail "no-address" none none)) ∨
    ∃ m, Addressed js conf login m := by
  cases hdir : login.hosts with
  | error message => exact .inl ⟨message,rfl,rfl⟩
  | ok hosts =>
    right
    cases hmatch : matchTarget js login.target hosts conf.allowRawIPs with
    | error message => exact absurd ⟨hosts,hdir,matchTarget_error hmatch⟩ hmatched
    | ok m =>
      by_cases haddress : ∀ host, m.host = some host → (hostEndpoint js host (.int conf.defaultPort)).address ≠ none
      · exact .inr ⟨m,⟨hosts,hdir,hmatch⟩,haddress⟩
      · simp only [ne_eq, not_forall, not_not, exists_prop] at haddress
        obtain ⟨host,hhost,hnone⟩ := haddress
        refine .inl ⟨.address hdir hmatch hhost hnone,?_⟩
        simp [resolveTarget, hmatch, hhost, hnone, truthy]

theorem failed_code {err : Failure} (hmatched : ¬ Unmatched js conf login)
    (h : resolveAndConnect js conf clientKey uid login = .error err) :
    FirstFailed js conf clientKey uid login err.failReason := by
  rcases resolveTarget_cases hmatched with ⟨message,hdir,htarget⟩ | ⟨hfailed,htarget⟩ | ⟨m,haddr⟩
  · simp only [resolveAndConnect, htarget] at h
    cases h
    exact .directory hdir
  · simp only [resolveAndConnect, htarget] at h
    cases h
    exact hfailed
  · simp only [resolveAndConnect, resolveTarget_addressed haddr] at h
    cases hcred : provision conf (m.host.bind Host.slug) login.answers with
    | error err =>
      simp only [hcred] at h
      cases h
      unfold provision at hcred
      cases hpki : conf.pkiEnabled with
      | true =>
        cases hcert : login.answers.getSignedCert with
        | error message =>
          simp only [hpki, hcert, if_true] at hcred
          cases hcred
          exact .cert haddr hpki hcert
        | ok cert => simp [hpki, hcert] at hcred
      | false =>
        cases hinject : login.answers.ensureKeyInjected with
        | error message =>
          simp only [hpki, hinject, Bool.false_eq_true, if_false] at hcred
          cases hcred
          exact .inject haddr hpki hinject
        | ok justInjected => simp [hpki, hinject] at hcred
    | ok credential =>
      simp only [hcred] at h
      cases hdial : login.dialled (dialArgs clientKey uid m.host (endpointOf js conf m) credential) with
      | error message =>
        simp only [hdial] at h
        cases h
        exact .dial haddr hcred hdial
      | ok _ => simp [hdial] at h

theorem stored_code {refusal : Refusal} (hmatched : ¬ Unmatched js conf login)
    (h : runGrammar js conf clientKey uid login = .refused refusal) :
    FirstFailed js conf clientKey uid login refusal.failReason ∧ refusal.shown = shownFor refusal.failReason := by
  obtain ⟨-,err,herr,rfl⟩ := refused_iff.mp h
  exact ⟨failed_code hmatched herr,rfl⟩

theorem reported_code (hasked : login.asked = true) (hmatched : ¬ Unmatched js conf login)
    (h : FirstFailed js conf clientKey uid login code) :
    ∃ refusal, runGrammar js conf clientKey uid login = .refused refusal ∧ refusal.failReason = code := by
  have hreport (detail slug : Option String)
      (hfail : resolveAndConnect js conf clientKey uid login = .error (fail code detail slug)) (hcode : code ≠ "") :
      ∃ refusal, runGrammar js conf clientKey uid login = .refused refusal ∧ refusal.failReason = code :=
    ⟨_,runGrammar_error hasked hfail,by simp [Failure.failReason, fail, firstTruthy, truthy, hcode]⟩
  cases h with
  | directory hdir =>
    refine hreport none none ?_ (by decide)
    simp only [resolveAndConnect, resolveTarget, hdir]
  | target hno => exact absurd hno hmatched
  | address hdir hmatch hhost hnone =>
    refine hreport none none ?_ (by decide)
    simp [resolveAndConnect, resolveTarget, hdir, hmatch, hhost, hnone, truthy]
  | @inject m message haddr hpki hinject =>
    refine hreport (some message) (m.host.bind Host.slug) ?_ (by decide)
    simp only [resolveAndConnect, resolveTarget_addressed haddr, provision, hpki, hinject, Bool.false_eq_true, if_false]
  | @cert m message haddr hpki hcert =>
    refine hreport (some message) (m.host.bind Host.slug) ?_ (by decide)
    simp only [resolveAndConnect, resolveTarget_addressed haddr, provision, hpki, hcert, if_true]
  | @dial m credential message haddr hcred hdial =>
    refine hreport (some message) (m.host.bind Host.slug) ?_ (by decide)
    simp only [resolveAndConnect, resolveTarget_addressed haddr, hcred, hdial]

theorem directory_only (h : FirstFailed js conf clientKey uid login code) (hcode : code = "directory-unreachable") :
    ∃ message, login.hosts = .error message := by
  cases h with
  | directory hdir => exact ⟨_,hdir⟩
  | target => exact absurd hcode (by decide)
  | address => exact absurd hcode (by decide)
  | inject => exact absurd hcode (by decide)
  | cert => exact absurd hcode (by decide)
  | dial => exact absurd hcode (by decide)

def Heard (js : Js) (conf : Conf) (clientKey uid : String) (login : Login) : Prop :=
  ∀ code, FirstFailed js conf clientKey uid login code → login.asked = true

theorem heard_of_reported (h : Classified js conf clientKey uid login) : Heard js conf clientKey uid login := by
  intro code hfailed
  obtain ⟨refusal,hrun,-⟩ := h.reported code hfailed
  exact (refused_iff.mp hrun).1

theorem not_classified (hno : Unmatched js conf login) : ¬ Classified js conf clientKey uid login := by
  intro hclass
  have hasked := heard_of_reported hclass "no-such-target" (.target hno)
  obtain ⟨refusal,hrun,hcode⟩ := hclass.reported "no-such-target" (.target hno)
  rw [runGrammar_unmatched hasked hno] at hrun
  cases hrun
  exact absurd hcode (by decide)

theorem classified_iff (js : Js) (conf : Conf) (clientKey uid : String) (login : Login) :
    Classified js conf clientKey uid login ↔ ¬ Unmatched js conf login ∧ Heard js conf clientKey uid login := by
  constructor
  · exact fun hclass => ⟨fun hno => not_classified hno hclass,heard_of_reported hclass⟩
  · rintro ⟨hmatched,hheard⟩
    exact ⟨fun refusal h => stored_code hmatched h,fun code h => reported_code (hheard code h) hmatched h,
      fun refusal h hcode => directory_only (stored_code hmatched h).1 hcode⟩

def mistyped (asked : Bool) : Login where
  target := "nosuch"
  asked := asked
  hosts := .ok [web01]
  answers := ⟨.ok "cert",.ok true⟩
  dialled _ := .ok ()

theorem mistyped_error :
    runGrammar asciiJs {} "key" "alice" (mistyped true) = .refused ⟨"error",none,"jump-host: error\r\n"⟩ ∧
      ¬ Classified asciiJs {} "key" "alice" (mistyped true) ∧
      runGrammar asciiJs {} "key" "alice" (mistyped false) = .exited ∧
      ¬ Classified asciiJs {} "key" "alice" (mistyped false) := by
  have hno (asked : Bool) : Unmatched asciiJs {} (mistyped asked) := by
    cases asked <;> exact ⟨[web01],rfl,by decide,by decide⟩
  exact ⟨runGrammar_unmatched rfl (hno true),not_classified (hno true),rfl,not_classified (hno false)⟩

end Stages

end JumpHost.Connect
