import JumpHost.Ssh.Keys
import JumpHost.Ssh.UsernameGrammar

namespace JumpHost.Auth

open Keys UsernameGrammar

structure Conf where
  passwordAuth : String := "local"
  allowRawIPs : Bool := false
  maxSessions : Nat := 100
  defaultPort : Int := 22
  pkiEnabled : Bool := false

def stripMapped (ip : String) : List Char :=
  if "::ffff:".toList.isPrefixOf ip.toList then ip.toList.drop 7 else ip.toList

-- /^172\.(1[6-9]|2\d|3[01])\./
def private172 : List Char → Bool
  | '1' :: '7' :: '2' :: '.' :: a :: b :: '.' :: _ =>
      (a == '1' && '6' ≤ b && b ≤ '9') || (a == '2' && isDigit b) ||
        (a == '3' && (b == '0' || b == '1'))
  | _ => false

def isLocalAddr : Option String → Bool
  | none => false
  | some ip =>
      if ip = "" then false
      else
        let a := stripMapped ip
        a == "127.0.0.1".toList || a == "::1".toList || "10.".toList.isPrefixOf a ||
          "192.168.".toList.isPrefixOf a || private172 a

def passwordAllowed (conf : Conf) (clientIp : Option String) : Bool :=
  let mode := if conf.passwordAuth = "" then "local" else conf.passwordAuth
  if mode = "all" then true
  else if mode = "off" then false
  else isLocalAddr clientIp

structure State where
  clientIp : Option String
  uid : Option String := none
  target : Option String := none
  user : Option User := none
  authMethod : Option String := none
deriving DecidableEq

inductive Method where
  | publickey (key : CtxKey) (blob : Blob) (signature : Option Blob) (hashAlgo : Option String)
  | password (password : String)
  | other (name : String)
deriving DecidableEq

structure Ctx where
  username : String
  method : Method
deriving DecidableEq

-- what the user directory answers during one attempt; `.error` is a rejected promise
structure Directory where
  getUser : String → Except String (Option User)
  checkPassword : String → String → Except String Bool

structure Attempt where
  ctx : Ctx
  directory : Directory

inductive Decision where
  | accept
  | reject (methods : List String)
deriving DecidableEq, Repr

section Handler

variable {parseKey : String → Option PublicKey} (keys : JumpKeys parseKey)
  (verify : PublicKey → Blob → Blob → Option String → Bool) (conf : Conf)

def handleAuth (attempt : Attempt) (state : State) : Decision × State :=
  match parseUsername attempt.ctx.username with
  | .error _ => (.reject ["publickey","password"],state)
  | .ok parsed =>
    let state := { state with uid := some parsed.uid, target := parsed.target }
    match attempt.directory.getUser parsed.uid with
    | .error _ => (.reject ["publickey","password"],state)
    | .ok none => (.reject ["publickey","password"],state)
    | .ok (some user) =>
      let state := { state with user := some user }
      match attempt.ctx.method with
      | .publickey ctxKey blob signature hashAlgo =>
          match userKeyMatches parseKey keys.OWN_KEY_BLOB user ctxKey with
          | none => (.reject ["publickey","password"],state)
          | some key =>
              -- two-phase: a probe carries no signature to verify
              if signature.any (fun sig => !verify key blob sig hashAlgo) then (.reject [],state)
              else (.accept,{ state with authMethod := some "publickey" })
      | .password password =>
          if !passwordAllowed conf state.clientIp then (.reject ["publickey"],state)
          else match attempt.directory.checkPassword user.dn password with
            | .error _ => (.reject [],state)
            | .ok false => (.reject ["publickey","password"],state)
            | .ok true => (.accept,{ state with authMethod := some "password" })
      | .other _ => (.reject ["publickey","password"],state)

def Method.isProbe : Method → Bool
  | .publickey _ _ none _ => true
  | _ => false

def Method.name : Method → String
  | .publickey .. => "publickey"
  | .password _ => "password"
  | .other name => name

structure Inbound where
  state : State
  accepted : Option Attempt

def Inbound.start (clientIp : Option String) : Inbound := ⟨{ clientIp },none⟩

-- ssh2 emits one attempt at a time and none after the connection is authenticated
def step (inbound : Inbound) (attempt : Attempt) : Option Inbound :=
  if inbound.accepted.isSome then none
  else
    let (decision,state) := handleAuth keys verify conf attempt inbound.state
    some ⟨state,if decision = .accept ∧ attempt.ctx.method.isProbe = false
      then some attempt else none⟩

inductive Credential (clientIp : Option String) (attempt : Attempt) (user : User) : Prop
  | publickey (ctxKey : CtxKey) (blob signature : Blob) (hashAlgo : Option String)
      (key : PublicKey) (hm : attempt.ctx.method = .publickey ctxKey blob (some signature) hashAlgo)
      (listed : ∃ line ∈ user.sshPublicKeys, parseKey line = some key)
      (foreign : key.blob ≠ keys.key.blob)
      (offered : key.type = ctxKey.algo ∧ key.blob = ctxKey.data)
      (verified : verify key blob signature hashAlgo = true)
  | password (password : String) (hm : attempt.ctx.method = .password password)
      (allowed : passwordAllowed conf clientIp = true)
      (checked : attempt.directory.checkPassword user.dn password = .ok true)

structure Bound (clientIp : Option String) (attempt : Attempt) (state : State) (parsed : Parsed)
    (user : User) : Prop where
  named : parseUsername attempt.ctx.username = .ok parsed
  found : attempt.directory.getUser parsed.uid = .ok (some user)
  credential : Credential keys verify conf clientIp attempt user
  state : state = ⟨clientIp,some parsed.uid,parsed.target,some user,some attempt.ctx.method.name⟩

def Sound (clientIp : Option String) (attempts : List Attempt) (inbound : Inbound) : Prop :=
  inbound.state.clientIp = clientIp ∧ ∀ a, inbound.accepted = some a → a ∈ attempts ∧
    ∃ parsed user, Bound keys verify conf clientIp a inbound.state parsed user

theorem handleAuth_clientIp (attempt : Attempt) (state : State) :
    (handleAuth keys verify conf attempt state).2.clientIp = state.clientIp := by
  unfold handleAuth
  grind

variable {keys verify conf}

theorem handleAuth_accept {attempt : Attempt} {state state' : State}
    (h : handleAuth keys verify conf attempt state = (.accept,state'))
    (hp : attempt.ctx.method.isProbe = false) :
    ∃ parsed user, Bound keys verify conf state.clientIp attempt state' parsed user := by
  unfold handleAuth at h
  split at h
  · simp at h
  · next parsed hname =>
    dsimp only at h
    split at h
    · simp at h
    · simp at h
    · next user huser =>
      refine ⟨parsed,user,?_⟩
      split at h
      · next ctxKey blob signature hashAlgo hmethod =>
        split at h
        · simp at h
        · next key hkey =>
          split at h
          · simp at h
          · next hv =>
            cases signature with
            | none => simp [hmethod, Method.isProbe] at hp
            | some signature =>
              have hm := matchLines_sound hkey
              refine ⟨hname,huser,.publickey ctxKey blob signature hashAlgo key hmethod hm.listed
                (fun he => hm.foreign (by simp [he])) ⟨hm.algo,hm.data⟩ (by simpa using hv),?_⟩
              simpa [Method.name, hmethod] using h.symm
      · next password hmethod =>
        split at h
        · simp at h
        · next ha =>
          split at h
          · simp at h
          · simp at h
          · next hc =>
            refine ⟨hname,huser,.password password hmethod (by simpa using ha) hc,?_⟩
            simpa [Method.name, hmethod] using h.symm
      · simp at h

theorem step_spec {inbound inbound' : Inbound} {attempt : Attempt}
    (h : step keys verify conf inbound attempt = some inbound') :
    inbound'.state.clientIp = inbound.state.clientIp ∧
      ∀ a, inbound'.accepted = some a → a = attempt ∧
        ∃ parsed user, Bound keys verify conf inbound.state.clientIp a inbound'.state parsed user := by
  unfold step at h
  split at h
  · simp at h
  · cases hd : handleAuth keys verify conf attempt inbound.state with
    | mk decision state =>
      simp only [hd, Option.some.injEq] at h
      subst h
      have hip : state.clientIp = inbound.state.clientIp := by
        simpa only [hd] using handleAuth_clientIp keys verify conf attempt inbound.state
      refine ⟨hip,?_⟩
      intro a ha
      split at ha
      · next hacc =>
        obtain ⟨rfl,hp⟩ := hacc
        cases ha
        exact ⟨rfl,handleAuth_accept hd hp⟩
      · simp at ha

theorem sound_step (clientIp : Option String) (attempts : List Attempt) :
    Run.Preserves (step keys verify conf) (fun _ a => a ∈ attempts)
      (Sound keys verify conf clientIp attempts) := by
  intro inbound a inbound' hs ha h
  obtain ⟨hip,hacc⟩ := step_spec h
  refine ⟨hip.trans hs.1,?_⟩
  intro b hb
  obtain ⟨rfl,parsed,user,hbound⟩ := hacc b hb
  exact ⟨ha,parsed,user,hs.1 ▸ hbound⟩

theorem authenticated_sound (keys : JumpKeys parseKey)
    (verify : PublicKey → Blob → Blob → Option String → Bool) (conf : Conf)
    (clientIp : Option String) (attempts : List Attempt) (inbound : Inbound) (a : Attempt)
    (hrun : Run.exec (step keys verify conf) (.start clientIp) attempts = some inbound)
    (hacc : inbound.accepted = some a) :
    a ∈ attempts ∧ ∃ parsed user,
      parseUsername a.ctx.username = .ok parsed ∧
      a.directory.getUser parsed.uid = .ok (some user) ∧
      Credential keys verify conf clientIp a user ∧
      inbound.state = ⟨clientIp,some parsed.uid,parsed.target,some user,some a.ctx.method.name⟩ := by
  have hstart : Sound keys verify conf clientIp attempts (.start clientIp) :=
    ⟨rfl,by simp [Inbound.start]⟩
  have hsound := Run.invariant_of_mem (sound_step clientIp attempts) hstart hrun
  obtain ⟨hmem,parsed,user,hbound⟩ := hsound.2 a hacc
  exact ⟨hmem,parsed,user,hbound.named,hbound.found,hbound.credential,hbound.state⟩

end Handler

section TwoUsers

def laptopKey : PublicKey := ⟨"ssh-ed25519",[7]⟩

def demoParseKey (line : String) : Option PublicKey :=
  if line = "ssh-ed25519 AAAAA jump-host@a" then some ⟨"ssh-ed25519",[1]⟩
  else if line = "ssh-ed25519 AAAAH alice@laptop" then some laptopKey
  else none

def demoLine : String := "ssh-ed25519 AAAAA jump-host@a"

theorem demoLine_nonempty : demoLine ≠ "" := by decide

theorem demoLine_parses : demoParseKey demoLine = some ⟨"ssh-ed25519",[1]⟩ := by decide

def demoKeys : JumpKeys demoParseKey where
  clientKey := "PEM a"
  publicLine := demoLine
  key := ⟨"ssh-ed25519",[1]⟩
  nonempty := demoLine_nonempty
  parses := demoLine_parses

def demoVerify (key : PublicKey) (_ signature : Blob) (_ : Option String) : Bool :=
  signature == key.blob

def demoDirectory : Directory where
  getUser uid :=
    if uid = "alice" then .ok (some ⟨"uid=alice","alice",["ssh-ed25519 AAAAH alice@laptop"]⟩)
    else if uid = "bob" then .ok (some ⟨"uid=bob","bob",[]⟩)
    else .error "no such entry"
  checkPassword _ _ := .ok false

def bobGuess : Attempt := ⟨⟨"bob_-_db01",.password "hunter2"⟩,demoDirectory⟩

def aliceProbe : Attempt :=
  ⟨⟨"alice",.publickey ⟨"ssh-ed25519",[7]⟩ [0] none none⟩,demoDirectory⟩

def aliceSigned : Attempt :=
  ⟨⟨"alice_-_web01",.publickey ⟨"ssh-ed25519",[7]⟩ [0] (some [7]) none⟩,demoDirectory⟩

theorem authenticated_sound_after_guess :
    ∃ inbound, Run.exec (step demoKeys demoVerify {}) (.start (some "10.0.0.9"))
        [bobGuess,aliceProbe,aliceSigned] = some inbound ∧
      inbound.accepted.map (·.ctx) = some aliceSigned.ctx ∧
      inbound.state.uid = some "alice" ∧ inbound.state.target = some "web01" := by
  refine ⟨_,rfl,rfl,?_⟩
  obtain ⟨_,parsed,user,hname,_,_,hstate⟩ := authenticated_sound demoKeys demoVerify {}
    (some "10.0.0.9") [bobGuess,aliceProbe,aliceSigned] _ aliceSigned rfl rfl
  have hp : parsed = ⟨"alice",some "web01"⟩ := by
    have h : parseUsername aliceSigned.ctx.username = .ok ⟨"alice",some "web01"⟩ := rfl
    rw [h] at hname
    exact (Except.ok.inj hname).symm
  subst hp
  rw [hstate]
  exact ⟨rfl,rfl⟩

end TwoUsers

end JumpHost.Auth
