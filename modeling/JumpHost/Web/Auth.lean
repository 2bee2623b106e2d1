import JumpHost.Models.ApiToken

namespace JumpHost.Web

open ApiToken

structure AuthConf where
  adminGroups : Option (List String) := none
  adminUsers : Option (List String) := none
  jumpAdminGroups : Option (List String) := none

structure Conf where
  auth : Option AuthConf

def Conf.adminGroups (conf : Conf) : List String := (conf.auth.bind AuthConf.adminGroups).getD []

def Conf.adminUsers (conf : Conf) : List String := (conf.auth.bind AuthConf.adminUsers).getD []

def Conf.jumpAdminGroups (conf : Conf) : List String := (conf.auth.bind AuthConf.jumpAdminGroups).getD []

structure Session where
  username : Option String
  groups : Option (List String)

structure Auth where
  checkApiToken : String → Except HttpError Token
  checkToken : Option String → Except HttpError Session

structure Request where
  authorization : Option String := none
  authToken : Option String := none
  queryToken : Option String := none

structure Identity where
  username : Option String
  groups : List String
deriving DecidableEq

def bearer (authorization : Option String) : Option String :=
  let authz := (authorization.getD "").toList
  if (authz.take 7).map Char.toLower = "bearer ".toList then some (String.ofList (authz.drop 7)) else none

def auth (service : Auth) (req : Request) : Except HttpError Identity :=
  match bearer req.authorization with
  | some raw => match service.checkApiToken raw with
      | .error error => .error error
      | .ok t => .ok ⟨some t.createdBy,[]⟩
  | none => match service.checkToken (firstTruthy [req.authToken,req.queryToken]) with
      | .error error => .error error
      | .ok session => .ok ⟨session.username,session.groups.getD []⟩

def isAdmin (conf : Conf) (req : Identity) : Bool :=
  if truthy req.username && req.username.any conf.adminUsers.contains then true
  else req.groups.any conf.adminGroups.contains

def isJumpAdmin (conf : Conf) (req : Identity) : Bool :=
  if isAdmin conf req then true else req.groups.any conf.jumpAdminGroups.contains

def adminRequired : HttpError := ⟨"Forbidden","Admin access required.",403⟩

def jumpAdminRequired : HttpError := ⟨"Forbidden","Jump admin access required.",403⟩

def requireAdmin (conf : Conf) (req : Identity) : Except HttpError Unit :=
  if isAdmin conf req then .ok () else .error adminRequired

def requireJumpAdmin (conf : Conf) (req : Identity) : Except HttpError Unit :=
  if isJumpAdmin conf req then .ok () else .error jumpAdminRequired

section BearerTokens

variable {conf : Conf} {service : Auth} {req : Request} {raw : String} {t : Token}

def Identity.NoAdmin (conf : Conf) (req : Identity) : Prop :=
  requireAdmin conf req = .error adminRequired ∧ requireJumpAdmin conf req = .error jumpAdminRequired

theorem isAdmin_bearer : isAdmin conf ⟨some t.createdBy,[]⟩ = conf.adminUsers.contains t.createdBy := by
  have htruthy : truthy (some t.createdBy) = true := by simpa [truthy] using t.owned
  simp [isAdmin, htruthy]

theorem isJumpAdmin_bearer : isJumpAdmin conf ⟨some t.createdBy,[]⟩ = conf.adminUsers.contains t.createdBy := by
  simp [isJumpAdmin, isAdmin_bearer]

theorem token_no_admin (hbearer : bearer req.authorization = some raw) (htoken : service.checkApiToken raw = .ok t) :
    ∃ identity, auth service req = .ok identity ∧ (identity.NoAdmin conf ↔ t.createdBy ∉ conf.adminUsers) := by
  refine ⟨⟨some t.createdBy,[]⟩,by simp [auth, hbearer, htoken],?_⟩
  simp only [Identity.NoAdmin, requireAdmin, requireJumpAdmin, isAdmin_bearer, isJumpAdmin_bearer,
    List.contains_iff_mem]
  by_cases hadmin : t.createdBy ∈ conf.adminUsers <;> simp [hadmin]

def secretOf (digit : Char) : String := String.ofList (List.replicate 48 digit)

def tokenBy (createdBy : String) (owned : createdBy ≠ "") : Token where
  id := "0123456789abcdef01234567"
  secretHash := secretOf '7'
  name := "cron"
  createdBy := createdBy
  createdOn := .int 0
  updatedOn := .int 0
  owned := owned

def storing (t : Token) : Auth where
  checkApiToken raw := (authenticate records (fun secret secretHash => secret == secretHash) integers 0
    (Records.empty.set t) raw).1
  checkToken _ := .error ⟨"LoginFailed","Invalid credentials, login failed.",401⟩

def withToken (t : Token) : Request := { authorization := some ("Bearer " ++ rawToken t.id t.secretHash) }

def baseConf : Conf where
  auth := some ⟨some ["app_sso_admin","app_super_admin"],some ["jumpadmin"],some ["app_jump_admin"]⟩

theorem token_no_admin_alice : ∃ identity, auth (storing (tokenBy "alice" (by decide))) (withToken
    (tokenBy "alice" (by decide))) = .ok identity ∧ identity.NoAdmin baseConf := by
  have hbearer : bearer (withToken (tokenBy "alice" (by decide))).authorization =
      some (rawToken "0123456789abcdef01234567" (secretOf '7')) := by decide +kernel
  have htoken : (storing (tokenBy "alice" (by decide))).checkApiToken
      (rawToken "0123456789abcdef01234567" (secretOf '7')) = .ok (tokenBy "alice" (by decide)) := by decide +kernel
  have halice : (tokenBy "alice" (by decide)).createdBy ∉ baseConf.adminUsers := by decide
  obtain ⟨identity,hauth,hiff⟩ := token_no_admin hbearer htoken
  exact ⟨identity,hauth,hiff.mpr halice⟩

theorem token_admin : ∃ identity, auth (storing (tokenBy "jumpadmin" (by decide)))
    (withToken (tokenBy "jumpadmin" (by decide))) = .ok identity ∧
      requireAdmin baseConf identity = .ok () ∧ requireJumpAdmin baseConf identity = .ok () ∧
      ¬ identity.NoAdmin baseConf :=
  ⟨⟨some "jumpadmin",[]⟩,by decide +kernel,by decide,by decide,fun h => absurd h.1 (by decide)⟩

end BearerTokens

end JumpHost.Web
