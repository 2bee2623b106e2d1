import JumpHost.Web.Activity

namespace JumpHost.Web.AuditDoors

open ApiToken ModelEvents Activity

section Doors

structure SessionToken where
  user : User
  groupsArray : Option (List String) := none

structure Sessions where
  checkToken : Option String → Except HttpError SessionToken
  login : HttpError

def SessionToken.session (token : SessionToken) : Session := ⟨token.user.username,token.groupsArray⟩

def SessionToken.groups (token : SessionToken) : List String := token.groupsArray.getD []

def SessionToken.request (token : SessionToken) : Activity.Request := ⟨some token.user,token.groups⟩

def SessionToken.identity (token : SessionToken) : Identity := ⟨token.user.username,token.groups⟩

variable (conf : Conf) (service : Sessions) (checkApiToken : String → Except HttpError Token)

def Sessions.auth : Auth where
  checkApiToken := checkApiToken
  checkToken tokStr := (service.checkToken tokStr).map SessionToken.session

-- `socket.handshake.auth.token`
def authIO (tok : Option String) : Except HttpError Socket :=
  if truthy tok then
    match service.checkToken tok with
    | .error error => .error error
    | .ok token =>
        let groups := token.groupsArray.getD []
        .ok ⟨some token.user,groups,isAdmin conf ⟨token.user.username,groups⟩⟩
  else .error service.login

-- `router.use('/', middleware.auth, middleware.requireJumpAdmin, require('./jump'))`
def jumpRoutes {α : Type} (req : Web.Request) (route : Except HttpError α) : Except HttpError α :=
  match auth (service.auth checkApiToken) req with
  | .error error => .error error
  | .ok identity => match requireJumpAdmin conf identity with
      | .error error => .error error
      | .ok _ => route

end Doors

section Grant

variable {conf : Conf} {username : Option String} {groups : List String}

def MayAudit (conf : Conf) (username : Option String) (groups : List String) : Prop :=
  (∃ name ≠ "", username = some name ∧ name ∈ conf.adminUsers) ∨
    ∃ g ∈ groups, g ∈ conf.adminGroups ∨ g ∈ conf.jumpAdminGroups

theorem isAdmin_iff : isAdmin conf ⟨username,groups⟩ = true ↔
    (∃ name ≠ "", username = some name ∧ name ∈ conf.adminUsers) ∨ ∃ g ∈ groups, g ∈ conf.adminGroups := by
  cases username with
  | none => simp [isAdmin, truthy]
  | some name => simp [isAdmin, truthy]

theorem mayAudit_iff : MayAudit conf username groups ↔
    isAdmin conf ⟨username,groups⟩ = true ∨ ∃ g ∈ groups, g ∈ conf.jumpAdminGroups := by
  have hgroups : (∃ g ∈ groups, g ∈ conf.adminGroups ∨ g ∈ conf.jumpAdminGroups) ↔
      (∃ g ∈ groups, g ∈ conf.adminGroups) ∨ ∃ g ∈ groups, g ∈ conf.jumpAdminGroups := by
    simp only [and_or_left, exists_or]
  rw [MayAudit, hgroups, ← or_assoc, isAdmin_iff]

theorem isJumpAdmin_iff : Web.isJumpAdmin conf ⟨username,groups⟩ = true ↔ MayAudit conf username groups := by
  rw [mayAudit_iff, Web.isJumpAdmin]
  split
  · next hadmin => simp only [hadmin, true_or]
  · next hadmin => simp [hadmin]

theorem readAuditEvent_iff {ctx : Ctx} (hadmin : ctx.isAdmin = isAdmin conf ⟨username,ctx.groups⟩)
    (record : Option Record) (pk : Option String) :
    readAuditEvent conf ctx record pk = true ↔ MayAudit conf username ctx.groups := by
  rw [readAuditEvent, ModelEvents.isJumpAdmin, hadmin]
  split
  · next hyes => simp only [mayAudit_iff, hyes, true_or]
  · next hno =>
    have hnone : ¬ ∃ g ∈ ctx.groups, g ∈ conf.adminGroups := fun h => hno (isAdmin_iff.mpr (.inr h))
    rw [mayAudit_iff, or_iff_right hno, List.any_eq_true]
    refine exists_congr fun g => and_congr_right fun hg => ?_
    have hnot : g ∉ conf.adminGroups := fun h => hnone ⟨g,hg,h⟩
    simp [hnot]

end Grant

section Gates

variable {conf : Conf} {service : Sessions} {checkApiToken : String → Except HttpError Token} {req : Web.Request}
  {raw : String} {token : SessionToken} {event : Event}

def SessionToken.socket (conf : Conf) (token : SessionToken) : Socket :=
  ⟨some token.user,token.groups,isAdmin conf token.identity⟩

def SessionToken.allowed (conf : Conf) (token : SessionToken) : Bool :=
  (requireJumpAdmin conf token.identity).isOk

theorem truthy_first {texts : List (Option String)} (h : firstTruthy texts = some raw) : truthy (some raw) = true := by
  induction texts with
  | nil => cases h
  | cons text texts ih =>
    rw [firstTruthy] at h
    split at h
    · next htext => exact h ▸ htext
    · exact ih h

theorem authIO_session (hraw : truthy (some raw) = true) (htoken : service.checkToken (some raw) = .ok token) :
    authIO conf service (some raw) = .ok (token.socket conf) := by
  unfold authIO
  rw [if_pos hraw, htoken]
  rfl

theorem auth_session (hbearer : bearer req.authorization = none)
    (hreq : firstTruthy [req.authToken,req.queryToken] = some raw)
    (htoken : service.checkToken (some raw) = .ok token) :
    auth (service.auth checkApiToken) req = .ok token.identity := by
  simp only [auth, hbearer, hreq, Sessions.auth, htoken, Except.map]
  rfl

theorem allowed_eq : token.allowed conf = Web.isJumpAdmin conf token.identity := by
  rw [SessionToken.allowed, requireJumpAdmin]
  cases Web.isJumpAdmin conf token.identity with
  | false => rfl
  | true => rfl

theorem allowed_iff : token.allowed conf = true ↔ MayAudit conf token.user.username token.groups := by
  rw [allowed_eq]
  exact isJumpAdmin_iff

theorem readAuditEvent_socket (record : Option Record) (pk : Option String) :
    readAuditEvent conf (contextForSocket (token.socket conf)) record pk = token.allowed conf := by
  rw [Bool.eq_iff_iff, allowed_iff]
  exact readAuditEvent_iff rfl record pk

theorem visibleTo_request (haudit : event.model = "AuditEvent") :
    visibleTo conf (contextForRequest conf token.request) event = token.allowed conf := by
  have hgate : READERS conf event.model = some (readAuditEvent conf) := by
    rw [haudit]
    rfl
  rw [visibleTo, hgate, Bool.eq_iff_iff, allowed_iff]
  exact readAuditEvent_iff rfl _ _

theorem emit_audit {σ : Type} {s : Server σ} {id action : String} (hid : s.sockets.get? id = some (token.socket conf))
    (haction : ':' ∉ action.toList) (pk : Option String) (record : Option Record) :
    ∃ new, (emit conf s "AuditEvent" action pk record).emissions = s.emissions ++ new ∧
      new.countP (fun e => e.socket == id) = (token.allowed conf).toNat := by
  refine ⟨_,emissions_emit s rfl (by decide) haction pk record,?_⟩
  rw [List.countP_map]
  refine (OrdMap.countP_filter_entries s.sockets _ id).trans ?_
  rw [hid, Option.any_some, readAuditEvent_socket]
  rfl

theorem mem_results {doubles : Doubles} {rows : List Event} {seen : Option String → Except HttpError Value}
    (haudit : event.model = "AuditEvent") : event ∈ (get conf doubles rows seen token.request).results ↔
      event ∈ recent rows FEED_LIMIT ∧ token.allowed conf = true := by
  have hresults : (get conf doubles rows seen token.request).results =
      (recent rows FEED_LIMIT).filter (visibleTo conf (contextForRequest conf token.request)) := rfl
  rw [hresults, List.mem_filter, visibleTo_request haudit]

theorem jumpRoutes_session {α : Type} (hauth : auth (service.auth checkApiToken) req = .ok token.identity)
    (route : Except HttpError α) : jumpRoutes conf service checkApiToken req route =
      if token.allowed conf then route else .error jumpAdminRequired := by
  simp only [jumpRoutes, hauth, allowed_eq, requireJumpAdmin]
  cases Web.isJumpAdmin conf token.identity with
  | false => rfl
  | true => rfl

structure OneGate (conf : Conf) (service : Sessions) (checkApiToken : String → Except HttpError Token)
    (req : Web.Request) (raw : String) (token : SessionToken) : Prop where
  handshake : authIO conf service (some raw) = .ok (token.socket conf)
  request : auth (service.auth checkApiToken) req = .ok token.identity
  gates : ∀ record pk event, event.model = "AuditEvent" →
    readAuditEvent conf (contextForSocket (token.socket conf)) record pk =
        visibleTo conf (contextForRequest conf token.request) event ∧
      visibleTo conf (contextForRequest conf token.request) event = (requireJumpAdmin conf token.identity).isOk
  grant : token.allowed conf = true ↔ MayAudit conf token.user.username token.groups
  live : ∀ {σ : Type} (s : Server σ) id, s.sockets.get? id = some (token.socket conf) →
    ∀ action ∈ ["create","update"], ∀ pk record, ∃ new,
      (emit conf s "AuditEvent" action pk record).emissions = s.emissions ++ new ∧
        new.countP (fun e => e.socket == id) = (token.allowed conf).toNat
  replayed : ∀ doubles rows seen event, event.model = "AuditEvent" →
    (event ∈ (get conf doubles rows seen token.request).results ↔
      event ∈ recent rows FEED_LIMIT ∧ token.allowed conf = true)
  served : ∀ {α : Type} (route : Except HttpError α), jumpRoutes conf service checkApiToken req route =
    if token.allowed conf then route else .error jumpAdminRequired

theorem one_audit_gate (conf : Conf) (service : Sessions) (checkApiToken : String → Except HttpError Token)
    (req : Web.Request) (raw : String) (token : SessionToken) (hbearer : bearer req.authorization = none)
    (hreq : firstTruthy [req.authToken,req.queryToken] = some raw)
    (htoken : service.checkToken (some raw) = .ok token) : OneGate conf service checkApiToken req raw token := by
  have hauth : auth (service.auth checkApiToken) req = .ok token.identity := auth_session hbearer hreq htoken
  refine ⟨authIO_session (truthy_first hreq) htoken,hauth,fun record pk event haudit => ?_,allowed_iff,?_,?_,?_⟩
  · rw [readAuditEvent_socket, visibleTo_request haudit]
    exact ⟨rfl,rfl⟩
  · intro σ s id hid action haction pk record
    have hcolon : ':' ∉ action.toList := by
      rcases List.mem_pair.mp haction with rfl | rfl
      · decide
      · decide
    exact emit_audit hid hcolon pk record
  · exact fun doubles rows seen event haudit => mem_results haudit
  · exact fun route => jumpRoutes_session hauth route

def carol : SessionToken := ⟨⟨some "carol",none⟩,some ["staff","app_jump_admin"]⟩

def carolsLogin : String := "6f1c2b1e-0c0f-4b39-9f52-7d0c5f0e8a11"

def loggedIn : Sessions where
  checkToken tokStr := if tokStr = some carolsLogin then .ok carol else .error notFound
  login := ⟨"LoginFailed","Invalid credentials, login failed.",401⟩

theorem one_audit_gate_carol : carol.allowed baseConf = true ∧
    OneGate baseConf loggedIn (fun _ => .error notFound) { authToken := some carolsLogin } carolsLogin carol :=
  ⟨by decide,one_audit_gate baseConf loggedIn _ _ carolsLogin carol (by decide) (by decide) rfl⟩

end Gates

end JumpHost.Web.AuditDoors
