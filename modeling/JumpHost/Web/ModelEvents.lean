import JumpHost.Library.Run
import JumpHost.Web.Auth

namespace JumpHost.Web.ModelEvents

open ApiToken

section Gates

abbrev Record : Type := String → Option String

structure Ctx where
  username : Option String
  groups : List String
  isAdmin : Bool

def isJumpAdmin (conf : Conf) (ctx : Ctx) : Bool :=
  if ctx.isAdmin then true
  else ctx.groups.any fun g => conf.adminGroups.contains g || conf.jumpAdminGroups.contains g

abbrev Gate : Type := Ctx → Option Record → Option String → Bool

def readApiToken : Gate := fun ctx record _ =>
  let self := ctx.username
  let owner := record.bind fun fields => fields "created_by"
  truthy self && truthy owner && owner == self

def readAuditEvent (conf : Conf) : Gate := fun ctx _ _ => isJumpAdmin conf ctx

def READERS (conf : Conf) (model : String) : Option Gate :=
  if model = "ApiToken" then some readApiToken
  else if model = "AuditEvent" then some (readAuditEvent conf)
  else none

def LIVE_MODELS (conf : Conf) (model : String) : Bool := (READERS conf model).isSome

structure Topic where
  model : String
  action : String
  pk : Option String
deriving DecidableEq

def parseTopic (topic : String) : Option Topic :=
  match topic.toList.splitOn ':' with
  | kind :: model :: action :: pk =>
      if kind ≠ "model".toList then none
      else some ⟨String.ofList model,String.ofList action,
        if pk = [] then none else some (String.ofList ([':'].intercalate pk))⟩
  | _ => none

def topicOf (model action : String) : String := "model:" ++ model ++ ":" ++ action

end Gates

section Bus

structure User where
  username : Option String := none
  uid : Option String := none

structure Socket where
  user : Option User
  groups : List String := []
  isAdmin : Bool := false

def contextForSocket (socket : Socket) : Ctx where
  username := socket.user.bind fun user => firstTruthy [user.username,user.uid]
  groups := socket.groups
  isAdmin := socket.isAdmin

structure Payload where
  model : String
  action : String
  pk : Option String
  data : Option Record

-- one `P2PSub` message to one socket
structure Emission where
  socket : String
  topic : String
  data : Payload

structure Server (σ : Type) where
  store : σ
  sockets : OrdMap String Socket
  emissions : List Emission
  recorded : List Payload

variable {σ : Type} (conf : Conf)

def listener (sockets : OrdMap String Socket) (topic : String) (data : Payload) : List Emission :=
  match parseTopic topic with
  | none => []
  | some event => match READERS conf event.model with
      | none => []
      | some canRead =>
          (sockets.entries.filter fun e => e.2.user.isSome && canRead (contextForSocket e.2) data.data event.pk).map
            fun e => ⟨e.1,topic,data⟩

def publish (s : Server σ) (topic : String) (data : Payload) : Server σ :=
  if "model:".toList.isPrefixOf topic.toList then
    { s with emissions := s.emissions ++ listener conf s.sockets topic data }
  else s

def liveBus (s : Server σ) (topic : String) (data : Payload) : Server σ :=
  if !LIVE_MODELS conf data.model then s
  else { publish conf s topic data with recorded := s.recorded ++ [data] }

-- a delete never carries a body
def emit (s : Server σ) (model action : String) (pk : Option String) (record : Option Record) : Server σ :=
  liveBus conf s (topicOf model action) ⟨model,action,pk,if action = "delete" then none else record⟩

variable (db : Table σ)

def actions : List String := ["create","remove"]

def toJSON (t : Token) : Record := fun field =>
  if field = "id" then some t.id
  else if field = "name" then some t.name
  else if field = "description" then some t.description
  else if field = "created_by" then some t.createdBy
  else if field = "created_on" then some t.createdOn.text
  else if field = "updated_on" then some t.updatedOn.text
  else if field = "expires_at" then some t.expiresAt.text
  else if field = "last_used_on" then some t.lastUsedOn.text
  else if field = "is_valid" then some (toString t.isValid)
  else none

def create (s : Server σ) (data : Data) : Except HttpError Token × Server σ :=
  match db.create s.store data with
  | (.error error,store) => (.error error,{ s with store := store })
  | (.ok t,store) =>
      (.ok t,if actions.contains "create" then
          emit conf { s with store := store } "ApiToken" "create" (some t.id) (some (toJSON t))
        else { s with store := store })

def update (s : Server σ) (t : Token) (data : Data) : Except HttpError Token × Server σ :=
  match db.update s.store t data with
  | (.error error,store) => (.error error,{ s with store := store })
  | (.ok t',store) =>
      (.ok t',if actions.contains "update" then
          emit conf { s with store := store } "ApiToken" "update" (some t.id) (some (toJSON t'))
        else { s with store := store })

def remove (s : Server σ) (t : Token) : Except HttpError Unit × Server σ :=
  match db.remove s.store t with
  | (.error error,store) => (.error error,{ s with store := store })
  | (.ok _,store) =>
      (.ok (),if actions.contains "remove" then emit conf { s with store := store } "ApiToken" "delete" (some t.id) none
        else { s with store := store })

inductive Act where
  | create (data : Data)
  | update (t : Token) (data : Data)
  | remove (t : Token)
  | audit (action id : String) (event : Record)
  | connect (id : String) (socket : Socket)
  | disconnect (id : String)

def act (s : Server σ) : Act → Server σ
  | .create data => (create conf db s data).2
  | .update t data => (update conf db s t data).2
  | .remove t => (remove conf db s t).2
  | .audit action id event => emit conf s "AuditEvent" action (some id) (some event)
  | .connect id socket => { s with sockets := s.sockets.set id socket }
  | .disconnect id => { s with sockets := s.sockets.delete id }

def step (s : Server σ) (a : Act) : Option (Server σ) := some (act conf db s a)

end Bus

section Topics

variable {conf : Conf} {model action : String}

theorem splitOn_topicOf (hmodel : ':' ∉ model.toList) (haction : ':' ∉ action.toList) :
    (topicOf model action).toList.splitOn ':' = ["model".toList,model.toList,action.toList] := by
  have htext : (topicOf model action).toList = "model".toList ++ ':' :: (model.toList ++ ':' :: action.toList) := by
    simp [topicOf]
  rw [htext, List.splitOn_append_cons_self_of_not_mem (by decide), List.splitOn_append_cons_self_of_not_mem hmodel,
    List.splitOn_eq_singleton haction]

theorem parseTopic_topicOf (hmodel : ':' ∉ model.toList) (haction : ':' ∉ action.toList) :
    parseTopic (topicOf model action) = some ⟨model,action,none⟩ := by
  simp [parseTopic, splitOn_topicOf hmodel haction]

theorem emissions_emit {σ : Type} (s : Server σ) {gate : Gate} (hgate : READERS conf model = some gate)
    (hmodel : ':' ∉ model.toList) (haction : ':' ∉ action.toList) (pk : Option String) (record : Option Record) :
    (emit conf s model action pk record).emissions = s.emissions ++
      (s.sockets.entries.filter fun e => e.2.user.isSome && gate (contextForSocket e.2)
        (if action = "delete" then none else record) none).map
        fun e => ⟨e.1,topicOf model action,⟨model,action,pk,if action = "delete" then none else record⟩⟩ := by
  have hpattern : "model:".toList.isPrefixOf (topicOf model action).toList = true := by simp [topicOf]
  have hlive : LIVE_MODELS conf model = true := by simp [LIVE_MODELS, hgate]
  simp only [emit, liveBus, hlive, Bool.not_true, Bool.false_eq_true, if_false, publish, hpattern, if_true, listener,
    parseTopic_topicOf hmodel haction, hgate]

end Topics

section Owners

variable {σ : Type} {conf : Conf} {db : Table σ} {s : Server σ} {store : σ} {t : Token}

def Socket.isOf (socket : Socket) (username : String) : Bool := (contextForSocket socket).username == some username

def Announced (before after : Server σ) (action : String) (t : Token) : Prop :=
  ∃ new, after.emissions = before.emissions ++ new ∧
    (∀ e ∈ new, e.topic = topicOf "ApiToken" action ∧ e.data.pk = some t.id) ∧
    ∀ id, new.countP (fun e => e.socket == id) =
      ((before.sockets.get? id).any fun socket => socket.isOf t.createdBy).toNat

theorem readApiToken_toJSON (socket : Socket) (pk : Option String) :
    (socket.user.isSome && readApiToken (contextForSocket socket) (some (toJSON t)) pk) = socket.isOf t.createdBy := by
  have howner : toJSON t "created_by" = some t.createdBy := rfl
  rw [Bool.eq_iff_iff]
  simp only [readApiToken, Socket.isOf, Option.bind_some, howner, Bool.and_eq_true, beq_iff_eq]
  constructor
  · rintro ⟨-,-,heq⟩
    exact heq.symm
  · intro heq
    have hsome : socket.user.isSome = true := by
      cases huser : socket.user with
      | none => simp [contextForSocket, huser] at heq
      | some user => rfl
    rw [heq]
    exact ⟨hsome,⟨by simpa [truthy] using t.owned,by simpa [truthy] using t.owned⟩,rfl⟩

theorem readApiToken_none (ctx : Ctx) (pk : Option String) : readApiToken ctx none pk = false := by
  simp [readApiToken, truthy]

theorem announced_create (t : Token) :
    Announced s (emit conf { s with store := store } "ApiToken" "create" (some t.id) (some (toJSON t))) "create" t := by
  refine ⟨_,emissions_emit _ rfl (by decide) (by decide) _ _,fun e he => ?_,fun id => ?_⟩
  · obtain ⟨entry,-,rfl⟩ := List.mem_map.mp he
    exact ⟨rfl,rfl⟩
  · have hbody : (if "create" = "delete" then none else some (toJSON t)) = some (toJSON t) := if_neg (by decide)
    rw [List.countP_map]
    simp only [Function.comp_def, hbody, readApiToken_toJSON]
    exact OrdMap.countP_filter_entries s.sockets _ id

theorem announced_remove (t : Token) :
    Announced s (emit conf { s with store := store } "ApiToken" "delete" (some t.id) none) "delete" t ↔
      ∀ id, ((s.sockets.get? id).any fun socket => socket.isOf t.createdBy) = false := by
  have hsame : (emit conf { s with store := store } "ApiToken" "delete" (some t.id) none).emissions = s.emissions := by
    rw [emissions_emit _ rfl (by decide) (by decide)]
    simp [readApiToken_none]
  constructor
  · rintro ⟨new,hnew,-,hcount⟩ id
    obtain rfl : new = [] := by simpa [hsame] using hnew
    simpa using (hcount id).symm
  · intro hnone
    exact ⟨[],by simp [hsame],by simp,fun id => by simp [hnone id]⟩

def Notified (conf : Conf) (db : Table σ) (s : Server σ) : Act → Prop
  | .create data => ∀ t, (create conf db s data).1 = .ok t → Announced s (create conf db s data).2 "create" t
  | .remove t => (remove conf db s t).1 = .ok () → Announced s (remove conf db s t).2 "delete" t
  | _ => True

def Unwatched (db : Table σ) (s : Server σ) : Act → Prop
  | .remove t => (db.remove s.store t).1 = .ok () →
      ∀ id, ((s.sockets.get? id).any fun socket => socket.isOf t.createdBy) = false
  | _ => True

theorem notified_create (data : Data) : Notified conf db s (.create data) := by
  intro t ht
  unfold create at ht ⊢
  split at ht
  · cases ht
  · next t' store hcreate =>
    obtain rfl := Except.ok.inj ht
    exact announced_create t'

theorem notified_remove (t : Token) : Notified conf db s (.remove t) ↔ Unwatched db s (.remove t) := by
  change ((remove conf db s t).1 = .ok () → Announced s (remove conf db s t).2 "delete" t) ↔
    ((db.remove s.store t).1 = .ok () → ∀ id, ((s.sockets.get? id).any fun socket => socket.isOf t.createdBy) = false)
  unfold remove
  obtain ⟨result,store⟩ := db.remove s.store t
  cases result with
  | error error => simp
  | ok _ => exact imp_congr_right fun _ => announced_remove t

theorem notified_iff (conf : Conf) (db : Table σ) (s : Server σ) (a : Act) :
    Notified conf db s a ↔ Unwatched db s a := by
  cases a with
  | create data => exact ⟨fun _ => trivial,fun _ => notified_create data⟩
  | remove t => exact notified_remove t
  | update t data => exact Iff.rfl
  | audit action id event => exact Iff.rfl
  | connect id socket => exact Iff.rfl
  | disconnect id => exact Iff.rfl

theorem token_events (conf : Conf) (db : Table σ) (s : Server σ) (acts : List Act) :
    Run.Along (step conf db) (Notified conf db) s acts ↔ Run.Along (step conf db) (Unwatched db) s acts :=
  Run.along_iff (notified_iff conf db) s acts

def aliceSocket : Socket where
  user := some ⟨some "alice",none⟩

def watching : Server Records := ⟨.empty,OrdMap.empty.set "s1" aliceSocket,[],[]⟩

def issued : Data where
  id := some "0123456789abcdef01234567"
  name := some ⟨"cron",.nan,true,false⟩
  createdBy := some "alice"

theorem removal_unheard : ¬ Run.Along (step baseConf records) (Notified baseConf records) watching
    [.create issued,.remove (tokenBy "alice" (by decide))] := by
  rintro ⟨-,hremove,-⟩
  exact absurd ((notified_remove _).mp hremove rfl "s1") (by decide)

end Owners

end JumpHost.Web.ModelEvents
