import JumpHost.Library.Run
import JumpHost.Web.Auth

namespace JumpHost.Web.TokenRoutes

open ApiToken

section Routes

abbrev Body : Type := String → Value

def given (v : Value) : Option Value := if v = .undefined then none else some v

inductive Route where
  | list
  | create (body : Body) (id secret : String)
  | read (id : String)
  | update (id : String) (body : Body)
  | delete (id : String)
  | rotate (id secret : String)

structure Call where
  username : String
  now : Int
  route : Route

structure Shown where
  id : String
  name : String
  description : String
  createdBy : String
  createdOn : Num
  updatedOn : Num
  expiresAt : Num
  lastUsedOn : Num
  isValid : Bool
deriving DecidableEq

def toJSON (t : Token) : Shown :=
  ⟨t.id,t.name,t.description,t.createdBy,t.createdOn,t.updatedOn,t.expiresAt,t.lastUsedOn,t.isValid⟩

structure Reply where
  results : List Shown := []
  token : Option String := none
  id : Option String := none
  message : Option String := none
deriving DecidableEq

def forbidden : HttpError := ⟨"Forbidden","You do not own this API token.",403⟩

variable {σ : Type} (db : Table σ) (hash : String → Except HttpError String) (doubles : Doubles)

def getOwned (s : σ) (username id : String) : Except HttpError Token :=
  match db.get s id with
  | .error _ | .ok none => .error forbidden
  | .ok (some t) => if t.createdBy ≠ username then .error forbidden else .ok t

def isBlank (v : Value) : Bool := v = .noText || v = .undefined

-- `days > 0 ? (new Date).getTime() + days * 86400000 : 0`
def deadline (now : Int) (days : Num) : Num :=
  if doubles.greater days (.int 0) then doubles.daysAfter now days else .int 0

def list (s : σ) (username : String) : Except HttpError Reply × σ :=
  match db.listDetail s username with
  | .error error => (.error error,s)
  | .ok ts => (.ok { results := ts.map toJSON },s)

def createData (username : String) (now : Int) (body : Body) : Data where
  name := given (body "name")
  description := some (if (body "description").truthy then body "description" else .noText)
  createdBy := some username
  expiresAt := some (deadline doubles now
    (if isBlank (body "expires_in_days") then .int 0 else (body "expires_in_days").number))

def create (s : σ) (username : String) (now : Int) (body : Body) (id secret : String) : Except HttpError Reply × σ :=
  match add db hash s id secret (createData doubles username now body) with
  | (.error error,s') => (.error error,s')
  | (.ok (t,raw),s') =>
      (.ok { results := [toJSON t], token := some raw,
             message := some ("API token '" ++ t.name ++ "' created. Save it now — it will not be shown again.") },s')

def read (s : σ) (username id : String) : Except HttpError Reply × σ :=
  match getOwned db s username id with
  | .error error => (.error error,s)
  | .ok t => (.ok { results := [toJSON t] },s)

def updateData (now : Int) (body : Body) : Data where
  name := given (body "name")
  description := given (body "description")
  expiresAt :=
    if !isBlank (body "expires_in_days") then some (deadline doubles now (body "expires_in_days").number)
    else if body "expires_at" ≠ .undefined then some ((body "expires_at").number.or (.int 0))
    else none

def update (s : σ) (username : String) (now : Int) (id : String) (body : Body) : Except HttpError Reply × σ :=
  match getOwned db s username id with
  | .error error => (.error error,s)
  | .ok t => match db.update s t (updateData doubles now body) with
      | (.error error,s') => (.error error,s')
      | (.ok t',s') =>
          (.ok { results := [toJSON t'], message := some ("API token '" ++ t'.name ++ "' updated.") },s')

def delete (s : σ) (username id : String) : Except HttpError Reply × σ :=
  match getOwned db s username id with
  | .error error => (.error error,s)
  | .ok t => match db.remove s t with
      | (.error error,s') => (.error error,s')
      | (.ok _,s') => (.ok { id := some id, message := some ("API token '" ++ t.name ++ "' revoked.") },s')

def rotate (s : σ) (username id secret : String) : Except HttpError Reply × σ :=
  match getOwned db s username id with
  | .error error => (.error error,s)
  | .ok t => match ApiToken.rotate db hash s t secret with
      | (.error error,s') => (.error error,s')
      | (.ok raw,s') =>
          (.ok { token := some raw,
                 message := some ("API token '" ++ t.name ++ "' rotated. Save it — it will not be shown again.") },s')

def handle (s : σ) (call : Call) : Except HttpError Reply × σ :=
  match call.route with
  | .list => list db s call.username
  | .create body id secret => create db hash doubles s call.username call.now body id secret
  | .read id => read db s call.username id
  | .update id body => update db doubles s call.username call.now id body
  | .delete id => delete db s call.username id
  | .rotate id secret => rotate db hash s call.username id secret

end Routes

section Ownership

variable {σ : Type} {db : Table σ} {hash : String → Except HttpError String} {doubles : Doubles}
  {content : σ → String → Option Token} {s s' : σ} {username id : String} {t t' : Token}

def Route.target : Route → Option String
  | .read id | .update id _ | .delete id | .rotate id _ => some id
  | .list | .create _ _ _ => none

def Route.rotates : Route → Bool
  | .rotate _ _ => true
  | _ => false

inductive Effect (username : String) (rotates : Bool) (before after : String → Option Token) : Prop
  | none (hafter : after = before)
  | adds (t : Token) (hnew : before t.id = .none) (howner : t.createdBy = username) (hvalid : t.isValid = true)
      (hafter : after = Function.update before t.id (some t))
  | changes (t t' : Token) (hold : before t.id = some t) (howner : t.createdBy = username)
      (hid : t'.id = t.id) (hcreated : t'.createdBy = t.createdBy) (hvalid : t'.isValid = t.isValid)
      (hsecret : rotates = false → t'.secretHash = t.secretHash)
      (hafter : after = Function.update before t.id (some t'))
  | removes (t : Token) (hold : before t.id = some t) (howner : t.createdBy = username)
      (hafter : after = Function.update before t.id .none)

variable {rotates : Bool} {before after : String → Option Token}

theorem Effect.cases_at (h : Effect username rotates before after) (id : String) : after id = before id ∨
      (before id = .none ∧ ∃ t, after id = some t ∧ t.createdBy = username ∧ t.isValid = true) ∨
      ∃ t, before id = some t ∧ t.createdBy = username ∧ (after id = .none ∨ ∃ t', after id = some t' ∧
        t'.id = t.id ∧ t'.createdBy = t.createdBy ∧ t'.isValid = t.isValid ∧
          (rotates = false → t'.secretHash = t.secretHash)) := by
  cases h with
  | none hafter => exact .inl (by rw [hafter])
  | adds t hnew howner hvalid hafter =>
    by_cases hid : id = t.id
    · subst hid
      exact .inr (.inl ⟨hnew,t,by rw [hafter, Function.update_self],howner,hvalid⟩)
    · exact .inl (by rw [hafter, Function.update_of_ne hid])
  | changes t t' hold howner hsame hcreated hvalid hsecret hafter =>
    by_cases hid : id = t.id
    · subst hid
      exact .inr (.inr ⟨t,hold,howner,.inr ⟨t',by rw [hafter, Function.update_self],hsame,hcreated,hvalid,hsecret⟩⟩)
    · exact .inl (by rw [hafter, Function.update_of_ne hid])
  | removes t hold howner hafter =>
    by_cases hid : id = t.id
    · subst hid
      exact .inr (.inr ⟨t,hold,howner,.inl (by rw [hafter, Function.update_self])⟩)
    · exact .inl (by rw [hafter, Function.update_of_ne hid])

theorem Effect.others (h : Effect username rotates before after)
    (hold : before id = some t) (hother : t.createdBy ≠ username) : after id = some t := by
  rcases h.cases_at id with hsame | ⟨hnew,-⟩ | ⟨t₁,hold₁,howner,-⟩
  · rw [hsame, hold]
  · simp [hold] at hnew
  · obtain rfl := Option.some.inj (hold.symm.trans hold₁)
    exact absurd howner hother

theorem Effect.kept (h : Effect username rotates before after)
    (hold : before id = some t) (hnew : after id = some t') :
    t'.id = t.id ∧ t'.createdBy = t.createdBy ∧ t'.isValid = t.isValid ∧
      (rotates = false → t'.secretHash = t.secretHash) := by
  rcases h.cases_at id with hsame | ⟨hnone,-⟩ | ⟨t₁,hold₁,-,hgone | ⟨t₂,hnew₂,hkept⟩⟩
  · obtain rfl := Option.some.inj (hnew.symm.trans (hsame.trans hold))
    exact ⟨rfl,rfl,rfl,fun _ => rfl⟩
  · simp [hold] at hnone
  · simp [hnew] at hgone
  · obtain rfl := Option.some.inj (hold.symm.trans hold₁)
    obtain rfl := Option.some.inj (hnew.symm.trans hnew₂)
    exact hkept

theorem Effect.created (h : Effect username rotates before after)
    (hold : before id = .none) (hnew : after id = some t) : t.createdBy = username ∧ t.isValid = true := by
  rcases h.cases_at id with hsame | ⟨-,t₁,hnew₁,howner,hvalid⟩ | ⟨t₁,hold₁,-⟩
  · simp [hsame, hold] at hnew
  · obtain rfl := Option.some.inj (hnew.symm.trans hnew₁)
    exact ⟨howner,hvalid⟩
  · simp [hold] at hold₁

theorem getOwned_ok (hdb : db.Exact content) (h : getOwned db s username id = .ok t) :
    content s id = some t ∧ t.id = id ∧ t.createdBy = username := by
  unfold getOwned at h
  split at h
  · cases h
  · cases h
  · next t' hget =>
    split at h
    · cases h
    · next howner =>
      obtain rfl := Except.ok.inj h
      have hcontent := (hdb.get s id t').mp hget
      exact ⟨hcontent,hdb.keyed s id t' hcontent,not_not.mp howner⟩

theorem getOwned_refused (hdb : db.Exact content) (h : ∀ t, content s id = some t → t.createdBy ≠ username) :
    getOwned db s username id = .error forbidden := by
  unfold getOwned
  split
  · rfl
  · rfl
  · next t hget => rw [if_pos (h t ((hdb.get s id t).mp hget))]

def Reply.OnlyOf (reply : Reply) (username : String) : Prop := ∀ shown ∈ reply.results, shown.createdBy = username

theorem onlyOf_one {token message : Option String} (h : t.createdBy = username) :
    Reply.OnlyOf { results := [toJSON t], token, message } username := by
  intro shown hshown
  obtain rfl := List.mem_singleton.mp hshown
  exact h

theorem onlyOf_none {token id message : Option String} :
    Reply.OnlyOf { token, id, message } username := fun _ hshown => by cases hshown

structure Proper (content : σ → String → Option Token) (username : String) (rotates : Bool) (s : σ)
    (outcome : Except HttpError Reply × σ) : Prop where
  effect : Effect username rotates (content s) (content outcome.2)
  reads : ∀ reply, outcome.1 = .ok reply → reply.OnlyOf username

theorem proper_list (hdb : db.Exact content) :
    Proper content username rotates s (list db s username) := by
  unfold list
  split
  · exact ⟨.none rfl,fun _ h => by cases h⟩
  · next ts hts =>
    refine ⟨.none rfl,fun reply h shown hshown => ?_⟩
    cases h
    obtain ⟨t,ht,rfl⟩ := List.mem_map.mp hshown
    exact ((hdb.listed s username ts hts t).mp ht).2

theorem proper_create (hdb : db.Exact content) {now : Int} {body : Body} {secret : String} :
    Proper content username rotates s (create db hash doubles s username now body id secret) := by
  unfold create add
  cases hash secret with
  | error error => exact ⟨.none rfl,fun _ h => by cases h⟩
  | ok secretHash =>
    simp only
    split
    · next hcreate =>
      split at hcreate
      · next hnot =>
        cases hcreate
        exact ⟨.none (hdb.notCreated _ _ _ _ hnot),fun _ h => by cases h⟩
      · cases hcreate
    · next t raw s' hcreate =>
      split at hcreate
      · cases hcreate
      · next hok =>
        cases hcreate
        obtain ⟨hnew,-,howner,hvalid,hafter⟩ := hdb.created _ _ _ _ hok
        refine ⟨.adds t hnew (howner username rfl) (hvalid rfl) hafter,fun reply h => ?_⟩
        cases h
        exact onlyOf_one (howner username rfl)

theorem proper_read (hdb : db.Exact content) :
    Proper content username rotates s (read db s username id) := by
  unfold read
  split
  · exact ⟨.none rfl,fun _ h => by cases h⟩
  · next t hget =>
    refine ⟨.none rfl,fun reply h => ?_⟩
    cases h
    exact onlyOf_one (getOwned_ok hdb hget).2.2

theorem proper_update (hdb : db.Exact content) {now : Int} {body : Body} :
    Proper content username rotates s (update db doubles s username now id body) := by
  unfold update
  split
  · exact ⟨.none rfl,fun _ h => by cases h⟩
  · next t hget =>
    obtain ⟨hold,rfl,howner⟩ := getOwned_ok hdb hget
    split
    · next hnot => exact ⟨.none (hdb.notUpdated _ _ _ _ _ hnot),fun _ h => by cases h⟩
    · next t' s' hok =>
      obtain ⟨hrenewed,hafter⟩ := hdb.updated _ _ _ _ _ hok
      refine ⟨.changes t t' hold howner (hrenewed.id rfl) (hrenewed.createdBy rfl) (hrenewed.isValid rfl)
        (fun _ => hrenewed.secretHash rfl) hafter,fun reply h => ?_⟩
      cases h
      exact onlyOf_one ((hrenewed.createdBy rfl).trans howner)

theorem proper_delete (hdb : db.Exact content) :
    Proper content username rotates s (delete db s username id) := by
  unfold delete
  split
  · exact ⟨.none rfl,fun _ h => by cases h⟩
  · next t hget =>
    obtain ⟨hold,rfl,howner⟩ := getOwned_ok hdb hget
    split
    · next hnot => exact ⟨.none (hdb.notRemoved _ _ _ _ hnot),fun _ h => by cases h⟩
    · next hok =>
      refine ⟨.removes t hold howner (hdb.removed _ _ _ hok),fun reply h => ?_⟩
      cases h
      exact onlyOf_none

theorem proper_rotate (hdb : db.Exact content) {secret : String} :
    Proper content username true s (rotate db hash s username id secret) := by
  unfold rotate ApiToken.rotate
  split
  · exact ⟨.none rfl,fun _ h => by cases h⟩
  · next t hget =>
    obtain ⟨hold,rfl,howner⟩ := getOwned_ok hdb hget
    cases hash secret with
    | error error => exact ⟨.none rfl,fun _ h => by cases h⟩
    | ok secretHash =>
      simp only
      split
      · next hrotate =>
        split at hrotate
        · next hnot =>
          cases hrotate
          exact ⟨.none (hdb.notUpdated _ _ _ _ _ hnot),fun _ h => by cases h⟩
        · cases hrotate
      · next raw s' hrotate =>
        split at hrotate
        · cases hrotate
        · next t' _ hok =>
          cases hrotate
          obtain ⟨hrenewed,hafter⟩ := hdb.updated _ _ _ _ _ hok
          refine ⟨.changes t t' hold howner (hrenewed.id rfl) (hrenewed.createdBy rfl) (hrenewed.isValid rfl)
            (fun h => by cases h) hafter,fun reply h => ?_⟩
          cases h
          exact onlyOf_none

theorem proper_handle (hdb : db.Exact content) (call : Call) :
    Proper content call.username call.route.rotates s (handle db hash doubles s call) := by
  obtain ⟨username,now,route⟩ := call
  cases route with
  | list => exact proper_list hdb
  | create body id secret => exact proper_create hdb
  | read id => exact proper_read hdb
  | update id body => exact proper_update hdb
  | delete id => exact proper_delete hdb
  | rotate id secret => exact proper_rotate hdb

structure Confined (db : Table σ) (hash : String → Except HttpError String) (doubles : Doubles)
    (content : σ → String → Option Token) (s : σ) (call : Call) : Prop where
  reads : ∀ reply, (handle db hash doubles s call).1 = .ok reply → reply.OnlyOf call.username
  others : ∀ id t, content s id = some t → t.createdBy ≠ call.username →
    content (handle db hash doubles s call).2 id = some t
  kept : ∀ id t t', content s id = some t → content (handle db hash doubles s call).2 id = some t' →
    t'.id = t.id ∧ t'.createdBy = t.createdBy ∧ t'.isValid = t.isValid ∧
      (call.route.rotates = false → t'.secretHash = t.secretHash)
  created : ∀ id t, content s id = none → content (handle db hash doubles s call).2 id = some t →
    t.createdBy = call.username ∧ t.isValid = true
  refused : ∀ id, call.route.target = some id → (∀ t, content s id = some t → t.createdBy ≠ call.username) →
    handle db hash doubles s call = (.error forbidden,s)

theorem refused_handle (hdb : db.Exact content) (call : Call) (htarget : call.route.target = some id)
    (hother : ∀ t, content s id = some t → t.createdBy ≠ call.username) :
    handle db hash doubles s call = (.error forbidden,s) := by
  obtain ⟨username,now,route⟩ := call
  have hrefused : getOwned db s username id = .error forbidden := getOwned_refused hdb hother
  cases route with
  | list => cases htarget
  | create body id' secret => cases htarget
  | read id' =>
    cases htarget
    simp [handle, read, hrefused]
  | update id' body =>
    cases htarget
    simp [handle, update, hrefused]
  | delete id' =>
    cases htarget
    simp [handle, delete, hrefused]
  | rotate id' secret =>
    cases htarget
    simp [handle, rotate, hrefused]

theorem confined_handle (hdb : db.Exact content) (call : Call) : Confined db hash doubles content s call := by
  obtain ⟨heffect,hreads⟩ := proper_handle (s := s) hdb call
  exact ⟨hreads,fun id t hold hother => heffect.others hold hother,fun id t t' hold hnew => heffect.kept hold hnew,
    fun id t hold hnew => heffect.created hold hnew,fun id htarget hother => refused_handle hdb call htarget hother⟩

def step (db : Table σ) (hash : String → Except HttpError String) (doubles : Doubles) (s : σ) (call : Call) :
    Option σ :=
  some (handle db hash doubles s call).2

theorem untouched_by_others (hdb : db.Exact content) {calls : List Call} (hold : content s id = some t)
    (hothers : ∀ call ∈ calls, t.createdBy ≠ call.username)
    (hrun : Run.exec (step db hash doubles) s calls = some s') : content s' id = some t := by
  refine Run.invariant_of_mem (P := fun s => content s id = some t) (fun s call u hkept hmem hstep => ?_) hold hrun
  cases hstep
  exact (confined_handle hdb call).others id t hkept (hothers call hmem)

theorem tokens_confined (hdb : db.Exact content) (hash : String → Except HttpError String) (doubles : Doubles) (s : σ)
    (calls : List Call) :
    Run.Along (step db hash doubles) (Confined db hash doubles content) s calls :=
  Run.along_of_forall (fun _ call _ => confined_handle hdb call) s

def named (name : String) : Body := fun field => if field = "name" then ⟨name,.nan,true,false⟩ else .undefined

def fourCalls : List Call :=
  [⟨"alice",0,.create (named "cron") "a1" "s1"⟩,⟨"bob",1,.read "a1"⟩,⟨"bob",2,.update "a1" (named "mine")⟩,
    ⟨"alice",3,.rotate "a1" "s2"⟩]

theorem tokens_confined_fourCalls :
    Run.Along (step records .ok integers) (Confined records .ok integers Records.find) .empty fourCalls ∧
      ((Run.exec (step records .ok integers) .empty fourCalls).bind fun s => s.find "a1").map
        (fun t => (t.name,t.createdBy,t.secretHash)) = some ("cron","alice","s2") :=
  ⟨tokens_confined records_exact .ok integers .empty fourCalls,by decide +kernel⟩

end Ownership

end JumpHost.Web.TokenRoutes
