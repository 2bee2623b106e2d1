import JumpHost.Web.TokenHistory

namespace JumpHost.Web.Expiry

open ApiToken TokenRoutes TokenHistory

section Asked

variable (doubles : Doubles) (now : Int)

inductive Asked where
  | inDays (v : Value)
  | at (v : Value)

def asked (body : Body) : Option Asked :=
  if !isBlank (body "expires_in_days") then some (.inDays (body "expires_in_days"))
  else if body "expires_at" ≠ .undefined then some (.at (body "expires_at"))
  else none

def Asked.zero : Asked → Prop
  | .inDays v | .at v => v.text = "0"

def Asked.moment : Asked → Num
  | .inDays v => doubles.daysAfter now v.number
  | .at v => v.number

def Asked.written (updates : Bool) : Asked → Bool
  | .inDays v => doubles.greater v.number (.int 0)
  | .at v => updates && v.number.truthy

def Asked.stored (updates : Bool) (a : Asked) : Num :=
  if a.written doubles updates then a.moment doubles now else .int 0

structure Asked.Usable (updates : Bool) (a : Asked) : Prop where
  written : a.written doubles updates = true
  positive : doubles.greater (a.moment doubles now) (.int 0) = true
  passes : ∃ time : Int, doubles.greater (.int time) (a.moment doubles now) = true

variable {doubles now} {body : Body} {a : Asked}

theorem createData_expiry (username : String) (hzero : doubles.greater (.int 0) (.int 0) = false)
    (h : asked body = some a) :
    (createData doubles username now body).expiresAt = some (a.stored doubles now false) := by
  unfold asked at h
  unfold createData
  by_cases hblank : isBlank (body "expires_in_days") = true
  · rw [hblank, Bool.not_true, if_neg Bool.false_ne_true] at h
    simp only [hblank, if_true, deadline, hzero, Bool.false_eq_true, if_false]
    split at h
    · cases h
      rfl
    · cases h
  · rw [Bool.not_eq_true] at hblank
    rw [hblank, Bool.not_false, if_pos rfl] at h
    cases h
    simp only [hblank, Bool.false_eq_true, if_false, deadline, Asked.stored, Asked.written, Asked.moment]
    rfl

theorem updateData_expiry (h : asked body = some a) :
    (updateData doubles now body).expiresAt = some (a.stored doubles now true) := by
  unfold asked at h
  unfold updateData
  split at h
  · next hdays =>
    cases h
    simp only [hdays, if_true, deadline, Asked.stored, Asked.written, Asked.moment]
    rfl
  · next hdays =>
    split at h
    · next hat =>
      cases h
      simp only [hdays, Bool.false_eq_true, if_false, hat, ne_eq, not_false_eq_true, if_true, Num.or, Asked.stored,
        Asked.written, Asked.moment, Bool.true_and]
    · cases h

end Asked

section Tokens

variable {σ : Type} {db : Table σ} {bcrypt : Bcrypt} {doubles : Doubles} {content : σ → String → Option Token}
  {s s' : σ} {id salt : String} {t t' : Token} {moment : Num} {now : Int} {a : Asked} {updates : Bool}

def CanAuthenticate (bcrypt : Bcrypt) (t : Token) : Prop :=
  t.isValid = true ∧ ∃ raw secret, rawParts raw = some (t.id,secret) ∧ bcrypt.compare secret t.secretHash = true

def Until (doubles : Doubles) (moment : Num) (time : Int) : Prop :=
  (∃ later : Int, doubles.greater (.int later) moment = true) ∧ doubles.greater (.int time) moment = false

def StopsBy (db : Table σ) (bcrypt : Bcrypt) (doubles : Doubles) (s : σ) (id : String) (moment : Num) : Prop :=
  ∀ time raw t, (rawParts raw).map Prod.fst = some id → (authenticate db bcrypt.compare doubles time s raw).1 = .ok t →
    Until doubles moment time

theorem stopsBy_iff (hdb : db.Exact content) (hcontent : content s id = some t) :
    StopsBy db bcrypt doubles s id moment ↔
      (CanAuthenticate bcrypt t → ∀ time, t.isExpired doubles time = false → Until doubles moment time) := by
  have hid := hdb.keyed s id t hcontent
  constructor
  · rintro hstops ⟨hvalid,raw,secret,hparts,hcompare⟩ time hexpired
    rw [hid] at hparts
    obtain ⟨t₁,hok⟩ := (authenticate_ok hdb s).mpr ⟨id,secret,t,hparts,hcontent,hcompare,hvalid,hexpired⟩
    exact hstops time raw t₁ (by rw [hparts]; rfl) hok
  · intro huntil time raw t₁ hnames hok
    obtain ⟨id₁,secret,t₂,hparts,hcontent₁,hcompare,hvalid,hexpired⟩ := (authenticate_ok hdb s).mp ⟨t₁,hok⟩
    obtain rfl : id₁ = id := by simpa [hparts] using hnames
    obtain rfl := Option.some.inj (hcontent.symm.trans hcontent₁)
    exact huntil ⟨hvalid,raw,secret,by rw [hid]; exact hparts,hcompare⟩ time hexpired

theorem until_iff (hzero : doubles.greater (.int 0) (.int 0) = false)
    (hexpiry : t.expiresAt = a.stored doubles now updates) :
    (∀ time, t.isExpired doubles time = false → Until doubles (a.moment doubles now) time) ↔
      a.Usable doubles now updates := by
  unfold Asked.stored at hexpiry
  constructor
  · intro huntil
    have hends : doubles.greater t.expiresAt (.int 0) = true := by
      by_contra hnot
      rw [Bool.not_eq_true] at hnot
      have hnever : ∀ time, t.isExpired doubles time = false := fun time => not_expired_iff.mpr (.inl hnot)
      obtain ⟨⟨later,hlater⟩,-⟩ := huntil 0 (hnever 0)
      rw [(huntil later (hnever later)).2] at hlater
      cases hlater
    by_cases hwritten : a.written doubles updates = true
    · rw [if_pos hwritten] at hexpiry
      rw [hexpiry] at hends
      refine ⟨hwritten,hends,?_⟩
      by_cases hpassed : doubles.greater (.int 0) (a.moment doubles now) = true
      · exact ⟨0,hpassed⟩
      · rw [Bool.not_eq_true, ← hexpiry] at hpassed
        exact (huntil 0 (not_expired_iff.mpr (.inr hpassed))).1
    · rw [if_neg hwritten] at hexpiry
      rw [hexpiry, hzero] at hends
      cases hends
  · intro husable time hexpired
    rw [if_pos husable.written] at hexpiry
    refine ⟨husable.passes,?_⟩
    rcases not_expired_iff.mp hexpired with hnot | hpassed
    · rw [hexpiry, husable.positive] at hnot
      cases hnot
    · exact hexpiry ▸ hpassed

end Tokens

section Requests

variable {σ : Type} {db : Table σ} {bcrypt : Bcrypt} {doubles : Doubles} {content : σ → String → Option Token}
  {s s' : σ} {id salt : String} {t t' : Token} {a : Asked} {updates : Bool} {call : Call} {body : Body} {reply : Reply}

def writes : Route → Option (Body × String × Bool)
  | .create body id _ => some (body,id,false)
  | .update id body => some (body,id,true)
  | .list | .read _ | .delete _ | .rotate _ _ => none

def Leaves (bcrypt : Bcrypt) (doubles : Doubles) (content : σ → String → Option Token) (s s' : σ) (now : Int)
    (body : Body) (id : String) (updates : Bool) : Prop :=
  ∃ t', content s' id = some t' ∧
    (∀ a, asked body = some a → t'.expiresAt = a.stored doubles now updates) ∧
    (CanAuthenticate bcrypt t' ↔ ∀ t, content s id = some t → CanAuthenticate bcrypt t)

theorem create_leaves (hdb : db.Exact content) (hstores : db.Stores) (hzero : doubles.greater (.int 0) (.int 0) = false)
    {username : String} {now : Int} (i : Hex 24) (x : Hex 48)
    (h : create db (bcrypt.hash salt) doubles s username now body i.text x.text = (.ok reply,s')) :
    Leaves bcrypt doubles content s s' now body i.text false := by
  unfold create add at h
  cases hhash : bcrypt.hash salt x.text with
  | error error =>
    rw [hhash] at h
    cases h
  | ok secretHash =>
    rw [hhash] at h
    simp only at h
    cases hcreate : db.create s { createData doubles username now body with
        id := some i.text, secretHash := some secretHash } with
    | mk outcome s₁ =>
      rw [hcreate] at h
      cases outcome with
      | error error => cases h
      | ok t' =>
        cases h
        obtain ⟨hnew,hid,-,hvalid,hafter⟩ := hdb.created _ _ _ _ hcreate
        have hid : t'.id = i.text := hid _ rfl
        rw [hid] at hnew hafter
        refine ⟨t',by rw [hafter, Function.update_self],fun a hasked => ?_,?_⟩
        · exact hstores.createdExpiry _ _ _ _ _ hcreate (createData_expiry username hzero hasked)
        · refine iff_of_true ⟨hvalid rfl,rawToken i.text x.text,x.text,?_,?_⟩ fun t hold => ?_
          · rw [hid]
            exact rawParts_append (by decide) i x
          · rw [hstores.createdHash _ _ _ _ _ hcreate rfl]
            exact (bcrypt.exact salt x.text secretHash hhash x.text).mpr rfl
          · rw [hnew] at hold
            cases hold

theorem update_leaves (hdb : db.Exact content) (hstores : db.Stores) {username : String} {now : Int}
    (h : update db doubles s username now id body = (.ok reply,s')) :
    Leaves bcrypt doubles content s s' now body id true := by
  unfold update at h
  cases howned : getOwned db s username id with
  | error error =>
    rw [howned] at h
    cases h
  | ok t =>
    rw [howned] at h
    simp only at h
    obtain ⟨hold,rfl,-⟩ := getOwned_ok hdb howned
    cases hupdate : db.update s t (updateData doubles now body) with
    | mk outcome s₁ =>
      rw [hupdate] at h
      cases outcome with
      | error error => cases h
      | ok t' =>
        cases h
        obtain ⟨hrenewed,hafter⟩ := hdb.updated _ _ _ _ _ hupdate
        refine ⟨t',by rw [hafter, Function.update_self],fun a hasked => ?_,?_⟩
        · exact hstores.updatedExpiry _ _ _ _ _ _ hupdate (updateData_expiry hasked)
        · have hsame : CanAuthenticate bcrypt t' ↔ CanAuthenticate bcrypt t := by
            rw [CanAuthenticate, CanAuthenticate, hrenewed.id rfl, hrenewed.isValid rfl, hrenewed.secretHash rfl]
          rw [hsame]
          refine ⟨fun hcan t₁ h₁ => ?_,fun hall => hall t hold⟩
          exact Option.some.inj (hold.symm.trans h₁) ▸ hcan

theorem handle_leaves (hdb : db.Exact content) (hstores : db.Stores) (hzero : doubles.greater (.int 0) (.int 0) = false)
    (hwrites : writes call.route = some (body,id,updates)) (hrandom : Random call.route)
    (h : handle db (bcrypt.hash salt) doubles s call = (.ok reply,s')) :
    Leaves bcrypt doubles content s s' call.now body id updates := by
  obtain ⟨username,now,route⟩ := call
  cases route with
  | create body' id' secret =>
    cases hwrites
    obtain ⟨⟨i,rfl⟩,x,rfl⟩ := hrandom
    exact create_leaves hdb hstores hzero i x h
  | update id' body' =>
    cases hwrites
    exact update_leaves hdb hstores h
  | list => cases hwrites
  | read id' => cases hwrites
  | delete id' => cases hwrites
  | rotate id' secret => cases hwrites

theorem expiry_honoured_iff (hdb : db.Exact content) (hstores : db.Stores)
    (hzero : doubles.greater (.int 0) (.int 0) = false) (hwrites : writes call.route = some (body,id,updates))
    (hrandom : Random call.route) (h : handle db (bcrypt.hash salt) doubles s call = (.ok reply,s')) :
    (∀ a, asked body = some a → ¬ a.zero → StopsBy db bcrypt doubles s' id (a.moment doubles call.now)) ↔
      ∀ a, asked body = some a → ¬ a.zero →
        a.Usable doubles call.now updates ∨ ∃ t, content s id = some t ∧ ¬ CanAuthenticate bcrypt t := by
  obtain ⟨t',hcontent,hexpiry,hcan⟩ := handle_leaves hdb hstores hzero hwrites hrandom h
  refine forall_congr' fun a => forall_congr' fun hasked => forall_congr' fun _ => ?_
  rw [stopsBy_iff hdb hcontent, until_iff hzero (hexpiry a hasked), hcan]
  constructor
  · intro hstops
    by_cases hall : ∀ t, content s id = some t → CanAuthenticate bcrypt t
    · exact .inl (hstops hall)
    · push Not at hall
      exact .inr hall
  · rintro (husable | ⟨t,hold,hnot⟩) hall
    · exact husable
    · exact absurd (hall t hold) hnot

def expiring (field text : String) (number : Num) : Body := fun key =>
  if key = "name" then ⟨"ci",.nan,true,false⟩ else if key = field then ⟨text,number,true,false⟩ else .undefined

def postBy (body : Body) : Call := ⟨"alice",1000,.create body tokenId.text firstSecret.text⟩

theorem postBy_random (body : Body) : Random (postBy body).route := ⟨⟨tokenId,rfl⟩,firstSecret,rfl⟩

theorem expiry_thirty_days : ∃ reply s', handle records (plainBcrypt.hash "salt") integers Records.empty
      (postBy (expiring "expires_in_days" "30" (.int 30))) = (.ok reply,s') ∧
    StopsBy records plainBcrypt integers s' tokenId.text (.int 2592001000) := by
  obtain ⟨reply,s',hrun⟩ : ∃ reply s', handle records (plainBcrypt.hash "salt") integers Records.empty
      (postBy (expiring "expires_in_days" "30" (.int 30))) = (.ok reply,s') := ⟨_,_,rfl⟩
  refine ⟨reply,s',hrun,?_⟩
  refine (expiry_honoured_iff records_exact records_stores rfl rfl (postBy_random _) hrun).mpr ?_
    (.inDays ⟨"30",.int 30,true,false⟩) rfl (show "30" ≠ "0" by decide)
  intro a hasked _
  cases hasked
  exact .inl ⟨rfl,rfl,2592001001,by decide⟩

theorem never_expires : ¬ ∀ (s s' : Records) (salt : String) (call : Call) (body : Body) (id : String) (updates : Bool)
    (reply : Reply), writes call.route = some (body,id,updates) → Random call.route →
      handle records (plainBcrypt.hash salt) integers s call = (.ok reply,s') → ∀ a, asked body = some a → ¬ a.zero →
        StopsBy records plainBcrypt integers s' id (a.moment integers call.now) := by
  intro h
  have hstops := h Records.empty _ "salt" (postBy (expiring "expires_in_days" "-5" (.int (-5)))) _ _ _ _ rfl
    (postBy_random _) rfl (.inDays ⟨"-5",.int (-5),true,false⟩) rfl (show "-5" ≠ "0" by decide)
  have hused : (match (authenticate records plainBcrypt.compare integers 2000
      (handle records (plainBcrypt.hash "salt") integers Records.empty
        (postBy (expiring "expires_in_days" "-5" (.int (-5))))).2
      (rawToken tokenId.text firstSecret.text)).1 with | .ok _ => true | .error _ => false) = true := by
    decide +kernel
  split at hused
  · next t hok =>
    have huntil := hstops 2000 _ t (by decide +kernel) hok
    exact absurd huntil.2 (by decide)
  · cases hused

end Requests

end JumpHost.Web.Expiry
