import JumpHost.Web.TokenRoutes

namespace JumpHost.Web.TokenHistory

open ApiToken

section Texts

-- what `randomHex` gives
structure Hex (n : Nat) where
  text : String
  length : text.toList.length = n
  hex : text.toList.all isHex = true
deriving DecidableEq

def Hex.ofList {n : Nat} (cs : List Char) (length : cs.length = n) (hex : cs.all isHex = true) : Hex n :=
  ⟨String.ofList cs,by rwa [String.toList_ofList],by rwa [String.toList_ofList]⟩

-- `jmp_` in any case
def isPrefix (p : String) : Prop := p.toList.map Char.toLower = PREFIX.toList

instance (p : String) : Decidable (isPrefix p) := inferInstanceAs (Decidable (_ = _))

theorem toList_raw (p id secret : String) :
    (p ++ id ++ "_" ++ secret).toList = p.toList ++ id.toList ++ '_' :: secret.toList := by
  simp

theorem rawParts_append {p : String} (hp : isPrefix p) (id : Hex 24) (secret : Hex 48) :
    rawParts (p ++ id.text ++ "_" ++ secret.text) = some (id.text,secret.text) := by
  have hfour : p.toList.length = 4 := by
    rw [← List.length_map Char.toLower, hp]
    rfl
  have hid := id.length
  have hsecret := secret.length
  have htake : (p.toList ++ id.text.toList ++ '_' :: secret.text.toList).take 4 = p.toList := by
    rw [List.append_assoc]
    exact List.take_left' hfour
  have hmiddle : ((p.toList ++ id.text.toList ++ '_' :: secret.text.toList).drop 4).take 24 = id.text.toList := by
    rw [List.append_assoc, List.drop_left' hfour]
    exact List.take_left' hid
  have hlength : (p.toList ++ id.text.toList).length = 28 := by
    rw [List.length_append]
    omega
  have hbar : (p.toList ++ id.text.toList ++ '_' :: secret.text.toList)[28]? = some '_' := by
    rw [List.getElem?_append_right (by omega), hlength]
    rfl
  have hlast : (p.toList ++ id.text.toList ++ '_' :: secret.text.toList).drop 29 = secret.text.toList := by
    have hdrop : 29 = (p.toList ++ id.text.toList).length + 1 := by omega
    rw [hdrop, List.drop_length_add_append]
    rfl
  unfold rawParts
  simp only [toList_raw, htake, hmiddle, hbar, hlast, hid, hsecret, id.hex, secret.hex, and_self, and_true,
    String.ofList_toList]
  exact if_pos hp

theorem of_rawParts {raw id secret : String} (h : rawParts raw = some (id,secret)) : ∃ p, isPrefix p ∧
    raw = p ++ id ++ "_" ++ secret ∧ (∃ i : Hex 24, i.text = id) ∧ ∃ x : Hex 48, x.text = secret := by
  unfold rawParts at h
  simp only at h
  split at h
  · next hparts =>
    obtain ⟨hp,hid,hidhex,hbar,hsecret,hsecrethex⟩ := hparts
    obtain ⟨rfl,rfl⟩ := Prod.mk.inj (Option.some.inj h)
    refine ⟨String.ofList (raw.toList.take 4),?_,?_,⟨.ofList _ hid hidhex,rfl⟩,⟨.ofList _ hsecret hsecrethex,rfl⟩⟩
    · rwa [isPrefix, String.toList_ofList]
    · rw [← String.toList_inj, toList_raw]
      simp only [String.toList_ofList]
      have hfour := List.take_append_drop 4 raw.toList
      have hmiddle := List.take_append_drop 24 (raw.toList.drop 4)
      rw [List.drop_drop] at hmiddle
      have hlast : raw.toList.drop 28 = '_' :: raw.toList.drop 29 := by
        rw [List.drop_eq_getElem?_toList_append, hbar]
        rfl
      rw [List.append_assoc, ← hlast, hmiddle, hfour]
  · cases h

end Texts

section History

structure Bcrypt where
  hash : String → String → Except HttpError String
  compare : String → String → Bool
  exact : ∀ salt secret h, hash salt secret = .ok h → ∀ other, compare other h = true ↔ other = secret

structure Edit where
  name : Option Value := none
  description : Option Value := none
  expiresAt : Option Num := none
  lastUsedOn : Option Num := none
  isValid : Option Bool := none

def Edit.data (e : Edit) : Data where
  name := e.name
  description := e.description
  expiresAt := e.expiresAt
  lastUsedOn := e.lastUsedOn
  isValid := e.isValid

inductive Op where
  | add (data : Data) (id : Hex 24) (secret : Hex 48) (salt : String)
  | rotate (id : String) (secret : Hex 48) (salt : String)
  | update (id : String) (edit : Edit)
  | remove (id : String)
  | authenticate (now : Int) (raw : String)

structure History (σ : Type) where
  store : σ
  issued : List (String × Hex 48) := []

def History.latest {σ : Type} (h : History σ) (id : String) : Option (Hex 48) :=
  (h.issued.find? fun entry => entry.1 == id).map Prod.snd

variable {σ : Type} (db : Table σ) (bcrypt : Bcrypt) (doubles : Doubles)

def issue (h : History σ) (id : String) (secret : Hex 48) {α : Type} (outcome : Except HttpError α × σ) :
    History σ where
  store := outcome.2
  issued := match outcome.1 with
    | .ok _ => (id,secret) :: h.issued
    | .error _ => h.issued

def onToken (h : History σ) (id : String) (act : Token → History σ) : History σ :=
  match db.get h.store id with
  | .ok (some t) => act t
  | .ok none | .error _ => h

def step (h : History σ) : Op → History σ
  | .add data id secret salt => issue h id.text secret (add db (bcrypt.hash salt) h.store id.text secret.text data)
  | .rotate id secret salt => onToken db h id fun t =>
      issue h t.id secret (rotate db (bcrypt.hash salt) h.store t secret.text)
  | .update id edit => onToken db h id fun t => { h with store := (db.update h.store t edit.data).2 }
  | .remove id => onToken db h id fun t => { h with store := (db.remove h.store t).2 }
  | .authenticate now raw => { h with store := (authenticate db bcrypt.compare doubles now h.store raw).2 }

def after (start : History σ) (ops : List Op) : History σ := ops.foldl (step db bcrypt doubles) start

end History

section Invariant

variable {σ : Type} {db : Table σ} {bcrypt : Bcrypt} {doubles : Doubles} {content : σ → String → Option Token}
  {h h' : History σ} {id : String} {t t' : Token}

inductive Effect (bcrypt : Bcrypt) (content : σ → String → Option Token) (h h' : History σ) : Prop
  | none (hsame : content h'.store = content h.store) (hissued : h'.issued = h.issued)
  | issues (t : Token) (secret : Hex 48) (salt : String)
      (hid : (∃ id : Hex 24, id.text = t.id) ∨ ∃ old, content h.store t.id = some old)
      (hhash : bcrypt.hash salt secret.text = .ok t.secretHash) (hissued : h'.issued = (t.id,secret) :: h.issued)
      (hafter : content h'.store = Function.update (content h.store) t.id (some t))
  | edits (t t' : Token) (hold : content h.store t.id = some t) (hsecret : t'.secretHash = t.secretHash)
      (hissued : h'.issued = h.issued)
      (hafter : content h'.store = Function.update (content h.store) t.id (some t'))
  | removes (id : String) (hissued : h'.issued = h.issued)
      (hafter : content h'.store = Function.update (content h.store) id .none)

def Sound (bcrypt : Bcrypt) (content : σ → String → Option Token) (h : History σ) : Prop :=
  ∀ id t, content h.store id = some t → (∃ i : Hex 24, i.text = id) ∧
    ∃ secret salt, h.latest id = some secret ∧ bcrypt.hash salt secret.text = .ok t.secretHash

theorem latest_cons {secret : Hex 48} {id' : String} (hissued : h'.issued = (id,secret) :: h.issued) :
    h'.latest id' = if id = id' then some secret else h.latest id' := by
  rw [History.latest, hissued, List.find?_cons]
  by_cases heq : id = id'
  · simp [heq]
  · have hother : (id == id') = false := by simpa using heq
    rw [if_neg heq, hother, History.latest]

theorem latest_same (hissued : h'.issued = h.issued) : h'.latest id = h.latest id := by
  rw [History.latest, hissued, History.latest]

theorem Effect.sound (heffect : Effect bcrypt content h h') (hsound : Sound bcrypt content h) :
    Sound bcrypt content h' := by
  intro id' t₁ h₁
  cases heffect with
  | none hsame hissued =>
    rw [latest_same hissued]
    exact hsound id' t₁ (hsame ▸ h₁)
  | issues t secret salt hid hhash hissued hafter =>
    rw [latest_cons hissued]
    rw [hafter] at h₁
    by_cases heq : t.id = id'
    · subst heq
      rw [Function.update_self] at h₁
      obtain rfl := Option.some.inj h₁
      exact ⟨hid.elim (fun hnew => hnew) fun ⟨old,hold⟩ => (hsound t.id old hold).1,secret,salt,if_pos rfl,hhash⟩
    · rw [Function.update_of_ne (Ne.symm heq)] at h₁
      rw [if_neg heq]
      exact hsound id' t₁ h₁
  | edits t t' hold hsecret hissued hafter =>
    rw [latest_same hissued]
    rw [hafter] at h₁
    by_cases heq : t.id = id'
    · subst heq
      rw [Function.update_self] at h₁
      obtain rfl := Option.some.inj h₁
      rw [hsecret]
      exact hsound t.id t hold
    · rw [Function.update_of_ne (Ne.symm heq)] at h₁
      exact hsound id' t₁ h₁
  | removes id hissued hafter =>
    rw [latest_same hissued]
    rw [hafter] at h₁
    by_cases heq : id = id'
    · subst heq
      rw [Function.update_self] at h₁
      cases h₁
    · rw [Function.update_of_ne (Ne.symm heq)] at h₁
      exact hsound id' t₁ h₁

theorem onToken_cases (hdb : db.Exact content) (h : History σ) (id : String) (act : Token → History σ) :
    onToken db h id act = h ∨ ∃ t, content h.store id = some t ∧ t.id = id ∧ onToken db h id act = act t := by
  unfold onToken
  split
  · next t hget =>
    have hcontent := (hdb.get h.store id t).mp hget
    exact .inr ⟨t,hcontent,hdb.keyed h.store id t hcontent,rfl⟩
  · exact .inl rfl
  · exact .inl rfl

theorem add_cases (hdb : db.Exact content) (hstores : db.Stores) (s : σ) (id : Hex 24) (secret salt : String)
    (data : Data) : (∃ error s', add db (bcrypt.hash salt) s id.text secret data = (.error error,s') ∧
        content s' = content s) ∨
      ∃ t s', add db (bcrypt.hash salt) s id.text secret data = (.ok (t,rawToken id.text secret),s') ∧ t.id = id.text ∧
        bcrypt.hash salt secret = .ok t.secretHash ∧ content s' = Function.update (content s) t.id (some t) := by
  unfold add
  cases hhash : bcrypt.hash salt secret with
  | error error => exact .inl ⟨error,s,rfl,rfl⟩
  | ok secretHash =>
    simp only
    split
    · next error s' hcreate => exact .inl ⟨error,s',rfl,hdb.notCreated _ _ _ _ hcreate⟩
    · next t s' hcreate =>
      obtain ⟨-,hid,-,-,hafter⟩ := hdb.created _ _ _ _ hcreate
      exact .inr ⟨t,s',rfl,hid _ rfl,by rw [hstores.createdHash _ _ _ _ _ hcreate rfl],hafter⟩

theorem rotate_cases (hdb : db.Exact content) (hstores : db.Stores) (s : σ) (t : Token) (secret salt : String) :
    (∃ error s', rotate db (bcrypt.hash salt) s t secret = (.error error,s') ∧ content s' = content s) ∨
      ∃ t' s', rotate db (bcrypt.hash salt) s t secret = (.ok (rawToken t.id secret),s') ∧ t'.id = t.id ∧
        bcrypt.hash salt secret = .ok t'.secretHash ∧ content s' = Function.update (content s) t.id (some t') := by
  unfold rotate
  cases hhash : bcrypt.hash salt secret with
  | error error => exact .inl ⟨error,s,rfl,rfl⟩
  | ok secretHash =>
    simp only
    split
    · next error s' hupdate => exact .inl ⟨error,s',rfl,hdb.notUpdated _ _ _ _ _ hupdate⟩
    · next t' s' hupdate =>
      obtain ⟨hrenewed,hafter⟩ := hdb.updated _ _ _ _ _ hupdate
      exact .inr ⟨t',s',rfl,hrenewed.id rfl,by rw [hstores.updatedHash _ _ _ _ _ _ hupdate rfl],hafter⟩

theorem update_cases (hdb : db.Exact content) (s : σ) (t : Token) (edit : Edit) :
    content (db.update s t edit.data).2 = content s ∨ ∃ t', Renewed edit.data t t' ∧
      content (db.update s t edit.data).2 = Function.update (content s) t.id (some t') := by
  cases hupdate : db.update s t edit.data with
  | mk outcome s' =>
    cases outcome with
    | error error => exact .inl (hdb.notUpdated _ _ _ _ _ hupdate)
    | ok t' => exact .inr ⟨t',hdb.updated _ _ _ _ _ hupdate⟩

theorem update_effect (hdb : db.Exact content) (hold : content h.store t.id = some t) (edit : Edit) :
    Effect bcrypt content h { h with store := (db.update h.store t edit.data).2 } := by
  rcases update_cases hdb h.store t edit with hsame | ⟨t',hrenewed,hafter⟩
  · exact .none hsame rfl
  · exact .edits t t' hold (hrenewed.secretHash rfl) rfl hafter

def lastUse (now : Int) : Edit := { lastUsedOn := some (.int now) }

theorem authenticate_cases (hdb : db.Exact content) (now : Int) (s : σ) (raw : String) :
    (authenticate db bcrypt.compare doubles now s raw).2 = s ∨ ∃ t secret, rawParts raw = some (t.id,secret) ∧
      content s t.id = some t ∧
        (authenticate db bcrypt.compare doubles now s raw).2 = (db.update s t (lastUse now).data).2 := by
  unfold authenticate
  split
  · exact .inl rfl
  · next id secret hparts =>
    split
    · exact .inl rfl
    · exact .inl rfl
    · next t hget =>
      have hcontent := (hdb.get s id t).mp hget
      have hid := hdb.keyed s id t hcontent
      split
      · exact .inl rfl
      · exact .inr ⟨t,secret,by rw [hid]; exact hparts,by rw [hid]; exact hcontent,rfl⟩

theorem effect_step (hdb : db.Exact content) (hstores : db.Stores) (h : History σ) (op : Op) :
    Effect bcrypt content h (step db bcrypt doubles h op) := by
  cases op with
  | add data id secret salt =>
    rcases add_cases hdb hstores h.store id secret.text salt data with
      ⟨error,s',hadd,hsame⟩ | ⟨t,s',hadd,hid,hhash,hafter⟩
    · rw [step, hadd]
      exact .none hsame rfl
    · rw [step, hadd]
      exact .issues t secret salt (.inl ⟨id,hid.symm⟩) hhash (by rw [hid]; rfl) hafter
  | rotate id secret salt =>
    rcases onToken_cases hdb h id fun t => issue h t.id secret (rotate db (bcrypt.hash salt) h.store t secret.text) with
      hsame | ⟨t,hold,rfl,hrun⟩
    · rw [step, hsame]
      exact .none rfl rfl
    · rw [step, hrun]
      rcases rotate_cases hdb hstores h.store t secret.text salt with
        ⟨error,s',hrotate,hsame⟩ | ⟨t',s',hrotate,hid,hhash,hafter⟩
      · rw [hrotate]
        exact .none hsame rfl
      · rw [hrotate]
        exact .issues t' secret salt (.inr ⟨t,by rw [hid]; exact hold⟩) hhash (by rw [hid]; rfl) (hid ▸ hafter)
  | update id edit =>
    rcases onToken_cases hdb h id fun t => { h with store := (db.update h.store t edit.data).2 } with
      hsame | ⟨t,hold,rfl,hrun⟩
    · rw [step, hsame]
      exact .none rfl rfl
    · rw [step, hrun]
      exact update_effect hdb hold edit
  | remove id =>
    rcases onToken_cases hdb h id fun t => { h with store := (db.remove h.store t).2 } with hsame | ⟨t,hold,rfl,hrun⟩
    · rw [step, hsame]
      exact .none rfl rfl
    · rw [step, hrun]
      cases hremove : db.remove h.store t with
      | mk outcome s' =>
        cases outcome with
        | error error => exact .none (hdb.notRemoved _ _ _ _ hremove) rfl
        | ok _ => exact .removes t.id rfl (hdb.removed _ _ _ hremove)
  | authenticate now raw =>
    rw [step]
    rcases authenticate_cases hdb now h.store raw with hsame | ⟨t,secret,-,hold,hrun⟩
    · rw [hsame]
      exact .none rfl rfl
    · rw [hrun]
      exact update_effect hdb hold (lastUse now)

theorem sound_after (hdb : db.Exact content) (hstores : db.Stores) {start : History σ}
    (hstart : Sound bcrypt content start) (ops : List Op) :
    Sound bcrypt content (after db bcrypt doubles start ops) := by
  induction ops generalizing start with
  | nil => exact hstart
  | cons op ops ih => exact ih ((effect_step hdb hstores start op).sound hstart)

end Invariant

section Acceptance

variable {σ : Type} {db : Table σ} {bcrypt : Bcrypt} {doubles : Doubles} {content : σ → String → Option Token}
  {h : History σ} {now : Int} {raw : String}

def Accepts (doubles : Doubles) (content : σ → String → Option Token) (h : History σ) (now : Int) (raw : String) :
    Prop :=
  ∃ p id secret t, isPrefix p ∧ raw = p ++ id ++ "_" ++ secret.text ∧ content h.store id = some t ∧
    h.latest id = some secret ∧ t.isValid = true ∧
      (doubles.greater t.expiresAt (.int 0) = false ∨ doubles.greater (.int now) t.expiresAt = false)

structure Spares (raw : String) (before after : String → Option Token) : Prop where
  others : ∀ id, (rawParts raw).map Prod.fst ≠ some id → after id = before id
  own : ∀ id t, before id = some t → ∃ t', after id = some t' ∧ t'.secretHash = t.secretHash ∧
    t'.createdBy = t.createdBy ∧ t'.expiresAt = t.expiresAt

theorem not_expired_iff {t : Token} : t.isExpired doubles now = false ↔
    doubles.greater t.expiresAt (.int 0) = false ∨ doubles.greater (.int now) t.expiresAt = false :=
  Bool.and_eq_false_iff

theorem authenticate_ok (hdb : db.Exact content) (s : σ) :
    (∃ t, (authenticate db bcrypt.compare doubles now s raw).1 = .ok t) ↔
    ∃ id secret t, rawParts raw = some (id,secret) ∧ content s id = some t ∧ bcrypt.compare secret t.secretHash = true ∧
      t.isValid = true ∧ t.isExpired doubles now = false := by
  unfold authenticate
  constructor
  · rintro ⟨t,hok⟩
    split at hok
    · cases hok
    · next id secret hparts =>
      split at hok
      · cases hok
      · cases hok
      · next t' hget =>
        split at hok
        · cases hok
        · next hpass =>
          refine ⟨id,secret,t',hparts,(hdb.get s id t').mp hget,?_⟩
          simpa [not_or, and_assoc] using hpass
  · rintro ⟨id,secret,t,hparts,hcontent,hcompare,hvalid,hexpired⟩
    have hget := (hdb.get s id t).mpr hcontent
    refine ⟨t,?_⟩
    simp [hparts, hget, hcompare, hvalid, hexpired]

theorem accepts_iff (hdb : db.Exact content) (hsound : Sound bcrypt content h) :
    (∃ t, (authenticate db bcrypt.compare doubles now h.store raw).1 = .ok t) ↔ Accepts doubles content h now raw := by
  rw [authenticate_ok hdb]
  constructor
  · rintro ⟨id,secret,t,hparts,hcontent,hcompare,hvalid,hexpired⟩
    obtain ⟨p,hp,hraw,-,x,rfl⟩ := of_rawParts hparts
    obtain ⟨-,issued,salt,hlatest,hhash⟩ := hsound id t hcontent
    have hsame : x.text = issued.text := (bcrypt.exact salt issued.text _ hhash x.text).mp hcompare
    exact ⟨p,id,issued,t,hp,hsame ▸ hraw,hcontent,hlatest,hvalid,not_expired_iff.mp hexpired⟩
  · rintro ⟨p,id,secret,t,hp,rfl,hcontent,hlatest,hvalid,hexpired⟩
    obtain ⟨⟨i,rfl⟩,issued,salt,hissued,hhash⟩ := hsound id t hcontent
    obtain rfl := Option.some.inj (hlatest.symm.trans hissued)
    exact ⟨i.text,secret.text,t,rawParts_append hp i secret,hcontent,
      (bcrypt.exact salt secret.text _ hhash secret.text).mpr rfl,hvalid,not_expired_iff.mpr hexpired⟩

theorem spares_authenticate (hdb : db.Exact content) (s : σ) :
    Spares raw (content s) (content (authenticate db bcrypt.compare doubles now s raw).2) := by
  have hidle : Spares raw (content s) (content s) := ⟨fun _ _ => rfl,fun id t hold => ⟨t,hold,rfl,rfl,rfl⟩⟩
  rcases authenticate_cases hdb now s raw with hsame | ⟨t,secret,hparts,hold,hrun⟩
  · rw [hsame]
    exact hidle
  · rw [hrun]
    rcases update_cases hdb s t (lastUse now) with hsame | ⟨t',hrenewed,hafter⟩
    · rw [hsame]
      exact hidle
    · rw [hafter]
      refine ⟨fun id hid => Function.update_of_ne ?_ _ _,fun id t₁ h₁ => ?_⟩
      · rintro rfl
        exact hid (by rw [hparts]; rfl)
      · by_cases heq : id = t.id
        · subst heq
          obtain rfl := Option.some.inj (hold.symm.trans h₁)
          exact ⟨t',Function.update_self _ _ _,hrenewed.secretHash rfl,hrenewed.createdBy rfl,hrenewed.expiresAt rfl⟩
        · exact ⟨t₁,(Function.update_of_ne heq _ _).trans h₁,rfl,rfl,rfl⟩

theorem latest_secret_only (hdb : db.Exact content) (hstores : db.Stores) {s : σ} (hempty : ∀ id, content s id = none)
    (bcrypt : Bcrypt) (doubles : Doubles) (ops : List Op) (now : Int) (raw : String) :
    ((∃ t, (authenticate db bcrypt.compare doubles now (after db bcrypt doubles ⟨s,[]⟩ ops).store raw).1 = .ok t) ↔
      Accepts doubles content (after db bcrypt doubles ⟨s,[]⟩ ops) now raw) ∧
    Spares raw (content (after db bcrypt doubles ⟨s,[]⟩ ops).store) (content
      (authenticate db bcrypt.compare doubles now (after db bcrypt doubles ⟨s,[]⟩ ops).store raw).2) := by
  have hstart : Sound bcrypt content ⟨s,[]⟩ := fun id t hold => by simp [hempty id] at hold
  exact ⟨accepts_iff hdb (sound_after hdb hstores hstart ops),spares_authenticate hdb _⟩

def plainBcrypt : Bcrypt where
  hash _ secret := .ok ("$2b$10$" ++ secret)
  compare other h := h == "$2b$10$" ++ other
  exact _ secret h hhash other := by
    cases hhash
    rw [beq_iff_eq, String.append_right_inj, eq_comm]

def tokenId : Hex 24 := .ofList (List.replicate 24 '0') (by decide) (by decide)

def hexOf (c : Char) (hex : isHex c = true) : Hex 48 :=
  .ofList (List.replicate 48 c) (List.length_replicate ..) (by simp [hex])

def firstSecret : Hex 48 := hexOf 'a' rfl

def rotated : List Op :=
  [.add { name := some ⟨"ci",.nan,true,false⟩, createdBy := some "alice" } tokenId firstSecret "salt",
    .rotate tokenId.text (hexOf 'b' rfl) "pepper",.update tokenId.text { expiresAt := some (.int 5000) }]

theorem latest_secret_rotated : (∃ t, (authenticate records plainBcrypt.compare integers 4000
      (after records plainBcrypt integers ⟨Records.empty,[]⟩ rotated).store
      ("JMP_" ++ tokenId.text ++ "_" ++ (hexOf 'b' rfl).text)).1 = .ok t) := by
  have hfind : ((after records plainBcrypt integers ⟨Records.empty,[]⟩ rotated).store.find tokenId.text).any (fun t =>
      t.isValid && !integers.greater (.int 4000) t.expiresAt) = true := by decide +kernel
  obtain ⟨t,ht,hvalid⟩ := (Option.any_eq_true _ _).mp hfind
  simp only [Bool.and_eq_true, Bool.not_eq_true'] at hvalid
  exact (latest_secret_only records_exact records_stores (fun _ => rfl) plainBcrypt integers rotated 4000 _).1.mpr
    ⟨"JMP_",tokenId.text,hexOf 'b' rfl,t,by decide,rfl,ht,by decide +kernel,hvalid.1,.inr hvalid.2⟩

end Acceptance

section Routes

variable {σ : Type} {db : Table σ} {bcrypt : Bcrypt} {doubles : Doubles} {content : σ → String → Option Token}
  {s : σ} {username id salt : String}

def Random : TokenRoutes.Route → Prop
  | .create _ id secret => (∃ i : Hex 24, i.text = id) ∧ ∃ x : Hex 48, x.text = secret
  | .rotate _ secret => ∃ x : Hex 48, x.text = secret
  | .list | .read _ | .update _ _ | .delete _ => True

def runRoute (db : Table σ) (bcrypt : Bcrypt) (doubles : Doubles) (s : σ) (call : String × TokenRoutes.Call) : σ :=
  (TokenRoutes.handle db (bcrypt.hash call.1) doubles s call.2).2

theorem onToken_owned (hdb : db.Exact content) {h : History σ} {t : Token} (act : Token → History σ)
    (howned : TokenRoutes.getOwned db h.store username id = .ok t) : onToken db h id act = act t := by
  have hget := (hdb.get h.store id t).mpr (TokenRoutes.getOwned_ok hdb howned).1
  rw [onToken, hget]

theorem op_of_owned (hdb : db.Exact content) (username : String) {h : History σ} {act : Token → History σ}
    {s' : σ} (op : Op) (hop : step db bcrypt doubles h op = onToken db h id act)
    (hrefused : ∀ error, TokenRoutes.getOwned db h.store username id = .error error → s' = h.store)
    (howned : ∀ t, TokenRoutes.getOwned db h.store username id = .ok t → s' = (act t).store) :
    ∃ ops, (after db bcrypt doubles h ops).store = s' := by
  cases hgot : TokenRoutes.getOwned db h.store username id with
  | error error => exact ⟨[],(hrefused error hgot).symm⟩
  | ok t =>
    refine ⟨[op],?_⟩
    rw [after, List.foldl_cons, List.foldl_nil, hop, onToken_owned hdb act hgot, howned t hgot]

theorem runRoute_op (hdb : db.Exact content) (bcrypt : Bcrypt) (doubles : Doubles) (h : History σ)
    (call : String × TokenRoutes.Call) (hrandom : Random call.2.route) : ∃ ops,
      (after db bcrypt doubles h ops).store = runRoute db bcrypt doubles h.store call := by
  obtain ⟨salt,username,now,route⟩ := call
  cases route with
  | list =>
    refine ⟨[],?_⟩
    simp only [runRoute, TokenRoutes.handle, TokenRoutes.list]
    cases db.listDetail h.store username <;> rfl
  | read id =>
    refine ⟨[],?_⟩
    simp only [runRoute, TokenRoutes.handle, TokenRoutes.read]
    cases TokenRoutes.getOwned db h.store username id <;> rfl
  | create body id secret =>
    obtain ⟨⟨i,rfl⟩,x,rfl⟩ := hrandom
    refine ⟨[.add (TokenRoutes.createData doubles username now body) i x salt],?_⟩
    simp only [runRoute, TokenRoutes.handle, TokenRoutes.create, after, List.foldl_cons, List.foldl_nil, step, issue]
    split
    · next hadd => rw [hadd]
    · next hadd => rw [hadd]
  | update id body =>
    let data := TokenRoutes.updateData doubles now body
    refine op_of_owned hdb username
      (.update id { name := data.name, description := data.description, expiresAt := data.expiresAt }) rfl
      (fun error hrefused => ?_) (fun t howned => ?_)
    · simp only [runRoute, TokenRoutes.handle, TokenRoutes.update, hrefused]
    · simp only [runRoute, TokenRoutes.handle, TokenRoutes.update, howned]
      split
      · next hupdate => exact congrArg Prod.snd hupdate.symm
      · next hupdate => exact congrArg Prod.snd hupdate.symm
  | delete id =>
    refine op_of_owned hdb username (.remove id) rfl (fun error hrefused => ?_) (fun t howned => ?_)
    · simp only [runRoute, TokenRoutes.handle, TokenRoutes.delete, hrefused]
    · simp only [runRoute, TokenRoutes.handle, TokenRoutes.delete, howned]
      split
      · next hremove => exact congrArg Prod.snd hremove.symm
      · next hremove => exact congrArg Prod.snd hremove.symm
  | rotate id secret =>
    obtain ⟨x,rfl⟩ := hrandom
    refine op_of_owned hdb username (.rotate id x salt) rfl (fun error hrefused => ?_) (fun t howned => ?_)
    · simp only [runRoute, TokenRoutes.handle, TokenRoutes.rotate, hrefused]
    · simp only [runRoute, TokenRoutes.handle, TokenRoutes.rotate, howned, issue]
      split
      · next hrotate => exact congrArg Prod.snd hrotate.symm
      · next hrotate => exact congrArg Prod.snd hrotate.symm

theorem routes_history (hdb : db.Exact content) (h : History σ) (calls : List (String × TokenRoutes.Call))
    (hrandom : ∀ call ∈ calls, Random call.2.route) :
    ∃ ops, (after db bcrypt doubles h ops).store = calls.foldl (runRoute db bcrypt doubles) h.store := by
  induction calls generalizing h with
  | nil => exact ⟨[],rfl⟩
  | cons call calls ih =>
    obtain ⟨ops,hops⟩ := runRoute_op hdb bcrypt doubles h call (hrandom call List.mem_cons_self)
    obtain ⟨rest,hrest⟩ := ih (after db bcrypt doubles h ops) fun other hother =>
      hrandom other (List.mem_cons_of_mem call hother)
    refine ⟨ops ++ rest,?_⟩
    rw [after, List.foldl_append, List.foldl_cons, ← hops]
    exact hrest

end Routes

end JumpHost.Web.TokenHistory
