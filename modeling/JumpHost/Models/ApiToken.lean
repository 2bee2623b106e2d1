import Mathlib.Logic.Function.Basic
import JumpHost.Library.OrdMap
import JumpHost.Value

namespace JumpHost.ApiToken

section Tokens

-- `created_by: {isRequired: true, type: 'string', min: 3, max: 500}`
structure Token where
  id : String
  secretHash : String
  name : String
  description : String := ""
  createdBy : String
  createdOn : Num
  updatedOn : Num
  expiresAt : Num := .int 0
  lastUsedOn : Num := .int 0
  isValid : Bool := true
  owned : createdBy ≠ ""
deriving DecidableEq

def PREFIX : String := "jmp_"

def rawToken (id secret : String) : String := PREFIX ++ id ++ "_" ++ secret

def Token.isExpired (doubles : Doubles) (now : Int) (t : Token) : Bool :=
  doubles.greater t.expiresAt (.int 0) && doubles.greater (.int now) t.expiresAt

def isHex (c : Char) : Bool := ('0' ≤ c && c ≤ '9') || ('a' ≤ c && c ≤ 'f') || ('A' ≤ c && c ≤ 'F')

-- /^jmp_([0-9a-f]{24})_([0-9a-f]{48})$/i
def rawParts (raw : String) : Option (String × String) :=
  let cs := raw.toList
  let id := (cs.drop 4).take 24
  let secret := cs.drop 29
  if (cs.take 4).map Char.toLower = PREFIX.toList ∧ id.length = 24 ∧ id.all isHex ∧ cs[28]? = some '_' ∧
      secret.length = 48 ∧ secret.all isHex then
    some (String.ofList id,String.ofList secret)
  else none

-- the fields an object passed to `create` or `update` names
structure Data where
  id : Option String := none
  secretHash : Option String := none
  name : Option Value := none
  description : Option Value := none
  createdBy : Option String := none
  expiresAt : Option Num := none
  lastUsedOn : Option Num := none
  isValid : Option Bool := none

end Tokens

section Tables

structure HttpError where
  name : String
  message : String
  status : Nat
deriving DecidableEq

structure Table (σ : Type) where
  get : σ → String → Except HttpError (Option Token)
  create : σ → Data → Except HttpError Token × σ
  update : σ → Token → Data → Except HttpError Token × σ
  remove : σ → Token → Except HttpError Unit × σ
  listDetail : σ → String → Except HttpError (List Token)

structure Renewed (data : Data) (t t' : Token) : Prop where
  id : data.id = none → t'.id = t.id
  secretHash : data.secretHash = none → t'.secretHash = t.secretHash
  name : data.name = none → t'.name = t.name
  description : data.description = none → t'.description = t.description
  createdBy : data.createdBy = none → t'.createdBy = t.createdBy
  createdOn : t'.createdOn = t.createdOn
  expiresAt : data.expiresAt = none → t'.expiresAt = t.expiresAt
  lastUsedOn : data.lastUsedOn = none → t'.lastUsedOn = t.lastUsedOn
  isValid : data.isValid = none → t'.isValid = t.isValid

structure Table.Exact {σ : Type} (db : Table σ) (content : σ → String → Option Token) : Prop where
  keyed : ∀ s id t, content s id = some t → t.id = id
  get : ∀ s id t, db.get s id = .ok (some t) ↔ content s id = some t
  created : ∀ s data t s', db.create s data = (.ok t,s') → content s t.id = none ∧
    (∀ id, data.id = some id → t.id = id) ∧ (∀ user, data.createdBy = some user → t.createdBy = user) ∧
    (data.isValid = none → t.isValid = true) ∧ content s' = Function.update (content s) t.id (some t)
  notCreated : ∀ s data error s', db.create s data = (.error error,s') → content s' = content s
  updated : ∀ s t data t' s', db.update s t data = (.ok t',s') → Renewed data t t' ∧
    content s' = Function.update (content s) t.id (some t')
  notUpdated : ∀ s t data error s', db.update s t data = (.error error,s') → content s' = content s
  removed : ∀ s t s', db.remove s t = (.ok (),s') → content s' = Function.update (content s) t.id none
  notRemoved : ∀ s t error s', db.remove s t = (.error error,s') → content s' = content s
  listed : ∀ s user ts, db.listDetail s user = .ok ts → ∀ t, t ∈ ts ↔ content s t.id = some t ∧ t.createdBy = user

structure Table.Stores {σ : Type} (db : Table σ) : Prop where
  createdHash : ∀ s data t s' h, db.create s data = (.ok t,s') → data.secretHash = some h → t.secretHash = h
  updatedHash : ∀ s t data t' s' h, db.update s t data = (.ok t',s') → data.secretHash = some h → t'.secretHash = h
  createdExpiry : ∀ s data t s' e, db.create s data = (.ok t,s') → data.expiresAt = some e → t.expiresAt = e
  updatedExpiry : ∀ s t data t' s' e, db.update s t data = (.ok t',s') → data.expiresAt = some e → t'.expiresAt = e

variable {σ : Type} (db : Table σ) (hash : String → Except HttpError String)

-- `id` and `secret` are fresh random hex
def add (s : σ) (id secret : String) (data : Data) : Except HttpError (Token × String) × σ :=
  match hash secret with
  | .error error => (.error error,s)
  | .ok secretHash => match db.create s { data with id := some id, secretHash := some secretHash } with
      | (.error error,s') => (.error error,s')
      | (.ok t,s') => (.ok (t,rawToken id secret),s')

def rotate (s : σ) (t : Token) (secret : String) : Except HttpError String × σ :=
  match hash secret with
  | .error error => (.error error,s)
  | .ok secretHash => match db.update s t { secretHash := some secretHash } with
      | (.error error,s') => (.error error,s')
      | (.ok _,s') => (.ok (rawToken t.id secret),s')

def invalid : HttpError := ⟨"Error","InvalidApiToken",500⟩

def authenticate (compare : String → String → Bool) (doubles : Doubles) (now : Int) (s : σ) (raw : String) :
    Except HttpError Token × σ :=
  match rawParts raw with
  | none => (.error invalid,s)
  | some (id,secret) => match db.get s id with
      | .error _ | .ok none => (.error invalid,s)
      | .ok (some t) =>
          if !compare secret t.secretHash || !t.isValid || t.isExpired doubles now then (.error invalid,s)
          else (.ok t,(db.update s t { lastUsedOn := some (.int now) }).2)

end Tables

section Records

structure Records where
  tokens : OrdMap String Token
  keyed : ∀ id t, tokens.get? id = some t → t.id = id

def Records.set (s : Records) (t : Token) : Records where
  tokens := s.tokens.set t.id t
  keyed := fun id t' h => by
    by_cases hid : id = t.id
    · subst hid
      rw [OrdMap.get?_set_self] at h
      rw [Option.some.inj h]
    · rw [OrdMap.get?_set_of_ne _ hid] at h
      exact s.keyed id t' h

def Records.delete (s : Records) (id : String) : Records where
  tokens := s.tokens.delete id
  keyed := fun id' t h => by
    have hne : id' ≠ id := (OrdMap.mem_keys_delete.mp (OrdMap.mem_keys_iff.mpr ⟨t,h⟩)).2
    rw [OrdMap.get?_delete_of_ne hne] at h
    exact s.keyed id' t h

def Records.empty : Records := ⟨.empty,fun _ _ h => by cases h⟩

def Records.find (s : Records) (id : String) : Option Token := s.tokens.get? id

def notFound : HttpError := ⟨"EntryNotFound","entry not found",404⟩

def invalidData : HttpError := ⟨"ObjectValidateError","invalid data",422⟩

def Token.renewed (t : Token) (data : Data) : Token :=
  { t with
    secretHash := data.secretHash.getD t.secretHash
    name := (data.name.map Value.text).getD t.name
    description := (data.description.map Value.text).getD t.description
    expiresAt := data.expiresAt.getD t.expiresAt
    lastUsedOn := data.lastUsedOn.getD t.lastUsedOn
    isValid := data.isValid.getD t.isValid }

def Records.create (s : Records) (data : Data) : Except HttpError Token × Records :=
  let id := data.id.getD ""
  let createdBy := data.createdBy.getD ""
  if h : createdBy ≠ "" ∧ s.find id = none then
    let t : Token := ⟨id,"","","",createdBy,.int 0,.int 0,.int 0,.int 0,true,h.1⟩
    (.ok (t.renewed data),s.set (t.renewed data))
  else (.error invalidData,s)

def Records.update (s : Records) (t : Token) (data : Data) : Except HttpError Token × Records :=
  if data.id = none ∧ data.createdBy = none then (.ok (t.renewed data),s.set (t.renewed data))
  else (.error invalidData,s)

def records : Table Records where
  get s id := match s.find id with
    | none => .error notFound
    | some t => .ok (some t)
  create := Records.create
  update := Records.update
  remove s t := (.ok (),s.delete t.id)
  listDetail s username := .ok ((s.tokens.entries.map Prod.snd).filter (·.createdBy = username))

theorem find_set (s : Records) (t : Token) : (s.set t).find = Function.update s.find t.id (some t) := by
  funext id
  by_cases hid : id = t.id
  · subst hid
    simp [Records.find, Records.set, OrdMap.get?_set_self]
  · simp [Records.find, Records.set, OrdMap.get?_set_of_ne _ hid, Function.update_of_ne hid]

theorem find_delete (s : Records) (id : String) : (s.delete id).find = Function.update s.find id none := by
  funext id'
  by_cases hid : id' = id
  · subst hid
    have hgone : id' ∉ (s.tokens.delete id').keys := fun h => (OrdMap.mem_keys_delete.mp h).2 rfl
    simpa [Records.find, Records.delete] using OrdMap.get?_eq_none_iff.mpr hgone
  · simp [Records.find, Records.delete, OrdMap.get?_delete_of_ne hid, Function.update_of_ne hid]

theorem renewed_renews (t : Token) (data : Data) : Renewed data t (t.renewed data) := by
  constructor <;> intros <;> simp_all [Token.renewed]

theorem records_exact : records.Exact Records.find where
  keyed s id t h := s.keyed id t h
  get s id t := by
    simp only [records]
    split <;> simp_all
  created s data t s' h := by
    simp only [records, Records.create] at h
    split at h
    · next hnew =>
      cases h
      refine ⟨hnew.2,?_,?_,?_,find_set _ _⟩
      · rintro id hid
        simp [Token.renewed, hid]
      · rintro username howner
        simp [Token.renewed, howner]
      · intro hvalid
        simp [Token.renewed, hvalid]
    · cases h
  notCreated s data error s' h := by
    simp only [records, Records.create] at h
    split at h <;> cases h
    rfl
  updated s t data t' s' h := by
    simp only [records, Records.update] at h
    split at h
    · cases h
      exact ⟨renewed_renews t data,find_set _ _⟩
    · cases h
  notUpdated s t data error s' h := by
    simp only [records, Records.update] at h
    split at h <;> cases h
    rfl
  removed s t s' h := by
    cases h
    exact find_delete s t.id
  notRemoved s t error s' h := by cases h
  listed s username ts h t := by
    cases h
    simp only [List.mem_filter, List.mem_map, decide_eq_true_eq, Prod.exists, exists_eq_right]
    refine and_congr_left fun _ => ⟨fun hlisted => ?_,fun hfind => ⟨t.id,OrdMap.mem_entries_iff.mpr hfind⟩⟩
    obtain ⟨id,hmem⟩ := hlisted
    have hfind : s.find id = some t := OrdMap.mem_entries_iff.mp hmem
    rwa [s.keyed id t hfind]

theorem create_ok {s s' : Records} {data : Data} {t : Token} (h : records.create s data = (.ok t,s')) :
    ∃ t₀ : Token, t = t₀.renewed data := by
  simp only [records, Records.create] at h
  split at h
  · cases h
    exact ⟨_,rfl⟩
  · cases h

theorem update_ok {s s' : Records} {t t' : Token} {data : Data} (h : records.update s t data = (.ok t',s')) :
    t' = t.renewed data := by
  simp only [records, Records.update] at h
  split at h
  · cases h
    rfl
  · cases h

theorem records_stores : records.Stores where
  createdHash s data t s' h hok hhash := by
    obtain ⟨t₀,rfl⟩ := create_ok hok
    simp [Token.renewed, hhash]
  updatedHash s t data t' s' h hok hhash := by
    obtain rfl := update_ok hok
    simp [Token.renewed, hhash]
  createdExpiry s data t s' e hok hexpiry := by
    obtain ⟨t₀,rfl⟩ := create_ok hok
    simp [Token.renewed, hexpiry]
  updatedExpiry s t data t' s' e hok hexpiry := by
    obtain rfl := update_ok hok
    simp [Token.renewed, hexpiry]

end Records

end JumpHost.ApiToken
