import Mathlib.Logic.Function.Basic
import JumpHost.Library.Run

namespace JumpHost.Keys

abbrev Blob := List UInt8

structure PublicKey where
  type : String
  blob : Blob
deriving DecidableEq, Repr

structure CtxKey where
  algo : String
  data : Blob
deriving DecidableEq, Repr

structure User where
  dn : String
  uid : String
  sshPublicKeys : List String
deriving DecidableEq, Repr

section InboundKeys

variable (parseKey : String → Option PublicKey)

def setOwnKeyBlob (OWN_KEY_BLOB : Option Blob) (keyLine : String) : Option Blob :=
  if keyLine = "" then OWN_KEY_BLOB
  else match parseKey keyLine with
    | none => OWN_KEY_BLOB
    | some key => some key.blob

def matchLines (OWN_KEY_BLOB : Option Blob) (ctxKey : CtxKey) : List String → Option PublicKey
  | [] => none
  | line :: lines => match parseKey line with
      | none => matchLines OWN_KEY_BLOB ctxKey lines
      | some key =>
          if OWN_KEY_BLOB = some key.blob then matchLines OWN_KEY_BLOB ctxKey lines
          else if key.type = ctxKey.algo ∧ key.blob = ctxKey.data then some key
          else matchLines OWN_KEY_BLOB ctxKey lines

def userKeyMatches (OWN_KEY_BLOB : Option Blob) (user : User) (ctxKey : CtxKey) : Option PublicKey :=
  matchLines parseKey OWN_KEY_BLOB ctxKey user.sshPublicKeys

structure Match (OWN_KEY_BLOB : Option Blob) (ctxKey : CtxKey) (lines : List String)
    (key : PublicKey) : Prop where
  listed : ∃ line ∈ lines, parseKey line = some key
  foreign : OWN_KEY_BLOB ≠ some key.blob
  algo : key.type = ctxKey.algo
  data : key.blob = ctxKey.data

variable {parseKey} {own : Option Blob} {ctxKey : CtxKey}

theorem matchLines_sound {lines : List String} {key : PublicKey}
    (h : matchLines parseKey own ctxKey lines = some key) :
    Match parseKey own ctxKey lines key := by
  induction lines with
  | nil => simp [matchLines] at h
  | cons line lines ih =>
    have later (hl : matchLines parseKey own ctxKey lines = some key) :
        Match parseKey own ctxKey (line :: lines) key := by
      obtain ⟨l,hmem,hp⟩ := (ih hl).listed
      exact { ih hl with listed := ⟨l,List.mem_cons_of_mem _ hmem,hp⟩ }
    cases hp : parseKey line with
    | none => exact later (by simpa [matchLines, hp] using h)
    | some k =>
      simp only [matchLines, hp] at h
      split at h
      · exact later h
      · next hown =>
        split at h
        · next hk =>
          cases h
          exact ⟨⟨line,by simp,hp⟩,hown,hk.1,hk.2⟩
        · exact later h

theorem matchLines_complete {lines : List String} {line : String} {key : PublicKey}
    (hl : line ∈ lines) (hp : parseKey line = some key) (hown : own ≠ some key.blob) :
    matchLines parseKey own ⟨key.type,key.blob⟩ lines = some key := by
  induction lines with
  | nil => simp at hl
  | cons l lines ih =>
    rcases List.mem_cons.mp hl with rfl | hl
    · simp [matchLines, hp, hown]
    · cases hk : parseKey l with
      | none => simpa [matchLines, hk] using ih hl
      | some k =>
        obtain ⟨kt,kb⟩ := k
        simp only [matchLines, hk]
        split
        · exact ih hl
        · split
          · next h => obtain ⟨rfl,rfl⟩ := h; rfl
          · exact ih hl

theorem userKeyMatches_iff {user : User} {key : PublicKey} :
    (∃ ctxKey, userKeyMatches parseKey own user ctxKey = some key) ↔
      (∃ line ∈ user.sshPublicKeys, parseKey line = some key) ∧ own ≠ some key.blob := by
  constructor
  · rintro ⟨ctxKey,h⟩
    have hm := matchLines_sound h
    exact ⟨hm.listed,hm.foreign⟩
  · rintro ⟨⟨line,hl,hp⟩,hown⟩
    exact ⟨⟨key.type,key.blob⟩,matchLines_complete hl hp hown⟩

structure JumpKeys (parseKey : String → Option PublicKey) where
  clientKey : String
  publicLine : String
  key : PublicKey
  nonempty : publicLine ≠ ""
  parses : parseKey publicLine = some key

def JumpKeys.OWN_KEY_BLOB (keys : JumpKeys parseKey) : Option Blob :=
  setOwnKeyBlob parseKey none keys.publicLine

@[simp] theorem JumpKeys.own_key_blob (keys : JumpKeys parseKey) :
    keys.OWN_KEY_BLOB = some keys.key.blob := by
  simp [OWN_KEY_BLOB, setOwnKeyBlob, keys.nonempty, keys.parses]

end InboundKeys

section Injection

structure InjectStore where
  injected : String → Bool
  sshPublicKeys : String → List String

-- the error of each awaited call, `none` where it succeeds
structure InjectCalls where
  get : Option String := none
  addSshKey : Option String := none
  set : Option String := none

def addSshKey (store : InjectStore) (dn keyLine : String) : InjectStore :=
  if keyLine ∈ store.sshPublicKeys dn then store
  else
    let keys := store.sshPublicKeys dn ++ [keyLine]
    { store with sshPublicKeys := Function.update store.sshPublicKeys dn keys }

def ensureKeyInjected (calls : InjectCalls) (user : User) (publicLine : String)
    (store : InjectStore) : Except String Bool × InjectStore :=
  match calls.get with
  | some err => (.error err,store)
  | none =>
    if store.injected user.uid then (.ok false,store)
    else
      let already := user.sshPublicKeys.contains publicLine
      match if already then none else calls.addSshKey with
      | some err => (.error err,store)
      | none =>
        let store := if already then store else addSshKey store user.dn publicLine
        match calls.set with
        | some err => (.error err,store)
        | none => (.ok !already,{ store with injected := Function.update store.injected user.uid true })

def clearInjectedFlag (uid : String) (store : InjectStore) : InjectStore :=
  { store with injected := Function.update store.injected uid false }

theorem mem_addSshKey (store : InjectStore) (dn dn' line line' : String) :
    line' ∈ (addSshKey store dn line).sshPublicKeys dn' ↔
      line' ∈ store.sshPublicKeys dn' ∨ (dn' = dn ∧ line' = line) := by
  unfold addSshKey
  split
  · next h =>
    constructor
    · exact .inl
    · rintro (h' | ⟨rfl,rfl⟩)
      exacts [h',h]
  · by_cases hd : dn' = dn
    · subst hd
      simp
    · simp [hd]

theorem mem_ensureKeyInjected {user : User} {line line' dn : String} {store : InjectStore}
    (hu : user.sshPublicKeys = store.sshPublicKeys user.dn) :
    line' ∈ (ensureKeyInjected {} user line store).2.sshPublicKeys dn ↔
      line' ∈ store.sshPublicKeys dn ∨
        (store.injected user.uid = false ∧ dn = user.dn ∧ line' = line) := by
  cases hf : store.injected user.uid with
  | true => simp [ensureKeyInjected, hf]
  | false =>
    by_cases ha : line ∈ user.sshPublicKeys
    · have hs : line ∈ store.sshPublicKeys user.dn := hu ▸ ha
      simp only [ensureKeyInjected, hf, List.contains_iff_mem, ha, if_true, true_and]
      constructor
      · exact .inl
      · rintro (h | ⟨rfl,rfl⟩)
        exacts [h,hs]
    · simp [ensureKeyInjected, hf, ha, mem_addSshKey]

theorem injected_ensureKeyInjected (user : User) (line uid : String) (store : InjectStore) :
    (ensureKeyInjected {} user line store).2.injected uid = true ↔
      store.injected uid = true ∨ uid = user.uid := by
  have hadd : ∀ dn : String, (addSshKey store dn line).injected = store.injected := by
    intro dn
    unfold addSshKey
    split <;> rfl
  cases hf : store.injected user.uid with
  | true =>
    simp only [ensureKeyInjected, hf, if_true]
    exact ⟨.inl,fun h => h.elim id (fun e => e ▸ hf)⟩
  | false =>
    by_cases hu : uid = user.uid
    · subst hu
      simp [ensureKeyInjected, hf]
    · by_cases ha : line ∈ user.sshPublicKeys <;>
        simp [ensureKeyInjected, hf, ha, hadd, hu]

end Injection

end JumpHost.Keys
