import Mathlib.Logic.Function.Basic
import JumpHost.Library.Net
import JumpHost.Library.OrdMap
import JumpHost.Library.Run
import JumpHost.Value

namespace JumpHost.Mesh.Identity

section Protocol

abbrev Hash := OrdMap String String

structure Keypair where
  publicKey : String
  privateKey : String
  publicKey_ne : publicKey ≠ ""
  privateKey_ne : privateKey ≠ ""

def KEYPAIR_KEY (redisPrefix : String) : String := redisPrefix ++ "wg_gateway_keypair"

def EXIT_KEYPAIR_KEY (redisPrefix : String) : String := redisPrefix ++ "wg_exit_keypair"

-- `stored && stored.publicKey && stored.privateKey`: HGETALL of a key that is not there is empty
def whole (stored : Hash) : Bool := truthy (stored.get? "publicKey") && truthy (stored.get? "privateKey")

def record (kp : Keypair) (now : String) : Hash :=
  ((OrdMap.empty.set "publicKey" kp.publicKey).set "privateKey" kp.privateKey).set "createdAt" now

def hSet (stored record : Hash) : Hash := record.entries.foldl (fun stored field => stored.set field.1 field.2) stored

inductive Stage where
  | reading
  | writing (record : Hash)
  | returned (record : Hash)
  | failed

def Stage.pending : Stage → Bool
  | .reading | .writing _ => true
  | .returned _ | .failed => false

structure Call where
  redisKey : String
  stage : Stage

structure Store where
  hashes : String → Hash := fun _ => OrdMap.empty
  calls : List Call := []
  generated : List String := []

inductive Event where
  | keypair (redisKey : String)
  | hGetAll (call : Nat) (answered : Bool) (now : String)
  | hSet (call : Nat) (written answered : Bool)

def Store.move (s : Store) (i : Nat) (redisKey : String) (stage : Stage) : Store :=
  { s with calls := s.calls.set i ⟨redisKey,stage⟩ }

def Store.write (s : Store) (redisKey : String) (record : Hash) : Store :=
  { s with hashes := Function.update s.hashes redisKey (hSet (s.hashes redisKey) record) }

variable (generateKeypair : Nat → Keypair)

def afterRead (s : Store) (i : Nat) (redisKey now : String) : Store :=
  if whole (s.hashes redisKey) then s.move i redisKey (.returned (s.hashes redisKey))
  else { s.move i redisKey (.writing (record (generateKeypair s.generated.length) now)) with
    generated := s.generated ++ [redisKey] }

def step (s : Store) : Event → Option Store
  | .keypair redisKey => some { s with calls := s.calls ++ [⟨redisKey,.reading⟩] }
  | .hGetAll i answered now => match s.calls[i]? with
      | some ⟨redisKey,.reading⟩ =>
          some (if answered then afterRead generateKeypair s i redisKey now else s.move i redisKey .failed)
      | _ => none
  | .hSet i written answered => match s.calls[i]? with
      | some ⟨redisKey,.writing record⟩ =>
          let stage := if written && answered then .returned record else .failed
          some ((if written then s.write redisKey record else s).move i redisKey stage)
      | _ => none

def serial (s : Store) : Event → Bool
  | .keypair redisKey =>
      whole (s.hashes redisKey) || s.calls.all fun c => !(c.redisKey == redisKey && c.stage.pending)
  | _ => true

end Protocol

section Moves

variable {generateKeypair : Nat → Keypair} {s t : Store} {e : Event} {i j : Nat} {k k' now : String} {st st' : Stage}
  {r r' : Hash}

inductive Moves (generateKeypair : Nat → Keypair) (s : Store) : Event → Store → Prop
  | asked (k : String) : Moves generateKeypair s (.keypair k) { s with calls := s.calls ++ [⟨k,.reading⟩] }
  | lost {e : Event} (i : Nat) (k : String) (st : Stage) (hcall : s.calls[i]? = some ⟨k,st⟩)
      (hpending : st.pending = true) :
      Moves generateKeypair s e (s.move i k .failed)
  | found {e : Event} (i : Nat) (k : String) (hcall : s.calls[i]? = some ⟨k,.reading⟩)
      (hwhole : whole (s.hashes k) = true) :
      Moves generateKeypair s e (s.move i k (.returned (s.hashes k)))
  | made {e : Event} (i : Nat) (k now : String) (hcall : s.calls[i]? = some ⟨k,.reading⟩)
      (hnone : whole (s.hashes k) = false) : Moves generateKeypair s e
        { s.move i k (.writing (record (generateKeypair s.generated.length) now)) with generated := s.generated ++ [k] }
  | wrote {e : Event} (i : Nat) (k : String) (r : Hash) (st : Stage) (hcall : s.calls[i]? = some ⟨k,.writing r⟩)
      (hst : st = .returned r ∨ st = .failed) : Moves generateKeypair s e ((s.write k r).move i k st)

theorem moves_of_step (h : step generateKeypair s e = some t) : Moves generateKeypair s e t := by
  cases e with
  | keypair k =>
    cases h
    exact .asked k
  | hGetAll i answered now =>
    simp only [step] at h
    split at h
    · next k hcall =>
      cases h
      cases answered with
      | false => exact .lost i k .reading hcall rfl
      | true =>
        simp only [if_true, afterRead]
        split
        · next hwhole => exact .found i k hcall hwhole
        · next hnone => exact .made i k now hcall (by simpa using hnone)
    · cases h
  | hSet i written answered =>
    simp only [step] at h
    split at h
    · next k r hcall =>
      cases h
      cases written with
      | false => exact .lost i k (.writing r) hcall rfl
      | true => exact .wrote i k r _ hcall (by cases answered <;> simp)
    · cases h

theorem calls_move (hcall : s.calls[i]? = some ⟨k,st⟩) : (s.move i k st').calls[j]? =
    if i = j then some ⟨k,st'⟩ else s.calls[j]? := by
  have hi : i < s.calls.length := (List.getElem?_eq_some_iff.mp hcall).1
  simp only [Store.move, List.getElem?_set, hi, if_true]

def pairOf (r : Hash) : Option String × Option String := (r.get? "publicKey",r.get? "privateKey")

theorem whole_congr (h : pairOf r = pairOf r') : whole r = whole r' := by
  obtain ⟨hpub,hpriv⟩ := Prod.mk.inj h
  rw [whole, whole, hpub, hpriv]

theorem get?_record (kp : Keypair) (now : String) : (record kp now).get? "publicKey" = some kp.publicKey ∧
    (record kp now).get? "privateKey" = some kp.privateKey := by
  constructor
  · rw [record, OrdMap.get?_set_of_ne _ (by decide), OrdMap.get?_set_of_ne _ (by decide), OrdMap.get?_set_self]
  · rw [record, OrdMap.get?_set_of_ne _ (by decide), OrdMap.get?_set_self]

theorem whole_record (kp : Keypair) (now : String) : whole (record kp now) = true := by
  obtain ⟨hpub,hpriv⟩ := get?_record kp now
  simp [whole, hpub, hpriv, truthy, kp.publicKey_ne, kp.privateKey_ne]

theorem pairOf_hSet (stored : Hash) (kp : Keypair) (now : String) :
    pairOf (hSet stored (record kp now)) = pairOf (record kp now) := by
  have hentries : (record kp now).entries =
      [("publicKey",kp.publicKey),("privateKey",kp.privateKey),("createdAt",now)] := rfl
  obtain ⟨hpub,hpriv⟩ := get?_record kp now
  rw [pairOf, pairOf, hpub, hpriv, hSet, hentries]
  simp only [List.foldl_cons, List.foldl_nil]
  rw [OrdMap.get?_set_of_ne _ (by decide), OrdMap.get?_set_of_ne _ (by decide), OrdMap.get?_set_self,
    OrdMap.get?_set_of_ne _ (by decide), OrdMap.get?_set_self]

theorem of_asked {c : Call} (h : (s.calls ++ [⟨k,.reading⟩])[j]? = some c) :
    s.calls[j]? = some c ∨ j = s.calls.length ∧ c = ⟨k,.reading⟩ := by
  rw [List.getElem?_append] at h
  split at h
  · exact .inl h
  · next hlen =>
    have hlast : j - s.calls.length = 0 := by
      by_contra hne
      rw [List.getElem?_eq_none (by simp only [List.length_singleton]; omega)] at h
      cases h
    rw [hlast] at h
    exact .inr ⟨by omega,(Option.some.inj h).symm⟩

theorem of_move {c : Call} (hcall : s.calls[i]? = some ⟨k,st⟩) (h : (s.move i k st').calls[j]? = some c) :
    s.calls[j]? = some c ∧ i ≠ j ∨ i = j ∧ c = ⟨k,st'⟩ := by
  rw [calls_move hcall] at h
  split at h
  · next heq => exact .inr ⟨heq,(Option.some.inj h).symm⟩
  · next hne => exact .inl ⟨h,hne⟩

def Store.Each (s : Store) (Q : Nat → Call → Prop) : Prop := ∀ i c, s.calls[i]? = some c → Q i c

theorem each_asked {Q : Nat → Call → Prop} (h : s.Each Q) (hnew : Q s.calls.length ⟨k,.reading⟩) :
    Store.Each { s with calls := s.calls ++ [⟨k,.reading⟩] } Q := by
  intro j c hj
  rcases of_asked hj with hold | ⟨rfl,rfl⟩
  · exact h j c hold
  · exact hnew

theorem each_move {Q : Nat → Call → Prop} (h : s.Each Q) (hcall : s.calls[i]? = some ⟨k,st⟩) (hnew : Q i ⟨k,st'⟩) :
    (s.move i k st').Each Q := by
  intro j c hj
  rcases of_move hcall hj with ⟨hold,-⟩ | ⟨rfl,rfl⟩
  · exact h j c hold
  · exact hnew

end Moves

section OneIdentity

variable {generateKeypair : Nat → Keypair} {s t : Store} {e : Event} {es : List Event} {i j : Nat} {k k' : String}
  {st st' : Stage} {r r' : Hash}

structure Settled (s : Store) : Prop where
  alone : ∀ (i j : Nat) (k : String) (st st' : Stage), s.calls[i]? = some ⟨k,st⟩ → s.calls[j]? = some ⟨k,st'⟩ →
    st.pending = true → st'.pending = true → whole (s.hashes k) = false → i = j
  unstored : ∀ (i : Nat) (k : String) (r : Hash), s.calls[i]? = some ⟨k,.writing r⟩ → whole (s.hashes k) = false
  made : ∀ (i : Nat) (k : String) (r : Hash), s.calls[i]? = some ⟨k,.writing r⟩ → ∃ kp now, r = record kp now
  said : ∀ (i : Nat) (k : String) (r : Hash), s.calls[i]? = some ⟨k,.returned r⟩ →
    whole (s.hashes k) = true ∧ pairOf r = pairOf (s.hashes k)

theorem Settled.moved (h : Settled s) (hcall : s.calls[i]? = some ⟨k,st⟩) (hpending : st.pending = true)
    (hmade : ∀ r, st' = .writing r → (∃ kp now, r = record kp now) ∧ whole (s.hashes k) = false)
    (hsaid : ∀ r, st' = .returned r → whole (s.hashes k) = true ∧ pairOf r = pairOf (s.hashes k)) :
    Settled (s.move i k st') where
  alone i₁ i₂ k₁ st₁ st₂ h₁ h₂ hp₁ hp₂ hnone := by
    rcases of_move hcall h₁ with ⟨hold₁,hne₁⟩ | ⟨rfl,hc₁⟩ <;> rcases of_move hcall h₂ with ⟨hold₂,hne₂⟩ | ⟨rfl,hc₂⟩
    · exact h.alone i₁ i₂ k₁ st₁ st₂ hold₁ hold₂ hp₁ hp₂ hnone
    · cases hc₂
      exact absurd (h.alone i i₁ k st st₁ hcall hold₁ hpending hp₁ hnone) hne₁
    · cases hc₁
      exact absurd (h.alone i i₂ k st st₂ hcall hold₂ hpending hp₂ hnone) hne₂
    · rfl
  unstored i₁ k₁ r₁ h₁ := by
    rcases of_move hcall h₁ with ⟨hold₁,-⟩ | ⟨rfl,hc₁⟩
    · exact h.unstored i₁ k₁ r₁ hold₁
    · cases hc₁
      exact (hmade r₁ rfl).2
  made i₁ k₁ r₁ h₁ := by
    rcases of_move hcall h₁ with ⟨hold₁,-⟩ | ⟨rfl,hc₁⟩
    · exact h.made i₁ k₁ r₁ hold₁
    · cases hc₁
      exact (hmade r₁ rfl).1
  said i₁ k₁ r₁ h₁ := by
    rcases of_move hcall h₁ with ⟨hold₁,-⟩ | ⟨rfl,hc₁⟩
    · exact h.said i₁ k₁ r₁ hold₁
    · cases hc₁
      exact hsaid r₁ rfl

theorem whole_write (kp : Keypair) (now : String) : whole ((s.write k (record kp now)).hashes k) = true ∧
    pairOf (record kp now) = pairOf ((s.write k (record kp now)).hashes k) := by
  have hhash : (s.write k (record kp now)).hashes k = hSet (s.hashes k) (record kp now) := Function.update_self _ _ _
  rw [hhash, whole_congr (pairOf_hSet _ _ _), pairOf_hSet]
  exact ⟨whole_record kp now,rfl⟩

theorem hashes_write (hne : k' ≠ k) : (s.write k r).hashes k' = s.hashes k' := Function.update_of_ne hne _ _

theorem Settled.wrote (h : Settled s) (hcall : s.calls[i]? = some ⟨k,.writing r⟩)
    (hst : st = .returned r ∨ st = .failed) : Settled ((s.write k r).move i k st) := by
  obtain ⟨kp,now,rfl⟩ := h.made i k r hcall
  have hnone := h.unstored i k _ hcall
  obtain ⟨hwhole,hpair⟩ := whole_write (s := s) (k := k) kp now
  have hidle : st.pending = false := by rcases hst with rfl | rfl <;> rfl
  refine ⟨fun i₁ i₂ k₁ st₁ st₂ h₁ h₂ hp₁ hp₂ hnone₁ => ?_,fun i₁ k₁ r₁ h₁ => ?_,fun i₁ k₁ r₁ h₁ => ?_,
    fun i₁ k₁ r₁ h₁ => ?_⟩
  · have hne : k₁ ≠ k := by
      rintro rfl
      exact absurd (hwhole.symm.trans hnone₁) (by decide)
    rcases of_move (s := s.write k _) hcall h₁ with ⟨hold₁,-⟩ | ⟨-,hc₁⟩
    · rcases of_move (s := s.write k _) hcall h₂ with ⟨hold₂,-⟩ | ⟨-,hc₂⟩
      · exact h.alone i₁ i₂ k₁ st₁ st₂ hold₁ hold₂ hp₁ hp₂ (hashes_write hne ▸ hnone₁)
      · exact absurd (congrArg Call.redisKey hc₂) hne
    · exact absurd (congrArg Call.redisKey hc₁) hne
  · rcases of_move (s := s.write k _) hcall h₁ with ⟨hold₁,hne₁⟩ | ⟨-,hc₁⟩
    · have hne : k₁ ≠ k := by
        rintro rfl
        exact hne₁ (h.alone i i₁ k₁ _ _ hcall hold₁ rfl rfl hnone)
      exact (congrArg whole (hashes_write hne)).trans (h.unstored i₁ k₁ r₁ hold₁)
    · cases hc₁
      cases hidle
  · rcases of_move (s := s.write k _) hcall h₁ with ⟨hold₁,-⟩ | ⟨-,hc₁⟩
    · exact h.made i₁ k₁ r₁ hold₁
    · cases hc₁
      cases hidle
  · rcases of_move (s := s.write k _) hcall h₁ with ⟨hold₁,-⟩ | ⟨-,hc₁⟩
    · have hne : k₁ ≠ k := by
        rintro rfl
        exact absurd ((h.said i₁ k₁ r₁ hold₁).1.symm.trans hnone) (by decide)
      change whole ((s.write k _).hashes k₁) = true ∧ pairOf r₁ = pairOf ((s.write k _).hashes k₁)
      rw [hashes_write hne]
      exact h.said i₁ k₁ r₁ hold₁
    · rcases hst with rfl | rfl <;> cases hc₁
      exact ⟨hwhole,hpair⟩

theorem settled_step (h : Settled s) (hguard : serial s e = true) (hstep : step generateKeypair s e = some t) :
    Settled t := by
  have hmoves := moves_of_step hstep
  cases hmoves with
  | asked k =>
    have hidle : whole (s.hashes k) = false → ∀ (i : Nat) (st : Stage), s.calls[i]? = some ⟨k,st⟩ →
        st.pending = false := by
      intro hnone i st hcall
      simp only [serial, hnone, Bool.false_or] at hguard
      have hquiet := List.all_eq_true.mp hguard _ (List.mem_of_getElem? hcall)
      simpa using hquiet
    refine ⟨fun i₁ i₂ k₁ st₁ st₂ h₁ h₂ hp₁ hp₂ hnone => ?_,fun i₁ k₁ r₁ h₁ => ?_,fun i₁ k₁ r₁ h₁ => ?_,
      fun i₁ k₁ r₁ h₁ => ?_⟩
    · rcases of_asked h₁ with h₁ | ⟨rfl,hc₁⟩ <;> rcases of_asked h₂ with h₂ | ⟨rfl,hc₂⟩
      · exact h.alone i₁ i₂ k₁ st₁ st₂ h₁ h₂ hp₁ hp₂ hnone
      · cases hc₂
        rw [hidle hnone i₁ st₁ h₁] at hp₁
        cases hp₁
      · cases hc₁
        rw [hidle hnone i₂ st₂ h₂] at hp₂
        cases hp₂
      · rfl
    · rcases of_asked h₁ with h₁ | ⟨rfl,hc₁⟩
      · exact h.unstored i₁ k₁ r₁ h₁
      · cases hc₁
    · rcases of_asked h₁ with h₁ | ⟨rfl,hc₁⟩
      · exact h.made i₁ k₁ r₁ h₁
      · cases hc₁
    · rcases of_asked h₁ with h₁ | ⟨rfl,hc₁⟩
      · exact h.said i₁ k₁ r₁ h₁
      · cases hc₁
  | lost i k st hcall hpending => exact h.moved hcall hpending nofun nofun
  | found i k hcall hwhole =>
    refine h.moved hcall rfl nofun fun r hr => ?_
    cases hr
    exact ⟨hwhole,rfl⟩
  | made i k now hcall hnone =>
    have hmoved : Settled (s.move i k (.writing (record (generateKeypair s.generated.length) now))) := by
      refine h.moved hcall rfl (fun r hr => ?_) nofun
      cases hr
      exact ⟨⟨_,_,rfl⟩,hnone⟩
    exact ⟨hmoved.alone,hmoved.unstored,hmoved.made,hmoved.said⟩
  | wrote i k r st hcall hst => exact h.wrote hcall hst

theorem one_identity {hashes : String → Hash} (hserial : Run.Along (step generateKeypair) (fun s e => serial s e = true)
    { hashes } es) (hexec : Run.exec (step generateKeypair) { hashes } es = some t) (h : ⟨k,.returned r⟩ ∈ t.calls) :
    whole (t.hashes k) = true ∧ pairOf r = pairOf (t.hashes k) ∧
      ∀ r', ⟨k,.returned r'⟩ ∈ t.calls → pairOf r' = pairOf r := by
  have hstart : Settled { hashes } := ⟨nofun,nofun,nofun,nofun⟩
  have hsettled : Settled t :=
    Run.invariant (fun s e t hs hguard hstep => settled_step hs hguard hstep) hstart hserial hexec
  obtain ⟨i,hi⟩ := List.mem_iff_getElem?.mp h
  obtain ⟨hwhole,hpair⟩ := hsettled.said i k r hi
  refine ⟨hwhole,hpair,fun r' h' => ?_⟩
  obtain ⟨j,hj⟩ := List.mem_iff_getElem?.mp h'
  exact (hsettled.said j k r' hj).2.trans hpair.symm

def numbered (n : Nat) : Keypair where
  publicKey := "public" ++ toString n
  privateKey := "private" ++ toString n
  publicKey_ne h := by simpa using congrArg String.toList h
  privateKey_ne h := by simpa using congrArg String.toList h

def boots : List Event := [.keypair "wg",.hGetAll 0 true "1",.hSet 0 true false,.keypair "wg",.hGetAll 1 false "2",
  .keypair "wg",.keypair "wg",.hGetAll 3 true "3",.hGetAll 2 true "4"]

theorem one_identity_boots : ∃ t r, Run.exec (step numbered) {} boots = some t ∧ ⟨"wg",.returned r⟩ ∈ t.calls ∧
    whole (t.hashes "wg") = true ∧ ∀ r', ⟨"wg",.returned r'⟩ ∈ t.calls → pairOf r' = pairOf r := by
  obtain ⟨t,hexec⟩ : ∃ t, Run.exec (step numbered) {} boots = some t := ⟨_,rfl⟩
  have hmem : ⟨"wg",.returned (record (numbered 0) "1")⟩ ∈ t.calls := by
    obtain rfl := Option.some.inj hexec
    exact List.mem_iff_getElem?.mpr ⟨2,rfl⟩
  have hserial : Run.Along (step numbered) (fun s e => serial s e = true) {} boots := by decide
  obtain ⟨hwhole,-,hall⟩ := one_identity hserial hexec hmem
  exact ⟨t,_,hexec,hmem,hwhole,hall⟩

end OneIdentity

section Kept

variable {generateKeypair : Nat → Keypair} {s t u : Store} {e : Event} {es : List Event} {i : Nat} {k : String}
  {st : Stage} {r : Hash}

def Still (s : Store) (k : String) (i : Nat) (c : Call) : Prop :=
  c.redisKey = k → match c.stage with
    | .writing _ => False
    | .returned r => r = s.hashes k ∨ s.calls[i]? = some c
    | .reading | .failed => True

structure Kept (s : Store) (k : String) (t : Store) : Prop where
  stored : t.hashes k = s.hashes k
  still : t.Each (Still s k)

theorem kept_step (hwhole : whole (s.hashes k) = true) (h : Kept s k t) (hstep : step generateKeypair t e = some u) :
    Kept s k u := by
  have hmoves := moves_of_step hstep
  cases hmoves with
  | asked k₁ => exact ⟨h.stored,each_asked h.still fun _ => trivial⟩
  | lost i₁ k₁ st₁ hcall => exact ⟨h.stored,each_move h.still hcall fun _ => trivial⟩
  | found i₁ k₁ hcall =>
    refine ⟨h.stored,each_move h.still hcall fun heq => .inl ?_⟩
    rw [← h.stored, ← heq]
  | made i₁ k₁ now hcall hnone =>
    have hmoved : (t.move i₁ k₁ (.writing (record (generateKeypair t.generated.length) now))).Each (Still s k) := by
      refine each_move h.still hcall fun heq => ?_
      obtain rfl : k₁ = k := heq
      rw [h.stored, hwhole] at hnone
      cases hnone
    exact ⟨h.stored,hmoved⟩
  | wrote i₁ k₁ r₁ st₁ hcall hst =>
    have hne : k₁ ≠ k := h.still i₁ _ hcall
    refine ⟨(Function.update_of_ne hne.symm _ _).trans h.stored,?_⟩
    exact each_move (s := t.write k₁ r₁) h.still hcall fun heq => absurd heq hne

theorem kept_once_stored (hwhole : whole (s.hashes k) = true) (hquiet : ∀ r, ⟨k,.writing r⟩ ∉ s.calls)
    (hexec : Run.exec (step generateKeypair) s es = some t) : Kept s k t := by
  have hstart : s.Each (Still s k) := by
    rintro i ⟨k₁,st₁⟩ hi rfl
    cases st₁ with
    | writing r => exact hquiet r (List.mem_of_getElem? hi)
    | returned r => exact .inr hi
    | reading | failed => exact trivial
  exact Run.invariant_of_mem (P := Kept s k) (fun _ _ _ ht _ hstep => kept_step hwhole ht hstep) ⟨rfl,hstart⟩ hexec

def rebooted : Store := { hashes := fun _ => record (numbered 0) "1" }

theorem kept_once_stored_rebooted : ∃ t, Run.exec (step numbered) rebooted
    [.keypair "wg",.keypair "wg",.hGetAll 0 true "2",.hGetAll 1 false "3"] = some t ∧ Kept rebooted "wg" t := by
  obtain ⟨t,hexec⟩ : ∃ t, Run.exec (step numbered) rebooted
      [.keypair "wg",.keypair "wg",.hGetAll 0 true "2",.hGetAll 1 false "3"] = some t := ⟨_,rfl⟩
  exact ⟨t,hexec,kept_once_stored (whole_record _ _) (fun _ => List.not_mem_nil) hexec⟩

end Kept

section Apart

variable {generateKeypair : Nat → Keypair} {s t : Store} {e : Event} {es : List Event} {i : Nat} {k : String}
  {st st' : Stage} {r r' : Hash} {generated more : List String}

def From (generateKeypair : Nat → Keypair) (generated : List String) (k : String) (r : Hash) : Prop :=
  ∃ n, generated[n]? = some k ∧ pairOf r = (some (generateKeypair n).publicKey,some (generateKeypair n).privateKey)

def Call.From (generateKeypair : Nat → Keypair) (generated : List String) (c : Call) : Prop :=
  match c.stage with
  | .writing r => Identity.From generateKeypair generated c.redisKey r ∧ ∃ kp now, r = record kp now
  | .returned r => Identity.From generateKeypair generated c.redisKey r
  | .reading | .failed => True

structure Traced (generateKeypair : Nat → Keypair) (s : Store) : Prop where
  stored : ∀ k, whole (s.hashes k) = true → From generateKeypair s.generated k (s.hashes k)
  calls : s.Each fun _ => Call.From generateKeypair s.generated

theorem From.later (h : From generateKeypair generated k r) : From generateKeypair (generated ++ more) k r := by
  obtain ⟨n,hn,hpair⟩ := h
  exact ⟨n,(List.getElem?_append_left (List.getElem?_eq_some_iff.mp hn).1).trans hn,hpair⟩

theorem Call.From.later {c : Call} (h : c.From generateKeypair generated) :
    c.From generateKeypair (generated ++ more) := by
  obtain ⟨k,st⟩ := c
  cases st with
  | writing r => exact ⟨Identity.From.later h.1,h.2⟩
  | returned r => exact Identity.From.later h
  | reading | failed => exact trivial

theorem traced_step (h : Traced generateKeypair s) (hstep : step generateKeypair s e = some t) :
    Traced generateKeypair t := by
  have hmoves := moves_of_step hstep
  cases hmoves with
  | asked k => exact ⟨h.stored,each_asked h.calls trivial⟩
  | lost i k st hcall => exact ⟨h.stored,each_move h.calls hcall trivial⟩
  | found i k hcall hwhole => exact ⟨h.stored,each_move h.calls hcall (h.stored k hwhole)⟩
  | made i k now hcall =>
    refine ⟨fun k₁ hwhole => (h.stored k₁ hwhole).later,?_⟩
    refine each_move (fun j c hj => (h.calls j c hj).later) hcall ?_
    obtain ⟨hpub,hpriv⟩ := get?_record (generateKeypair s.generated.length) now
    exact ⟨⟨s.generated.length,List.getElem?_concat_length,by rw [pairOf, hpub, hpriv]⟩,_,_,rfl⟩
  | wrote i k r st hcall hst =>
    obtain ⟨hfrom,kp,now,rfl⟩ := h.calls i _ hcall
    refine ⟨fun k₁ hwhole => ?_,each_move (s := s.write k (record kp now)) h.calls hcall ?_⟩
    · change whole (Function.update s.hashes k (hSet (s.hashes k) (record kp now)) k₁) = true at hwhole
      change From generateKeypair s.generated k₁ (Function.update s.hashes k (hSet (s.hashes k) (record kp now)) k₁)
      by_cases heq : k₁ = k
      · subst heq
        obtain ⟨n,hn,hpair⟩ := hfrom
        rw [Function.update_self]
        exact ⟨n,hn,(pairOf_hSet _ _ _).trans hpair⟩
      · rw [Function.update_of_ne heq] at hwhole ⊢
        exact h.stored k₁ hwhole
    · rcases hst with rfl | rfl
      · exact hfrom
      · exact trivial

theorem keys_apart (redisPrefix : String) : KEYPAIR_KEY redisPrefix ≠ EXIT_KEYPAIR_KEY redisPrefix := by
  intro heq
  have hlist := congrArg String.toList heq
  simp [KEYPAIR_KEY, EXIT_KEYPAIR_KEY] at hlist

theorem identities_apart (redisPrefix : String)
    (hgen : ∀ n m, (generateKeypair n).privateKey = (generateKeypair m).privateKey → n = m)
    (hexec : Run.exec (step generateKeypair) {} es = some t)
    (hmesh : ⟨KEYPAIR_KEY redisPrefix,.returned r⟩ ∈ t.calls)
    (hexit : ⟨EXIT_KEYPAIR_KEY redisPrefix,.returned r'⟩ ∈ t.calls) :
    truthy (r.get? "privateKey") = true ∧ r.get? "privateKey" ≠ r'.get? "privateKey" := by
  have hstart : Traced generateKeypair {} := ⟨fun k hwhole => (by cases hwhole),nofun⟩
  have htraced : Traced generateKeypair t := Run.invariant_of_mem
    (fun s e t hs _ hstep => traced_step hs hstep) hstart hexec
  obtain ⟨i,hi⟩ := List.mem_iff_getElem?.mp hmesh
  obtain ⟨j,hj⟩ := List.mem_iff_getElem?.mp hexit
  obtain ⟨n,hn,hpair⟩ := htraced.calls i _ hi
  obtain ⟨m,hm,hpair'⟩ := htraced.calls j _ hj
  have hpriv : r.get? "privateKey" = some (generateKeypair n).privateKey := (Prod.mk.inj hpair).2
  have hpriv' : r'.get? "privateKey" = some (generateKeypair m).privateKey := (Prod.mk.inj hpair').2
  refine ⟨by simp [hpriv, truthy, (generateKeypair n).privateKey_ne],fun heq => ?_⟩
  rw [hpriv, hpriv'] at heq
  obtain rfl := hgen n m (Option.some.inj heq)
  exact keys_apart redisPrefix (Option.some.inj (hn.symm.trans hm))

theorem numbered_inj {n m : Nat} (h : (numbered n).privateKey = (numbered m).privateKey) : n = m := by
  have hlist := congrArg String.toList h
  simp only [numbered, String.toList_append, List.append_cancel_left_eq] at hlist
  exact Text.toDigits_inj (by simpa [Text.toList_toString] using hlist)

def both : List Event := [.keypair "wg_gateway_keypair",.keypair "wg_gateway_keypair",.hGetAll 0 true "1",
  .hGetAll 1 true "2",.hSet 1 true true,.keypair "wg_exit_keypair",.hSet 0 true true,.hGetAll 2 true "3",
  .hSet 2 true true]

theorem identities_apart_both : ∃ t r r', Run.exec (step numbered) {} both = some t ∧
    ⟨KEYPAIR_KEY "",.returned r⟩ ∈ t.calls ∧ ⟨EXIT_KEYPAIR_KEY "",.returned r'⟩ ∈ t.calls ∧
    truthy (r.get? "privateKey") = true ∧ r.get? "privateKey" ≠ r'.get? "privateKey" := by
  obtain ⟨t,hexec⟩ : ∃ t, Run.exec (step numbered) {} both = some t := ⟨_,rfl⟩
  have hmesh : ⟨KEYPAIR_KEY "",.returned (record (numbered 0) "1")⟩ ∈ t.calls := by
    obtain rfl := Option.some.inj hexec
    exact List.mem_iff_getElem?.mpr ⟨0,rfl⟩
  have hexit : ⟨EXIT_KEYPAIR_KEY "",.returned (record (numbered 2) "3")⟩ ∈ t.calls := by
    obtain rfl := Option.some.inj hexec
    exact List.mem_iff_getElem?.mpr ⟨2,rfl⟩
  exact ⟨t,_,_,hexec,hmesh,hexit,identities_apart "" (fun _ _ => numbered_inj) hexec hmesh hexit⟩

end Apart

end JumpHost.Mesh.Identity
