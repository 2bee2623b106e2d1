import Mathlib.Data.Fin.Basic
import JumpHost.Ssh.Keys

namespace JumpHost.Cluster

open Keys

variable {parseKey : String → Option PublicKey} {n : Nat}

structure Connection (n : Nat) where
  gateway : Fin n
  uid : String
  dn : String
deriving DecidableEq

structure State (n : Nat) where
  sshPublicKeys : String → List String
  injected : Fin n → String → Bool

def State.user (s : State n) (dn uid : String) : User := ⟨dn,uid,s.sshPublicKeys dn⟩

def State.store (s : State n) (i : Fin n) : InjectStore := ⟨s.injected i,s.sshPublicKeys⟩

def connect (gateways : Fin n → JumpKeys parseKey) (s : State n) (c : Connection n) : State n :=
  let store := (ensureKeyInjected {} (s.user c.dn c.uid) (gateways c.gateway).publicLine
    (s.store c.gateway)).2
  ⟨store.sshPublicKeys,Function.update s.injected c.gateway store.injected⟩

def run (gateways : Fin n → JumpKeys parseKey) (s : State n) (cs : List (Connection n)) : State n :=
  cs.foldl (connect gateways) s

def DistinctKeys (gateways : Fin n → JumpKeys parseKey) : Prop :=
  Function.Injective fun i => (gateways i).key.blob

def IsGatewayBlob (gateways : Fin n → JumpKeys parseKey) (blob : Blob) : Prop :=
  ∃ g, blob = (gateways g).key.blob

def NoGatewayKey (gateways : Fin n → JumpKeys parseKey) (s : State n) : Prop :=
  ∀ dn, ∀ line ∈ s.sshPublicKeys dn, ∀ key, parseKey line = some key →
    ¬ IsGatewayBlob gateways key.blob

def ExcludesInjectedKeys (gateways : Fin n → JumpKeys parseKey) (s : State n) : Prop :=
  ∀ h dn uid ctxKey key,
    userKeyMatches parseKey (gateways h).OWN_KEY_BLOB (s.user dn uid) ctxKey = some key →
      ¬ IsGatewayBlob gateways key.blob

theorem mem_connect {gateways : Fin n → JumpKeys parseKey} {s : State n} {c : Connection n}
    {dn line : String} :
    line ∈ (connect gateways s c).sshPublicKeys dn ↔ line ∈ s.sshPublicKeys dn ∨
      (s.injected c.gateway c.uid = false ∧ dn = c.dn ∧
        line = (gateways c.gateway).publicLine) := by
  have hu : (s.user c.dn c.uid).sshPublicKeys =
      (s.store c.gateway).sshPublicKeys (s.user c.dn c.uid).dn := rfl
  exact mem_ensureKeyInjected hu

theorem injected_connect {gateways : Fin n → JumpKeys parseKey} {s : State n} {c : Connection n}
    {g : Fin n} {uid : String} :
    (connect gateways s c).injected g uid = true ↔
      s.injected g uid = true ∨ (g = c.gateway ∧ uid = c.uid) := by
  by_cases hg : g = c.gateway
  · subst hg
    simpa [connect, State.user, State.store] using injected_ensureKeyInjected (s.user c.dn c.uid)
      (gateways c.gateway).publicLine uid (s.store c.gateway)
  · simp [connect, hg]

theorem keys_grow {gateways : Fin n → JumpKeys parseKey} {s : State n} (cs : List (Connection n))
    {dn line : String} (h : line ∈ s.sshPublicKeys dn) :
    line ∈ (run gateways s cs).sshPublicKeys dn := by
  induction cs generalizing s with
  | nil => exact h
  | cons c cs ih => exact ih (mem_connect.mpr (.inl h))

theorem keys_of_flagged {gateways : Fin n → JumpKeys parseKey} {s : State n}
    {cs : List (Connection n)} (hf : ∀ c ∈ cs, s.injected c.gateway c.uid = true) (dn : String)
    (line : String) :
    line ∈ (run gateways s cs).sshPublicKeys dn ↔ line ∈ s.sshPublicKeys dn := by
  induction cs generalizing s with
  | nil => rfl
  | cons c cs ih =>
    have hc := hf c (by simp)
    have hrest : ∀ d ∈ cs, (connect gateways s c).injected d.gateway d.uid = true :=
      fun d hd => injected_connect.mpr (.inl (hf d (by simp [hd])))
    rw [show run gateways s (c :: cs) = run gateways (connect gateways s c) cs from rfl,
      ih hrest, mem_connect]
    simp [hc]

theorem line_of_unflagged (gateways : Fin n → JumpKeys parseKey) {s : State n}
    {cs : List (Connection n)} {c : Connection n} (hc : c ∈ cs)
    (hf : s.injected c.gateway c.uid = false) :
    ∃ dn, (gateways c.gateway).publicLine ∈ (run gateways s cs).sshPublicKeys dn := by
  induction cs generalizing s with
  | nil => simp at hc
  | cons d cs ih =>
    by_cases hd : c.gateway = d.gateway ∧ c.uid = d.uid
    · have hw : (gateways c.gateway).publicLine ∈ (connect gateways s d).sshPublicKeys d.dn :=
        mem_connect.mpr (.inr ⟨hd.1 ▸ hd.2 ▸ hf,rfl,by rw [hd.1]⟩)
      exact ⟨d.dn,keys_grow cs hw⟩
    · have hmem : c ∈ cs := by
        rcases List.mem_cons.mp hc with rfl | h
        exacts [absurd ⟨rfl,rfl⟩ hd,h]
      refine ih hmem ?_
      have hn : ¬ (connect gateways s d).injected c.gateway c.uid = true := by
        rw [injected_connect, hf]
        simpa using hd
      simpa using hn

theorem excluded_of_noGatewayKey {gateways : Fin n → JumpKeys parseKey} {s : State n}
    (h : NoGatewayKey gateways s) : ExcludesInjectedKeys gateways s := by
  intro g dn uid ctxKey key hm
  obtain ⟨line,hl,hp⟩ := (matchLines_sound hm).listed
  exact h dn line hl key hp

theorem excluded_of_alone {gateways : Fin n → JumpKeys parseKey} (hn : n ≤ 1) (s : State n) :
    ExcludesInjectedKeys gateways s := by
  rintro h dn uid ctxKey key hm ⟨g,hg⟩
  have hown := (matchLines_sound hm).foreign
  obtain rfl : g = h := Fin.ext (by omega)
  exact hown (by simp [hg])

theorem not_excluded_of_line {gateways : Fin n → JumpKeys parseKey} (hd : DistinctKeys gateways)
    (hn : 1 < n) {s : State n} {dn line : String} {key : PublicKey}
    (hl : line ∈ s.sshPublicKeys dn) (hp : parseKey line = some key)
    (hg : IsGatewayBlob gateways key.blob) : ¬ ExcludesInjectedKeys gateways s := by
  intro hex
  obtain ⟨g,hg⟩ := hg
  obtain ⟨h,hne⟩ : ∃ h : Fin n, h ≠ g := by
    have : Nontrivial (Fin n) := Fin.nontrivial_iff_two_le.mpr hn
    exact exists_ne g
  have hown : (gateways h).OWN_KEY_BLOB ≠ some key.blob := by
    rw [JumpKeys.own_key_blob, hg]
    intro he
    exact hne (hd (Option.some.inj he))
  exact hex h dn "" ⟨key.type,key.blob⟩ key (matchLines_complete hl hp hown) ⟨g,hg⟩

theorem excludesInjectedKeys_iff (gateways : Fin n → JumpKeys parseKey)
    (hd : DistinctKeys gateways) (s : State n) (cs : List (Connection n)) :
    ExcludesInjectedKeys gateways (run gateways s cs) ↔
      n ≤ 1 ∨ (NoGatewayKey gateways s ∧ ∀ c ∈ cs, s.injected c.gateway c.uid = true) := by
  constructor
  · intro hex
    by_contra hcon
    rw [not_or, not_and_or] at hcon
    obtain ⟨hn,hdirty | hflag⟩ := hcon
    · simp only [NoGatewayKey, not_forall, not_not] at hdirty
      obtain ⟨dn,line,hl,key,hp,hg⟩ := hdirty
      exact not_excluded_of_line hd (by omega) (keys_grow cs hl) hp hg hex
    · simp only [not_forall, Bool.not_eq_true] at hflag
      obtain ⟨c,hc,hf⟩ := hflag
      obtain ⟨dn,hl⟩ := line_of_unflagged gateways hc hf
      exact not_excluded_of_line hd (by omega) hl (gateways c.gateway).parses
        ⟨c.gateway,rfl⟩ hex
  · rintro (hn | ⟨hno,hflag⟩)
    · exact excluded_of_alone hn _
    · refine excluded_of_noGatewayKey fun dn line hl => ?_
      exact hno dn line ((keys_of_flagged hflag dn line).mp hl)

section TwoSites

def siteParseKey (line : String) : Option PublicKey :=
  if line = "ssh-ed25519 AAAAA jump-host@a" then some ⟨"ssh-ed25519",[1]⟩
  else if line = "ssh-ed25519 AAAAB jump-host@b" then some ⟨"ssh-ed25519",[2]⟩
  else none

def siteA : JumpKeys siteParseKey where
  clientKey := "PEM a"
  publicLine := "ssh-ed25519 AAAAA jump-host@a"
  key := ⟨"ssh-ed25519",[1]⟩
  nonempty := by decide
  parses := by decide

def siteB : JumpKeys siteParseKey where
  clientKey := "PEM b"
  publicLine := "ssh-ed25519 AAAAB jump-host@b"
  key := ⟨"ssh-ed25519",[2]⟩
  nonempty := by decide
  parses := by decide

def twoSites : Fin 2 → JumpKeys siteParseKey
  | 0 => siteA
  | 1 => siteB

def newDirectory : State 2 := ⟨fun _ => [],fun _ _ => false⟩

theorem twoSites_distinct : DistinctKeys twoSites := by
  intro i j h
  revert h
  revert i j
  decide

theorem excludesInjectedKeys_twoSites :
    DistinctKeys twoSites ∧ ¬ ExcludesInjectedKeys twoSites
      (run twoSites newDirectory [⟨1,"alice","uid=alice,ou=people"⟩]) := by
  refine ⟨twoSites_distinct,?_⟩
  rw [excludesInjectedKeys_iff twoSites twoSites_distinct]
  rintro (h | h)
  · omega
  · simpa [newDirectory] using h.2 _ (List.mem_singleton.mpr rfl)

theorem siteA_key_opens_siteB :
    DistinctKeys twoSites ∧ ¬ ∀ cs, ExcludesInjectedKeys twoSites (run twoSites newDirectory cs) := by
  refine ⟨twoSites_distinct,fun h => ?_⟩
  exact h [⟨0,"alice","uid=alice,ou=people"⟩] 1 "uid=alice,ou=people" "alice"
    ⟨"ssh-ed25519",[1]⟩ ⟨"ssh-ed25519",[1]⟩ (by decide) ⟨0,rfl⟩

end TwoSites

end JumpHost.Cluster
