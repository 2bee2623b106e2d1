import Mathlib.Data.List.Sublists
import Mathlib.Logic.Function.Basic
import JumpHost.Library.Run

namespace JumpHost.UserFile

section Store

structure StandaloneUser where
  uid : String
  passwordHash : Option String := none
  sshPublicKeys : Option (List String) := some []
  groups : Option (List String) := some []

def DN_PREFIX : String := "uid="

def DN_SUFFIX : String := ",ou=people,dc=standalone,dc=local"

def dnFor (uid : String) : String := DN_PREFIX ++ uid ++ DN_SUFFIX

-- `/^uid=([^,]+)/`
def uidFromDn (dn : Option String) : Option String :=
  match dn with
  | none => none
  | some dn =>
      let uid := (dn.toList.drop DN_PREFIX.length).takeWhile (· != ',')
      if DN_PREFIX.toList.isPrefixOf dn.toList ∧ uid ≠ [] then some (String.ofList uid) else none

structure Call where
  uid : String
  keyLine : String
  keys : List String

structure FileStore where
  users : String → Option StandaloneUser
  pending : List Call := []

def FileStore.keys (s : FileStore) (uid : String) : List String :=
  ((s.users uid).bind StandaloneUser.sshPublicKeys).getD []

inductive Event where
  | read (dn : Option String) (keyLine : String)
  | write (call : Nat)

def addSshKeyRead (s : FileStore) (dn : Option String) (keyLine : String) : FileStore :=
  match uidFromDn dn with
  | none => s
  | some uid =>
      match s.users uid with
      | none => s
      | some user =>
          let keys := user.sshPublicKeys.getD []
          if keyLine ∈ keys then s
          else { s with pending := s.pending ++ [⟨uid,keyLine,keys ++ [keyLine]⟩] }

def addSshKeyWrite (s : FileStore) (i : Nat) (call : Call) : FileStore where
  users := Function.update s.users call.uid
    ((s.users call.uid).map fun user => { user with sshPublicKeys := some call.keys })
  pending := s.pending.eraseIdx i

def step (s : FileStore) : Event → Option FileStore
  | .read dn keyLine => some (addSshKeyRead s dn keyLine)
  | .write i => (s.pending[i]?).map (addSshKeyWrite s i)

end Store

section Races

variable {s t start : FileStore} {events : List Event} {uid keyLine line : String} {dn : Option String} {call : Call}
  {i : Nat}

theorem users_write (s : FileStore) (i : Nat) (call : Call) : (addSshKeyWrite s i call).users =
    Function.update s.users call.uid
      ((s.users call.uid).map fun user => { user with sshPublicKeys := some call.keys }) := rfl

theorem keys_write (huser : ∃ user, s.users uid = some user) :
    (addSshKeyWrite s i call).keys uid = if call.uid = uid then call.keys else s.keys uid := by
  obtain ⟨user,huser⟩ := huser
  rw [FileStore.keys, users_write]
  split
  · next heq =>
    subst heq
    rw [Function.update_self, huser]
    rfl
  · next hne => rw [Function.update_of_ne (Ne.symm hne), FileStore.keys]

theorem user_write (huser : ∃ user, s.users uid = some user) :
    ∃ user, (addSshKeyWrite s i call).users uid = some user := by
  obtain ⟨user,huser⟩ := huser
  rw [users_write]
  by_cases heq : call.uid = uid
  · subst heq
    rw [Function.update_self, huser]
    exact ⟨_,rfl⟩
  · rw [Function.update_of_ne (Ne.symm heq)]
    exact ⟨user,huser⟩

theorem read_cases (dn : Option String) (keyLine : String) (s : FileStore) :
    addSshKeyRead s dn keyLine = s ∨ ∃ uid, uidFromDn dn = some uid ∧ keyLine ∉ s.keys uid ∧
      addSshKeyRead s dn keyLine = { s with pending := s.pending ++ [⟨uid,keyLine,s.keys uid ++ [keyLine]⟩] } := by
  unfold addSshKeyRead
  split
  · exact .inl rfl
  · next uid huid =>
    split
    · exact .inl rfl
    · next user huser =>
      have hkeys : s.keys uid = user.sshPublicKeys.getD [] := by rw [FileStore.keys, huser, Option.bind_some]
      simp only
      split
      · exact .inl rfl
      · next hnew => exact .inr ⟨uid,huid,hkeys ▸ hnew,by rw [hkeys]⟩

structure Grown (base keys : List String) : Prop where
  kept : base.Sublist keys
  single : ∀ line, keys.count line ≤ max 1 (base.count line)

theorem Grown.append {base keys : List String} (h : Grown base keys) (hnew : keyLine ∉ keys) :
    Grown base (keys ++ [keyLine]) := by
  refine ⟨h.kept.trans (List.sublist_append_left keys [keyLine]),fun line => ?_⟩
  have hold := h.single line
  rw [List.count_append]
  by_cases heq : line = keyLine
  · subst heq
    rw [List.count_eq_zero_of_not_mem hnew, List.count_singleton_self]
    omega
  · rw [List.count_singleton, if_neg (by simpa using Ne.symm heq)]
    exact hold

structure Sound (uid : String) (base : List String) (s : FileStore) : Prop where
  user : ∃ user, s.users uid = some user
  stored : Grown base (s.keys uid)
  waiting : ∀ call ∈ s.pending, call.uid = uid → Grown base call.keys ∧ call.keyLine ∈ call.keys

def Coming (uid line : String) (s : FileStore) : Prop :=
  line ∈ s.keys uid ∨ ∃ call ∈ s.pending, call.uid = uid ∧ call.keyLine = line

def Unraced (uid : String) (s : FileStore) : Event → Prop
  | .read _ _ => True
  | .write i => ∀ call ∈ s.pending[i]?, call.uid = uid → (s.keys uid).Sublist call.keys

instance : ∀ e, Decidable (Unraced uid s e)
  | .read _ _ => .isTrue trivial
  | .write i => inferInstanceAs (Decidable (∀ call ∈ s.pending[i]?, call.uid = uid → (s.keys uid).Sublist call.keys))

theorem sound_step {e : Event} {base : List String} (hs : Sound uid base s) (h : step s e = some t) :
    Sound uid base t := by
  cases e with
  | read dn keyLine =>
    obtain rfl := Option.some.inj h
    rcases read_cases dn keyLine s with hsame | ⟨uid',-,hnew,hcall⟩
    · rw [hsame]
      exact hs
    · rw [hcall]
      refine ⟨hs.user,hs.stored,fun call hmem huid => ?_⟩
      rcases List.mem_append.mp hmem with hmem | hmem
      · exact hs.waiting call hmem huid
      · obtain rfl := List.mem_singleton.mp hmem
        obtain rfl : uid' = uid := huid
        exact ⟨hs.stored.append hnew,List.mem_append_right _ List.mem_cons_self⟩
  | write i =>
    obtain ⟨call,hcall,rfl⟩ := Option.map_eq_some_iff.mp h
    have hmem := List.mem_of_getElem? hcall
    refine ⟨user_write hs.user,?_,fun other hother => hs.waiting other (List.mem_of_mem_eraseIdx hother)⟩
    rw [keys_write hs.user]
    split
    · next heq => exact (hs.waiting call hmem heq).1
    · exact hs.stored

theorem coming_step {e : Event} {base : List String} (hs : Sound uid base s) (hsafe : Unraced uid s e)
    (h : step s e = some t) (hline : Coming uid line s) : Coming uid line t := by
  cases e with
  | read dn keyLine =>
    obtain rfl := Option.some.inj h
    rcases read_cases dn keyLine s with hsame | ⟨uid',-,-,hcall⟩
    · rw [hsame]
      exact hline
    · rw [hcall]
      exact hline.imp_right fun ⟨call,hmem,hcall⟩ => ⟨call,List.mem_append_left _ hmem,hcall⟩
  | write i =>
    obtain ⟨call,hcall,rfl⟩ := Option.map_eq_some_iff.mp h
    have hmem := List.mem_of_getElem? hcall
    rw [Coming, keys_write hs.user]
    rcases hline with hstored | ⟨other,hother,huid,rfl⟩
    · left
      split
      · next heq => exact (hsafe call hcall heq).subset hstored
      · exact hstored
    · obtain ⟨j,hj⟩ := List.getElem?_of_mem hother
      by_cases hij : j = i
      · subst hij
        obtain rfl := Option.some.inj (hj.symm.trans hcall)
        rw [if_pos huid]
        exact .inl (hs.waiting other hmem huid).2
      · exact .inr ⟨other,List.mem_eraseIdx_iff_getElem?.mpr ⟨j,hij,hj⟩,huid,rfl⟩

def Event.adds (uid : String) : Event → Option String
  | .read dn keyLine => if uidFromDn dn = some uid then some keyLine else none
  | .write _ => none

theorem coming_read {base : List String} (hs : Sound uid base s) (huid : uidFromDn dn = some uid) :
    Coming uid keyLine (addSshKeyRead s dn keyLine) := by
  obtain ⟨user,huser⟩ := hs.user
  have hkeys : s.keys uid = user.sshPublicKeys.getD [] := by rw [FileStore.keys, huser, Option.bind_some]
  simp only [addSshKeyRead, huid, huser]
  split
  · next hold => exact .inl (hkeys ▸ hold)
  · exact .inr ⟨_,List.mem_append_right _ List.mem_cons_self,rfl,rfl⟩

theorem run_sound {base : List String} (hs : Sound uid base s) (hsafe : Run.Along step (Unraced uid) s events)
    (hrun : Run.exec step s events = some t) : Sound uid base t ∧ (∀ line, Coming uid line s → Coming uid line t) ∧
      ∀ line ∈ events.filterMap (Event.adds uid), Coming uid line t := by
  induction events generalizing s with
  | nil =>
    cases hrun
    exact ⟨hs,fun _ hline => hline,fun _ hline => absurd hline List.not_mem_nil⟩
  | cons e events ih =>
    obtain ⟨u,hu,hrest⟩ := Run.exec_cons hrun
    simp only [Run.Along, hu] at hsafe
    obtain ⟨hsound,hcoming,hadded⟩ := ih (sound_step hs hu) hsafe.2 hrest
    refine ⟨hsound,fun line hline => hcoming line (coming_step hs hsafe.1 hu hline),fun line hline => ?_⟩
    obtain ⟨e',he',hadds⟩ := List.mem_filterMap.mp hline
    rcases List.mem_cons.mp he' with rfl | he'
    · cases e' with
      | write i => cases hadds
      | read dn keyLine =>
        simp only [Event.adds, Option.ite_none_right_eq_some, Option.some.injEq] at hadds
        obtain ⟨huid,rfl⟩ := hadds
        obtain rfl := Option.some.inj hu
        exact hcoming keyLine (coming_read hs huid)
    · exact hadded line (List.mem_filterMap.mpr ⟨e',he',hadds⟩)

structure Kept (uid : String) (lines : List String) (start s : FileStore) : Prop where
  before : (start.keys uid).Sublist (s.keys uid)
  each : ∀ line ∈ lines, (s.keys uid).count line = 1

theorem additions_kept (huser : ∃ user, start.users uid = some user) (hidle : ∀ call ∈ start.pending, call.uid ≠ uid)
    (honce : ∀ line ∈ events.filterMap (Event.adds uid), (start.keys uid).count line ≤ 1)
    (hsafe : Run.Along step (Unraced uid) start events) (hrun : Run.exec step start events = some s)
    (hdone : ∀ call ∈ s.pending, call.uid ≠ uid) : Kept uid (events.filterMap (Event.adds uid)) start s := by
  have hstart : Sound uid (start.keys uid) start :=
    ⟨huser,⟨List.Sublist.refl _,fun _ => Nat.le_max_right _ _⟩,fun call hcall heq => absurd heq (hidle call hcall)⟩
  obtain ⟨hsound,-,hadded⟩ := run_sound hstart hsafe hrun
  refine ⟨hsound.stored.kept,fun line hline => ?_⟩
  rcases hadded line hline with hstored | ⟨call,hcall,huid,-⟩
  · have hpos := List.count_pos_iff.mpr hstored
    have hsingle := hsound.stored.single line
    have hold := honce line hline
    omega
  · exact absurd huid (hdone call hcall)

def aliceStore : FileStore where
  users uid := if uid = "alice" then some { uid := "alice", sshPublicKeys := some ["laptop"] } else none

def aliceDn : Option String := some (dnFor "alice")

def inTurn : List Event :=
  [.read aliceDn "jump1",.write 0,.read aliceDn "jump2",.read aliceDn "jump1",.write 0]

theorem additions_kept_alice : ∃ s, Run.exec step aliceStore inTurn = some s ∧
    s.keys "alice" = ["laptop","jump1","jump2"] ∧ Kept "alice" (inTurn.filterMap (Event.adds "alice")) aliceStore s :=
  ⟨_,rfl,by decide,additions_kept ⟨_,rfl⟩ (fun _ hcall => absurd hcall List.not_mem_nil) (by decide) (by decide) rfl
    fun _ hcall => absurd hcall List.not_mem_nil⟩

theorem addition_lost : ¬ ∀ (start s : FileStore) events uid, (∃ user, start.users uid = some user) →
    (∀ call ∈ start.pending, call.uid ≠ uid) → Run.exec step start events = some s →
      (∀ call ∈ s.pending, call.uid ≠ uid) → Kept uid (events.filterMap (Event.adds uid)) start s := by
  intro h
  have hkept := h aliceStore _ [.read aliceDn "jump1",.read aliceDn "jump2",.write 0,.write 0] "alice" ⟨_,rfl⟩
    (fun _ hcall => absurd hcall List.not_mem_nil) rfl (fun _ hcall => absurd hcall List.not_mem_nil)
  exact absurd (hkept.each "jump1" (by decide)) (by decide)

end Races

end JumpHost.UserFile
