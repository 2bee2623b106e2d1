import JumpHost.Library.OrdMap
import JumpHost.Ssh.Keys

namespace JumpHost.Reinjection

open Keys

section Upstream

inductive Dialled where
  | ready
  | authFailed
  | failed (message : String)
deriving DecidableEq

variable (dnOf : String → String) (publicLine : String)

def getUser (store : InjectStore) (uid : String) : User := ⟨dnOf uid,uid,store.sshPublicKeys (dnOf uid)⟩

def authorize (store : InjectStore) (dn : String) (answer : Dialled) : Dialled :=
  if answer = .ready ∧ publicLine ∉ store.sshPublicKeys dn then .authFailed else answer

-- how the calls of one connection settle; `del` is the error of the awaited `redis.del`
structure Answers where
  calls : InjectCalls := {}
  del : Option String := none
  first : Dialled
  second : Dialled

def connectUpstream (user : User) (justInjected : Bool) (a : Answers) (store : InjectStore) : Dialled × InjectStore :=
  let answer := authorize publicLine store user.dn a.first
  if answer = .authFailed ∧ justInjected then
    let store := if a.del.isSome then store else clearInjectedFlag user.uid store
    (authorize publicLine store user.dn a.second,store)
  else (answer,store)

inductive Outcome where
  | notInjected (message : String)
  | dialled (answer : Dialled)
deriving DecidableEq

def connect (uid : String) (a : Answers) (store : InjectStore) : Outcome × InjectStore :=
  let user := getUser dnOf store uid
  match ensureKeyInjected a.calls user publicLine store with
  | (.error message,store) => (.notInjected message,store)
  | (.ok justInjected,store) =>
      let (answer,store) := connectUpstream publicLine user justInjected a store
      (.dialled answer,store)

end Upstream

section Interleaving

inductive Stage where
  | injecting
  | writing
  | flagging (already : Bool)
  | dialing (allowRetry : Bool)
  | clearing
  | over
deriving DecidableEq

-- `sshPublicKeys` is what the login read
structure Connection where
  uid : String
  sshPublicKeys : List String
  stage : Stage
deriving DecidableEq

inductive Call where
  | get (fails : Bool)
  | addSshKey (fails : Bool)
  | set (fails : Bool)
  | dial (answer : Dialled)
  | del (fails : Bool)

structure State where
  store : InjectStore
  connections : OrdMap Nat Connection

inductive Act where
  | login (id : Nat) (uid : String)
  | call (id : Nat) (call : Call)
  | edit (dn : String) (sshPublicKeys : List String)

def setFlag (store : InjectStore) (uid : String) : InjectStore :=
  { store with injected := Function.update store.injected uid true }

variable (dnOf : String → String) (publicLine : String)

def Connection.step (c : Connection) (store : InjectStore) : Call → Option (Stage × InjectStore)
  | .get fails =>
      if c.stage = .injecting then
        if fails then some (.over,store)
        else if store.injected c.uid then some (.dialing false,store)
        else if c.sshPublicKeys.contains publicLine then some (.flagging true,store)
        else some (.writing,store)
      else none
  | .addSshKey fails =>
      if c.stage = .writing then
        if fails then some (.over,store) else some (.flagging false,addSshKey store (dnOf c.uid) publicLine)
      else none
  | .set fails => match c.stage with
      | .flagging already => if fails then some (.over,store) else some (.dialing !already,setFlag store c.uid)
      | _ => none
  | .dial answer => match c.stage with
      | .dialing allowRetry =>
          if authorize publicLine store (dnOf c.uid) answer = .authFailed ∧ allowRetry then some (.clearing,store)
          else some (.over,store)
      | _ => none
  | .del fails =>
      if c.stage = .clearing then some (.dialing false,if fails then store else clearInjectedFlag c.uid store)
      else none

def step (s : State) : Act → Option State
  | .login id uid =>
      if s.connections.has id then none
      else some { s with connections := s.connections.set id ⟨uid,s.store.sshPublicKeys (dnOf uid),.injecting⟩ }
  | .call id call => (s.connections.get? id).bind fun c =>
      (c.step dnOf publicLine s.store call).map fun r =>
        ⟨r.2,s.connections.set id { c with stage := r.1 }⟩
  | .edit dn sshPublicKeys =>
      let keys := Function.update s.store.sshPublicKeys dn sshPublicKeys
      some { s with store := { s.store with sshPublicKeys := keys } }

def start (sshPublicKeys : String → List String) : State := ⟨⟨fun _ => false,sshPublicKeys⟩,.empty⟩

end Interleaving

section Recovery

variable {dnOf : String → String} {publicLine : String} {store : InjectStore} {uid dn : String} {a : Answers}

def missing (dnOf : String → String) (publicLine : String) (store : InjectStore) (uid : String) : Prop :=
  publicLine ∉ store.sshPublicKeys (dnOf uid)

instance : Decidable (missing dnOf publicLine store uid) := inferInstanceAs (Decidable (_ ∉ _))

def later (dnOf : String → String) (publicLine uid : String) (store : InjectStore) (answers : List Answers) :
    InjectStore :=
  answers.foldl (fun store a => (connect dnOf publicLine uid a store).2) store

def Trapped (dnOf : String → String) (publicLine : String) (store : InjectStore) (uid : String) : Prop :=
  store.injected uid = true ∧ missing dnOf publicLine store uid ∧
    ∀ answers a, (connect dnOf publicLine uid a (later dnOf publicLine uid store answers)).1 ≠ .dialled .ready

def Answers.Settled (a : Answers) : Prop := a.calls = {} ∧ a.del = none

structure Recovers (dnOf : String → String) (publicLine : String) (store : InjectStore) (uid : String) : Prop where
  cleared : ∀ a : Answers, a.Settled → missing dnOf publicLine store uid →
    (connect dnOf publicLine uid a store).1 = .dialled .authFailed →
    (connect dnOf publicLine uid a store).2.injected uid = false
  rewritten : ∀ a a' : Answers, a.Settled → a'.Settled → missing dnOf publicLine store uid →
    (connect dnOf publicLine uid a store).1 = .dialled .authFailed →
    ¬ missing dnOf publicLine (connect dnOf publicLine uid a' (connect dnOf publicLine uid a store).2).2 uid
  free : ¬ Trapped dnOf publicLine store uid

def Kept (dnOf : String → String) (publicLine : String) (store : InjectStore) : Prop :=
  ∀ uid, store.injected uid = true → ¬ missing dnOf publicLine store uid

theorem authorize_missing (h : publicLine ∉ store.sshPublicKeys dn) (answer : Dialled) :
    authorize publicLine store dn answer ≠ .ready := by
  unfold authorize
  split
  · simp
  · next hnot => exact fun hready => hnot ⟨hready,h⟩

theorem connect_flagged (hflag : store.injected uid = true) (a : Answers) :
    (connect dnOf publicLine uid a store).2 = store ∧
      ((connect dnOf publicLine uid a store).1 = .dialled (authorize publicLine store (dnOf uid) a.first) ∨
        ∃ message, (connect dnOf publicLine uid a store).1 = .notInjected message) := by
  cases hget : a.calls.get with
  | some message => simp [connect, ensureKeyInjected, hget]
  | none => simp [connect, ensureKeyInjected, getUser, hget, hflag, connectUpstream]

theorem later_flagged (hflag : store.injected uid = true) (answers : List Answers) :
    later dnOf publicLine uid store answers = store := by
  induction answers with
  | nil => rfl
  | cons a answers ih =>
    simp only [later, List.foldl_cons, (connect_flagged hflag a).1]
    exact ih

theorem trapped_of_flagged (hflag : store.injected uid = true) (hmissing : missing dnOf publicLine store uid) :
    Trapped dnOf publicLine store uid := by
  refine ⟨hflag,hmissing,fun answers a h => ?_⟩
  rw [later_flagged hflag] at h
  rcases (connect_flagged hflag a).2 with hdial | ⟨message,hnot⟩
  · rw [hdial] at h
    exact authorize_missing hmissing a.first (Outcome.dialled.inj h)
  · rw [hnot] at h
    cases h

theorem listed_ensureKeyInjected {calls : InjectCalls} {user : User} (h : publicLine ∈ store.sshPublicKeys dn) :
    publicLine ∈ (ensureKeyInjected calls user publicLine store).2.sshPublicKeys dn := by
  have hadd : publicLine ∈ (addSshKey store user.dn publicLine).sshPublicKeys dn :=
    (mem_addSshKey store user.dn dn publicLine publicLine).mpr (.inl h)
  unfold ensureKeyInjected
  cases calls.get with
  | some message => exact h
  | none =>
    simp only
    split
    · exact h
    · cases user.sshPublicKeys.contains publicLine with
      | true =>
        simp only [if_true]
        cases calls.set <;> exact h
      | false =>
        simp only [Bool.false_eq_true, if_false]
        cases calls.addSshKey with
        | some message => exact h
        | none => cases calls.set <;> exact hadd

theorem keys_connectUpstream {user : User} {justInjected : Bool} :
    (connectUpstream publicLine user justInjected a store).2.sshPublicKeys = store.sshPublicKeys := by
  unfold connectUpstream
  simp only
  split
  · cases a.del <;> rfl
  · rfl

theorem listed_connect (h : publicLine ∈ store.sshPublicKeys dn) :
    publicLine ∈ (connect dnOf publicLine uid a store).2.sshPublicKeys dn := by
  have hinject : publicLine ∈
      (ensureKeyInjected a.calls (getUser dnOf store uid) publicLine store).2.sshPublicKeys dn :=
    listed_ensureKeyInjected h
  unfold connect
  simp only
  split
  · next heq => rwa [heq] at hinject
  · next heq =>
    rw [heq] at hinject
    simpa only [keys_connectUpstream] using hinject

def written (dnOf : String → String) (publicLine : String) (store : InjectStore) (uid : String) : InjectStore :=
  setFlag (addSshKey store (dnOf uid) publicLine) uid

theorem connect_unflagged (ha : a.Settled) (hflag : store.injected uid = false)
    (hmissing : missing dnOf publicLine store uid) :
    connect dnOf publicLine uid a store =
      let r := connectUpstream publicLine (getUser dnOf store uid) true a (written dnOf publicLine store uid)
      (.dialled r.1,r.2) := by
  have hlisted : (getUser dnOf store uid).sshPublicKeys.contains publicLine = false := by
    simpa [getUser, missing] using hmissing
  have hinject : ensureKeyInjected a.calls (getUser dnOf store uid) publicLine store =
      (.ok true,written dnOf publicLine store uid) := by
    simp only [ensureKeyInjected, ha.1, hlisted, Bool.false_eq_true, if_false]
    simp [getUser, hflag, written, setFlag]
  simp only [connect, hinject]

theorem written_listed : publicLine ∈ (written dnOf publicLine store uid).sshPublicKeys (dnOf uid) :=
  (mem_addSshKey store (dnOf uid) (dnOf uid) publicLine publicLine).mpr (.inr ⟨rfl,rfl⟩)

theorem recovers_iff (dnOf : String → String) (publicLine : String) (store : InjectStore) (uid : String) :
    Recovers dnOf publicLine store uid ↔ (store.injected uid = true → ¬ missing dnOf publicLine store uid) := by
  constructor
  · intro h hflag hmissing
    exact h.free (trapped_of_flagged hflag hmissing)
  · intro hkept
    have hunflagged (hmissing : missing dnOf publicLine store uid) : store.injected uid = false :=
      Bool.eq_false_iff.mpr fun hflag => hkept hflag hmissing
    refine ⟨fun a ha hmissing hfail => ?_,fun a a' ha _ hmissing _ => ?_,fun htrapped => hkept htrapped.1 htrapped.2.1⟩
    · rw [connect_unflagged ha (hunflagged hmissing) hmissing] at hfail ⊢
      have hanswer := Outcome.dialled.inj hfail
      unfold connectUpstream at hanswer ⊢
      simp only at hanswer ⊢
      split
      · simp [ha.2, clearInjectedFlag, getUser]
      · next hnot =>
        rw [if_neg hnot] at hanswer
        exact absurd ⟨hanswer,trivial⟩ hnot
    · rw [connect_unflagged ha (hunflagged hmissing) hmissing]
      refine not_not.mpr (listed_connect ?_)
      simpa only [keys_connectUpstream] using written_listed

end Recovery

section Runs

variable {dnOf : String → String} {publicLine : String} {store : InjectStore} {s t : State} {uid : String}

def Keeps (dnOf : String → String) (publicLine : String) (s : State) : Act → Prop
  | .edit dn sshPublicKeys => ∀ uid, dnOf uid = dn → s.store.injected uid = true → publicLine ∈ sshPublicKeys
  | .call id (.set false) => ∀ c already, s.connections.get? id = some c → c.stage = .flagging already →
      ¬ missing dnOf publicLine s.store c.uid
  | _ => True

theorem kept_addSshKey (h : Kept dnOf publicLine store) (dn : String) :
    Kept dnOf publicLine (addSshKey store dn publicLine) := by
  intro uid hflag
  have hsame : (addSshKey store dn publicLine).injected = store.injected := by
    unfold addSshKey
    split <;> rfl
  rw [hsame] at hflag
  exact not_not.mpr ((mem_addSshKey store dn (dnOf uid) publicLine publicLine).mpr (.inl (not_not.mp (h uid hflag))))

theorem kept_clear (h : Kept dnOf publicLine store) (uid : String) :
    Kept dnOf publicLine (clearInjectedFlag uid store) := by
  intro uid' hflag
  by_cases huid : uid' = uid
  · subst huid
    simp [clearInjectedFlag] at hflag
  · simp only [clearInjectedFlag, Function.update_of_ne huid] at hflag
    exact h uid' hflag

theorem kept_setFlag_iff (h : Kept dnOf publicLine store) :
    Kept dnOf publicLine (setFlag store uid) ↔ ¬ missing dnOf publicLine store uid := by
  constructor
  · exact fun hset => hset uid (Function.update_self ..)
  · intro hlisted uid' hflag
    by_cases huid : uid' = uid
    · subst huid
      exact hlisted
    · simp only [setFlag, Function.update_of_ne huid] at hflag
      exact h uid' hflag

theorem kept_edit_iff (h : Kept dnOf publicLine s.store) {dn : String} {sshPublicKeys : List String}
    (hstep : step dnOf publicLine s (.edit dn sshPublicKeys) = some t) :
    Keeps dnOf publicLine s (.edit dn sshPublicKeys) ↔ Kept dnOf publicLine t.store := by
  cases hstep
  constructor
  · intro hkeeps uid hflag
    by_cases hdn : dnOf uid = dn
    · simpa [missing, hdn] using hkeeps uid hdn hflag
    · simpa [missing, Function.update_of_ne hdn] using h uid hflag
  · rintro hkept uid rfl hflag
    simpa [missing] using hkept uid hflag

theorem Connection.step_cases {c : Connection} {call : Call} {stage : Stage} {store' : InjectStore}
    (h : c.step dnOf publicLine store call = some (stage,store')) :
    (call = .set false ∧ (∃ already, c.stage = .flagging already) ∧ store' = setFlag store c.uid) ∨
      (call ≠ .set false ∧ (store' = store ∨ store' = addSshKey store (dnOf c.uid) publicLine ∨
        store' = clearInjectedFlag c.uid store)) := by
  cases call with
  | get fails =>
    refine .inr ⟨by simp,.inl ?_⟩
    simp only [Connection.step] at h
    split at h
    · split at h
      · cases h
        rfl
      · split at h
        · cases h
          rfl
        · split at h <;> cases h <;> rfl
    · cases h
  | addSshKey fails =>
    refine .inr ⟨by simp,?_⟩
    simp only [Connection.step] at h
    split at h
    · split at h <;> cases h
      · exact .inl rfl
      · exact .inr (.inl rfl)
    · cases h
  | set fails =>
    simp only [Connection.step] at h
    split at h
    · next already hstage =>
      cases fails with
      | true =>
        cases h
        exact .inr ⟨by simp,.inl rfl⟩
      | false =>
        cases h
        exact .inl ⟨rfl,⟨already,hstage⟩,rfl⟩
    · cases h
  | dial answer =>
    refine .inr ⟨by simp,.inl ?_⟩
    simp only [Connection.step] at h
    split at h
    · split at h <;> cases h <;> rfl
    · cases h
  | del fails =>
    refine .inr ⟨by simp,?_⟩
    simp only [Connection.step] at h
    split at h
    · cases fails <;> cases h
      · exact .inr (.inr rfl)
      · exact .inl rfl
    · cases h

def Connection.advance (dnOf : String → String) (publicLine : String) (x : Connection × InjectStore) (call : Call) :
    Option (Connection × InjectStore) :=
  (x.1.step dnOf publicLine x.2 call).map fun r => ({ x.1 with stage := r.1 },r.2)

theorem advance_ensureKeyInjected {c : Connection} (hstage : c.stage = .injecting) : ∃ calls justInjected,
    ensureKeyInjected {} ⟨dnOf c.uid,c.uid,c.sshPublicKeys⟩ publicLine store =
        (.ok justInjected,(ensureKeyInjected {} ⟨dnOf c.uid,c.uid,c.sshPublicKeys⟩ publicLine store).2) ∧
      Run.exec (Connection.advance dnOf publicLine) (c,store) calls =
        some ({ c with stage := .dialing justInjected },
          (ensureKeyInjected {} ⟨dnOf c.uid,c.uid,c.sshPublicKeys⟩ publicLine store).2) := by
  cases hflag : store.injected c.uid with
  | true =>
    refine ⟨[.get false],false,?_,?_⟩
    · simp [ensureKeyInjected, hflag]
    · simp [Run.exec, Connection.advance, Connection.step, ensureKeyInjected, hflag, hstage]
  | false =>
    cases hlisted : c.sshPublicKeys.contains publicLine with
    | true =>
      refine ⟨[.get false,.set false],false,?_,?_⟩
      · simp only [ensureKeyInjected, hflag, hlisted, Bool.false_eq_true, if_false, if_true, Bool.not_true]
      · simp only [Run.exec, Connection.advance, Connection.step, ensureKeyInjected, hflag, hlisted, hstage, setFlag,
          Option.map_some, Bool.false_eq_true, if_false, if_true, Bool.not_true]
    | false =>
      refine ⟨[.get false,.addSshKey false,.set false],true,?_,?_⟩
      · simp only [ensureKeyInjected, hflag, hlisted, Bool.false_eq_true, if_false, Bool.not_false]
      · simp only [Run.exec, Connection.advance, Connection.step, ensureKeyInjected, hflag, hlisted, hstage, setFlag,
          Option.map_some, Bool.false_eq_true, if_false, if_true, Bool.not_false]

theorem keeps_call {id : Nat} {call : Call} (h : call ≠ .set false) : Keeps dnOf publicLine s (.call id call) := by
  cases call with
  | set fails => cases fails with
    | true => trivial
    | false => exact absurd rfl h
  | get fails => trivial
  | addSshKey fails => trivial
  | dial answer => trivial
  | del fails => trivial

theorem kept_call_iff (h : Kept dnOf publicLine s.store) {id : Nat} {call : Call}
    (hstep : step dnOf publicLine s (.call id call) = some t) :
    Keeps dnOf publicLine s (.call id call) ↔ Kept dnOf publicLine t.store := by
  obtain ⟨c,hc,hmap⟩ := Option.bind_eq_some_iff.mp hstep
  obtain ⟨⟨stage,store⟩,hcall,rfl⟩ := Option.map_eq_some_iff.mp hmap
  rcases Connection.step_cases hcall with ⟨rfl,⟨already,hstage⟩,rfl⟩ | ⟨hset,hstore⟩
  · simp only [Keeps]
    rw [kept_setFlag_iff h]
    constructor
    · exact fun hkeeps => hkeeps c already hc hstage
    · intro hlisted c' already' hc' _
      rwa [Option.some.inj (hc'.symm.trans hc)]
  · refine iff_of_true (keeps_call hset) ?_
    rcases hstore with rfl | rfl | rfl
    · exact h
    · exact kept_addSshKey h (dnOf c.uid)
    · exact kept_clear h c.uid

theorem kept_step_iff (h : Kept dnOf publicLine s.store) {act : Act} (hstep : step dnOf publicLine s act = some t) :
    Keeps dnOf publicLine s act ↔ Kept dnOf publicLine t.store := by
  cases act with
  | login id uid =>
    simp only [step] at hstep
    split at hstep <;> cases hstep
    exact iff_of_true trivial h
  | call id call => exact kept_call_iff h hstep
  | edit dn sshPublicKeys => exact kept_edit_iff h hstep

theorem keeps_idle {act : Act} (hstep : step dnOf publicLine s act = none) : Keeps dnOf publicLine s act := by
  cases act with
  | login id uid => trivial
  | edit dn sshPublicKeys => cases hstep
  | call id call =>
    by_cases hset : call = .set false
    · subst hset
      intro c already hc hstage
      simp [step, hc, Connection.step, hstage] at hstep
    · exact keeps_call hset

theorem kept_iff_recovers : Kept dnOf publicLine store ↔ ∀ uid, Recovers dnOf publicLine store uid :=
  forall_congr' fun uid => (recovers_iff dnOf publicLine store uid).symm

theorem reinjection (dnOf : String → String) (publicLine : String) (sshPublicKeys : String → List String)
    (acts : List Act) :
    Run.Along (step dnOf publicLine) (Keeps dnOf publicLine) (start sshPublicKeys) acts ↔
      Run.Along (step dnOf publicLine)
        (fun s act => ∀ t, step dnOf publicLine s act = some t → ∀ uid, Recovers dnOf publicLine t.store uid)
        (start sshPublicKeys) acts := by
  have hstart : Kept dnOf publicLine (start sshPublicKeys).store := fun uid hflag => by cases hflag
  rw [Run.along_iff_invariant (P := fun s => Kept dnOf publicLine s.store) (fun _ _ _ h hstep => kept_step_iff h hstep)
    (fun _ _ hstep => keeps_idle hstep) hstart acts]
  simp only [kept_iff_recovers]

def removed : List Act :=
  [.login 0 "alice",.call 0 (.get false),.call 0 (.addSshKey false),.call 0 (.set false),.call 0 (.dial .ready),
    .edit "uid=alice" []]

def aliceDn (uid : String) : String := "uid=" ++ uid

theorem removed_trapped : ∃ t, Run.exec (step aliceDn "jump") (start fun _ => []) removed = some t ∧
    Trapped aliceDn "jump" t.store "alice" ∧ ¬ Recovers aliceDn "jump" t.store "alice" := by
  refine ⟨_,rfl,trapped_of_flagged ?_ ?_,fun h => h.free (trapped_of_flagged ?_ ?_)⟩
  · decide +kernel
  · decide +kernel
  · decide +kernel
  · decide +kernel

end Runs

end JumpHost.Reinjection
