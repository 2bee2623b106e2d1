import JumpHost.Ssh.Connect
import JumpHost.Ssh.Reinjection

namespace JumpHost.Upstream

open Keys Connect UsernameGrammar
open Reinjection (Dialled Answers authorize)

-- the `i` flag folds ASCII letters alone into the texts the pattern names
def foldCase (message : String) : List Char := message.toList.map Char.toLower

def authish (message : String) : Bool :=
  ["authentication","all configured authentication methods failed"].any fun text =>
    (indexOf text.toList (foldCase message)).isSome

structure Client where
  allowRetry : Bool
  hostKey : Option Blob := none
  verified : Bool := false
  ready : Option Blob := none
  failed : Bool := false
deriving DecidableEq

def Client.ended (c : Client) : Bool := c.ready.isSome || c.failed

structure State where
  clients : List Client
  clearing : Nat := 0
  waiting : Nat := 0
  hostKeys : List String := []
  store : InjectStore
  promise : Option (Except String Nat) := none

inductive Event where
  | hostKey (k : Nat) (key : Blob)
  | ready (k : Nat)
  | error (k : Nat) (message : String)
  | cleared (fails : Bool)
  | timer
deriving DecidableEq

section Machine

-- `digest` is the base64 text of a key's sha256
variable (digest : Blob → String) (args : Dial)

def fingerprint (key : Blob) : String :=
  "SHA256:" ++ String.ofList ((digest key).toList.reverse.dropWhile (· == '=')).reverse

def hostVerifier (key : Blob) : Bool :=
  !(truthy args.expectedHostKeyFp && args.expectedHostKeyFp != some (fingerprint digest key))

def State.settle (s : State) (r : Except String Nat) : State := { s with promise := s.promise.or (some r) }

def State.put (s : State) (k : Nat) (c : Client) : State := { s with clients := s.clients.set k c }

def Client.step (s : State) (k : Nat) (c : Client) : Event → Option State
  | .hostKey _ key =>
      let c := { c with hostKey := some key, verified := hostVerifier digest args key }
      some { s.put k c with hostKeys := s.hostKeys ++ [fingerprint digest key] }
  | .ready _ =>
      if c.verified && c.ready.isNone then some ((s.put k { c with ready := c.hostKey }).settle (.ok k)) else none
  | .error _ message =>
      let s := s.put k { c with failed := true }
      if authish message && c.allowRetry then some { s with clearing := s.clearing + 1 }
      else some (s.settle (.error message))
  | _ => none

def State.step (s : State) : Event → Option State
  | .hostKey k key => s.clients[k]?.bind fun c => c.step digest args s k (.hostKey k key)
  | .ready k => s.clients[k]?.bind fun c => c.step digest args s k (.ready k)
  | .error k message => s.clients[k]?.bind fun c => c.step digest args s k (.error k message)
  | .cleared fails =>
      if 0 < s.clearing then
        let store := if fails then s.store else clearInjectedFlag args.uid s.store
        some { s with clearing := s.clearing - 1, waiting := s.waiting + 1, store := store }
      else none
  | .timer =>
      if 0 < s.waiting then
        some { s with waiting := s.waiting - 1, clients := s.clients ++ [{ allowRetry := false }] }
      else none

-- `refused` is what `client.connect` throws at such arguments
def start (refused : Option String) (store : InjectStore) : State :=
  match refused with
  | some message => { clients := [], store, promise := some (.error message) }
  | none => { clients := [{ allowRetry := args.justInjected }], store }

def run (refused : Option String) (store : InjectStore) (events : List Event) : Option State :=
  Run.exec (State.step digest args) (start args refused store) events

def State.Resting (s : State) : Prop := (∀ c ∈ s.clients, c.ended = true) ∧ s.clearing = 0 ∧ s.waiting = 0

def Event.retries : Event → Bool
  | .error 0 message => args.justInjected && authish message
  | _ => false

def Event.clears : Event → Bool
  | .cleared _ => true
  | _ => false

inductive Moves (s : State) : Event → State → Prop where
  | hostKey {k : Nat} {key : Blob} {c : Client} (hc : s.clients[k]? = some c) : Moves s (.hostKey k key)
      { s.put k { c with hostKey := some key, verified := hostVerifier digest args key } with
        hostKeys := s.hostKeys ++ [fingerprint digest key] }
  | ready {k : Nat} {c : Client} (hc : s.clients[k]? = some c) (hverified : c.verified = true)
      (hnone : c.ready = none) : Moves s (.ready k) ((s.put k { c with ready := c.hostKey }).settle (.ok k))
  | retry {k : Nat} {message : String} {c : Client} (hc : s.clients[k]? = some c) (hauth : authish message = true)
      (hretry : c.allowRetry = true) : Moves s (.error k message)
      { s.put k { c with failed := true } with clearing := s.clearing + 1 }
  | reject {k : Nat} {message : String} {c : Client} (hc : s.clients[k]? = some c)
      (hfinal : authish message = true → c.allowRetry = false) : Moves s (.error k message)
      ((s.put k { c with failed := true }).settle (.error message))
  | cleared {fails : Bool} (hclearing : 0 < s.clearing) : Moves s (.cleared fails) { s with
      clearing := s.clearing - 1
      waiting := s.waiting + 1
      store := if fails then s.store else clearInjectedFlag args.uid s.store }
  | timer (hwaiting : 0 < s.waiting) : Moves s .timer { s with
      waiting := s.waiting - 1
      clients := s.clients ++ [{ allowRetry := false }] }

variable {digest args}

theorem moves_of_step {s t : State} {e : Event} (h : s.step digest args e = some t) : Moves digest args s e t := by
  cases e with
  | hostKey k key =>
    obtain ⟨c,hc,hstep⟩ := Option.bind_eq_some_iff.mp h
    cases hstep
    exact .hostKey hc
  | ready k =>
    obtain ⟨c,hc,hstep⟩ := Option.bind_eq_some_iff.mp h
    simp only [Client.step] at hstep
    split at hstep
    · next hready =>
      cases hstep
      simp only [Bool.and_eq_true, Option.isNone_iff_eq_none] at hready
      exact .ready hc hready.1 hready.2
    · cases hstep
  | error k message =>
    obtain ⟨c,hc,hstep⟩ := Option.bind_eq_some_iff.mp h
    simp only [Client.step] at hstep
    split at hstep
    · next hretry =>
      cases hstep
      simp only [Bool.and_eq_true] at hretry
      exact .retry hc hretry.1 hretry.2
    · next hretry =>
      cases hstep
      exact .reject hc fun hauth => by simpa [hauth] using hretry
  | cleared fails =>
    simp only [State.step] at h
    split at h
    · next hclearing =>
      cases h
      exact .cleared hclearing
    · cases h
  | timer =>
    simp only [State.step] at h
    split at h
    · next hwaiting =>
      cases h
      exact .timer hwaiting
    · cases h

structure Client.Checked (args : Dial) (hostKeys : List String) (digest : Blob → String) (c : Client) : Prop where
  verified : c.verified = true → ∃ key, c.hostKey = some key ∧ hostVerifier digest args key = true ∧
    fingerprint digest key ∈ hostKeys
  ready : ∀ key, c.ready = some key → hostVerifier digest args key = true ∧ fingerprint digest key ∈ hostKeys

structure Sound (digest : Blob → String) (args : Dial) (s : State) : Prop where
  checked : ∀ c ∈ s.clients, c.Checked args s.hostKeys digest
  retry : ∀ k c, s.clients[k]? = some c → c.allowRetry = (k == 0 && args.justInjected)
  resolved : ∀ k, s.promise = some (.ok k) → ∃ c key, s.clients[k]? = some c ∧ c.ready = some key
  live : s.promise = none → (∃ c ∈ s.clients, c.ended = false) ∨ 0 < s.clearing ∨ 0 < s.waiting
  dialled : 0 < s.clearing ∨ 0 < s.waiting → s.clients ≠ []

theorem Client.Checked.mono {hostKeys : List String} {c : Client} (h : c.Checked args hostKeys digest)
    (fp : String) : c.Checked args (hostKeys ++ [fp]) digest := by
  constructor
  · intro hv
    obtain ⟨key,hkey,htook,hmem⟩ := h.verified hv
    exact ⟨key,hkey,htook,List.mem_append_left _ hmem⟩
  · intro key hready
    exact ⟨(h.ready key hready).1,List.mem_append_left _ (h.ready key hready).2⟩

theorem Client.checked_hostKey {hostKeys : List String} {c : Client} (h : c.Checked args hostKeys digest)
    (key : Blob) : Client.Checked args (hostKeys ++ [fingerprint digest key]) digest
      { c with hostKey := some key, verified := hostVerifier digest args key } :=
  ⟨fun hv => ⟨key,rfl,hv,by simp⟩,(h.mono _).ready⟩

theorem Client.checked_ready {hostKeys : List String} {c : Client} (h : c.Checked args hostKeys digest)
    (hverified : c.verified = true) : Client.Checked args hostKeys digest { c with ready := c.hostKey } := by
  obtain ⟨key,hkey,htook,hmem⟩ := h.verified hverified
  refine ⟨h.verified,fun key' hready => ?_⟩
  obtain rfl : key = key' := Option.some.inj (hkey.symm.trans hready)
  exact ⟨htook,hmem⟩

theorem Client.checked_failed {hostKeys : List String} {c : Client} (h : c.Checked args hostKeys digest) :
    Client.Checked args hostKeys digest { c with failed := true } := ⟨h.verified,h.ready⟩

section Put

variable {s : State} {k : Nat} {c d : Client}

theorem retry_put (h : Sound digest args s) (hc : s.clients[k]? = some c) (hsame : d.allowRetry = c.allowRetry)
    (j : Nat) (x : Client) (hx : (s.put k d).clients[j]? = some x) :
    x.allowRetry = (j == 0 && args.justInjected) := by
  by_cases hj : j = k
  · subst hj
    have hlt := (List.getElem?_eq_some_iff.mp hc).1
    obtain rfl : d = x := by simpa [State.put, hlt] using hx
    rw [hsame]
    exact h.retry j c hc
  · have hne : k ≠ j := fun heq => hj heq.symm
    exact h.retry j x (by simpa [State.put, List.getElem?_set_ne hne] using hx)

theorem checked_put (h : Sound digest args s) (hd : d.Checked args s.hostKeys digest) (x : Client)
    (hx : x ∈ (s.put k d).clients) : x.Checked args s.hostKeys digest := by
  rcases List.mem_or_eq_of_mem_set hx with hmem | rfl
  · exact h.checked x hmem
  · exact hd

theorem resolved_put (h : Sound digest args s) (hc : s.clients[k]? = some c)
    (hkeep : ∀ key, c.ready = some key → d.ready = some key) (j : Nat) (hj : s.promise = some (.ok j)) :
    ∃ x key, (s.put k d).clients[j]? = some x ∧ x.ready = some key := by
  obtain ⟨x,key,hx,hready⟩ := h.resolved j hj
  by_cases hjk : j = k
  · subst hjk
    obtain rfl : c = x := Option.some.inj (hc.symm.trans hx)
    have hlt := (List.getElem?_eq_some_iff.mp hc).1
    exact ⟨d,key,by simp [State.put, hlt],hkeep key hready⟩
  · have hne : k ≠ j := fun heq => hjk heq.symm
    exact ⟨x,key,by simpa [State.put, List.getElem?_set_ne hne] using hx,hready⟩

theorem live_put (hc : s.clients[k]? = some c) (hsame : d.ended = c.ended)
    (h : ∃ x ∈ s.clients, x.ended = false) : ∃ x ∈ (s.put k d).clients, x.ended = false := by
  obtain ⟨x,hx,hended⟩ := h
  obtain ⟨j,hj⟩ := List.getElem?_of_mem hx
  by_cases hjk : j = k
  · subst hjk
    obtain rfl : c = x := Option.some.inj (hc.symm.trans hj)
    exact ⟨d,List.mem_set (List.getElem?_eq_some_iff.mp hc).1 d,hsame.trans hended⟩
  · have hne : k ≠ j := fun heq => hjk heq.symm
    have hget : (s.put k d).clients[j]? = some x := by simpa [State.put, List.getElem?_set_ne hne] using hj
    exact ⟨x,List.mem_of_getElem? hget,hended⟩

theorem put_ne_nil (hc : s.clients[k]? = some c) : (s.put k d).clients ≠ [] :=
  List.ne_nil_of_mem (List.mem_set (List.getElem?_eq_some_iff.mp hc).1 d)

theorem State.settle_promise (s : State) (r : Except String Nat) : (s.settle r).promise = some (s.promise.getD r) := by
  cases hp : s.promise <;> simp [State.settle, hp]

end Put

theorem sound_hostKey {s : State} {k : Nat} {c : Client} (key : Blob) (h : Sound digest args s)
    (hc : s.clients[k]? = some c) : Sound digest args
      { s.put k { c with hostKey := some key, verified := hostVerifier digest args key } with
        hostKeys := s.hostKeys ++ [fingerprint digest key] } := by
  constructor
  · intro x hx
    rcases List.mem_or_eq_of_mem_set hx with hmem | rfl
    · exact (h.checked x hmem).mono _
    · exact Client.checked_hostKey (h.checked c (List.mem_of_getElem? hc)) key
  · exact retry_put h hc rfl
  · exact resolved_put h hc fun _ hready => hready
  · intro hnone
    exact (h.live hnone).imp_left (live_put hc rfl)
  · exact fun _ => put_ne_nil hc

theorem sound_ready {s : State} {k : Nat} {c : Client} (h : Sound digest args s) (hc : s.clients[k]? = some c)
    (hverified : c.verified = true) (hnone : c.ready = none) :
    Sound digest args ((s.put k { c with ready := c.hostKey }).settle (.ok k)) := by
  have hchecked := Client.checked_ready (h.checked c (List.mem_of_getElem? hc)) hverified
  obtain ⟨key,hkey,-⟩ := (h.checked c (List.mem_of_getElem? hc)).verified hverified
  constructor
  · exact checked_put h hchecked
  · exact retry_put h hc rfl
  · intro j hj
    rw [State.settle_promise] at hj
    cases hp : s.promise with
    | none =>
      simp only [State.put, hp, Option.getD_none, Option.some.injEq, Except.ok.injEq] at hj
      subst hj
      have hlt := (List.getElem?_eq_some_iff.mp hc).1
      exact ⟨{ c with ready := c.hostKey },key,by simp [State.settle, State.put, hlt],hkey⟩
    | some r =>
      simp only [State.put, hp, Option.getD_some] at hj
      exact resolved_put h hc (fun key hready => by simp [hnone] at hready) j (hp.trans hj)
  · intro hopen
    rw [State.settle_promise] at hopen
    cases hopen
  · exact fun _ => put_ne_nil hc

theorem sound_retry {s : State} {k : Nat} {c : Client} (h : Sound digest args s) (hc : s.clients[k]? = some c) :
    Sound digest args { s.put k { c with failed := true } with clearing := s.clearing + 1 } := by
  constructor
  · exact checked_put h (Client.checked_failed (h.checked c (List.mem_of_getElem? hc)))
  · exact retry_put h hc rfl
  · exact resolved_put h hc fun _ hready => hready
  · exact fun _ => .inr (.inl (Nat.succ_pos _))
  · exact fun _ => put_ne_nil hc

theorem sound_reject {s : State} {k : Nat} {c : Client} (message : String) (h : Sound digest args s)
    (hc : s.clients[k]? = some c) :
    Sound digest args ((s.put k { c with failed := true }).settle (.error message)) := by
  constructor
  · exact checked_put h (Client.checked_failed (h.checked c (List.mem_of_getElem? hc)))
  · exact retry_put h hc rfl
  · intro j hj
    rw [State.settle_promise] at hj
    cases hp : s.promise with
    | none => simp [State.put, hp] at hj
    | some r =>
      simp only [State.put, hp, Option.getD_some] at hj
      exact resolved_put (d := { c with failed := true }) h hc (fun _ hready => hready) j (hp.trans hj)
  · intro hopen
    rw [State.settle_promise] at hopen
    cases hopen
  · exact fun _ => put_ne_nil hc

theorem sound_timer {s : State} (h : Sound digest args s) (hwaiting : 0 < s.waiting) : Sound digest args { s with
    waiting := s.waiting - 1
    clients := s.clients ++ [{ allowRetry := false }] } := by
  have hne := h.dialled (.inr hwaiting)
  constructor
  · intro x hx
    rcases List.mem_append.mp hx with hmem | hnew
    · exact h.checked x hmem
    · rw [List.mem_singleton.mp hnew]
      exact ⟨by simp,by simp⟩
  · intro k x hx
    by_cases hk : k < s.clients.length
    · exact h.retry k x (by simpa [List.getElem?_append_left hk] using hx)
    · have hpos : 0 < s.clients.length := List.length_pos_of_ne_nil hne
      have hx' := List.mem_of_getElem? ((List.getElem?_append_right (Nat.le_of_not_lt hk)).symm.trans hx)
      have hzero : (k == 0) = false := beq_false_of_ne (by omega)
      rw [List.mem_singleton.mp hx', hzero, Bool.false_and]
  · intro k hk
    obtain ⟨c,key,hc,hready⟩ := h.resolved k hk
    refine ⟨c,key,?_,hready⟩
    rw [List.getElem?_append_left (List.getElem?_eq_some_iff.mp hc).1]
    exact hc
  · exact fun _ => .inl ⟨{ allowRetry := false },by simp,rfl⟩
  · simp

theorem sound_step (s : State) (e : Event) (t : State) (h : Sound digest args s)
    (hstep : s.step digest args e = some t) : Sound digest args t := by
  cases moves_of_step hstep with
  | hostKey hc => exact sound_hostKey _ h hc
  | ready hc hverified hnone => exact sound_ready h hc hverified hnone
  | retry hc => exact sound_retry h hc
  | reject hc => exact sound_reject _ h hc
  | cleared hclearing => exact { h with
      live := fun _ => .inr (.inr (Nat.succ_pos _))
      dialled := fun _ => h.dialled (.inl hclearing) }
  | timer hwaiting => exact sound_timer h hwaiting

theorem sound_start (refused : Option String) (store : InjectStore) :
    Sound digest args (start args refused store) := by
  cases refused with
  | some message => constructor <;> simp [start]
  | none =>
    constructor
    · intro c hc
      rw [List.mem_singleton.mp hc]
      exact ⟨by simp,by simp⟩
    · intro k c hc
      cases k with
      | zero =>
        cases hc
        simp
      | succ k => simp [start] at hc
    · simp [start]
    · exact fun _ => .inl ⟨{ allowRetry := args.justInjected },by simp [start],rfl⟩
    · simp [start]

theorem retries_error {s : State} {k : Nat} {c : Client} (h : Sound digest args s) (hc : s.clients[k]? = some c)
    (message : String) : (Event.error k message).retries args = (authish message && c.allowRetry) := by
  rw [h.retry k c hc]
  cases k with
  | zero => simp [Event.retries, Bool.and_comm]
  | succ k => simp [Event.retries]

theorem dials_step (s : State) (e : Event) (t : State) (h : Sound digest args s)
    (hstep : s.step digest args e = some t) : Sound digest args t ∧
      t.clients.length + t.clearing + t.waiting =
        s.clients.length + s.clearing + s.waiting + if e.retries args then 1 else 0 := by
  refine ⟨sound_step s e t h hstep,?_⟩
  cases moves_of_step hstep with
  | hostKey => simp [State.put, Event.retries]
  | ready => simp [State.put, State.settle, Event.retries]
  | retry hc hauth hretry =>
    rw [retries_error h hc, hauth, hretry]
    simp [State.put]
    omega
  | @reject k message c hc hfinal =>
    have hno : (authish message && c.allowRetry) = false := by
      cases hauth : authish message with
      | false => rfl
      | true => simp [hfinal hauth]
    rw [retries_error h hc, hno]
    simp [State.put, State.settle]
  | cleared hclearing =>
    simp [Event.retries]
    omega
  | timer hwaiting =>
    simp [Event.retries]
    omega

theorem cleared_step (s : State) (e : Event) (t : State) (_ : True) (hstep : s.step digest args e = some t) :
    True ∧ t.clients.length + t.waiting = s.clients.length + s.waiting + if e.clears then 1 else 0 := by
  refine ⟨trivial,?_⟩
  cases moves_of_step hstep with
  | hostKey | retry => simp [State.put, Event.clears]
  | ready | reject => simp [State.put, State.settle, Event.clears]
  | cleared hclearing =>
    simp [Event.clears]
    omega
  | timer hwaiting =>
    simp [Event.clears]
    omega

theorem clearInjectedFlag_twice (uid : String) (store : InjectStore) :
    clearInjectedFlag uid (clearInjectedFlag uid store) = clearInjectedFlag uid store := by
  simp [clearInjectedFlag]

theorem store_step {s t : State} {e : Event} (h : s.step digest args e = some t) :
    t.store = if e = .cleared false then clearInjectedFlag args.uid s.store else s.store := by
  cases moves_of_step h with
  | @cleared fails => cases fails <;> simp
  | hostKey | ready | retry | reject | timer => simp [State.put, State.settle]

theorem store_run {s t : State} {events : List Event} (h : Run.exec (State.step digest args) s events = some t) :
    t.store = if Event.cleared false ∈ events then clearInjectedFlag args.uid s.store else s.store := by
  induction events generalizing s with
  | nil =>
    cases h
    simp
  | cons e events ih =>
    obtain ⟨u,hu,hrest⟩ := Run.exec_cons h
    rw [ih hrest, store_step hu]
    by_cases he : e = .cleared false
    · subst he
      simp [clearInjectedFlag_twice]
    · have hne : ¬ Event.cleared false = e := fun heq => he heq.symm
      simp [he, hne]

def Refused (args : Dial) (refused : Option String) (events : List Event) (s : State) : Prop :=
  ∀ message, s.promise = some (.error message) →
    refused = some message ∨ ∃ k, Event.error k message ∈ events ∧ (Event.error k message).retries args = false

theorem refused_step {refused : Option String} {events : List Event} (s : State) (e : Event) (t : State)
    (h : Sound digest args s ∧ Refused args refused events s) (he : e ∈ events)
    (hstep : s.step digest args e = some t) : Sound digest args t ∧ Refused args refused events t := by
  refine ⟨sound_step s e t h.1 hstep,?_⟩
  intro message hmessage
  cases moves_of_step hstep with
  | hostKey | retry | cleared | timer => exact h.2 message hmessage
  | ready =>
    rw [State.settle_promise] at hmessage
    cases hp : s.promise with
    | none => simp [State.put, hp] at hmessage
    | some r => exact h.2 message (by simpa [State.put, hp] using hmessage)
  | @reject k m c hc hfinal =>
    rw [State.settle_promise] at hmessage
    cases hp : s.promise with
    | none =>
      simp only [State.put, hp, Option.getD_none, Option.some.injEq, Except.error.injEq] at hmessage
      subst hmessage
      refine .inr ⟨k,he,?_⟩
      rw [retries_error h.1 hc]
      cases hauth : authish m with
      | false => rfl
      | true => simp [hfinal hauth]
    | some r => exact h.2 message (by simpa [State.put, hp] using hmessage)

variable (digest args)

def Pinned (key : Blob) : Prop :=
  ∀ fp, args.expectedHostKeyFp = some fp → fp ≠ "" → fp = fingerprint digest key

structure Delivers (refused : Option String) (store : InjectStore) (events : List Event) (s : State) : Prop where
  resolved : ∀ k, s.promise = some (.ok k) → ∃ c key, s.clients[k]? = some c ∧ c.ready = some key ∧
    Pinned digest args key ∧ fingerprint digest key ∈ s.hostKeys
  rejected : Refused args refused events s
  dials : s.clients.length + s.clearing + s.waiting =
    (start args refused store).clients.length + events.countP (Event.retries args)
  cleared : s.clients.length + s.waiting = (start args refused store).clients.length + events.countP Event.clears
  store : s.store = if Event.cleared false ∈ events then clearInjectedFlag args.uid store else store
  settles : s.Resting → s.promise ≠ none

variable {digest args}

theorem pinned_of_hostVerifier {key : Blob} (h : hostVerifier digest args key = true) : Pinned digest args key := by
  intro fp hfp hne
  simpa [hostVerifier, hfp, truthy, hne] using h

theorem upstream_delivers {refused : Option String} {store : InjectStore} {events : List Event} {s : State}
    (h : run digest args refused store events = some s) : Delivers digest args refused store events s := by
  have hstart : Sound digest args (start args refused store) := sound_start refused store
  have hwaiting : (start args refused store).clearing = 0 ∧ (start args refused store).waiting = 0 := by
    cases refused <;> exact ⟨rfl,rfl⟩
  have hrefused : Refused args refused events (start args refused store) := by
    intro message hmessage
    cases refused with
    | none => cases hmessage
    | some m =>
      cases hmessage
      exact .inl rfl
  obtain ⟨hsound,hrejected⟩ := Run.invariant_of_mem refused_step ⟨hstart,hrefused⟩ h
  constructor
  · intro k hk
    obtain ⟨c,key,hc,hready⟩ := hsound.resolved k hk
    obtain ⟨htook,hmem⟩ := (hsound.checked c (List.mem_of_getElem? hc)).ready key hready
    exact ⟨c,key,hc,hready,pinned_of_hostVerifier htook,hmem⟩
  · exact hrejected
  · simpa [hwaiting] using Run.tally dials_step hstart h
  · simpa [hwaiting] using Run.tally cleared_step trivial h
  · rw [store_run h]
    cases refused <;> rfl
  · rintro ⟨hended,hclearing,hwait⟩ hopen
    rcases hsound.live hopen with ⟨c,hc,hlive⟩ | hpos | hpos
    · rw [hended c hc] at hlive
      cases hlive
    · omega
    · omega

section Redial

def relisted : Dial := ⟨some "10.0.0.5",.int 22,"alice","key",none,"alice",true,some "SHA256:AQ"⟩

def digests (key : Blob) : String := if key = [1] then "AQ==" else "Ag=="

def flagged : InjectStore := ⟨fun uid => uid == "alice",fun dn => if dn = "uid=alice" then ["jump"] else []⟩

def lagging : List Event :=
  [.hostKey 0 [1],.error 0 "All configured authentication methods failed",.cleared false,.timer,.hostKey 1 [1],.ready 1]

theorem upstream_delivers_lagging : ∃ s, run digests relisted none flagged lagging = some s ∧
    s.promise = some (.ok 1) ∧ Delivers digests relisted none flagged lagging s :=
  ⟨_,rfl,rfl,upstream_delivers (show run digests relisted none flagged lagging = some _ from rfl)⟩

end Redial

end Machine

section Refinement

variable {digest : Blob → String} {args : Dial} {publicLine dn : String} {store : InjectStore}

def Once (publicLine dn : String) (s : State) : Event → Prop
  | .ready k => (∀ c, s.clients[k]? = some c → c.ended = false) ∧ publicLine ∈ s.store.sshPublicKeys dn
  | .error k _ => ∀ c, s.clients[k]? = some c → c.ended = false
  | _ => True

def dialled : Except String Nat → Dialled
  | .ok _ => .ready
  | .error message => if authish message then .authFailed else .failed message

def after (args : Dial) (store : InjectStore) (del : Option String) : InjectStore :=
  if del.isSome then store else clearInjectedFlag args.uid store

def Listed (publicLine dn : String) (store : InjectStore) (answer : Dialled) : Prop :=
  answer = .ready → publicLine ∈ store.sshPublicKeys dn

structure View where
  standing : List (Bool × Bool)
  clearing : Nat
  waiting : Nat
  store : InjectStore
  promise : Option (Except String Nat)

def Client.standing (c : Client) : Bool × Bool := (c.allowRetry,c.ended)

def State.view (s : State) : View := ⟨s.clients.map Client.standing,s.clearing,s.waiting,s.store,s.promise⟩

inductive Progress (args : Dial) (publicLine dn : String) (store : InjectStore) : View → Prop where
  | first : Progress args publicLine dn store ⟨[(args.justInjected,false)],0,0,store,none⟩
  | settled {r : Except String Nat} (hlast : ¬ (dialled r = .authFailed ∧ args.justInjected = true))
      (hlisted : Listed publicLine dn store (dialled r)) :
      Progress args publicLine dn store ⟨[(args.justInjected,true)],0,0,store,some r⟩
  | clearing (hjust : args.justInjected = true) : Progress args publicLine dn store ⟨[(true,true)],1,0,store,none⟩
  | waiting {del : Option String} (hjust : args.justInjected = true) :
      Progress args publicLine dn store ⟨[(true,true)],0,1,after args store del,none⟩
  | second {del : Option String} (hjust : args.justInjected = true) :
      Progress args publicLine dn store ⟨[(true,true),(false,false)],0,0,after args store del,none⟩
  | resettled {del : Option String} {r : Except String Nat} (hjust : args.justInjected = true)
      (hlisted : Listed publicLine dn store (dialled r)) :
      Progress args publicLine dn store ⟨[(true,true),(false,true)],0,0,after args store del,some r⟩

theorem getElem?_one {α : Type} {a x : α} {k : Nat} (h : [a][k]? = some x) : k = 0 ∧ a = x := by
  match k with
  | 0 => exact ⟨rfl,Option.some.inj h⟩
  | k + 1 => simp at h

theorem getElem?_pair {α : Type} {a b x : α} {k : Nat} (h : [a,b][k]? = some x) :
    (k = 0 ∧ a = x) ∨ (k = 1 ∧ b = x) := by
  match k with
  | 0 => exact .inl ⟨rfl,Option.some.inj h⟩
  | 1 => exact .inr ⟨rfl,Option.some.inj h⟩
  | k + 2 => simp at h

section Progress

variable {v : View} {k : Nat} {retry : Bool} {r : Except String Nat}

theorem progress_settle (h : Progress args publicLine dn store v) (hk : v.standing[k]? = some (retry,false))
    (hlast : ¬ (dialled r = .authFailed ∧ retry = true)) (hlisted : Listed publicLine dn store (dialled r)) :
    Progress args publicLine dn store
      { v with standing := v.standing.set k (retry,true), promise := v.promise.or (some r) } := by
  cases h with
  | first =>
    obtain ⟨rfl,heq⟩ := getElem?_one hk
    cases heq
    exact .settled hlast hlisted
  | settled | clearing | waiting => cases (getElem?_one hk).2
  | second hjust =>
    rcases getElem?_pair hk with ⟨-,heq⟩ | ⟨rfl,heq⟩ <;> cases heq
    exact .resettled hjust hlisted
  | resettled => rcases getElem?_pair hk with ⟨-,heq⟩ | ⟨-,heq⟩ <;> cases heq

theorem progress_retry (h : Progress args publicLine dn store v) (hk : v.standing[k]? = some (true,false)) :
    Progress args publicLine dn store
      { v with standing := v.standing.set k (true,true), clearing := v.clearing + 1 } := by
  cases h with
  | first =>
    obtain ⟨rfl,heq⟩ := getElem?_one hk
    exact .clearing (congrArg Prod.fst heq)
  | settled | clearing | waiting => exact absurd (congrArg Prod.snd (getElem?_one hk).2) (by simp)
  | second | resettled => rcases getElem?_pair hk with ⟨-,heq⟩ | ⟨-,heq⟩ <;> cases heq

theorem progress_cleared (h : Progress args publicLine dn store v) (hclearing : 0 < v.clearing) (fails : Bool) :
    Progress args publicLine dn store { v with
      clearing := v.clearing - 1
      waiting := v.waiting + 1
      store := if fails then v.store else clearInjectedFlag args.uid v.store } := by
  cases h with
  | clearing hjust =>
    cases fails with
    | true => exact @Progress.waiting args publicLine dn store (some "") hjust
    | false => exact @Progress.waiting args publicLine dn store none hjust
  | first | settled | waiting | second | resettled => cases hclearing

theorem progress_timer (h : Progress args publicLine dn store v) (hwaiting : 0 < v.waiting) :
    Progress args publicLine dn store
      { v with waiting := v.waiting - 1, standing := v.standing ++ [(false,false)] } := by
  cases h with
  | waiting hjust => exact .second hjust
  | first | settled | clearing | second | resettled => cases hwaiting

end Progress

theorem view_put {s : State} {k : Nat} {c d : Client} (hc : s.clients[k]? = some c) (hd : d.standing = c.standing) :
    (s.put k d).view = s.view := by
  obtain ⟨hlt,rfl⟩ := List.getElem?_eq_some_iff.mp hc
  have hsame : (s.clients.map Client.standing).set k s.clients[k].standing = s.clients.map Client.standing := by
    rw [← List.map_set, List.set_getElem_self]
  simp [State.put, State.view, List.map_set, hd, hsame]

theorem standing_get {s : State} {k : Nat} {c : Client} (hc : s.clients[k]? = some c) (hlive : c.ended = false) :
    s.view.standing[k]? = some (c.allowRetry,false) := by
  simp [State.view, hc, Client.standing, hlive]

theorem listed_error (message : String) : Listed publicLine dn store (dialled (.error message)) := by
  intro hready
  simp only [dialled] at hready
  split at hready <;> cases hready

def Steady (digest : Blob → String) (args : Dial) (publicLine dn : String) (store : InjectStore) (s : State) : Prop :=
  Sound digest args s ∧ Progress args publicLine dn store s.view ∧ s.store.sshPublicKeys = store.sshPublicKeys

theorem view_settle (s : State) (k : Nat) (d : Client) (r : Except String Nat) :
    ((s.put k d).settle r).view =
      { s.view with standing := s.view.standing.set k d.standing, promise := s.view.promise.or (some r) } := by
  simp [State.view, State.put, State.settle, List.map_set]

theorem standing_failed (c : Client) : Client.standing { c with failed := true } = (c.allowRetry,true) := by
  simp [Client.standing, Client.ended]

theorem steady_step (s : State) (e : Event) (t : State) (h : Steady digest args publicLine dn store s)
    (honce : Once publicLine dn s e) (hstep : s.step digest args e = some t) :
    Steady digest args publicLine dn store t := by
  obtain ⟨hsound,hprogress,hkeys⟩ := h
  refine ⟨sound_step s e t hsound hstep,?_⟩
  cases moves_of_step hstep with
  | @hostKey k key c hc =>
    have hview := view_put (d := { c with hostKey := some key, verified := hostVerifier digest args key }) hc rfl
    rw [← hview] at hprogress
    exact ⟨hprogress,hkeys⟩
  | @ready k c hc hverified hnone =>
    obtain ⟨key,hkey,-⟩ := (hsound.checked c (List.mem_of_getElem? hc)).verified hverified
    have hset := progress_settle (r := .ok k) hprogress (standing_get hc (honce.1 c hc)) (by simp [dialled])
      (fun _ => hkeys ▸ honce.2)
    refine ⟨?_,hkeys⟩
    rw [view_settle]
    simpa [Client.standing, Client.ended, hkey] using hset
  | @retry k message c hc hauth hretry =>
    have hget := standing_get hc (honce c hc)
    rw [hretry] at hget
    have hset := progress_retry hprogress hget
    have hstanding : Client.standing { c with failed := true } = (true,true) := by rw [standing_failed, hretry]
    refine ⟨?_,hkeys⟩
    simpa only [State.view, State.put, List.map_set, hstanding] using hset
  | @reject k message c hc hfinal =>
    have hlast : ¬ (dialled (.error message) = .authFailed ∧ c.allowRetry = true) := by
      rintro ⟨hauth,hretry⟩
      have hnot : authish message = true := by
        simp only [dialled] at hauth
        split at hauth
        · assumption
        · cases hauth
      rw [hfinal hnot] at hretry
      cases hretry
    have hset := progress_settle (r := .error message) hprogress (standing_get hc (honce c hc)) hlast
      (listed_error message)
    refine ⟨?_,hkeys⟩
    rw [view_settle, standing_failed]
    exact hset
  | @cleared fails hclearing =>
    refine ⟨progress_cleared hprogress hclearing fails,?_⟩
    cases fails <;> exact hkeys
  | timer hwaiting =>
    have hnext := progress_timer hprogress hwaiting
    refine ⟨?_,hkeys⟩
    simpa [State.view, Client.standing, Client.ended] using hnext

theorem authorize_listed {answer : Dialled} (h : Listed publicLine dn store answer) :
    authorize publicLine store dn answer = answer := by
  unfold authorize
  split
  · next hnot => exact absurd (h hnot.1) hnot.2
  · rfl

theorem listed_after {answer : Dialled} (h : Listed publicLine dn store answer) (del : Option String) :
    Listed publicLine dn (after args store del) answer := by
  intro hready
  unfold after
  split <;> exact h hready

theorem connectUpstream_once {user : User} {a : Answers} {justInjected : Bool} (huser : user.dn = dn)
    (hlast : ¬ (a.first = .authFailed ∧ justInjected = true)) (h : Listed publicLine dn store a.first) :
    Reinjection.connectUpstream publicLine user justInjected a store = (a.first,store) := by
  simp only [Reinjection.connectUpstream, huser, authorize_listed h, if_neg hlast]

theorem connectUpstream_twice {user : User} {a : Answers} (huser : user.dn = dn) (huid : user.uid = args.uid)
    (hfirst : a.first = .authFailed) (h : Listed publicLine dn store a.second) :
    Reinjection.connectUpstream publicLine user true a store = (a.second,after args store a.del) := by
  have hauth : authorize publicLine store dn .authFailed = .authFailed := authorize_listed fun hready => by cases hready
  have hlisted : Listed publicLine dn (after args store a.del) a.second := listed_after h a.del
  have hsecond := authorize_listed hlisted
  unfold after at hsecond ⊢
  simp only [Reinjection.connectUpstream, huser, huid, hfirst, hauth, and_self, if_true, hsecond]

theorem refines_connectUpstream {events : List Event} {s : State} (sshPublicKeys : List String)
    (hg : Run.Along (State.step digest args) (Once publicLine dn) (start args none store) events)
    (h : run digest args none store events = some s) (hrest : s.Resting) :
    ∃ (a : Answers) (r : Except String Nat), s.promise = some r ∧
      Reinjection.connectUpstream publicLine ⟨dn,args.uid,sshPublicKeys⟩ args.justInjected a store =
        (dialled r,s.store) ∧
      s.clients.length = if a.first = .authFailed ∧ args.justInjected = true then 2 else 1 := by
  have hstart : Steady digest args publicLine dn store (start args none store) := ⟨sound_start none store,.first,rfl⟩
  obtain ⟨-,hprogress,-⟩ := Run.invariant steady_step hstart hg h
  obtain ⟨hended,hclearing,hwaiting⟩ := hrest
  have hspoken : ∀ x ∈ s.view.standing, x.2 = true := by simpa [State.view, Client.standing] using hended
  have hlength : s.view.standing.length = s.clients.length := List.length_map ..
  have hc : s.view.clearing = 0 := hclearing
  have hw : s.view.waiting = 0 := hwaiting
  have hstore : s.view.store = s.store := rfl
  have hpromise : s.view.promise = s.promise := rfl
  revert hspoken hlength hc hw hstore hpromise
  generalize s.view = v at hprogress
  intro hspoken hlength hc hw hstore hpromise
  cases hprogress with
  | @settled r hlast hlisted =>
    refine ⟨{ first := dialled r, second := .ready },r,hpromise.symm,?_,?_⟩
    · rw [connectUpstream_once rfl hlast hlisted]
      exact congrArg _ hstore
    · rw [← hlength, if_neg hlast]
      rfl
  | @resettled del r hjust hlisted =>
    refine ⟨{ first := .authFailed, second := dialled r, del },r,hpromise.symm,?_,?_⟩
    · rw [hjust, connectUpstream_twice rfl rfl rfl hlisted]
      exact congrArg _ hstore
    · rw [← hlength, if_pos ⟨rfl,hjust⟩]
      rfl
  | first | second => simp at hspoken
  | clearing => cases hc
  | waiting => cases hw

theorem refines_connectUpstream_lagging : ∃ s, run digests relisted none flagged lagging = some s ∧
    ∃ (a : Answers) (r : Except String Nat), s.promise = some r ∧
      Reinjection.connectUpstream "jump" ⟨"uid=alice","alice",["jump"]⟩ true a flagged = (dialled r,s.store) ∧
      s.clients.length = if a.first = .authFailed ∧ true = true then 2 else 1 := by
  have hg : Run.Along (State.step digests relisted) (Once "jump" "uid=alice") (start relisted none flagged)
      lagging := by
    refine ⟨trivial,?_,trivial,trivial,trivial,?_,trivial⟩
    · intro c hc
      cases hc
      rfl
    · refine ⟨?_,by decide⟩
      intro c hc
      cases hc
      rfl
  have hrun : run digests relisted none flagged lagging = some _ := rfl
  exact ⟨_,rfl,refines_connectUpstream ["jump"] hg hrun ⟨by decide,rfl,rfl⟩⟩

end Refinement

end JumpHost.Upstream
