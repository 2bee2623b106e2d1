import JumpHost.Library.Run
import JumpHost.Library.OrdMap

namespace JumpHost.Access

def CACHE_TTL_MS : Nat := 30000

-- `metadata.managed` is a flag, or the word for one
structure Metadata where
  managed : Option (Bool ⊕ String) := none
  discovery_sources : Option (List String) := none
deriving DecidableEq

structure Resource where
  id : String
  kind : Option String
  metadata : Option Metadata := none
deriving DecidableEq

def isCatalogHost : Option Resource → Bool
  | none => false
  | some r =>
      if r.kind ≠ some "host" then false
      else
        let managed := r.metadata.bind Metadata.managed
        if managed = some (.inl true) ∨ managed = some (.inr "true") then true
        else if managed = some (.inl false) ∨ managed = some (.inr "false") then false
        else
          let sources := (r.metadata.bind Metadata.discovery_sources).getD []
          !(0 < sources.length && !sources.contains "manual")

structure Entry where
  cachedAt : Nat
  hosts : List (Option Resource)
  requestedAt : Nat
deriving DecidableEq

structure Lookup where
  uid : String
  startedAt : Nat
deriving DecidableEq

structure Return where
  uid : String
  calledAt : Nat
  requestedAt : Nat
  returnedAt : Nat
  hosts : List (Option Resource)
deriving DecidableEq

structure Clear where
  uid : Option String
  clearedAt : Nat
deriving DecidableEq

structure State where
  clock : Nat := 0
  cache : OrdMap String Entry := OrdMap.empty
  lookups : List Lookup := []
  returned : List Return := []
  clears : List Clear := []

inductive Event where
  | call (uid : String) (now : Nat)
  | answer (startedAt : Nat) (resources : List (Option Resource)) (now : Nat)
  | fail (startedAt : Nat)
  | clear (uid : Option String)

def State.hit (s : State) (uid : String) (now : Nat) : Option Entry :=
  (s.cache.get? uid).filter fun e => now - e.cachedAt < CACHE_TTL_MS

def accessibleHosts (s : State) (uid : String) (now : Nat) : State :=
  match s.hit uid now with
  | some e => { s with
      clock := s.clock + 1
      returned := s.returned ++ [⟨uid,s.clock,e.requestedAt,s.clock,e.hosts⟩] }
  | none => { s with
      clock := s.clock + 1
      lookups := s.lookups ++ [⟨uid,s.clock⟩] }

def State.without (s : State) (startedAt : Nat) : State :=
  { s with lookups := s.lookups.filter fun l => l.startedAt ≠ startedAt }

def State.answered (s : State) (l : Lookup) (resources : List (Option Resource)) (now : Nat) : State :=
  let hosts := resources.filter isCatalogHost
  { s.without l.startedAt with
    clock := s.clock + 1
    cache := s.cache.set l.uid ⟨now,hosts,l.startedAt⟩
    returned := s.returned ++ [⟨l.uid,l.startedAt,l.startedAt,s.clock,hosts⟩] }

-- `if (uid)`: without a name the whole cache goes
def clearCache (s : State) (uid : Option String) : State :=
  { s with
    clock := s.clock + 1
    cache := match uid with
      | some uid => if uid = "" then OrdMap.empty else s.cache.delete uid
      | none => OrdMap.empty
    clears := s.clears ++ [⟨uid,s.clock⟩] }

def State.lookup (s : State) (startedAt : Nat) : Option Lookup :=
  s.lookups.find? fun l => l.startedAt = startedAt

def step (s : State) : Event → Option State
  | .call uid now => some (accessibleHosts s uid now)
  | .answer startedAt resources now => (s.lookup startedAt).map fun l => s.answered l resources now
  | .fail startedAt => (s.lookup startedAt).map fun _ => s.without startedAt
  | .clear uid => some (clearCache s uid)

def Clear.covers (c : Clear) (uid : String) : Bool := c.uid.all fun u => u = "" || u = uid

structure Monotonic (s : State) : Prop where
  newest : ∀ r ∈ s.returned, ∀ r' ∈ s.returned, r.uid = r'.uid → r.returnedAt < r'.calledAt →
    r.requestedAt ≤ r'.requestedAt
  cleared : ∀ c ∈ s.clears, ∀ r ∈ s.returned, c.covers r.uid = true → c.clearedAt < r.calledAt →
    c.clearedAt < r.requestedAt

def State.InOrder (s : State) : Prop := ∀ r ∈ s.returned, ∀ r' ∈ s.returned, r.uid = r'.uid →
  r.returnedAt < r'.returnedAt → r.requestedAt ≤ r'.requestedAt

def Timely (s : State) : Event → Prop
  | .answer startedAt _ _ => ∀ l, s.lookup startedAt = some l →
      (∀ r ∈ s.returned, r.uid = l.uid → r.requestedAt ≤ l.startedAt) ∧
      ∀ c ∈ s.clears, c.covers l.uid = true → c.clearedAt < l.startedAt
  | _ => True

def Event.concerns (startedAt : Nat) : Event → Prop
  | .answer i _ _ | .fail i => i = startedAt
  | _ => False

section Stamps

variable {s t : State} {l : Lookup} {uid : String}

structure Stamped (s : State) : Prop where
  lookups : ∀ l ∈ s.lookups, l.startedAt < s.clock
  cache : ∀ uid e, s.cache.get? uid = some e → e.requestedAt < s.clock
  returned : ∀ r ∈ s.returned, r.calledAt ≤ r.returnedAt ∧ r.requestedAt ≤ r.returnedAt ∧ r.returnedAt < s.clock
  clears : ∀ c ∈ s.clears, c.clearedAt < s.clock

structure Newest (s : State) : Prop where
  returned : ∀ uid e, s.cache.get? uid = some e → ∀ r ∈ s.returned, r.uid = uid → r.requestedAt ≤ e.requestedAt
  cleared : ∀ uid e, s.cache.get? uid = some e → ∀ c ∈ s.clears, c.covers uid = true → c.clearedAt < e.requestedAt

theorem lookup_mem {startedAt : Nat} (h : s.lookup startedAt = some l) : l ∈ s.lookups ∧ l.startedAt = startedAt := by
  have hl := List.find?_some h
  exact ⟨List.mem_of_find?_eq_some h,of_decide_eq_true hl⟩

theorem hit_cached {now : Nat} {e : Entry} (h : s.hit uid now = some e) : s.cache.get? uid = some e :=
  (Option.filter_eq_some_iff.mp h).1

theorem Stamped.hit (h : Stamped s) {now : Nat} {e : Entry} (hhit : s.hit uid now = some e) :
    Stamped { s with
      clock := s.clock + 1
      returned := s.returned ++ [⟨uid,s.clock,e.requestedAt,s.clock,e.hosts⟩] } where
  lookups := fun l hl => Nat.lt_succ_of_lt (h.lookups l hl)
  cache := fun uid e he => Nat.lt_succ_of_lt (h.cache uid e he)
  returned := fun r hr => by
    rcases List.mem_append.mp hr with hr | hr
    · obtain ⟨hcalled,hrequested,hreturned⟩ := h.returned r hr
      exact ⟨hcalled,hrequested,Nat.lt_succ_of_lt hreturned⟩
    · obtain rfl := List.mem_singleton.mp hr
      exact ⟨Nat.le_refl s.clock,Nat.le_of_lt (h.cache uid e (hit_cached hhit)),Nat.lt_succ_self s.clock⟩
  clears := fun c hc => Nat.lt_succ_of_lt (h.clears c hc)

theorem Stamped.miss (h : Stamped s) (uid : String) :
    Stamped { s with clock := s.clock + 1, lookups := s.lookups ++ [⟨uid,s.clock⟩] } where
  lookups := fun l hl => by
    rcases List.mem_append.mp hl with hl | hl
    · exact Nat.lt_succ_of_lt (h.lookups l hl)
    · obtain rfl := List.mem_singleton.mp hl
      exact Nat.lt_succ_self s.clock
  cache := fun uid e he => Nat.lt_succ_of_lt (h.cache uid e he)
  returned := fun r hr => by
    obtain ⟨hcalled,hrequested,hreturned⟩ := h.returned r hr
    exact ⟨hcalled,hrequested,Nat.lt_succ_of_lt hreturned⟩
  clears := fun c hc => Nat.lt_succ_of_lt (h.clears c hc)

theorem Stamped.without (h : Stamped s) (startedAt : Nat) : Stamped (s.without startedAt) where
  lookups := fun l hl => h.lookups l (List.mem_filter.mp hl).1
  cache := h.cache
  returned := h.returned
  clears := h.clears

theorem get?_set_cases {cache : OrdMap String Entry} {uid' : String} {e e' : Entry}
    (h : (cache.set uid e).get? uid' = some e') : uid' = uid ∧ e' = e ∨ uid' ≠ uid ∧ cache.get? uid' = some e' := by
  by_cases heq : uid' = uid
  · subst heq
    rw [OrdMap.get?_set_self] at h
    exact .inl ⟨rfl,(Option.some.inj h).symm⟩
  · rw [OrdMap.get?_set_of_ne e heq] at h
    exact .inr ⟨heq,h⟩

theorem Stamped.answered (h : Stamped s) (hl : l ∈ s.lookups) (resources : List (Option Resource)) (now : Nat) :
    Stamped (s.answered l resources now) where
  lookups := fun l' hl' => Nat.lt_succ_of_lt (h.lookups l' (List.mem_filter.mp hl').1)
  cache := fun uid e he => by
    rcases get?_set_cases he with ⟨-,rfl⟩ | ⟨-,he⟩
    · exact Nat.lt_succ_of_lt (h.lookups l hl)
    · exact Nat.lt_succ_of_lt (h.cache uid e he)
  returned := fun r hr => by
    rcases List.mem_append.mp hr with hr | hr
    · obtain ⟨hcalled,hrequested,hreturned⟩ := h.returned r hr
      exact ⟨hcalled,hrequested,Nat.lt_succ_of_lt hreturned⟩
    · obtain rfl := List.mem_singleton.mp hr
      have hstarted := Nat.le_of_lt (h.lookups l hl)
      exact ⟨hstarted,hstarted,Nat.lt_succ_self s.clock⟩
  clears := fun c hc => Nat.lt_succ_of_lt (h.clears c hc)

theorem get?_clearCache {cleared : Option String} {e : Entry}
    (h : (clearCache s cleared).cache.get? uid = some e) :
    s.cache.get? uid = some e ∧ (⟨cleared,s.clock⟩ : Clear).covers uid = false := by
  unfold clearCache at h
  cases cleared with
  | none => cases h
  | some name =>
    simp only at h
    split at h
    · cases h
    · next hname =>
      by_cases huid : uid = name
      · subst huid
        have hgone : (s.cache.delete uid).get? uid = none :=
          OrdMap.get?_eq_none_iff.mpr fun hmem => (OrdMap.mem_keys_delete.mp hmem).2 rfl
        rw [hgone] at h
        cases h
      · rw [OrdMap.get?_delete_of_ne huid] at h
        exact ⟨h,by simp [Clear.covers, hname, Ne.symm huid]⟩

theorem Stamped.clear (h : Stamped s) (cleared : Option String) : Stamped (clearCache s cleared) where
  lookups := fun l hl => Nat.lt_succ_of_lt (h.lookups l hl)
  cache := fun uid e he => Nat.lt_succ_of_lt (h.cache uid e (get?_clearCache he).1)
  returned := fun r hr => by
    obtain ⟨hcalled,hrequested,hreturned⟩ := h.returned r hr
    exact ⟨hcalled,hrequested,Nat.lt_succ_of_lt hreturned⟩
  clears := fun c hc => by
    rcases List.mem_append.mp hc with hc | hc
    · exact Nat.lt_succ_of_lt (h.clears c hc)
    · obtain rfl := List.mem_singleton.mp hc
      exact Nat.lt_succ_self s.clock

theorem stamped_step {e : Event} (h : Stamped s) (hstep : step s e = some t) : Stamped t := by
  cases e with
  | call uid now =>
    cases hstep
    unfold accessibleHosts
    cases hhit : s.hit uid now with
    | some e => exact h.hit hhit
    | none => exact h.miss uid
  | answer startedAt resources now =>
    obtain ⟨l,hl,rfl⟩ := Option.map_eq_some_iff.mp hstep
    exact h.answered (lookup_mem hl).1 resources now
  | fail startedAt =>
    obtain ⟨_,-,rfl⟩ := Option.map_eq_some_iff.mp hstep
    exact h.without startedAt
  | clear cleared =>
    cases hstep
    exact h.clear cleared

end Stamps

section Orders

variable {s t : State} {l : Lookup} {uid : String}

structure Ordered (s : State) : Prop where
  newest : Newest s
  monotonic : Monotonic s
  inOrder : s.InOrder

theorem Ordered.returns (h : Ordered s) (hs : Stamped s) {r : Return} (hcalled : r.calledAt ≤ r.returnedAt)
    (hnow : r.returnedAt = s.clock) (hnewest : ∀ r' ∈ s.returned, r'.uid = r.uid → r'.requestedAt ≤ r.requestedAt)
    (hcleared : ∀ c ∈ s.clears, c.covers r.uid = true → c.clearedAt < r.requestedAt)
    (hreturned : t.returned = s.returned ++ [r]) (hclears : t.clears = s.clears) : Monotonic t ∧ t.InOrder := by
  have hinOrder : t.InOrder := by
    intro r₁ hr₁ r₂ hr₂ huid hlater
    rw [hreturned] at hr₁ hr₂
    rcases List.mem_append.mp hr₁ with hold₁ | hnew₁ <;> rcases List.mem_append.mp hr₂ with hold₂ | hnew₂
    · exact h.inOrder r₁ hold₁ r₂ hold₂ huid hlater
    · obtain rfl := List.mem_singleton.mp hnew₂
      exact hnewest r₁ hold₁ huid
    · obtain rfl := List.mem_singleton.mp hnew₁
      have hbefore := (hs.returned r₂ hold₂).2.2
      omega
    · obtain rfl := List.mem_singleton.mp hnew₁
      obtain rfl := List.mem_singleton.mp hnew₂
      exact Nat.le_refl _
  have hcalls : ∀ r' ∈ t.returned, r'.calledAt ≤ r'.returnedAt := by
    intro r' hr'
    rw [hreturned] at hr'
    rcases List.mem_append.mp hr' with hr' | hr'
    · exact (hs.returned r' hr').1
    · obtain rfl := List.mem_singleton.mp hr'
      exact hcalled
  refine ⟨⟨fun r₁ hr₁ r₂ hr₂ huid hlater => ?_,fun c hc r' hr' hcovers hlater => ?_⟩,hinOrder⟩
  · exact hinOrder r₁ hr₁ r₂ hr₂ huid (Nat.lt_of_lt_of_le hlater (hcalls r₂ hr₂))
  · rw [hclears] at hc
    rw [hreturned] at hr'
    rcases List.mem_append.mp hr' with hr' | hr'
    · exact h.monotonic.cleared c hc r' hr' hcovers hlater
    · obtain rfl := List.mem_singleton.mp hr'
      exact hcleared c hc hcovers

theorem Ordered.hit (h : Ordered s) (hs : Stamped s) {now : Nat} {e : Entry} (hhit : s.hit uid now = some e) :
    Ordered { s with
      clock := s.clock + 1
      returned := s.returned ++ [⟨uid,s.clock,e.requestedAt,s.clock,e.hosts⟩] } := by
  have hcached := hit_cached hhit
  obtain ⟨hmonotonic,hinOrder⟩ := h.returns hs (r := ⟨uid,s.clock,e.requestedAt,s.clock,e.hosts⟩)
    (Nat.le_refl s.clock) rfl (h.newest.returned uid e hcached) (h.newest.cleared uid e hcached)
    (t := { s with
      clock := s.clock + 1
      returned := s.returned ++ [⟨uid,s.clock,e.requestedAt,s.clock,e.hosts⟩] }) rfl rfl
  refine ⟨⟨fun uid' e' he' r hr huid => ?_,h.newest.cleared⟩,hmonotonic,hinOrder⟩
  rcases List.mem_append.mp hr with hr | hr
  · exact h.newest.returned uid' e' he' r hr huid
  · obtain rfl := List.mem_singleton.mp hr
    obtain rfl : uid = uid' := huid
    obtain rfl := Option.some.inj (hcached.symm.trans he')
    exact Nat.le_refl e.requestedAt

theorem Ordered.answered (h : Ordered s) (hs : Stamped s) (hl : l ∈ s.lookups)
    (hnewest : ∀ r ∈ s.returned, r.uid = l.uid → r.requestedAt ≤ l.startedAt)
    (hcleared : ∀ c ∈ s.clears, c.covers l.uid = true → c.clearedAt < l.startedAt)
    (resources : List (Option Resource)) (now : Nat) : Ordered (s.answered l resources now) := by
  obtain ⟨hmonotonic,hinOrder⟩ := h.returns hs
    (r := ⟨l.uid,l.startedAt,l.startedAt,s.clock,resources.filter isCatalogHost⟩)
    (Nat.le_of_lt (hs.lookups l hl)) rfl hnewest hcleared (t := s.answered l resources now) rfl rfl
  refine ⟨⟨fun uid e he r hr huid => ?_,fun uid e he c hc hcovers => ?_⟩,hmonotonic,hinOrder⟩
  · rcases List.mem_append.mp hr with hr | hr
    · rcases get?_set_cases he with ⟨rfl,rfl⟩ | ⟨-,he⟩
      · exact hnewest r hr huid
      · exact h.newest.returned uid e he r hr huid
    · obtain rfl := List.mem_singleton.mp hr
      rcases get?_set_cases he with ⟨-,rfl⟩ | ⟨hne,-⟩
      · exact Nat.le_refl l.startedAt
      · exact absurd huid.symm hne
  · rcases get?_set_cases he with ⟨rfl,rfl⟩ | ⟨-,he⟩
    · exact hcleared c hc hcovers
    · exact h.newest.cleared uid e he c hc hcovers

theorem Ordered.clear (h : Ordered s) (hs : Stamped s) (cleared : Option String) :
    Ordered (clearCache s cleared) where
  newest := {
    returned := fun uid e he => h.newest.returned uid e (get?_clearCache he).1
    cleared := fun uid e he c hc hcovers => by
      obtain ⟨he,huncovered⟩ := get?_clearCache he
      rcases List.mem_append.mp hc with hc | hc
      · exact h.newest.cleared uid e he c hc hcovers
      · obtain rfl := List.mem_singleton.mp hc
        rw [huncovered] at hcovers
        cases hcovers }
  monotonic := {
    newest := h.monotonic.newest
    cleared := fun c hc r hr hcovers hlater => by
      rcases List.mem_append.mp hc with hc | hc
      · exact h.monotonic.cleared c hc r hr hcovers hlater
      · obtain rfl := List.mem_singleton.mp hc
        obtain ⟨hcalled,-,hreturned⟩ := hs.returned r hr
        exact absurd (Nat.lt_of_le_of_lt hcalled hreturned) (Nat.lt_asymm hlater) }
  inOrder := h.inOrder

theorem ordered_step {e : Event} (hs : Stamped s) (h : Ordered s) (htimely : Timely s e) (hstep : step s e = some t) :
    Ordered t := by
  cases e with
  | call uid now =>
    cases hstep
    unfold accessibleHosts
    cases hhit : s.hit uid now with
    | some e => exact h.hit hs hhit
    | none => exact ⟨⟨h.newest.returned,h.newest.cleared⟩,⟨h.monotonic.newest,h.monotonic.cleared⟩,h.inOrder⟩
  | answer startedAt resources now =>
    obtain ⟨l,hl,rfl⟩ := Option.map_eq_some_iff.mp hstep
    obtain ⟨hnewest,hcleared⟩ := htimely l hl
    exact h.answered hs (lookup_mem hl).1 hnewest hcleared resources now
  | fail startedAt =>
    obtain ⟨_,-,rfl⟩ := Option.map_eq_some_iff.mp hstep
    exact ⟨⟨h.newest.returned,h.newest.cleared⟩,⟨h.monotonic.newest,h.monotonic.cleared⟩,h.inOrder⟩
  | clear cleared =>
    cases hstep
    exact h.clear hs cleared

theorem ordered_initial {es es' : List Event} {now : Nat} (hs : Stamped s) (h : Ordered s)
    (halong : Run.Along step Timely s es) (hinitial : es' <+: es)
    (hrun : Run.exec step s (es' ++ [.call uid now]) = some t) : Ordered t := by
  induction es' generalizing s es with
  | nil =>
    cases hrun
    exact ordered_step (e := .call uid now) hs h trivial rfl
  | cons e es' ih =>
    obtain ⟨rest,rfl⟩ := hinitial
    obtain ⟨u,hu,hrest⟩ := Run.exec_cons hrun
    simp only [List.cons_append, Run.Along, hu] at halong
    exact ih (stamped_step hs hu) (ordered_step hs h halong.1 hu) halong.2 (List.prefix_append es' rest) hrest

theorem timely_of_monotonic {startedAt now : Nat} {resources : List (Option Resource)} (hs : Stamped s)
    (hlookup : s.lookup startedAt = some l)
    (h : Monotonic (accessibleHosts (s.answered l resources now) l.uid now)) :
    Timely s (.answer startedAt resources now) := by
  intro l' hl'
  obtain rfl := Option.some.inj (hlookup.symm.trans hl')
  have hhit : (s.answered l resources now).hit l.uid now =
      some ⟨now,resources.filter isCatalogHost,l.startedAt⟩ := by
    simp [State.hit, State.answered, OrdMap.get?_set_self, CACHE_TTL_MS]
  rw [accessibleHosts, hhit] at h
  refine ⟨fun r hr huid => ?_,fun c hc hcovers => ?_⟩
  · have hr' : r ∈ (s.answered l resources now).returned := List.mem_append_left _ hr
    exact h.newest r (List.mem_append_left _ hr') _ (List.mem_append_right _ (List.mem_singleton_self _)) huid
      (Nat.lt_succ_of_lt (hs.returned r hr).2.2)
  · exact h.cleared c hc _ (List.mem_append_right _ (List.mem_singleton_self _)) hcovers
      (Nat.lt_succ_of_lt (hs.clears c hc))

theorem along_timely {es : List Event} {u : State} (hs : Stamped s) (hrun : Run.exec step s es = some u)
    (h : ∀ es', es' <+: es → ∀ uid now t, Run.exec step s (es' ++ [.call uid now]) = some t → Monotonic t) :
    Run.Along step Timely s es := by
  induction es generalizing s with
  | nil => trivial
  | cons e es ih =>
    obtain ⟨t,ht,hrest⟩ := Run.exec_cons hrun
    have hexec : ∀ es' uid now, Run.exec step s ((e :: es') ++ [.call uid now]) =
        Run.exec step t (es' ++ [.call uid now]) := by
      intro es' uid now
      simp only [List.cons_append, Run.exec, ht]
    simp only [Run.Along, ht]
    refine ⟨?_,ih (stamped_step hs ht) hrest fun es' hinitial uid now t' ht' => ?_⟩
    · cases e with
      | answer startedAt resources now =>
        obtain ⟨l,hl,rfl⟩ := Option.map_eq_some_iff.mp ht
        refine timely_of_monotonic hs hl (h [.answer startedAt resources now] ?_ l.uid now _ (hexec [] l.uid now))
        exact List.prefix_append [_] es
      | call uid now => trivial
      | fail startedAt => trivial
      | clear cleared => trivial
    · exact h (e :: es') (List.cons_prefix_cons.mpr ⟨rfl,hinitial⟩) uid now t' ((hexec es' uid now).trans ht')

end Orders

section Failures

variable {s t : State} {i : Nat} {e : Event}

theorem clock_step (h : step s e = some t) : s.clock ≤ t.clock := by
  cases e with
  | call uid now =>
    cases h
    unfold accessibleHosts
    split <;> exact Nat.le_succ s.clock
  | answer startedAt resources now =>
    obtain ⟨l,-,rfl⟩ := Option.map_eq_some_iff.mp h
    exact Nat.le_succ s.clock
  | fail startedAt =>
    obtain ⟨l,-,rfl⟩ := Option.map_eq_some_iff.mp h
    exact Nat.le_refl s.clock
  | clear cleared =>
    cases h
    exact Nat.le_succ s.clock

theorem lookup_without {j : Nat} (h : j ≠ i) : (s.without i).lookup j = s.lookup j := by
  unfold State.lookup State.without
  rw [List.find?_filter]
  congr 1
  funext l
  by_cases hl : l.startedAt = j
  · simp [hl, h]
  · simp [hl]

theorem without_comm (i j : Nat) : (s.without i).without j = (s.without j).without i := by
  unfold State.without
  simp only [List.filter_filter, Bool.and_comm]

theorem step_without (hi : i < s.clock) (he : ¬ e.concerns i) :
    step (s.without i) e = (step s e).map fun t => t.without i := by
  cases e with
  | call uid now =>
    have hne : s.clock ≠ i := Nat.ne_of_gt hi
    have hhit : (s.without i).hit uid now = s.hit uid now := rfl
    simp only [step, Option.map_some, accessibleHosts, hhit]
    cases s.hit uid now with
    | some e => rfl
    | none => simp [State.without, hne]
  | answer j resources now =>
    have hj : j ≠ i := he
    simp only [step, lookup_without hj, Option.map_map]
    refine congrArg (fun f => (s.lookup j).map f) (funext fun l => ?_)
    simp only [State.answered, Function.comp_apply, without_comm i]
    rfl
  | fail j =>
    have hj : j ≠ i := he
    simp only [step, lookup_without hj, Option.map_map]
    exact congrArg (fun f => (s.lookup j).map f) (funext fun l => without_comm i j)
  | clear cleared => rfl

theorem exec_without {es : List Event} (hi : i < s.clock) (hes : ∀ e ∈ es, ¬ e.concerns i) :
    Run.exec step (s.without i) es = (Run.exec step s es).map fun t => t.without i := by
  induction es generalizing s with
  | nil => rfl
  | cons e es ih =>
    obtain ⟨he,hes⟩ := List.forall_mem_cons.mp hes
    simp only [Run.exec, step_without hi he]
    cases ht : step s e with
    | none => rfl
    | some t => exact ih (Nat.lt_of_lt_of_le hi (clock_step ht)) hes

theorem returned_fail {es : List Event} (hs : Stamped s) (hfail : step s (.fail i) = some t)
    (hes : ∀ e ∈ es, ¬ e.concerns i) :
    (Run.exec step t es).map State.returned = (Run.exec step s es).map State.returned := by
  obtain ⟨l,hl,rfl⟩ := Option.map_eq_some_iff.mp hfail
  obtain ⟨hmem,rfl⟩ := lookup_mem hl
  rw [exec_without (hs.lookups l hmem) hes, Option.map_map]
  rfl

end Failures

section Runs

variable {es : List Event} {s : State}

theorem stamped_start : Stamped {} :=
  ⟨fun _ hl => (by cases hl),fun _ _ he => (by cases he),fun _ hr => (by cases hr),fun _ hc => (by cases hc)⟩

theorem ordered_start : Ordered {} :=
  ⟨⟨fun _ _ he => (by cases he),fun _ _ he => (by cases he)⟩,
    ⟨fun _ hr => (by cases hr),fun _ hc => (by cases hc)⟩,fun _ hr => (by cases hr)⟩

theorem monotonic_reads (hrun : Run.exec step {} es = some s) :
    ((∀ es', es' <+: es → ∀ uid now t, Run.exec step {} (es' ++ [.call uid now]) = some t → Monotonic t) ↔
      Run.Along step Timely {} es) ∧
    (Run.Along step Timely {} es → s.InOrder) ∧
    ∀ i t, step s (.fail i) = some t → ∀ later : List Event, (∀ e ∈ later, ¬ e.concerns i) →
      (Run.exec step t later).map State.returned = (Run.exec step s later).map State.returned := by
  have hstamped : Stamped s :=
    Run.invariant_of_mem (fun _ _ _ h _ hstep => stamped_step h hstep) stamped_start hrun
  refine ⟨⟨along_timely stamped_start hrun,fun halong es' hinitial uid now t ht => ?_⟩,fun halong => ?_,
    fun i t hfail later hlater => returned_fail hstamped hfail hlater⟩
  · exact (ordered_initial stamped_start ordered_start halong hinitial ht).monotonic
  · have hboth : Stamped s ∧ Ordered s :=
      Run.invariant (P := fun s => Stamped s ∧ Ordered s)
        (fun _ _ _ h htimely hstep => ⟨stamped_step h.1 hstep,ordered_step h.1 h.2 htimely hstep⟩)
        ⟨stamped_start,ordered_start⟩ halong hrun
    exact hboth.2.inOrder

def web01 : Resource := { id := "1", kind := some "host" }

def twoLookups : List Event :=
  [.call "bob" 0,.answer 0 [some web01] 10,.call "bob" 20,.clear (some "bob"),.call "bob" 30,.answer 4 [] 40]

theorem monotonic_reads_twoLookups : ∃ s, Run.exec step {} twoLookups = some s ∧
    s.returned.map Return.hosts = [[some web01],[some web01],[]] ∧
    ((∀ es', es' <+: twoLookups → ∀ uid now t, Run.exec step {} (es' ++ [.call uid now]) = some t → Monotonic t) ↔
      Run.Along step Timely {} twoLookups) := by
  obtain ⟨s,hrun,hhosts⟩ : ∃ s, Run.exec step {} twoLookups = some s ∧
      s.returned.map Return.hosts = [[some web01],[some web01],[]] := ⟨_,rfl,by decide⟩
  exact ⟨s,hrun,hhosts,(monotonic_reads hrun).1⟩

theorem stale_list : ∃ s, Run.exec step {} [.call "bob" 0,.call "bob" 10,.answer 1 [] 20,
      .answer 0 [some web01] 30,.call "bob" 40] = some s ∧
    s.returned = [⟨"bob",1,1,2,[]⟩,⟨"bob",0,0,3,[some web01]⟩,⟨"bob",4,0,4,[some web01]⟩] ∧ ¬ Monotonic s := by
  refine ⟨_,rfl,by decide,fun h => ?_⟩
  exact absurd (h.newest ⟨"bob",1,1,2,[]⟩ (by decide) ⟨"bob",4,0,4,[some web01]⟩ (by decide) rfl (by decide))
    (by decide)

end Runs

end JumpHost.Access
