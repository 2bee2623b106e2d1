import Mathlib.Data.List.Basic
import JumpHost.Library.Run

namespace SingleFlight

inductive Stage (ρ : Type) where
  | running
  | settled (outcome : ρ)
  | done (outcome : ρ)
deriving DecidableEq

def Stage.over {ρ : Type} : Stage ρ → Bool
  | .done _ => true
  | .running | .settled _ => false

structure Call (κ ρ : Type) where
  caller : κ
  pass : Nat
  answer : Option ρ := none
deriving DecidableEq

structure State (κ ρ : Type) where
  passes : List (Stage ρ) := []
  inFlight : Option Nat := none
  calls : List (Call κ ρ) := []

inductive Event (κ ρ : Type) where
  | call (caller : κ)
  | settle (pass : Nat) (outcome : ρ)
  | clear (pass : Nat)
  | deliver (call : Nat)
deriving DecidableEq

section Steps

variable {κ ρ : Type}

def call (s : State κ ρ) (caller : κ) : State κ ρ :=
  match s.inFlight with
  | some p => { s with calls := s.calls ++ [⟨caller,p,none⟩] }
  | none =>
      { passes := s.passes ++ [.running]
        inFlight := some s.passes.length
        calls := s.calls ++ [⟨caller,s.passes.length,none⟩] }

def settle (s : State κ ρ) (p : Nat) (outcome : ρ) : Option (State κ ρ) :=
  match s.passes[p]? with
  | some .running => some { s with passes := s.passes.set p (.settled outcome) }
  | _ => none

def clear (s : State κ ρ) (p : Nat) : Option (State κ ρ) :=
  match s.passes[p]? with
  | some (.settled outcome) => some { s with passes := s.passes.set p (.done outcome), inFlight := none }
  | _ => none

def deliver (s : State κ ρ) (k : Nat) : Option (State κ ρ) :=
  match s.calls[k]? with
  | some ⟨caller,p,none⟩ => match s.passes[p]? with
      | some (.done outcome) => some { s with calls := s.calls.set k ⟨caller,p,some outcome⟩ }
      | _ => none
  | _ => none

def step (s : State κ ρ) : Event κ ρ → Option (State κ ρ)
  | .call caller => some (call s caller)
  | .settle p outcome => settle s p outcome
  | .clear p => clear s p
  | .deliver k => deliver s k

end Steps

section Cases

variable {κ ρ : Type} {s t : State κ ρ} {p k : Nat} {outcome : ρ} {caller : κ}

theorem call_cases (s : State κ ρ) (caller : κ) : ∃ p, (call s caller).calls = s.calls ++ [⟨caller,p,none⟩] ∧
    ((call s caller).passes = s.passes ∨ (call s caller).passes = s.passes ++ [.running]) := by
  unfold call
  split
  · exact ⟨_,rfl,.inl rfl⟩
  · exact ⟨_,rfl,.inr rfl⟩

theorem settle_some (h : settle s p outcome = some t) :
    s.passes[p]? = some .running ∧ t = { s with passes := s.passes.set p (.settled outcome) } := by
  unfold settle at h
  split at h
  · next hrunning => exact ⟨hrunning,(Option.some.inj h).symm⟩
  · cases h

theorem clear_some (h : clear s p = some t) : ∃ outcome, s.passes[p]? = some (.settled outcome) ∧
    t = { s with passes := s.passes.set p (.done outcome), inFlight := none } := by
  unfold clear at h
  split at h
  · next outcome hsettled => exact ⟨outcome,hsettled,(Option.some.inj h).symm⟩
  · cases h

theorem deliver_some (h : deliver s k = some t) : ∃ caller p outcome, s.calls[k]? = some ⟨caller,p,none⟩ ∧
    s.passes[p]? = some (.done outcome) ∧ t = { s with calls := s.calls.set k ⟨caller,p,some outcome⟩ } := by
  unfold deliver at h
  split at h
  · next caller p hcall =>
    split at h
    · next outcome hdone => exact ⟨caller,p,outcome,hcall,hdone,(Option.some.inj h).symm⟩
    · cases h
  · cases h

end Cases

section Passes

variable {ρ : Type} {passes : List (Stage ρ)} {stage stage' : Stage ρ} {p q : Nat}

def Unfinished (passes : List (Stage ρ)) (p : Nat) : Prop := ∃ stage, passes[p]? = some stage ∧ stage.over = false

theorem unfinished_lt (h : Unfinished passes p) : p < passes.length := by
  obtain ⟨stage,hstage,-⟩ := h
  exact (List.getElem?_eq_some_iff.mp hstage).1

theorem unfinished_begin : Unfinished (passes ++ [.running]) p ↔ Unfinished passes p ∨ p = passes.length := by
  rcases Nat.lt_trichotomy p passes.length with hlt | rfl | hgt
  · rw [Unfinished, List.getElem?_append_left hlt]
    exact ⟨.inl,fun h => h.resolve_right (Nat.ne_of_lt hlt)⟩
  · exact ⟨fun _ => .inr rfl,fun _ => ⟨.running,List.getElem?_concat_length,rfl⟩⟩
  · have hout : (passes ++ [.running])[p]? = none := List.getElem?_eq_none (by simp; omega)
    refine iff_of_false ?_ ?_
    · rintro ⟨stage,hstage,-⟩
      rw [hout] at hstage
      cases hstage
    · rintro (hold | heq)
      · exact absurd (unfinished_lt hold) (by omega)
      · omega

theorem unfinished_set (hp : passes[p]? = some stage) (hover : stage.over = false) :
    Unfinished (passes.set p stage') q ↔ Unfinished passes q ∧ (q = p → stage'.over = false) := by
  have hlt := (List.getElem?_eq_some_iff.mp hp).1
  by_cases hq : q = p
  · subst hq
    have hpass : Unfinished passes q := ⟨stage,hp,hover⟩
    rw [Unfinished, List.getElem?_set_self hlt]
    simp [hpass]
  · rw [Unfinished, List.getElem?_set_ne (Ne.symm hq)]
    exact ⟨fun h => ⟨h,fun heq => absurd heq hq⟩,And.left⟩

def Kept (passes passes' : List (Stage ρ)) : Prop :=
  passes.length ≤ passes'.length ∧ ∀ (p : Nat) (outcome : ρ), passes[p]? = some (Stage.done outcome) →
    passes'[p]? = some (Stage.done outcome)

theorem kept_begin (passes : List (Stage ρ)) : Kept passes (passes ++ [.running]) := by
  refine ⟨by simp,fun p outcome hp => ?_⟩
  rw [List.getElem?_append_left (List.getElem?_eq_some_iff.mp hp).1, hp]

theorem kept_set (hp : passes[p]? = some stage) (hover : stage.over = false) : Kept passes (passes.set p stage') := by
  refine ⟨Nat.le_of_eq (List.length_set ..).symm,fun q outcome hq => ?_⟩
  have hne : p ≠ q := by
    rintro rfl
    rw [hp] at hq
    cases hq
    cases hover
  rw [List.getElem?_set_ne hne, hq]

end Passes

section Invariant

variable {κ ρ : Type} {s t : State κ ρ} {p q k : Nat} {outcome : ρ} {caller : κ} {e : Event κ ρ}

def Call.Honest (passes : List (Stage ρ)) (c : Call κ ρ) : Prop :=
  c.pass < passes.length ∧ ∀ outcome, c.answer = some outcome → passes[c.pass]? = some (.done outcome)

structure Sound (s : State κ ρ) : Prop where
  flying : ∀ p, s.inFlight = some p ↔ Unfinished s.passes p
  answers : ∀ c ∈ s.calls, c.Honest s.passes

theorem Call.Honest.kept {c : Call κ ρ} {passes passes' : List (Stage ρ)} (h : c.Honest passes)
    (hkept : Kept passes passes') : c.Honest passes' :=
  ⟨Nat.lt_of_lt_of_le h.1 hkept.1,fun outcome ho => hkept.2 _ outcome (h.2 outcome ho)⟩

theorem Sound.unique (hs : Sound s) (hp : Unfinished s.passes p) (hq : Unfinished s.passes q) : p = q :=
  Option.some.inj (((hs.flying p).mpr hp).symm.trans ((hs.flying q).mpr hq))

theorem call_joins (hs : Sound s) (hp : Unfinished s.passes p) (caller : κ) :
    call s caller = { s with calls := s.calls ++ [⟨caller,p,none⟩] } := by
  rw [call, (hs.flying p).mpr hp]

theorem idle_iff (hs : Sound s) : s.inFlight = none ↔ ∀ p, ¬ Unfinished s.passes p := by
  simp only [← hs.flying]
  exact Option.eq_none_iff_forall_ne_some

theorem call_begins (hs : Sound s) (hidle : ∀ p, ¬ Unfinished s.passes p) (caller : κ) :
    call s caller = ⟨s.passes ++ [.running],some s.passes.length,s.calls ++ [⟨caller,s.passes.length,none⟩]⟩ := by
  rw [call, (idle_iff hs).mpr hidle]

theorem sound_call (hs : Sound s) (caller : κ) : Sound (call s caller) := by
  by_cases hflying : ∃ p, Unfinished s.passes p
  · obtain ⟨p,hp⟩ := hflying
    rw [call_joins hs hp]
    refine ⟨hs.flying,List.forall_mem_append.mpr ⟨hs.answers,?_⟩⟩
    exact List.forall_mem_singleton.mpr ⟨unfinished_lt hp,nofun⟩
  · have hidle := not_exists.mp hflying
    rw [call_begins hs hidle]
    refine ⟨fun p => ?_,List.forall_mem_append.mpr ⟨fun c hc => ?_,?_⟩⟩
    · rw [unfinished_begin, or_iff_right (hidle p), Option.some_inj, eq_comm]
    · exact (hs.answers c hc).kept (kept_begin s.passes)
    · exact List.forall_mem_singleton.mpr ⟨by simp,nofun⟩

theorem sound_settle (hs : Sound s) (h : settle s p outcome = some t) : Sound t := by
  obtain ⟨hrunning,rfl⟩ := settle_some h
  refine ⟨fun q => ?_,fun c hc => (hs.answers c hc).kept (kept_set hrunning rfl)⟩
  rw [hs.flying, unfinished_set hrunning rfl]
  exact ⟨fun hq => ⟨hq,fun _ => rfl⟩,And.left⟩

theorem sound_clear (hs : Sound s) (h : clear s p = some t) : Sound t := by
  obtain ⟨outcome,hsettled,rfl⟩ := clear_some h
  have hp : Unfinished s.passes p := ⟨_,hsettled,rfl⟩
  refine ⟨fun q => iff_of_false nofun ?_,fun c hc => (hs.answers c hc).kept (kept_set hsettled rfl)⟩
  rw [unfinished_set hsettled rfl]
  rintro ⟨hq,hover⟩
  cases hover (hs.unique hq hp)

theorem sound_deliver (hs : Sound s) (h : deliver s k = some t) : Sound t := by
  obtain ⟨caller,p,outcome,hcall,hdone,rfl⟩ := deliver_some h
  refine ⟨hs.flying,fun c hc => ?_⟩
  rcases List.mem_or_eq_of_mem_set hc with hold | rfl
  · exact hs.answers c hold
  · refine ⟨(List.getElem?_eq_some_iff.mp hdone).1,fun outcome' ho => ?_⟩
    obtain rfl := Option.some.inj ho
    exact hdone

theorem sound_step (hs : Sound s) (h : step s e = some t) : Sound t := by
  cases e with
  | call caller =>
    obtain rfl := Option.some.inj h
    exact sound_call hs caller
  | settle p outcome => exact sound_settle hs h
  | clear p => exact sound_clear hs h
  | deliver k => exact sound_deliver hs h

theorem sound_init : Sound ({} : State κ ρ) := by
  refine ⟨fun p => iff_of_false nofun ?_,nofun⟩
  rintro ⟨stage,hstage,-⟩
  cases hstage

theorem sound_run {es : List (Event κ ρ)} (hs : Sound s) (h : Run.exec step s es = some t) : Sound t :=
  Run.invariant_of_mem (fun _ _ _ hs _ hstep => sound_step hs hstep) hs h

end Invariant

section Progress

variable {κ ρ : Type} {s t : State κ ρ} {p k : Nat} {outcome : ρ} {caller : κ} {e : Event κ ρ} {es : List (Event κ ρ)}

def Handed (s : State κ ρ) (k : Nat) (caller : κ) (p : Nat) : Prop := ∃ answer, s.calls[k]? = some ⟨caller,p,answer⟩

theorem handed_step (hk : Handed s k caller p) (h : step s e = some t) : Handed t k caller p := by
  obtain ⟨answer,hk⟩ := hk
  have hlt := (List.getElem?_eq_some_iff.mp hk).1
  cases e with
  | call caller' =>
    obtain rfl := Option.some.inj h
    obtain ⟨p',hcalls,-⟩ := call_cases s caller'
    exact ⟨answer,by rw [hcalls, List.getElem?_append_left hlt, hk]⟩
  | settle p outcome =>
    obtain ⟨-,rfl⟩ := settle_some h
    exact ⟨answer,hk⟩
  | clear p =>
    obtain ⟨outcome,-,rfl⟩ := clear_some h
    exact ⟨answer,hk⟩
  | deliver j =>
    obtain ⟨caller',p',outcome,hj,-,rfl⟩ := deliver_some h
    by_cases heq : j = k
    · subst heq
      obtain ⟨rfl,rfl,rfl⟩ : caller' = caller ∧ p' = p ∧ none = answer := by simpa using hj.symm.trans hk
      exact ⟨some outcome,List.getElem?_set_self hlt⟩
    · exact ⟨answer,(List.getElem?_set_ne heq).trans hk⟩

theorem handed_run (hk : Handed s k caller p) (h : Run.exec step s es = some t) : Handed t k caller p :=
  Run.invariant_of_mem (fun _ _ _ hk _ hstep => handed_step hk hstep) hk h

theorem call_answered {c : Call κ ρ} (hc : c ∈ (call s caller).calls) (ha : c.answer = some outcome) :
    c ∈ s.calls := by
  obtain ⟨p,hcalls,-⟩ := call_cases s caller
  rw [hcalls] at hc
  rcases List.mem_append.mp hc with hold | hnew
  · exact hold
  · obtain rfl := List.mem_singleton.mp hnew
    cases ha

theorem answered_or_deliverable (hs : Sound s) (hk : Handed s k caller p)
    (hdone : s.passes[p]? = some (.done outcome)) : s.calls[k]? = some ⟨caller,p,some outcome⟩ ∨
      ∃ t, deliver s k = some t ∧ t.calls[k]? = some ⟨caller,p,some outcome⟩ := by
  obtain ⟨answer,hk⟩ := hk
  cases answer with
  | some outcome' =>
    have hanswer := (hs.answers _ (List.mem_of_getElem? hk)).2 outcome' rfl
    obtain rfl : outcome' = outcome := by simpa using hanswer.symm.trans hdone
    exact .inl hk
  | none =>
    refine .inr ⟨{ s with calls := s.calls.set k ⟨caller,p,some outcome⟩ },by simp only [deliver, hk, hdone],?_⟩
    exact List.getElem?_set_self (List.getElem?_eq_some_iff.mp hk).1

theorem clear_idles (hs : Sound s) (hsettled : s.passes[p]? = some (.settled outcome)) :
    ∃ t, clear s p = some t ∧ t.passes[p]? = some (.done outcome) ∧ ∀ q, ¬ Unfinished t.passes q := by
  have hlt := (List.getElem?_eq_some_iff.mp hsettled).1
  refine ⟨{ s with passes := s.passes.set p (.done outcome), inFlight := none },by simp only [clear, hsettled],
    List.getElem?_set_self hlt,fun q => ?_⟩
  rw [unfinished_set hsettled rfl]
  rintro ⟨hq,hover⟩
  cases hover (hs.unique hq ⟨_,hsettled,rfl⟩)

theorem settled_step (hsettled : s.passes[p]? = some (.settled outcome)) (he : e ≠ .clear p)
    (h : step s e = some t) : t.passes[p]? = some (.settled outcome) := by
  have hlt := (List.getElem?_eq_some_iff.mp hsettled).1
  cases e with
  | call caller =>
    obtain rfl := Option.some.inj h
    obtain ⟨-,-,hsame | hbegun⟩ := call_cases s caller
    · rw [hsame, hsettled]
    · rw [hbegun, List.getElem?_append_left hlt, hsettled]
  | settle q outcome' =>
    obtain ⟨hrunning,rfl⟩ := settle_some h
    have hne : q ≠ p := by
      rintro rfl
      rw [hsettled] at hrunning
      cases hrunning
    exact (List.getElem?_set_ne hne).trans hsettled
  | clear q =>
    obtain ⟨outcome',-,rfl⟩ := clear_some h
    have hne : q ≠ p := fun heq => he (heq ▸ rfl)
    exact (List.getElem?_set_ne hne).trans hsettled
  | deliver k =>
    obtain ⟨caller,q,outcome',-,-,rfl⟩ := deliver_some h
    exact hsettled

theorem idle_step (hidle : ∀ p, ¬ Unfinished s.passes p) (he : ∀ caller, e ≠ .call caller)
    (h : step s e = some t) : t.passes = s.passes := by
  cases e with
  | call caller => exact absurd rfl (he caller)
  | settle p outcome =>
    obtain ⟨hrunning,-⟩ := settle_some h
    exact absurd ⟨_,hrunning,rfl⟩ (hidle p)
  | clear p =>
    obtain ⟨outcome,hsettled,-⟩ := clear_some h
    exact absurd ⟨_,hsettled,rfl⟩ (hidle p)
  | deliver k =>
    obtain ⟨caller,p,outcome,-,-,rfl⟩ := deliver_some h
    rfl

def Ended (s : State κ ρ) (p : Nat) (outcome : ρ) : Prop :=
  s.passes[p]? = some (.settled outcome) ∨ s.passes[p]? = some (.done outcome)

theorem kept_step (h : step s e = some t) : Kept s.passes t.passes := by
  cases e with
  | call caller =>
    obtain rfl := Option.some.inj h
    obtain ⟨-,-,hsame | hbegun⟩ := call_cases s caller
    · rw [hsame]
      exact ⟨Nat.le_refl _,fun _ _ hp => hp⟩
    · rw [hbegun]
      exact kept_begin s.passes
  | settle p outcome =>
    obtain ⟨hrunning,rfl⟩ := settle_some h
    exact kept_set hrunning rfl
  | clear p =>
    obtain ⟨outcome,hsettled,rfl⟩ := clear_some h
    exact kept_set hsettled rfl
  | deliver k =>
    obtain ⟨caller,p,outcome,-,-,rfl⟩ := deliver_some h
    exact ⟨Nat.le_refl _,fun _ _ hp => hp⟩

theorem ended_step (hended : Ended s p outcome) (h : step s e = some t) : Ended t p outcome := by
  rcases hended with hsettled | hdone
  · by_cases he : e = .clear p
    · subst he
      obtain ⟨outcome',hsettled',rfl⟩ := clear_some h
      obtain rfl : outcome' = outcome := by simpa using hsettled'.symm.trans hsettled
      exact .inr (List.getElem?_set_self (List.getElem?_eq_some_iff.mp hsettled).1)
    · exact .inl (settled_step hsettled he h)
  · exact .inr ((kept_step h).2 p outcome hdone)

theorem ended_run (hended : Ended s p outcome) (h : Run.exec step s es = some t) : Ended t p outcome :=
  Run.invariant_of_mem (fun _ _ _ hended _ hstep => ended_step hended hstep) hended h

end Progress

end SingleFlight
