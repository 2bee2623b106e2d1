namespace Run

variable {S E : Type}

def exec (step : S → E → Option S) : S → List E → Option S
  | s, [] => some s
  | s, e :: es => match step s e with
      | none => none
      | some t => exec step t es

def Along (step : S → E → Option S) (guard : S → E → Prop) : S → List E → Prop
  | _, [] => True
  | s, e :: es => guard s e ∧ match step s e with
      | none => True
      | some t => Along step guard t es

instance decidableAlong (step : S → E → Option S) (guard : S → E → Prop)
    [∀ s e, Decidable (guard s e)] : ∀ s es, Decidable (Along step guard s es)
  | _, [] => .isTrue trivial
  | s, e :: es =>
      let _ : Decidable (match step s e with
          | none => True
          | some t => Along step guard t es) :=
        match step s e with
        | none => .isTrue trivial
        | some t => decidableAlong step guard t es
      inferInstanceAs (Decidable (_ ∧ _))

def Preserves (step : S → E → Option S) (guard : S → E → Prop) (P : S → Prop) : Prop :=
  ∀ s e t, P s → guard s e → step s e = some t → P t

@[simp] theorem exec_nil (step : S → E → Option S) (s : S) : exec step s [] = some s := rfl

theorem exec_cons {step : S → E → Option S} {s u : S} {e : E} {es : List E}
    (h : exec step s (e :: es) = some u) :
    ∃ t, step s e = some t ∧ exec step t es = some u := by
  simp only [exec] at h
  cases ht : step s e with
  | none => simp [ht] at h
  | some t => exact ⟨t,rfl,by simpa [ht] using h⟩

theorem invariant {step : S → E → Option S} {guard : S → E → Prop} {P : S → Prop}
    (hstep : Preserves step guard P) {s t : S} {es : List E} (hs : P s)
    (hg : Along step guard s es) (h : exec step s es = some t) : P t := by
  induction es generalizing s with
  | nil => cases h; exact hs
  | cons e es ih =>
    obtain ⟨u,hu,hrest⟩ := exec_cons h
    simp only [Along, hu] at hg
    exact ih (hstep s e u hs hg.1 hu) hg.2 hrest

def observe {O : Type} (step : S → E → Option S) (see : S → E → O → O) : S → O → List E → O
  | _, o, [] => o
  | s, o, e :: es => match step s e with
      | none => o
      | some t => observe step see t (see s e o) es

theorem observe_invariant {O : Type} {step : S → E → Option S} {guard : S → E → Prop} {see : S → E → O → O}
    {P : S → O → Prop} (hstep : ∀ s e t o, P s o → guard s e → step s e = some t → P t (see s e o)) {s t : S} {o : O}
    {es : List E} (hs : P s o) (hg : Along step guard s es) (h : exec step s es = some t) :
    P t (observe step see s o es) := by
  induction es generalizing s o with
  | nil =>
    cases h
    exact hs
  | cons e es ih =>
    obtain ⟨u,hu,hrest⟩ := exec_cons h
    simp only [Along, hu] at hg
    simp only [observe, hu]
    exact ih (hstep s e u o hs hg.1 hu) hg.2 hrest

theorem along_mono {step : S → E → Option S} {guard guard' : S → E → Prop} (h : ∀ s e, guard s e → guard' s e)
    {s : S} {es : List E} (hg : Along step guard s es) : Along step guard' s es := by
  induction es generalizing s with
  | nil => trivial
  | cons e es ih =>
    refine ⟨h s e hg.1,?_⟩
    cases ht : step s e with
    | none => trivial
    | some t => exact ih (by simpa only [ht] using hg.2)

theorem along_of_forall {step : S → E → Option S} {guard : S → E → Prop} {es : List E}
    (h : ∀ s, ∀ e ∈ es, guard s e) (s : S) : Along step guard s es := by
  induction es generalizing s with
  | nil => trivial
  | cons e es ih =>
    refine ⟨h s e (by simp),?_⟩
    cases step s e with
    | none => trivial
    | some t => exact ih (fun s' e' he => h s' e' (by simp [he])) t

theorem invariant_of_mem {step : S → E → Option S} {P : S → Prop} {es : List E}
    (hstep : Preserves step (fun _ e => e ∈ es) P) {s t : S} (hs : P s)
    (h : exec step s es = some t) : P t :=
  invariant hstep hs (along_of_forall (fun _ _ he => he) s) h

theorem exec_append {step : S → E → Option S} {s t u : S} {es es' : List E} (h : exec step s es = some t)
    (h' : exec step t es' = some u) : exec step s (es ++ es') = some u := by
  induction es generalizing s with
  | nil =>
    cases h
    exact h'
  | cons e es ih =>
    obtain ⟨v,hv,hrest⟩ := exec_cons h
    simp only [List.cons_append, exec, hv]
    exact ih hrest

theorem simulates {T F : Type} {step : S → E → Option S} {step' : T → F → Option T} {proj : S → T}
    {event : E → Option F} {es : List E}
    (hstep : ∀ s e t, step s e = some t → exec step' (proj s) (event e).toList = some (proj t)) {s t : S}
    (h : exec step s es = some t) : exec step' (proj s) (es.filterMap event) = some (proj t) := by
  induction es generalizing s with
  | nil =>
    cases h
    rfl
  | cons e es ih =>
    obtain ⟨u,hu,hrest⟩ := exec_cons h
    have hcons : (e :: es).filterMap event = (event e).toList ++ es.filterMap event := by
      rw [List.filterMap_cons]
      cases event e with
      | none => rfl
      | some f => rfl
    rw [hcons]
    exact exec_append (hstep s e u hu) (ih hrest)

theorem forward {T F : Type} {step : S → E → Option S} {step' : T → F → Option T} {R : S → T → Prop} {es : List E}
    (hstep : ∀ s e s' t, R s t → step s e = some s' → ∃ fs t', exec step' t fs = some t' ∧ R s' t') {s u : S} {t : T}
    (hR : R s t) (h : exec step s es = some u) : ∃ fs t', exec step' t fs = some t' ∧ R u t' := by
  induction es generalizing s t with
  | nil =>
    cases h
    exact ⟨[],t,rfl,hR⟩
  | cons e es ih =>
    obtain ⟨v,hv,hrest⟩ := exec_cons h
    obtain ⟨fs,w,hfs,hw⟩ := hstep s e v t hR hv
    obtain ⟨fs',t',hfs',ht'⟩ := ih hw hrest
    exact ⟨fs ++ fs',t',exec_append hfs hfs',ht'⟩

theorem foldl_invariant {turn : S → E → S} {guard : S → E → Prop} {P : S → Prop} {es : List E}
    (hturn : ∀ s, ∀ e ∈ es, P s → guard s e → P (turn s e)) {s : S} (hs : P s)
    (hg : Along (fun s e => some (turn s e)) guard s es) : P (es.foldl turn s) := by
  induction es generalizing s with
  | nil => exact hs
  | cons e es ih =>
    obtain ⟨hguard,hrest⟩ := hg
    have hP := hturn s e List.mem_cons_self hs hguard
    exact ih (fun s' e' he' => hturn s' e' (List.mem_cons_of_mem e he')) hP hrest

theorem along_iff {step : S → E → Option S} {guard guard' : S → E → Prop} (h : ∀ s e, guard s e ↔ guard' s e)
    (s : S) (es : List E) : Along step guard s es ↔ Along step guard' s es := by
  have hguard : guard = guard' := funext fun s => funext fun e => propext (h s e)
  rw [hguard]

theorem along_congr {step : S → E → Option S} {guard guard' : S → E → Prop} {es : List E}
    (h : ∀ s, ∀ e ∈ es, ∀ t, step s e = some t → (guard s e ↔ guard' s e)) {s u : S}
    (hrun : exec step s es = some u) : Along step guard s es ↔ Along step guard' s es := by
  induction es generalizing s with
  | nil => exact Iff.rfl
  | cons e es ih =>
    obtain ⟨t,ht,hrest⟩ := exec_cons hrun
    simp only [Along, ht]
    exact and_congr (h s e (by simp) t ht) (ih (fun s' e' he => h s' e' (by simp [he])) hrest)

theorem along_iff_invariant {step : S → E → Option S} {guard : S → E → Prop} {P : S → Prop}
    (hkeep : ∀ s e t, P s → step s e = some t → (guard s e ↔ P t)) (hidle : ∀ s e, step s e = none → guard s e)
    {s : S} (hs : P s) (es : List E) :
    Along step guard s es ↔ Along step (fun s e => ∀ t, step s e = some t → P t) s es := by
  induction es generalizing s with
  | nil => exact Iff.rfl
  | cons e es ih =>
    cases ht : step s e with
    | none => simp [Along, ht, hidle s e ht]
    | some t =>
      have hiff := hkeep s e t hs ht
      simp only [Along, ht, Option.some.injEq, forall_eq']
      rw [hiff]
      exact and_congr_right fun hP => ih hP

theorem tally {step : S → E → Option S} {P : S → Prop} {p : E → Bool} {f : S → Nat}
    (hstep : ∀ s e t, P s → step s e = some t → P t ∧ f t = f s + if p e then 1 else 0) {s t : S} {es : List E}
    (hs : P s) (h : exec step s es = some t) : f t = f s + es.countP p := by
  induction es generalizing s with
  | nil =>
    cases h
    simp
  | cons e es ih =>
    obtain ⟨u,hu,hrest⟩ := exec_cons h
    obtain ⟨hPu,hfu⟩ := hstep s e u hs hu
    rw [ih hPu hrest, hfu, List.countP_cons]
    omega

theorem length_le {step : S → E → Option S} {guard : S → E → Prop} {measure : S → Nat}
    (hlt : ∀ s e t, guard s e → step s e = some t → measure t < measure s) {s t : S} {es : List E}
    (hg : Along step guard s es) (h : exec step s es = some t) : es.length + measure t ≤ measure s := by
  induction es generalizing s with
  | nil =>
    cases h
    simp
  | cons e es ih =>
    obtain ⟨u,hu,hrest⟩ := exec_cons h
    simp only [Along, hu] at hg
    have hstep := hlt s e u hg.1 hu
    have htail := ih hg.2 hrest
    simp only [List.length_cons]
    omega

def AtRest (step : S → E → Option S) (guard : S → E → Prop) (s : S) : Prop := ∀ e, guard s e → step s e = none

end Run
