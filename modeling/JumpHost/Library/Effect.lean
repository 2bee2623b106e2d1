namespace Effect

variable {ε σ α β : Type}

def final : EStateM.Result ε σ α → σ
  | .ok _ s => s
  | .error _ s => s

@[simp] theorem final_ok (a : α) (s : σ) : final (.ok a s : EStateM.Result ε σ α) = s := rfl

@[simp] theorem final_error (e : ε) (s : σ) : final (.error e s : EStateM.Result ε σ α) = s := rfl

theorem bind_apply (m : EStateM ε σ α) (f : α → EStateM ε σ β) (s : σ) :
    (m >>= f) s = match m s with
      | .ok a t => f a t
      | .error e t => .error e t := rfl

theorem pure_apply (a : α) (s : σ) : (pure a : EStateM ε σ α) s = .ok a s := rfl

theorem tryCatch_apply (m : EStateM ε σ α) (h : ε → EStateM ε σ α) (s : σ) :
    (tryCatch m h) s = match m s with
      | .ok a t => .ok a t
      | .error e t => h e t := by
  change EStateM.tryCatch m h s = _
  unfold EStateM.tryCatch
  cases m s <;> rfl

theorem bind_ok {m : EStateM ε σ α} {f : α → EStateM ε σ β} {s u : σ} {b : β}
    (h : (m >>= f) s = .ok b u) : ∃ a t, m s = .ok a t ∧ f a t = .ok b u := by
  rw [bind_apply] at h
  cases hm : m s with
  | ok a t => exact ⟨a,t,rfl,by simpa [hm] using h⟩
  | error e t => simp [hm] at h

theorem bind_of_ok {m : EStateM ε σ α} {f : α → EStateM ε σ β} {s t : σ} {a : α}
    (h : m s = .ok a t) : (m >>= f) s = f a t := by rw [bind_apply, h]

theorem bind_of_error {m : EStateM ε σ α} {f : α → EStateM ε σ β} {s t : σ} {e : ε}
    (h : m s = .error e t) : (m >>= f) s = .error e t := by rw [bind_apply, h]

def okWith (res : EStateM.Result ε σ α) (q : α → σ → Bool) : Bool :=
  match res with
  | .ok a t => q a t
  | .error _ _ => false

theorem exists_of_okWith {res : EStateM.Result ε σ α} {q : α → σ → Bool} (h : okWith res q = true) :
    ∃ a t, res = .ok a t ∧ q a t = true := by
  cases res with
  | ok a t => exact ⟨a,t,rfl,h⟩
  | error e t => cases h

def Keeps (P : σ → Prop) (m : EStateM ε σ α) : Prop := ∀ s, P s → P (final (m s))

variable {P : σ → Prop}

theorem Keeps.of_ok {m : EStateM ε σ α} (h : Keeps P m) {s t : σ} {a : α} (hm : m s = .ok a t)
    (hs : P s) : P t := by
  have ht := h s hs
  rwa [hm] at ht

theorem Keeps.and {P' : σ → Prop} {m : EStateM ε σ α} (h : Keeps P m) (h' : Keeps P' m) :
    Keeps (fun s => P s ∧ P' s) m := fun s hs => ⟨h s hs.1,h' s hs.2⟩

theorem keeps_pure (a : α) : Keeps P (pure a : EStateM ε σ α) := fun _ hs => hs

theorem keeps_throw (e : ε) : Keeps P (throw e : EStateM ε σ α) := fun _ hs => hs

theorem keeps_get : Keeps P (get : EStateM ε σ σ) := fun _ hs => hs

theorem keeps_modify {f : σ → σ} (hf : ∀ s, P s → P (f s)) :
    Keeps P (modify f : EStateM ε σ PUnit) := fun s hs => hf s hs

theorem keeps_bind_ok {m : EStateM ε σ α} {f : α → EStateM ε σ β} (hm : Keeps P m)
    (hf : ∀ s a t, P s → m s = .ok a t → Keeps P (f a)) : Keeps P (m >>= f) := by
  intro s hs
  have ht := hm s hs
  rw [bind_apply]
  cases hres : m s with
  | ok a t =>
    rw [hres] at ht
    exact hf s a t hs hres t ht
  | error e t => simpa [hres] using ht

theorem keeps_bind {m : EStateM ε σ α} {f : α → EStateM ε σ β} (hm : Keeps P m)
    (hf : ∀ a, Keeps P (f a)) : Keeps P (m >>= f) := keeps_bind_ok hm fun _ a _ _ _ => hf a

theorem keeps_tryCatch {m : EStateM ε σ α} {h : ε → EStateM ε σ α} (hm : Keeps P m)
    (hh : ∀ e, Keeps P (h e)) : Keeps P (tryCatch m h) := by
  intro s hs
  have ht := hm s hs
  rw [tryCatch_apply]
  cases hres : m s with
  | ok a t => simpa [hres] using ht
  | error e t =>
    rw [hres] at ht
    exact hh e t ht

theorem keeps_foldlM {f : β → α → EStateM ε σ β} {as : List α}
    (hf : ∀ b, ∀ a ∈ as, Keeps P (f b a)) (b : β) : Keeps P (as.foldlM f b) := by
  induction as generalizing b with
  | nil => exact keeps_pure b
  | cons a as ih =>
    rw [List.foldlM_cons]
    exact keeps_bind (hf b a (by simp)) fun b' => ih (fun c a' ha => hf c a' (by simp [ha])) b'

theorem keeps_forM {f : α → EStateM ε σ PUnit} {as : List α} (hf : ∀ a ∈ as, Keeps P (f a)) :
    Keeps P (as.forM f) := by
  induction as with
  | nil => exact keeps_pure _
  | cons a as ih =>
    exact keeps_bind (hf a (by simp)) fun _ => ih fun a' ha => hf a' (by simp [ha])

def Returns (m : EStateM ε σ α) : Prop := ∀ s, ∃ a t, m s = .ok a t

theorem returns_pure (a : α) : Returns (pure a : EStateM ε σ α) := fun s => ⟨a,s,rfl⟩

theorem returns_bind {m : EStateM ε σ α} {f : α → EStateM ε σ β} (hm : Returns m)
    (hf : ∀ a, Returns (f a)) : Returns (m >>= f) := by
  intro s
  obtain ⟨a,t,ht⟩ := hm s
  obtain ⟨b,u,hu⟩ := hf a t
  exact ⟨b,u,by rw [bind_of_ok ht, hu]⟩

theorem returns_forM {f : α → EStateM ε σ PUnit} {as : List α} (hf : ∀ a ∈ as, Returns (f a)) :
    Returns (as.forM f) := by
  induction as with
  | nil => exact returns_pure _
  | cons a as ih =>
    exact returns_bind (hf a (by simp)) fun _ => ih fun a' ha => hf a' (by simp [ha])

theorem returns_foldlM {f : β → α → EStateM ε σ β} {as : List α} (hf : ∀ b, ∀ a ∈ as, Returns (f b a))
    (b : β) : Returns (as.foldlM f b) := by
  induction as generalizing b with
  | nil => exact returns_pure b
  | cons a as ih =>
    rw [List.foldlM_cons]
    exact returns_bind (hf b a (by simp)) fun b' => ih (fun c a' ha => hf c a' (by simp [ha])) b'

theorem tryCatch_ok {γ : Type} (m : EStateM ε σ γ) (a : α) (h : ε → α) (s : σ) :
    ∃ b, (tryCatch (m >>= fun _ => pure a) fun e => pure (h e)) s = .ok b (final (m s)) := by
  rw [tryCatch_apply, bind_apply]
  cases m s with
  | ok c t => exact ⟨a,rfl⟩
  | error e t => exact ⟨h e,rfl⟩

def attempt (m : EStateM ε σ α) : EStateM ε σ PUnit := tryCatch (m >>= fun _ => pure ⟨⟩) fun _ => pure ⟨⟩

theorem attempt_apply (m : EStateM ε σ α) (s : σ) : attempt m s = .ok ⟨⟩ (final (m s)) := by
  unfold attempt
  rw [tryCatch_apply, bind_apply]
  cases m s <;> rfl

theorem attempt_bind (m : EStateM ε σ α) (f : PUnit → EStateM ε σ β) (s : σ) :
    (attempt m >>= f) s = f ⟨⟩ (final (m s)) := bind_of_ok (attempt_apply m s)

theorem returns_attempt (m : EStateM ε σ α) : Returns (attempt m) := fun s => ⟨⟨⟩,_,attempt_apply m s⟩

theorem foldlM_attempt {f : β → α → EStateM ε σ β} {γ : Type} {m : α → EStateM ε σ γ}
    (hf : ∀ b a s, ∃ b', f b a s = .ok b' (final (m a s))) (as : List α) (b : β) (s : σ) :
    ∃ b', as.foldlM f b s = .ok b' (final (as.forM (fun a => attempt (m a)) s)) := by
  induction as generalizing b s with
  | nil => exact ⟨b,rfl⟩
  | cons a as ih =>
    obtain ⟨b',hb'⟩ := hf b a s
    obtain ⟨b'',hrest⟩ := ih b' (final (m a s))
    refine ⟨b'',?_⟩
    have hforM : (a :: as).forM (fun a => attempt (m a)) s =
        as.forM (fun a => attempt (m a)) (final (m a s)) := attempt_bind (m a) _ s
    rw [List.foldlM_cons, bind_of_ok hb', hrest, hforM]

theorem forM_attempt {f : α → EStateM ε σ PUnit} {as : List α} {s t : σ} (h : as.forM f s = .ok ⟨⟩ t) :
    final (as.forM (fun a => attempt (f a)) s) = t := by
  induction as generalizing s with
  | nil =>
    cases h
    rfl
  | cons a as ih =>
    obtain ⟨_,u,ha,hrest⟩ := bind_ok h
    have hforM : (a :: as).forM (fun a => attempt (f a)) s =
        as.forM (fun a => attempt (f a)) (final (f a s)) := attempt_bind (f a) _ s
    rw [hforM, ha, final_ok, ih hrest]

theorem forM_ok {f : α → EStateM ε σ PUnit} (I : List α → σ → Prop)
    (hf : ∀ a as s, I (a :: as) s → ∃ t, f a s = .ok ⟨⟩ t ∧ I as t) {as : List α} {s : σ}
    (hs : I as s) : ∃ t, as.forM f s = .ok ⟨⟩ t ∧ I [] t := by
  induction as generalizing s with
  | nil => exact ⟨s,rfl,hs⟩
  | cons a as ih =>
    obtain ⟨t,hft,ht⟩ := hf a as s hs
    obtain ⟨u,hu,hI⟩ := ih ht
    exact ⟨u,(bind_of_ok hft).trans hu,hI⟩

theorem foldlM_ok {f : β → α → EStateM ε σ β} (I : List α → β → σ → Prop)
    (hf : ∀ b a as s, I (a :: as) b s → ∃ b' t, f b a s = .ok b' t ∧ I as b' t) {as : List α}
    {s : σ} {b : β} (hs : I as b s) : ∃ b' t, as.foldlM f b s = .ok b' t ∧ I [] b' t := by
  induction as generalizing b s with
  | nil => exact ⟨b,s,rfl,hs⟩
  | cons a as ih =>
    obtain ⟨b',t,hft,ht⟩ := hf b a as s hs
    obtain ⟨b'',u,hu,hI⟩ := ih ht
    exact ⟨b'',u,by rw [List.foldlM_cons, bind_of_ok hft, hu],hI⟩

theorem foldlM_turns {f : β → α → EStateM ε σ β} {turn : σ → α → σ} (hf : ∀ b a s, ∃ b', f b a s = .ok b' (turn s a))
    (as : List α) (b : β) (s : σ) : ∃ b', as.foldlM f b s = .ok b' (as.foldl turn s) := by
  induction as generalizing b s with
  | nil => exact ⟨b,rfl⟩
  | cons a as ih =>
    obtain ⟨b',ha⟩ := hf b a s
    obtain ⟨b'',hrest⟩ := ih b' (turn s a)
    exact ⟨b'',by rw [List.foldlM_cons, bind_of_ok ha, hrest, List.foldl_cons]⟩

theorem forM_each {f : α → EStateM ε σ PUnit} (J : σ → Prop) (D : α → σ → Prop) {as : List α}
    (hf : ∀ a ∈ as, ∀ s, J s →
      ∃ t, f a s = .ok ⟨⟩ t ∧ J t ∧ D a t ∧ ∀ a' ∈ as, D a' s → D a' t) {s : σ} (hs : J s) :
    ∃ t, as.forM f s = .ok ⟨⟩ t ∧ J t ∧ ∀ a ∈ as, D a t := by
  let I : List α → σ → Prop := fun rest t => J t ∧ ∃ done, as = done ++ rest ∧ ∀ a ∈ done, D a t
  have hturn : ∀ a rest s, I (a :: rest) s → ∃ t, f a s = .ok ⟨⟩ t ∧ I rest t := by
    rintro a rest s ⟨hs,done,hsplit,hdone⟩
    obtain ⟨t,hft,ht,ha,hkept⟩ := hf a (by simp [hsplit]) s hs
    refine ⟨t,hft,ht,done ++ [a],by simp [hsplit],fun a' ha' => ?_⟩
    rcases List.mem_append.mp ha' with ha' | ha'
    · exact hkept a' (by simp [hsplit, ha']) (hdone a' ha')
    · exact List.mem_singleton.mp ha' ▸ ha
  have hstart : I as s := ⟨hs,[],rfl,fun a ha => by cases ha⟩
  obtain ⟨t,hrun,ht,done,hdone,hall⟩ := forM_ok I hturn hstart
  obtain rfl : as = done := by simpa using hdone
  exact ⟨t,hrun,ht,hall⟩

theorem foldlM_each {f : β → α → EStateM ε σ β} (J : β → σ → Prop) (D : α → β → σ → Prop)
    {as : List α} (hf : ∀ a ∈ as, ∀ b s, J b s →
      ∃ b' t, f b a s = .ok b' t ∧ J b' t ∧ D a b' t ∧ ∀ a' ∈ as, D a' b s → D a' b' t)
    {s : σ} {b : β} (hs : J b s) :
    ∃ b' t, as.foldlM f b s = .ok b' t ∧ J b' t ∧ ∀ a ∈ as, D a b' t := by
  let I : List α → β → σ → Prop := fun rest b t => J b t ∧ ∃ done, as = done ++ rest ∧ ∀ a ∈ done, D a b t
  have hturn : ∀ b a rest s, I (a :: rest) b s → ∃ b' t, f b a s = .ok b' t ∧ I rest b' t := by
    rintro b a rest s ⟨hs,done,hsplit,hdone⟩
    obtain ⟨b',t,hft,ht,ha,hkept⟩ := hf a (by simp [hsplit]) b s hs
    refine ⟨b',t,hft,ht,done ++ [a],by simp [hsplit],fun a' ha' => ?_⟩
    rcases List.mem_append.mp ha' with ha' | ha'
    · exact hkept a' (by simp [hsplit, ha']) (hdone a' ha')
    · exact List.mem_singleton.mp ha' ▸ ha
  have hstart : I as b s := ⟨hs,[],rfl,fun a ha => by cases ha⟩
  obtain ⟨b',t,hrun,ht,done,hdone,hall⟩ := foldlM_ok I hturn hstart
  obtain rfl : as = done := by simpa using hdone
  exact ⟨b',t,hrun,ht,hall⟩

theorem foldlM_all {f : β → α → EStateM ε σ β} (J : β → σ → Prop) {as : List α}
    (hf : ∀ a ∈ as, ∀ b s, J b s → ∃ b' t, f b a s = .ok b' t ∧ J b' t) {s : σ} {b : β} (hs : J b s) :
    ∃ b' t, as.foldlM f b s = .ok b' t ∧ J b' t := by
  have hturn : ∀ a ∈ as, ∀ b s, J b s →
      ∃ b' t, f b a s = .ok b' t ∧ J b' t ∧ True ∧ ∀ a' ∈ as, True → True := fun a ha b s hs => by
    obtain ⟨b',t,hft,ht⟩ := hf a ha b s hs
    exact ⟨b',t,hft,ht,trivial,fun _ _ _ => trivial⟩
  obtain ⟨b',t,hrun,ht,-⟩ := foldlM_each J (fun _ _ _ => True) hturn hs
  exact ⟨b',t,hrun,ht⟩

theorem forM_done {f : α → EStateM ε σ PUnit} (J : σ → Prop) (D : α → σ → Prop) {as : List α}
    (hf : ∀ a ∈ as, ∀ s t, J s → f a s = .ok ⟨⟩ t → J t ∧ D a t ∧ ∀ a' ∈ as, D a' s → D a' t) {s t : σ} (hs : J s)
    (h : as.forM f s = .ok ⟨⟩ t) : J t ∧ ∀ a ∈ as, D a t := by
  suffices hgen : ∀ (rest : List α) (s : σ), (∀ a ∈ rest, a ∈ as) → J s → rest.forM f s = .ok ⟨⟩ t →
      J t ∧ (∀ a ∈ rest, D a t) ∧ ∀ a ∈ as, D a s → D a t by
    obtain ⟨ht,hall,-⟩ := hgen as s (fun _ ha => ha) hs h
    exact ⟨ht,hall⟩
  intro rest
  induction rest with
  | nil =>
    rintro s - hs h
    cases h
    exact ⟨hs,by simp,fun _ _ hd => hd⟩
  | cons a rest ih =>
    intro s hsub hs h
    obtain ⟨_,u,hu,hrest⟩ := bind_ok h
    obtain ⟨hJ,hD,hkept⟩ := hf a (hsub a (by simp)) s u hs hu
    obtain ⟨ht,hall,hlater⟩ := ih u (fun a' ha' => hsub a' (by simp [ha'])) hJ hrest
    refine ⟨ht,fun a' ha' => ?_,fun a' ha' hd => hlater a' ha' (hkept a' ha' hd)⟩
    rcases List.mem_cons.mp ha' with rfl | ha'
    · exact hlater a' (hsub a' (by simp)) hD
    · exact hall a' ha'

section View

variable {τ γ : Type} {V : σ → τ} {x y z : τ}

def Gives (P : σ → Prop) (V : σ → τ) (m : EStateM ε σ α) (x : τ) (a : α) (y : τ) : Prop :=
  ∀ s, P s → V s = x → ∃ t, m s = .ok a t ∧ P t ∧ V t = y

def Takes (P : σ → Prop) (V : σ → τ) (m : EStateM ε σ α) (x y : τ) : Prop :=
  ∀ s, P s → V s = x → ∃ a t, m s = .ok a t ∧ P t ∧ V t = y

theorem Gives.takes {m : EStateM ε σ α} {a : α} (h : Gives P V m x a y) : Takes P V m x y := by
  intro s hs hx
  obtain ⟨t,ht⟩ := h s hs hx
  exact ⟨a,t,ht⟩

theorem gives_pure (a : α) : Gives P V (pure a : EStateM ε σ α) x a x :=
  fun s hs hx => ⟨s,rfl,hs,hx⟩

theorem takes_pure (a : α) : Takes P V (pure a : EStateM ε σ α) x x := (gives_pure a).takes

theorem Gives.bind {m : EStateM ε σ α} {f : α → EStateM ε σ β} {a : α} {b : β}
    (hm : Gives P V m x a y) (hf : Gives P V (f a) y b z) : Gives P V (m >>= f) x b z := by
  intro s hs hx
  obtain ⟨t,hmt,ht,hy⟩ := hm s hs hx
  obtain ⟨u,hfu,hu⟩ := hf t ht hy
  exact ⟨u,(bind_of_ok hmt).trans hfu,hu⟩

theorem Gives.takes_bind {m : EStateM ε σ α} {f : α → EStateM ε σ β} {a : α}
    (hm : Gives P V m x a y) (hf : Takes P V (f a) y z) : Takes P V (m >>= f) x z := by
  intro s hs hx
  obtain ⟨t,hmt,ht,hy⟩ := hm s hs hx
  obtain ⟨b,u,hfu,hu⟩ := hf t ht hy
  exact ⟨b,u,(bind_of_ok hmt).trans hfu,hu⟩

theorem Takes.bind {m : EStateM ε σ α} {f : α → EStateM ε σ β} (hm : Takes P V m x y)
    (hf : ∀ a, Takes P V (f a) y z) : Takes P V (m >>= f) x z := by
  intro s hs hx
  obtain ⟨a,t,hmt,ht,hy⟩ := hm s hs hx
  obtain ⟨b,u,hfu,hu⟩ := hf a t ht hy
  exact ⟨b,u,(bind_of_ok hmt).trans hfu,hu⟩

theorem Takes.caught {m : EStateM ε σ γ} (hm : Takes P V m x y) (a : α) (h : ε → α) :
    Takes P V (tryCatch (m >>= fun _ => pure a) fun e => pure (h e)) x y := by
  intro s hs hx
  obtain ⟨c,t,hmt,ht⟩ := hm s hs hx
  refine ⟨a,t,?_,ht⟩
  rw [tryCatch_apply, bind_of_ok hmt, pure_apply]

def Fails (P : σ → Prop) (V : σ → τ) (m : EStateM ε σ α) (x : τ) : Prop :=
  ∀ s, P s → V s = x → ∃ e t, m s = .error e t ∧ P t ∧ V t = x

theorem Fails.bind {m : EStateM ε σ α} (hm : Fails P V m x) (f : α → EStateM ε σ β) :
    Fails P V (m >>= f) x := by
  intro s hs hx
  obtain ⟨e,t,hmt,ht⟩ := hm s hs hx
  exact ⟨e,t,by rw [bind_apply, hmt],ht⟩

theorem Gives.fails_bind {m : EStateM ε σ α} {f : α → EStateM ε σ β} {a : α}
    (hm : Gives P V m x a x) (hf : Fails P V (f a) x) : Fails P V (m >>= f) x := by
  intro s hs hx
  obtain ⟨t,hmt,ht,hy⟩ := hm s hs hx
  obtain ⟨e,u,hfu,hu⟩ := hf t ht hy
  exact ⟨e,u,(bind_of_ok hmt).trans hfu,hu⟩

theorem Fails.caught {m : EStateM ε σ γ} (hm : Fails P V m x) (a : α) (h : ε → α) :
    Takes P V (tryCatch (m >>= fun _ => pure a) fun e => pure (h e)) x x := by
  intro s hs hx
  obtain ⟨e,t,hmt,ht⟩ := hm s hs hx
  refine ⟨h e,t,?_,ht⟩
  rw [tryCatch_apply, bind_apply, hmt]
  rfl

def Leaves (P : σ → Prop) (V : σ → τ) (m : EStateM ε σ α) (x y : τ) : Prop :=
  ∀ s, P s → V s = x → P (final (m s)) ∧ V (final (m s)) = y

theorem Takes.leaves {m : EStateM ε σ α} (h : Takes P V m x y) : Leaves P V m x y := by
  intro s hs hx
  obtain ⟨a,t,hmt,ht⟩ := h s hs hx
  rwa [hmt]

theorem Fails.leaves {m : EStateM ε σ α} (h : Fails P V m x) : Leaves P V m x x := by
  intro s hs hx
  obtain ⟨e,t,hmt,ht⟩ := h s hs hx
  rwa [hmt]

theorem Takes.leaves_bind {m : EStateM ε σ α} {f : α → EStateM ε σ β} (hm : Takes P V m x y)
    (hf : ∀ a, Leaves P V (f a) y z) : Leaves P V (m >>= f) x z := by
  intro s hs hx
  obtain ⟨a,t,hmt,ht,hy⟩ := hm s hs hx
  rw [bind_of_ok hmt]
  exact hf a t ht hy

theorem Leaves.caught {m : EStateM ε σ γ} (hm : Leaves P V m x y) (a : α) (h : ε → α) :
    Takes P V (tryCatch (m >>= fun _ => pure a) fun e => pure (h e)) x y := by
  intro s hs hx
  obtain ⟨b,hrun⟩ := tryCatch_ok m a h s
  exact ⟨b,_,hrun,hm s hs hx⟩

theorem leaves_forM {f : α → EStateM ε σ PUnit} {p : α → Bool} {as : List α}
    (hf : ∀ a ∈ as.takeWhile p, Takes P V (f a) x x) (hstop : ∀ a ∈ as, p a = false → Fails P V (f a) x) :
    Leaves P V (as.forM f) x x := by
  induction as with
  | nil => exact (takes_pure _).leaves
  | cons a as ih =>
    have hrest := fun a' ha' => hstop a' (List.mem_cons_of_mem a ha')
    cases hp : p a with
    | true =>
      rw [List.takeWhile_cons_of_pos hp] at hf
      exact (hf a List.mem_cons_self).leaves_bind fun _ => ih (fun a' ha' => hf a' (List.mem_cons_of_mem a ha')) hrest
    | false => exact ((hstop a List.mem_cons_self hp).bind _).leaves

theorem takes_forM {f : α → EStateM ε σ PUnit} {as : List α} (hf : ∀ a ∈ as, Takes P V (f a) x x) :
    Takes P V (as.forM f) x x := by
  induction as with
  | nil => exact takes_pure _
  | cons a as ih => exact (hf a (by simp)).bind fun _ => ih fun a' ha => hf a' (by simp [ha])

theorem takes_foldlM {f : β → α → EStateM ε σ β} {as : List α} (hf : ∀ b, ∀ a ∈ as, Takes P V (f b a) x x)
    (b : β) : Takes P V (as.foldlM f b) x x := by
  induction as generalizing b with
  | nil => exact takes_pure _
  | cons a as ih =>
    rw [List.foldlM_cons]
    exact (hf b a (by simp)).bind fun b' => ih (fun c a' ha => hf c a' (by simp [ha])) b'

end View

end Effect
