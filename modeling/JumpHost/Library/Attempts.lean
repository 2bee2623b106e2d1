import JumpHost.Library.Effect

namespace Effect

variable {ε σ α β γ : Type}

def refusals (step : α → EStateM ε σ β) : List α → σ → List (α × ε)
  | [], _ => []
  | a :: as, s => match step a s with
      | .ok _ t => refusals step as t
      | .error e t => (a,e) :: refusals step as t

def successes (step : α → EStateM ε σ β) : List α → σ → List α
  | [], _ => []
  | a :: as, s => match step a s with
      | .ok _ t => a :: successes step as t
      | .error _ t => successes step as t

def afterAll (step : α → EStateM ε σ β) (as : List α) (s : σ) : σ := as.foldl (fun s a => final (step a s)) s

variable {step : α → EStateM ε σ β}

theorem length_attempts (as : List α) (s : σ) :
    (successes step as s).length + (refusals step as s).length = as.length := by
  induction as generalizing s with
  | nil => rfl
  | cons a as ih =>
    unfold successes refusals
    cases step a s with
    | ok b t =>
      have hrest := ih t
      simp only [List.length_cons]
      omega
    | error e t =>
      have hrest := ih t
      simp only [List.length_cons]
      omega

def entering (entries : List γ) (entry : ε → γ) (m : EStateM ε σ β) : EStateM ε σ (List γ) :=
  tryCatch (m >>= fun _ => pure entries) fun e => pure (entries ++ [entry e])

theorem foldlM_entering {f : List γ → α → EStateM ε σ (List γ)} {entry : α → ε → γ}
    (hf : ∀ entries a, f entries a = entering entries (entry a) (step a)) (as : List α) (entries : List γ) (s : σ) :
    as.foldlM f entries s =
      .ok (entries ++ (refusals step as s).map fun r => entry r.1 r.2) (afterAll step as s) := by
  induction as generalizing entries s with
  | nil =>
    rw [refusals, List.map_nil, List.append_nil]
    rfl
  | cons a as ih =>
    rw [List.foldlM_cons, bind_apply, hf, entering, tryCatch_apply, bind_apply]
    unfold refusals
    cases hstep : step a s with
    | ok b t =>
      refine (ih entries t).trans ?_
      simp only [afterAll, List.foldl_cons, hstep, final_ok]
    | error e t =>
      refine (ih (entries ++ [entry a e]) t).trans ?_
      simp only [afterAll, List.foldl_cons, hstep, final_error, List.map_cons, List.append_assoc, List.singleton_append]

end Effect
