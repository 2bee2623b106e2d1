import Mathlib.Data.List.TakeWhile

namespace Cached

variable {α : Type}

structure Entry (α : Type) where
  stamp : Nat
  value : α
deriving DecidableEq

inductive Turn (α : Type) where
  | skip
  | fresh (value : α) (written : Bool)
  | failed (readable : Bool)

structure Seen (α : Type) where
  fresh : Option (Entry α) := none
  used : Option (Entry α) := none

def Turn.seen (now : Nat) (store : Option (Entry α)) : Turn α → Seen α
  | .skip => {}
  | .fresh value _ => ⟨some ⟨now,value⟩,some ⟨now,value⟩⟩
  | .failed readable => { used := if readable then store else none }

def Turn.store (now : Nat) (store : Option (Entry α)) : Turn α → Option (Entry α)
  | .fresh value written => if written then some ⟨now,value⟩ else store
  | _ => store

def Turn.unsaved (before : Bool) : Turn α → Bool
  | .fresh _ written => !written
  | _ => before

def Turn.latest (now : Nat) (before : Option (Entry α)) : Turn α → Option (Entry α)
  | .fresh value _ => some ⟨now,value⟩
  | _ => before

def history : Nat → Option (Entry α) → List (Turn α) → List (Seen α)
  | _, _, [] => []
  | now, store, turn :: turns => turn.seen now store :: history (now + 1) (turn.store now store) turns

def Turn.FallsBack (store : Option (Entry α)) : Turn α → Prop
  | .failed readable => readable = true ∧ store.isSome = true
  | _ => False

def Saved : Nat → Option (Entry α) → Bool → List (Turn α) → Prop
  | _, _, _, [] => True
  | now, store, unsaved, turn :: turns => (unsaved = true → ¬ turn.FallsBack store) ∧
      Saved (now + 1) (turn.store now store) (turn.unsaved unsaved) turns

def Ordered (h : List (Seen α)) : Prop :=
  h.Pairwise fun r r' => ∀ v, r.fresh = some v → ∀ u, r'.used = some u → v.stamp ≤ u.stamp

structure Keeps (now : Nat) (store : Option (Entry α)) (unsaved : Bool) (latest : Option (Entry α)) : Prop where
  stored : ∀ e, store = some e → e.stamp < now
  fetched : ∀ v, latest = some v → v.stamp < now
  saved : unsaved = false → ∀ v, latest = some v → store = some v
  older : unsaved = true → ∃ v, latest = some v ∧ ∀ e, store = some e → e.stamp < v.stamp

section Keeps

variable {now : Nat} {store latest : Option (Entry α)} {unsaved : Bool} {turn : Turn α} {turns : List (Turn α)}

theorem Keeps.start (h : ∀ e, store = some e → e.stamp < now) : Keeps now store false none :=
  ⟨h,fun _ hv => (by cases hv),fun _ _ hv => (by cases hv),fun hu => (by cases hu)⟩

theorem Keeps.later (h : Keeps now store unsaved latest) : Keeps (now + 1) store unsaved latest :=
  ⟨fun e he => Nat.lt_succ_of_lt (h.stored e he),fun v hv => Nat.lt_succ_of_lt (h.fetched v hv),h.saved,h.older⟩

theorem Keeps.fresh (h : Keeps now store unsaved latest) (value : α) (written : Bool) :
    Keeps (now + 1) ((Turn.fresh value written).store now store) (!written) (some ⟨now,value⟩) := by
  cases written with
  | true =>
    refine ⟨fun e he => ?_,fun v hv => ?_,fun _ v hv => ?_,fun hu => (by cases hu)⟩
    · cases he
      exact Nat.lt_succ_self now
    · cases hv
      exact Nat.lt_succ_self now
    · cases hv
      rfl
  | false =>
    refine ⟨fun e he => ?_,fun v hv => ?_,fun hu => (by cases hu),fun _ => ⟨_,rfl,fun e he => ?_⟩⟩
    · exact Nat.lt_succ_of_lt (h.stored e he)
    · cases hv
      exact Nat.lt_succ_self now
    · exact h.stored e he

theorem Keeps.step (h : Keeps now store unsaved latest) (turn : Turn α) :
    Keeps (now + 1) (turn.store now store) (turn.unsaved unsaved) (turn.latest now latest) := by
  cases turn with
  | skip => exact h.later
  | fresh value written => exact h.fresh value written
  | failed readable => exact h.later

theorem Keeps.ordered_failed (h : Keeps now store unsaved latest) (readable : Bool) :
    (∀ v, latest = some v → ∀ u, ((Turn.failed readable).seen now store).used = some u → v.stamp ≤ u.stamp) ↔
      (unsaved = true → ¬ (Turn.failed readable : Turn α).FallsBack store) := by
  constructor
  · rintro hordered hunsaved ⟨rfl,hsome⟩
    obtain ⟨e,he⟩ := Option.isSome_iff_exists.mp hsome
    obtain ⟨v,hv,holder⟩ := h.older hunsaved
    exact absurd (hordered v hv e he) (Nat.not_le_of_lt (holder e he))
  · intro hback v hv u hu
    cases readable with
    | false => cases hu
    | true =>
      have hstore : store = some u := hu
      cases unsaved with
      | true => exact absurd ⟨rfl,by rw [hstore]; rfl⟩ (hback rfl)
      | false =>
        rw [h.saved rfl v hv] at hstore
        cases hstore
        exact Nat.le_refl _

theorem ordered_iff (h : Keeps now store unsaved latest) :
    (∀ v, latest = some v → ∀ r ∈ history now store turns, ∀ u, r.used = some u → v.stamp ≤ u.stamp) ∧
      Ordered (history now store turns) ↔ Saved now store unsaved turns := by
  induction turns generalizing now store unsaved latest with
  | nil => exact ⟨fun _ => trivial,fun _ => ⟨fun _ _ _ hr => (by cases hr),List.Pairwise.nil⟩⟩
  | cons turn turns ih =>
    cases turn with
    | skip =>
      refine Iff.trans ⟨fun ⟨hlatest,hordered⟩ => ?_,fun ⟨hlatest,hordered⟩ => ⟨fun v hv r hr => ?_,?_⟩⟩
        ((ih h.later).trans ⟨fun hsaved => ⟨fun _ hback => hback,hsaved⟩,And.right⟩)
      · exact ⟨fun v hv r hr => hlatest v hv r (List.mem_cons_of_mem _ hr),hordered.of_cons⟩
      · rcases List.mem_cons.mp hr with rfl | hr
        · exact fun u hu => (by cases hu)
        · exact hlatest v hv r hr
      · exact List.pairwise_cons.mpr ⟨fun _ _ _ hv => (by cases hv),hordered⟩
    | failed readable =>
      have hone := h.ordered_failed readable
      have hrest := ih h.later
      constructor
      · rintro ⟨hlatest,hordered⟩
        refine ⟨hone.mp fun v hv => hlatest v hv _ List.mem_cons_self,hrest.mp ⟨?_,hordered.of_cons⟩⟩
        exact fun v hv r hr => hlatest v hv r (List.mem_cons_of_mem _ hr)
      · rintro ⟨hback,hsaved⟩
        obtain ⟨hlatest,hordered⟩ := hrest.mpr hsaved
        refine ⟨fun v hv r hr => ?_,List.pairwise_cons.mpr ⟨fun _ _ _ hv => (by cases hv),hordered⟩⟩
        rcases List.mem_cons.mp hr with rfl | hr
        · exact hone.mpr hback v hv
        · exact hlatest v hv r hr
    | fresh value written =>
      have hrest := ih (h.fresh value written)
      constructor
      · rintro ⟨-,hordered⟩
        obtain ⟨hfirst,hordered⟩ := List.pairwise_cons.mp hordered
        refine ⟨fun _ hback => hback,hrest.mp ⟨fun v hv r hr => hfirst r hr v hv,hordered⟩⟩
      · rintro ⟨-,hsaved⟩
        obtain ⟨hfirst,hordered⟩ := hrest.mpr hsaved
        refine ⟨fun v hv r hr u hu => ?_,List.pairwise_cons.mpr ⟨fun r hr v hv => hfirst v hv r hr,hordered⟩⟩
        rcases List.mem_cons.mp hr with rfl | hr
        · cases hu
          exact Nat.le_of_lt (h.fetched v hv)
        · exact Nat.le_trans (Nat.le_of_lt (h.fetched v hv)) (hfirst _ rfl r hr u hu)

theorem used_latest {v : Entry α} (h : Keeps now store unsaved (some v)) (hsaved : Saved now store unsaved turns)
    {r : Seen α} (hr : r ∈ (history now store turns).takeWhile fun r => r.fresh.isNone) {u : Entry α}
    (hu : r.used = some u) : u = v := by
  induction turns generalizing now store with
  | nil => cases hr
  | cons turn turns ih =>
    obtain ⟨hback,hsaved⟩ := hsaved
    cases turn with
    | fresh value written => cases hr
    | skip =>
      rcases List.mem_cons.mp hr with rfl | hr
      · cases hu
      · exact ih h.later hsaved hr
    | failed readable =>
      rcases List.mem_cons.mp hr with rfl | hr
      · cases readable with
        | false => cases hu
        | true =>
          have hstore : store = some u := hu
          cases unsaved with
          | true => exact absurd ⟨rfl,by rw [hstore]; rfl⟩ (hback rfl)
          | false =>
            rw [h.saved rfl v rfl] at hstore
            exact (Option.some.inj hstore).symm
      · exact ih h.later hsaved hr

theorem used_after (h : Keeps now store unsaved latest) (hsaved : Saved now store unsaved turns)
    {r r' : Seen α} {later : List (Seen α)} (hsuffix : r :: later <:+ history now store turns) {v u : Entry α}
    (hv : r.fresh = some v) (hr' : r' ∈ later.takeWhile fun r => r.fresh.isNone) (hu : r'.used = some u) :
    u = v := by
  induction turns generalizing now store unsaved latest with
  | nil => cases List.suffix_nil.mp hsuffix
  | cons turn turns ih =>
    obtain ⟨-,hsaved⟩ := hsaved
    have hnext := h.step turn
    rcases List.suffix_cons_iff.mp hsuffix with heq | hsuffix
    · obtain ⟨rfl,rfl⟩ := List.cons.inj heq
      have hlatest : turn.latest now latest = some v := by
        cases turn with
        | fresh value written => exact hv
        | skip => cases hv
        | failed readable => cases hv
      rw [hlatest] at hnext
      exact used_latest hnext hsaved hr' hu
    · exact ih hnext hsaved hsuffix

end Keeps

end Cached
