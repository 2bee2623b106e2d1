import JumpHost.Library.Newest
import JumpHost.Web.ModelEvents

namespace JumpHost.Web.Activity

open ApiToken ModelEvents

section Rows

structure Event where
  eventId : String
  model : String
  action : String
  target : String
  actor : String
  owner : String
  createdOn : Int
deriving DecidableEq

def ACTOR_FIELDS : List String := ["updated_by","created_by","actor","uid"]

def OWNER_FIELDS : List String := ["created_by","uid","username","owner","requestedBy"]

def PLACEHOLDERS : List String := ["__NONE__","undefined","null"]

def pick (record : Option Record) (fields : List String) : String :=
  match record with
  | none => ""
  | some value => ((fields.filterMap value).find? fun text => text ≠ "" && !PLACEHOLDERS.contains text).getD ""

def record (eventId : String) (now : Int) (event : Payload) : Option Event :=
  if event.model = "" || event.action = "" then none
  else some ⟨eventId,event.model,event.action,event.pk.getD "",pick event.data ACTOR_FIELDS,
    pick event.data OWNER_FIELDS,now⟩

def newestFirst (rows : List Event) : List Event := rows.insertionSort fun a b => b.createdOn ≤ a.createdOn

def recent (rows : List Event) (limit : Nat) : List Event :=
  if limit = 0 then newestFirst rows else (newestFirst rows).take limit

end Rows

section Feed

def FEED_LIMIT : Nat := 200

structure Request where
  user : Option User
  groups : List String := []

def contextForRequest (conf : Conf) (req : Request) : Ctx where
  username := req.user.bind fun user => firstTruthy [user.username,user.uid]
  groups := req.groups
  isAdmin := isAdmin conf ⟨req.user.bind User.username,req.groups⟩

def ownedBy (owner : String) : Record := fun field =>
  if (field = "created_by" ∨ field = "uid") ∧ owner ≠ "" then some owner else none

def visibleTo (conf : Conf) (ctx : Ctx) (event : Event) : Bool :=
  match READERS conf event.model with
  | none => false
  | some canRead => canRead ctx (some (ownedBy event.owner)) (some event.target)

structure Reply where
  results : List Event
  unread : Nat
  seenAt : Num

variable (conf : Conf) (doubles : Doubles) (rows : List Event) (seen : Option String → Except HttpError Value)
  (req : Request)

def seenAt (ctx : Ctx) : Num :=
  match seen ctx.username with
  | .error _ => .int 0
  | .ok value => value.number.or (.int 0)

def unseen (watermark : Num) (event : Event) : Bool := doubles.greater (.int event.createdOn) watermark

def get : Reply :=
  let ctx := contextForRequest conf req
  let events := (recent rows FEED_LIMIT).filter (visibleTo conf ctx)
  ⟨events,(events.filter (unseen doubles (seenAt seen ctx))).length,seenAt seen ctx⟩

end Feed

section VisibleHistory

variable {conf : Conf} {doubles : Doubles} {rows : List Event} {seen : Option String → Except HttpError Value}
  {req : Request} {ctx : Ctx} {t : Token}

theorem pick_owner (howner : t.createdBy ∉ PLACEHOLDERS) : pick (some (toJSON t)) OWNER_FIELDS = t.createdBy := by
  have hfields : OWNER_FIELDS.filterMap (toJSON t) = [t.createdBy] := rfl
  unfold pick
  simp only
  rw [hfields]
  simp [t.owned, howner]

theorem visibleTo_record (howner : t.createdBy ∉ PLACEHOLDERS) (eventId : String) (now : Int) :
    (record eventId now ⟨"ApiToken","create",some t.id,some (toJSON t)⟩).any (visibleTo conf ctx) =
      readApiToken ctx (some (toJSON t)) (some t.id) := by
  have hcreated : ownedBy t.createdBy "created_by" = toJSON t "created_by" := by
    simp [ownedBy, toJSON, t.owned]
  simp [record, pick_owner howner, visibleTo, READERS, readApiToken, hcreated]

structure Faithful (conf : Conf) (doubles : Doubles) (rows : List Event) (seen : Option String → Except HttpError Value)
    (req : Request) : Prop where
  results : Newest Event.createdOn FEED_LIMIT (rows.filter (visibleTo conf (contextForRequest conf req)))
    (get conf doubles rows seen req).results
  unread : (get conf doubles rows seen req).unread =
    (get conf doubles rows seen req).results.countP (unseen doubles (seenAt seen (contextForRequest conf req)))

theorem Faithful.missing (h : Faithful conf doubles rows seen req) {e : Event} (he : e ∈ rows)
    (hvisible : visibleTo conf (contextForRequest conf req) e) (hnot : e ∉ (get conf doubles rows seen req).results) :
    (get conf doubles rows seen req).results.length = FEED_LIMIT ∧
      ∀ a ∈ (get conf doubles rows seen req).results,
        visibleTo conf (contextForRequest conf req) a ∧ e.createdOn ≤ a.createdOn := by
  obtain ⟨hfull,hle⟩ := h.results.full_of_not_mem (List.mem_filter.mpr ⟨he,hvisible⟩) hnot
  exact ⟨hfull,fun a ha => ⟨(List.mem_filter.mp (h.results.mem ha)).2,hle a ha⟩⟩

theorem newestFirst_perm : (newestFirst rows).Perm rows := List.perm_insertionSort _ rows

theorem newestFirst_pairwise : (newestFirst rows).Pairwise fun a b => b.createdOn ≤ a.createdOn := by
  have : Std.Total fun a b : Event => b.createdOn ≤ a.createdOn := ⟨fun a b => le_total b.createdOn a.createdOn⟩
  have : IsTrans Event fun a b => b.createdOn ≤ a.createdOn := ⟨fun _ _ _ hab hbc => hbc.trans hab⟩
  exact List.pairwise_insertionSort _ rows

theorem newest_results_iff :
    Newest Event.createdOn FEED_LIMIT (rows.filter (visibleTo conf (contextForRequest conf req)))
        (get conf doubles rows seen req).results ↔
      (∀ e ∈ (newestFirst rows).take FEED_LIMIT, visibleTo conf (contextForRequest conf req) e) ∨
        ∀ e ∈ (newestFirst rows).drop FEED_LIMIT, ¬ visibleTo conf (contextForRequest conf req) e := by
  have hresults : (get conf doubles rows seen req).results =
      ((newestFirst rows).take FEED_LIMIT).filter (visibleTo conf (contextForRequest conf req)) := rfl
  have hperm := (newestFirst_perm : (newestFirst rows).Perm rows).filter (visibleTo conf (contextForRequest conf req))
  rw [hresults, ← Newest.filter_take_iff newestFirst_pairwise]
  exact ⟨fun h => h.of_perm hperm.symm,fun h => h.of_perm hperm⟩

theorem feed (conf : Conf) (doubles : Doubles) (rows : List Event) (seen : Option String → Except HttpError Value)
    (req : Request) :
    Faithful conf doubles rows seen req ↔
      (∀ e ∈ (newestFirst rows).take FEED_LIMIT, visibleTo conf (contextForRequest conf req) e) ∨
        ∀ e ∈ (newestFirst rows).drop FEED_LIMIT, ¬ visibleTo conf (contextForRequest conf req) e := by
  exact ⟨fun h => newest_results_iff.mp h.results,
    fun h => ⟨newest_results_iff.mpr h,List.countP_eq_length_filter.symm⟩⟩

def aliceRequest : Request where
  user := some ⟨some "alice",none⟩

def issuedToken : Event := ⟨"e0","ApiToken","create","0123456789abcdef01234567","alice","alice",0⟩

def opened : Event := ⟨"e1","AuditEvent","create","a1","bob","bob",1⟩

def crowded : List Event := List.replicate FEED_LIMIT opened ++ [issuedToken]

theorem newestFirst_crowded : newestFirst crowded = crowded := by
  refine List.Pairwise.insertionSort_eq (List.pairwise_append.mpr ⟨?_,List.pairwise_singleton _ _,?_⟩)
  · exact List.pairwise_replicate.mpr (.inr (le_refl _))
  · intro a ha b hb
    rw [List.eq_of_mem_replicate ha, List.mem_singleton.mp hb]
    decide

theorem token_hidden : ¬ Faithful baseConf integers crowded (fun _ => .error notFound) aliceRequest := by
  intro h
  have hlength : (List.replicate FEED_LIMIT opened).length = FEED_LIMIT := List.length_replicate
  have hcond := newest_results_iff.mp h.results
  rw [newestFirst_crowded, crowded, List.take_left' hlength, List.drop_left' hlength] at hcond
  rcases hcond with hall | hnone
  · exact absurd (hall opened (List.mem_replicate.mpr ⟨by decide,rfl⟩)) (by decide)
  · exact hnone issuedToken (List.mem_singleton_self _) (by decide +kernel)

end VisibleHistory

end JumpHost.Web.Activity
