import JumpHost.Models.Metrics
import JumpHost.Ssh.Sessions

namespace JumpHost.Dashboard

open Metrics Session TargetMatch

structure Last where
  lastConnected : Option Int
  lastFailed : Option Int
deriving DecidableEq

structure Row where
  host : Host
  connected : Bool
  lastConnected : Option Int
  lastFailed : Option Int

structure Failed where
  code : Option String

inductive Response where
  | json (results : List Row)
  | status (status : Nat) (name message : String)
  | next (err : Failed)

section Route

variable (pre : String) (store : Store)

def lastWord (success : Bool) : String := if success then "host_last_success_" else "host_last_fail_"

def lastKey (success : Bool) (slug : String) : String := P pre ++ (lastWord success ++ slug)

def lastForHost (slug : String) : Last := ⟨store.get? (lastKey pre true slug),store.get? (lastKey pre false slug)⟩

def fieldOf (slug : Option String) : String := slug.getD "undefined"

def lastForHosts (slugs : List (Option String)) : OrdMap String Last :=
  slugs.foldl (fun result slug => result.set (fieldOf slug) (lastForHost pre store (fieldOf slug))) .empty

-- `a || null` on a number
def orNull (value : Option Int) : Option Int := value.filter (· != 0)

def enriched (registry : Registry) (hosts : List Host) : List Row :=
  let connectedSlugs := registry.entries.map fun e => e.2.slug
  let last := lastForHosts pre store (hosts.map Host.slug)
  hosts.map fun h =>
    let of := last.get? (fieldOf h.slug)
    ⟨h,connectedSlugs.contains h.slug,orNull (of.bind Last.lastConnected),orNull (of.bind Last.lastFailed)⟩

def getHosts (registry : Registry) (hosts : Except Failed (List Host)) : Response :=
  match hosts with
  | .ok hosts => .json (enriched pre store registry hosts)
  | .error err =>
      if err.code = some "directory-unreachable" then
        .status 503 "DirectoryUnavailable"
          "The directory is unreachable, so your host list cannot be resolved right now."
      else .next err

end Route

section History

variable {pre : String} {store : Store} {bumps : List Bump} {key : String} {success : Bool}

def lastOf (success : Bool) (bumps : List Bump) (slug : String) : Option Int :=
  ((bumps.filter fun b => b.success == success && truthy b.hostSlug && b.hostSlug == some slug).getLast?).map Bump.now

def setAt (key : String) : Command → Option Int
  | .incr _ => none
  | .set key' value => if key' = key then some value else none

theorem get?_exec {c : Command} (h : c ≠ .incr key) : (exec store c).get? key = (setAt key c).or (store.get? key) := by
  cases c with
  | incr k =>
    have hne : key ≠ k := fun heq => h (heq ▸ rfl)
    simp [exec, setAt, OrdMap.get?_set_of_ne _ hne]
  | set k v =>
    by_cases hk : k = key
    · subst hk
      simp [exec, setAt, OrdMap.get?_set_self]
    · have hne : key ≠ k := fun heq => hk heq.symm
      simp [exec, setAt, hk, OrdMap.get?_set_of_ne _ hne]

theorem get?_foldl {commands : List Command} (h : .incr key ∉ commands) (store : Store) :
    (commands.foldl exec store).get? key = (commands.filterMap (setAt key)).getLast?.or (store.get? key) := by
  induction commands generalizing store with
  | nil => simp
  | cons c commands ih =>
    rw [List.mem_cons, not_or] at h
    rw [List.foldl_cons, ih h.2, get?_exec fun heq => h.1 heq.symm, List.filterMap_cons]
    cases hset : setAt key c with
    | none => simp
    | some v =>
      simp only [List.getLast?_cons, Option.some_or]
      cases (commands.filterMap (setAt key)).getLast? <;> simp

def Collides (bumps : List Bump) (slug : String) : Prop :=
  ∃ b ∈ bumps, ∃ success : Bool, b.hostSlug = some ((if success then "last_success_" else "last_fail_") ++ slug)

theorem lastWord_eq (success : Bool) :
    lastWord success = "host_" ++ if success then "last_success_" else "last_fail_" := by
  cases success <;> rfl

theorem incr_not_mem {slug : String} (h : ¬ Collides bumps slug) (success : Bool) :
    .incr (lastKey pre success slug) ∉ bumps.flatMap (Bump.commands pre) := by
  intro hmem
  obtain ⟨b,hb,hc⟩ := List.mem_flatMap.mp hmem
  rcases mem_commands hc with ⟨t,ht,-,hhost⟩ | ⟨uid,-,-,huid⟩ | ⟨slug',hslug,-,heq⟩ | ⟨rest,v,hset⟩
  · have hword : lastWord success ++ slug = t := P_inj.mp (Command.incr.inj ht)
    rw [← hword] at hhost
    exact hhost (by cases success <;> simp [lastWord])
  · have hword : lastWord success ++ slug = "user_" ++ uid := P_inj.mp (Command.incr.inj huid)
    exact absurd (congrArg (fun s => s.toList.take 1) hword) (by cases success <;> simp [lastWord])
  · have hword : lastWord success ++ slug = "host_" ++ slug' := P_inj.mp (Command.incr.inj heq)
    rw [lastWord_eq, String.append_assoc, String.append_right_inj] at hword
    exact h ⟨b,hb,success,by rw [hslug, hword]⟩
  · cases hset

theorem lastWord_inj {success success' : Bool} {slug slug' : String} :
    lastWord success ++ slug = lastWord success' ++ slug' ↔ success = success' ∧ slug = slug' := by
  constructor
  · intro h
    have hsame : success = success' := by
      have htake := congrArg (fun s => s.toList.take 11) h
      cases success <;> cases success' <;> first | rfl | simp [lastWord] at htake
    subst hsame
    exact ⟨rfl,(String.append_right_inj _).mp h⟩
  · rintro ⟨rfl,rfl⟩
    rfl

theorem setAt_commands (b : Bump) (success : Bool) (slug : String) :
    (b.commands pre).filterMap (setAt (lastKey pre success slug)) =
      if b.success == success && truthy b.hostSlug && b.hostSlug == some slug then [b.now] else [] := by
  have hset (t : String) : setAt (lastKey pre success slug) (.set (P pre ++ (lastWord b.success ++ t)) b.now) =
      if b.success = success ∧ t = slug then some b.now else none := by
    simp only [setAt, lastKey, P_inj, lastWord_inj]
  have hword : (if b.success then "host_last_success_" else "host_last_fail_") = lastWord b.success := rfl
  have hincrs : ([.incr (P pre ++ "total"),.incr (P pre ++ ("day_" ++ b.day))] ++
      (if !b.success then [.incr (P pre ++ "fail")] else []) ++
      (if truthy b.uid then [.incr (P pre ++ ("user_" ++ b.uid.getD ""))] else []) : List Command).filterMap
        (setAt (lastKey pre success slug)) = [] := by
    cases b.success <;> cases truthy b.uid <;> rfl
  rw [Bump.commands, List.filterMap_append, hincrs, List.nil_append, hword]
  cases hslug : b.hostSlug with
  | none => simp [truthy]
  | some t =>
    by_cases ht : truthy (some t) = true
    · have hincr : setAt (lastKey pre success slug) (.incr (P pre ++ ("host_" ++ t))) = none := rfl
      simp only [ht, if_true, Option.getD_some, List.filterMap_cons, hincr, hset, List.filterMap_nil, Bool.and_true]
      by_cases hb : b.success = success ∧ t = slug
      · simp [hb]
      · simp only [if_neg hb]
        simpa using hb
    · simp [ht]

theorem last_replay {slug : String} (h : ¬ Collides bumps slug) (success : Bool) :
    (replay (bumps.flatMap (Bump.commands pre))).get? (lastKey pre success slug) = lastOf success bumps slug := by
  have hsets : (bumps.flatMap (Bump.commands pre)).filterMap (setAt (lastKey pre success slug)) =
      (bumps.filter fun b => b.success == success && truthy b.hostSlug && b.hostSlug == some slug).map Bump.now := by
    clear h
    induction bumps with
    | nil => rfl
    | cons b bumps ih =>
      rw [List.flatMap_cons, List.filterMap_append, setAt_commands, ih, List.filter_cons]
      split <;> simp
  rw [replay, get?_foldl (incr_not_mem h success), hsets, List.getLast?_map]
  simp [lastOf, OrdMap.empty, OrdMap.get?]

theorem lastOf_ne_zero (h : ∀ b ∈ bumps, b.now ≠ 0) (success : Bool) (slug : String) :
    orNull (lastOf success bumps slug) = lastOf success bumps slug := by
  unfold orNull lastOf
  cases hlast : (bumps.filter fun b =>
      b.success == success && truthy b.hostSlug && b.hostSlug == some slug).getLast? with
  | none => rfl
  | some b =>
    have hb := h b (List.mem_filter.mp (List.mem_of_getLast? hlast)).1
    simp [hb]

theorem get?_lastForHosts (pre : String) (store : Store) (slugs : List (Option String)) (result : OrdMap String Last)
    (field : String) : (slugs.foldl (fun result slug =>
      result.set (fieldOf slug) (lastForHost pre store (fieldOf slug))) result).get? field =
      if field ∈ slugs.map fieldOf then some (lastForHost pre store field) else result.get? field := by
  induction slugs generalizing result with
  | nil => simp
  | cons slug slugs ih =>
    rw [List.foldl_cons, ih, List.map_cons]
    by_cases hfield : field = fieldOf slug
    · subst hfield
      simp [OrdMap.get?_set_self]
    · simp [hfield, OrdMap.get?_set_of_ne _ hfield]

end History

section Session

variable {parseKey : String → Option Keys.PublicKey} {env : Env parseKey}

structure Row.Truthful (g : Gateway) (bumps : List Bump) (row : Row) : Prop where
  connected : row.connected = true ↔
    ∃ (i : Nat) (c : Connection), g.connections[i]? = some c ∧ c.bridged = true ∧ c.desc.slug = row.host.slug
  lastConnected : row.lastConnected = lastOf true bumps (fieldOf row.host.slug)
  lastFailed : row.lastFailed = lastOf false bumps (fieldOf row.host.slug)

theorem connected_slug {g : Gateway} (h : ∀ i desc, g.registry.get? i = some desc ↔
      ∃ c, g.connections[i]? = some c ∧ c.bridged = true ∧ desc = c.desc) (slug : Option String) :
    (g.registry.entries.map fun e => e.2.slug).contains slug = true ↔
      ∃ (i : Nat) (c : Connection), g.connections[i]? = some c ∧ c.bridged = true ∧ c.desc.slug = slug := by
  rw [List.contains_iff_mem, List.mem_map]
  constructor
  · rintro ⟨⟨i,desc⟩,hmem,rfl⟩
    obtain ⟨c,hc,hbridged,rfl⟩ := (h i desc).mp (OrdMap.mem_entries_iff.mp hmem)
    exact ⟨i,c,hc,hbridged,rfl⟩
  · rintro ⟨i,c,hc,hbridged,rfl⟩
    exact ⟨(i,c.desc),OrdMap.mem_entries_iff.mpr ((h i c.desc).mpr ⟨c,hc,hbridged,rfl⟩),rfl⟩

theorem dashboard {inputs : List Input} {g : Gateway} (pre : String) {bumps : List Bump} {hosts : List Host}
    (hg : Run.Along (Gateway.step env) (Guards wiresInTime · ·) .start inputs) (h : Gateway.run env inputs = some g)
    (hapart : ∀ host ∈ hosts, ¬ Collides bumps (fieldOf host.slug)) (hnow : ∀ b ∈ bumps, b.now ≠ 0) :
    ∃ rows, getHosts pre (replay (bumps.flatMap (Bump.commands pre))) g.registry (.ok hosts) = .json rows ∧
      rows.map Row.host = hosts ∧ ∀ row ∈ rows, row.Truthful g bumps := by
  refine ⟨_,rfl,?_,?_⟩
  · rw [enriched, List.map_map]
    exact List.map_id hosts
  · intro row hrow
    obtain ⟨host,hhost,rfl⟩ := List.mem_map.mp hrow
    have hfield : fieldOf host.slug ∈ (hosts.map Host.slug).map fieldOf :=
      List.mem_map_of_mem (List.mem_map_of_mem hhost)
    have hlast := (get?_lastForHosts pre (replay (bumps.flatMap (Bump.commands pre))) (hosts.map Host.slug) .empty
      (fieldOf host.slug)).trans (if_pos hfield)
    constructor
    · exact connected_slug (listed_run hg h) host.slug
    · rw [← lastOf_ne_zero hnow, ← last_replay (hapart host hhost)]
      exact congrArg (fun of => orNull (of.bind Last.lastConnected)) hlast
    · rw [← lastOf_ne_zero hnow, ← last_replay (hapart host hhost)]
      exact congrArg (fun of => orNull (of.bind Last.lastFailed)) hlast

def twoLogins : List Bump :=
  [⟨some "bob",some "host_web01",false,"2026-01-01",5⟩,⟨some "alice",some "host_web01",true,"2026-01-01",7⟩]

theorem dashboard_wired : ∃ g, Gateway.run oneSlot wiredRun = some g ∧
    ∃ rows, getHosts "jump_" (replay (twoLogins.flatMap (Bump.commands "jump_"))) g.registry
        (.ok [Connect.db01,Connect.web01]) = .json rows ∧
      rows.map Row.host = [Connect.db01,Connect.web01] ∧ ∀ row ∈ rows, row.Truthful g twoLogins := by
  have hg : Run.Along (Gateway.step oneSlot) (Guards wiresInTime · ·) .start wiredRun := by decide
  refine ⟨_,rfl,dashboard "jump_" hg rfl ?_ (by decide)⟩
  rintro host hhost ⟨b,hb,success,hslug⟩
  have hweb : b.hostSlug = some "host_web01" := by
    simp only [twoLogins, List.mem_pair] at hb
    rcases hb with rfl | rfl <;> rfl
  rw [hweb, Option.some.injEq] at hslug
  exact absurd (congrArg (fun s => s.toList.take 1) hslug) (by cases success <;> simp)

end Session

end JumpHost.Dashboard
