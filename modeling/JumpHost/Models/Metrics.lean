import JumpHost.Library.Newest
import JumpHost.Library.OrdMap
import JumpHost.Value

namespace JumpHost.Metrics

section Counters

inductive Command where
  | incr (key : String)
  | set (key : String) (value : Int)
deriving DecidableEq

def Command.key : Command → String
  | .incr key | .set key _ => key

abbrev Store : Type := OrdMap String Int

def value (store : Store) (key : String) : Int := (store.get? key).getD 0

def exec (store : Store) : Command → Store
  | .incr key => store.set key (value store key + 1)
  | .set key value => store.set key value

def replay (commands : List Command) : Store := commands.foldl exec .empty

-- `pre` is conf.redis.prefix
variable (pre : String)

def P : String := pre ++ "m_"

structure Bump where
  uid : Option String
  hostSlug : Option String
  success : Bool
  day : String
  now : Int

def Bump.commands (b : Bump) : List Command :=
  [.incr (P pre ++ "total"),.incr (P pre ++ ("day_" ++ b.day))] ++
    (if !b.success then [.incr (P pre ++ "fail")] else []) ++
    (if truthy b.uid then [.incr (P pre ++ ("user_" ++ b.uid.getD ""))] else []) ++
    (if truthy b.hostSlug then
        [.incr (P pre ++ ("host_" ++ b.hostSlug.getD "")),
          .set (P pre ++ ((if b.success then "host_last_success_" else "host_last_fail_") ++ b.hostSlug.getD "")) b.now]
      else [])

end Counters

section Summary

inductive JsError where
  | referenceError (message : String)
  | typeError (message : String)
deriving DecidableEq

inductive Scanned where
  | key (key : String)
  | batch (keys : List String)

structure Summary where
  total : Int
  fail : Int
  topUsers : List (String × Int)
  topHosts : List (String × Int)
deriving DecidableEq

def SCOPE : List String :=
  ["redis","total","fail","userKeys","key","topN","keys","strip","entries","conf","getRedis","P","bump","lastForHosts",
    "summary","Promise","Number"]

def resolve {α : Type} (scope : List String) (name : String) (bound : α) : Except JsError α :=
  if scope.contains name then .ok bound else .error (.referenceError (name ++ " is not defined"))

variable (pre : String)

def startsWith (key start : String) : Bool := start.toList.isPrefixOf key.toList

def slice (key : String) (length : Nat) : String := String.ofList (key.toList.drop length)

def topN (store : Store) (keys : List String) (strip : String) : List (String × Int) :=
  let entries := keys.map fun k => (slice k strip.length,value store k)
  (entries.insertionSort fun a b => b.2 ≤ a.2).take 10

def collect (scope : List String) (hostKeys : List String) : Scanned → Except JsError (List String)
  | .batch _ => .error (.typeError "key.startsWith is not a function")
  | .key key =>
      if startsWith key (P pre ++ "host_last_") then .ok hostKeys
      else match resolve scope "hostKeys" hostKeys with
        | .error error => .error error
        | .ok hostKeys => .ok (hostKeys ++ [key])

-- `userKeys` and `scanned` are what `keys` and `scanIterator` give of the keys that match
def summary (scope : List String) (store : Store) (userKeys : List String) (scanned : List Scanned) :
    Except JsError Summary :=
  let total := value store (P pre ++ "total")
  let fail := value store (P pre ++ "fail")
  match scanned.foldlM (collect pre scope) [] with
  | .error error => .error error
  | .ok hostKeys => match resolve scope "hostKeys" hostKeys with
      | .error error => .error error
      | .ok hostKeys =>
          .ok ⟨total,fail,topN store userKeys (P pre ++ "user_"),topN store hostKeys (P pre ++ "host_")⟩

end Summary

section History

variable {pre : String} {scope : List String} {commands : List Command} {store : Store} {bumps : List Bump}
  {scanned : List Scanned}

def namedBy (named : Bump → Option String) (bumps : List Bump) (name : String) : Nat :=
  bumps.countP fun b => truthy (named b) && named b == some name

def Top (named : Bump → Option String) (bumps : List Bump) (top : List (String × Int)) : Prop :=
  top.Pairwise (fun a b => b.2 ≤ a.2) ∧ ∃ all : List (String × Int), (all.map Prod.fst).Nodup ∧
    (∀ name count, (name,count) ∈ all ↔ 0 < namedBy named bumps name ∧ count = namedBy named bumps name) ∧
    Newest Prod.snd 10 all top

structure Tallies (bumps : List Bump) (result : Except JsError Summary) (summary : Summary) : Prop where
  completes : result = .ok summary
  total : summary.total = bumps.length
  fail : summary.fail = bumps.countP fun b => !b.success
  topUsers : Top Bump.uid bumps summary.topUsers
  topHosts : Top Bump.hostSlug bumps summary.topHosts

theorem resolve_undeclared (hscope : "hostKeys" ∉ scope) (hostKeys : List String) :
    resolve scope "hostKeys" hostKeys = .error (.referenceError "hostKeys is not defined") := by
  simp [resolve, hscope]

theorem collect_undeclared (pre : String) (hscope : "hostKeys" ∉ scope) (hostKeys : List String) (turn : Scanned) :
    collect pre scope hostKeys turn = .ok hostKeys ∨ ∃ error, collect pre scope hostKeys turn = .error error := by
  cases turn with
  | batch keys => exact .inr ⟨_,rfl⟩
  | key key =>
    by_cases hlast : startsWith key (P pre ++ "host_last_") = true
    · exact .inl (by simp [collect, hlast])
    · exact .inr ⟨_,by simp only [collect, hlast, resolve_undeclared hscope]; rfl⟩

theorem scan_undeclared (pre : String) (hscope : "hostKeys" ∉ scope) (scanned : List Scanned)
    (hostKeys : List String) :
    scanned.foldlM (collect pre scope) hostKeys = .ok hostKeys ∨
      ∃ error, scanned.foldlM (collect pre scope) hostKeys = .error error := by
  induction scanned generalizing hostKeys with
  | nil => exact .inl rfl
  | cons turn turns ih =>
    rw [List.foldlM_cons]
    rcases collect_undeclared pre hscope hostKeys turn with hskip | ⟨error,hthrow⟩
    · rw [hskip]
      exact ih hostKeys
    · rw [hthrow]
      exact .inr ⟨error,rfl⟩

theorem summary_undeclared (hscope : "hostKeys" ∉ scope) (store : Store) (userKeys : List String)
    (scanned : List Scanned) : ∃ error, summary pre scope store userKeys scanned = .error error := by
  unfold summary
  rcases scan_undeclared pre hscope scanned [] with hskip | ⟨error,hthrow⟩
  · exact ⟨.referenceError "hostKeys is not defined",by simp only [hskip, resolve_undeclared hscope]⟩
  · exact ⟨error,by simp only [hthrow]⟩

end History

section Replay

variable {pre : String} {commands : List Command} {store : Store} {bumps : List Bump} {key : String}

theorem value_exec_of_ne {c : Command} (h : c.key ≠ key) : value (exec store c) key = value store key := by
  cases c with
  | incr k =>
    have hne : key ≠ k := Ne.symm h
    simp only [exec, value, OrdMap.get?_set_of_ne _ hne]
  | set k v =>
    have hne : key ≠ k := Ne.symm h
    simp only [exec, value, OrdMap.get?_set_of_ne _ hne]

theorem value_foldl (hset : ∀ v, .set key v ∉ commands) (store : Store) :
    value (commands.foldl exec store) key = value store key + commands.count (.incr key) := by
  induction commands generalizing store with
  | nil => simp
  | cons c commands ih =>
    have hrest := ih (fun v hmem => hset v (List.mem_cons_of_mem c hmem)) (exec store c)
    rw [List.foldl_cons, hrest]
    by_cases hkey : c.key = key
    · cases c with
      | set k v => exact absurd (hkey ▸ List.mem_cons_self) (hset v)
      | incr k =>
        obtain rfl : k = key := hkey
        simp only [exec, value, OrdMap.get?_set_self, Option.getD_some, List.count_cons_self]
        omega
    · have hne : c ≠ .incr key := fun heq => hkey (heq ▸ rfl)
      rw [value_exec_of_ne hkey, List.count_cons_of_ne hne]

theorem value_replay (hset : ∀ v, .set key v ∉ commands) :
    value (replay commands) key = commands.count (.incr key) := by
  simpa [replay, value, OrdMap.empty, OrdMap.get?] using value_foldl hset OrdMap.empty

theorem mem_keys_foldl (store : Store) :
    key ∈ (commands.foldl exec store).keys ↔ key ∈ store.keys ∨ ∃ c ∈ commands, c.key = key := by
  induction commands generalizing store with
  | nil => simp
  | cons c commands ih =>
    have hexec : key ∈ (exec store c).keys ↔ key ∈ store.keys ∨ c.key = key := by
      cases c <;> simp only [exec, OrdMap.mem_keys_set, Command.key, eq_comm (a := key)]
    rw [List.foldl_cons, ih, hexec, List.exists_mem_cons_iff, or_assoc]

theorem mem_keys_replay : key ∈ (replay commands).keys ↔ ∃ c ∈ commands, c.key = key := by
  simp [replay, mem_keys_foldl]

theorem count_commands {p : Bump → Bool} {c : Command} (h : ∀ b, (b.commands pre).count c = (p b).toNat) :
    (bumps.flatMap (Bump.commands pre)).count c = bumps.countP p := by
  induction bumps with
  | nil => rfl
  | cons b bumps ih => cases hp : p b <;> simp [List.flatMap_cons, List.count_append, h b, ih, hp, Nat.add_comm]

end Replay

section KeySpace

variable {pre : String} {commands : List Command} {store : Store} {bumps : List Bump} {key : String} {b : Bump}

theorem P_inj {s t : String} : P pre ++ s = P pre ++ t ↔ s = t := String.append_right_inj _

theorem beq_of_take {s t : String} (n : Nat) (h : s.toList.take n ≠ t.toList.take n) : (s == t) = false :=
  beq_eq_false_iff_ne.mpr fun heq => h (heq ▸ rfl)

theorem count_incr (t : String) : (b.commands pre).count (.incr (P pre ++ t)) =
    ("total" == t).toNat + ("day_" ++ b.day == t).toNat + (!b.success && "fail" == t).toNat +
      (truthy b.uid && "user_" ++ b.uid.getD "" == t).toNat +
      (truthy b.hostSlug && "host_" ++ b.hostSlug.getD "" == t).toNat := by
  have hcount (s : String) (cs : List Command) :
      (.incr (P pre ++ s) :: cs : List Command).count (.incr (P pre ++ t)) =
        (s == t).toNat + cs.count (.incr (P pre ++ t)) := by
    by_cases hs : s = t
    · simp [hs, Nat.add_comm]
    · have hne : Command.incr (P pre ++ s) ≠ .incr (P pre ++ t) := fun h => hs (P_inj.mp (Command.incr.inj h))
      rw [List.count_cons_of_ne hne, beq_eq_false_iff_ne.mpr hs, Bool.toNat_false, Nat.zero_add]
  unfold Bump.commands
  cases b.success <;> cases truthy b.uid <;> cases truthy b.hostSlug <;> simp [hcount] <;> omega

theorem count_total : (b.commands pre).count (.incr (P pre ++ "total")) = true.toNat := by
  have hday : ("day_" ++ b.day == "total") = false := beq_of_take 1 (by simp)
  have huser : ("user_" ++ b.uid.getD "" == "total") = false := beq_of_take 1 (by simp)
  have hhost : ("host_" ++ b.hostSlug.getD "" == "total") = false := beq_of_take 1 (by simp)
  simp [count_incr, hday, huser, hhost]

theorem count_fail : (b.commands pre).count (.incr (P pre ++ "fail")) = (!b.success).toNat := by
  have hday : ("day_" ++ b.day == "fail") = false := beq_of_take 1 (by simp)
  have huser : ("user_" ++ b.uid.getD "" == "fail") = false := beq_of_take 1 (by simp)
  have hhost : ("host_" ++ b.hostSlug.getD "" == "fail") = false := beq_of_take 1 (by simp)
  simp [count_incr, hday, huser, hhost]

theorem append_beq (s t u : String) : (s ++ t == s ++ u) = (t == u) := by
  rw [Bool.eq_iff_iff, beq_iff_eq, beq_iff_eq, String.append_right_inj]

theorem count_user (name : String) : (b.commands pre).count (.incr (P pre ++ ("user_" ++ name))) =
    (truthy b.uid && b.uid == some name).toNat := by
  have htotal : ("total" == "user_" ++ name) = false := beq_of_take 1 (by simp)
  have hday : ("day_" ++ b.day == "user_" ++ name) = false := beq_of_take 1 (by simp)
  have hfail : ("fail" == "user_" ++ name) = false := beq_of_take 1 (by simp)
  have hhost : ("host_" ++ b.hostSlug.getD "" == "user_" ++ name) = false := beq_of_take 1 (by simp)
  cases huid : b.uid <;> simp [count_incr, htotal, hday, hfail, hhost, huid, truthy, append_beq]

theorem count_host (name : String) : (b.commands pre).count (.incr (P pre ++ ("host_" ++ name))) =
    (truthy b.hostSlug && b.hostSlug == some name).toNat := by
  have htotal : ("total" == "host_" ++ name) = false := beq_of_take 1 (by simp)
  have hday : ("day_" ++ b.day == "host_" ++ name) = false := beq_of_take 1 (by simp)
  have hfail : ("fail" == "host_" ++ name) = false := beq_of_take 1 (by simp)
  have huser : ("user_" ++ b.uid.getD "" == "host_" ++ name) = false := beq_of_take 1 (by simp)
  cases hslug : b.hostSlug <;> simp [count_incr, htotal, hday, hfail, huser, hslug, truthy, append_beq]


theorem mem_commands {c : Command} (h : c ∈ b.commands pre) :
    (∃ t, c = .incr (P pre ++ t) ∧ t.toList.take 5 ≠ "user_".toList ∧ t.toList.take 5 ≠ "host_".toList) ∨
      (∃ uid, b.uid = some uid ∧ uid ≠ "" ∧ c = .incr (P pre ++ ("user_" ++ uid))) ∨
      (∃ slug, b.hostSlug = some slug ∧ slug ≠ "" ∧ c = .incr (P pre ++ ("host_" ++ slug))) ∨
      ∃ rest v, c = .set (P pre ++ ("host_last_" ++ rest)) v := by
  unfold Bump.commands at h
  rcases List.mem_append.mp h with h | h
  · rcases List.mem_append.mp h with h | h
    · rcases List.mem_append.mp h with h | h
      · rcases List.mem_pair.mp h with rfl | rfl
        · exact .inl ⟨_,rfl,by decide,by decide⟩
        · exact .inl ⟨_,rfl,by simp,by simp⟩
      · split at h
        · rw [List.mem_singleton.mp h]
          exact .inl ⟨_,rfl,by decide,by decide⟩
        · cases h
    · split at h
      · next htruthy =>
        rw [List.mem_singleton.mp h]
        cases huid : b.uid with
        | none => simp [huid, truthy] at htruthy
        | some uid => exact .inr (.inl ⟨uid,rfl,by simpa [huid, truthy] using htruthy,rfl⟩)
      · cases h
  · split at h
    · next htruthy =>
      cases hslug : b.hostSlug with
      | none => simp [hslug, truthy] at htruthy
      | some slug =>
        rw [hslug] at h
        rcases List.mem_pair.mp h with rfl | rfl
        · exact .inr (.inr (.inl ⟨slug,rfl,by simpa [hslug, truthy] using htruthy,rfl⟩))
        · refine .inr (.inr (.inr ?_))
          cases b.success with
          | true =>
            have hparts : "host_last_" ++ ("success_" ++ slug) = "host_last_success_" ++ slug :=
              String.append_assoc.symm
            exact ⟨"success_" ++ slug,b.now,by rw [hparts]; rfl⟩
          | false =>
            have hparts : "host_last_" ++ ("fail_" ++ slug) = "host_last_fail_" ++ slug := String.append_assoc.symm
            exact ⟨"fail_" ++ slug,b.now,by rw [hparts]; rfl⟩
    · cases h

theorem startsWith_iff {start : String} : startsWith key start = true ↔ ∃ rest, key = start ++ rest := by
  rw [startsWith, List.isPrefixOf_iff_prefix]
  constructor
  · rintro ⟨rest,hrest⟩
    exact ⟨String.ofList rest,String.toList_inj.mp (by rw [String.toList_append, String.toList_ofList, hrest])⟩
  · rintro ⟨rest,rfl⟩
    exact ⟨rest.toList,String.toList_append.symm⟩

theorem startsWith_P {word t : String} : startsWith (P pre ++ t) (P pre ++ word) = true ↔ ∃ rest, t = word ++ rest := by
  simp only [startsWith_iff, String.append_assoc, P_inj]

theorem named_pos {named : Bump → Option String} {name : String} :
    0 < namedBy named bumps name ↔ ∃ b ∈ bumps, named b = some name ∧ name ≠ "" := by
  simp only [namedBy, List.countP_pos_iff, Bool.and_eq_true, beq_iff_eq]
  constructor
  · rintro ⟨b,hb,htruthy,hname⟩
    exact ⟨b,hb,hname,by simpa [hname, truthy] using htruthy⟩
  · rintro ⟨b,hb,hname,hne⟩
    exact ⟨b,hb,by simpa [hname, truthy] using hne,hname⟩

theorem mem_replay (hcommands : commands.Perm (bumps.flatMap (Bump.commands pre))) :
    key ∈ (replay commands).keys ↔ ∃ b ∈ bumps, ∃ c ∈ b.commands pre, c.key = key := by
  rw [mem_keys_replay]
  constructor
  · rintro ⟨c,hc,hkey⟩
    obtain ⟨b,hb,hmem⟩ := List.mem_flatMap.mp (hcommands.mem_iff.mp hc)
    exact ⟨b,hb,c,hmem,hkey⟩
  · rintro ⟨b,hb,c,hmem,hkey⟩
    exact ⟨c,hcommands.mem_iff.mpr (List.mem_flatMap.mpr ⟨b,hb,hmem⟩),hkey⟩

theorem users_iff (hcommands : commands.Perm (bumps.flatMap (Bump.commands pre))) :
    (key ∈ (replay commands).keys ∧ startsWith key (P pre ++ "user_") = true) ↔
      ∃ name, 0 < namedBy Bump.uid bumps name ∧ key = P pre ++ ("user_" ++ name) := by
  simp only [mem_replay hcommands, named_pos]
  constructor
  · rintro ⟨⟨b,hb,c,hc,rfl⟩,hstart⟩
    rcases mem_commands hc with ⟨t,rfl,huser,-⟩ | ⟨uid,huid,hne,rfl⟩ | ⟨slug,-,-,rfl⟩ | ⟨rest,v,rfl⟩
    · obtain ⟨rest,rfl⟩ := startsWith_P.mp hstart
      exact absurd (by simp) huser
    · exact ⟨uid,⟨b,hb,huid,hne⟩,rfl⟩
    · obtain ⟨rest,hrest⟩ := startsWith_P.mp hstart
      exact absurd (congrArg (fun s => s.toList.take 1) hrest) (by simp)
    · obtain ⟨rest',hrest⟩ := startsWith_P.mp hstart
      exact absurd (congrArg (fun s => s.toList.take 1) hrest) (by simp)
  · rintro ⟨name,⟨b,hb,huid,hne⟩,rfl⟩
    refine ⟨⟨b,hb,.incr (P pre ++ ("user_" ++ name)),?_,rfl⟩,startsWith_P.mpr ⟨name,rfl⟩⟩
    simp [Bump.commands, huid, truthy, hne]

def Apart (bumps : List Bump) : Prop := ∀ b ∈ bumps, ∀ slug, b.hostSlug = some slug → startsWith slug "last_" = false

theorem host_last_append (rest : String) : "host_last_" ++ rest = "host_" ++ ("last_" ++ rest) := by
  rw [← String.append_assoc]
  rfl

theorem last_iff {name : String} :
    startsWith (P pre ++ ("host_" ++ name)) (P pre ++ "host_last_") = startsWith name "last_" := by
  rw [Bool.eq_iff_iff, startsWith_P, startsWith_iff]
  simp only [host_last_append, String.append_right_inj]

theorem hosts_iff (hcommands : commands.Perm (bumps.flatMap (Bump.commands pre))) (hapart : Apart bumps) :
    ((key ∈ (replay commands).keys ∧ startsWith key (P pre ++ "host_") = true) ∧
        startsWith key (P pre ++ "host_last_") = false) ↔
      ∃ name, 0 < namedBy Bump.hostSlug bumps name ∧ key = P pre ++ ("host_" ++ name) := by
  simp only [mem_replay hcommands, named_pos]
  constructor
  · rintro ⟨⟨⟨b,hb,c,hc,rfl⟩,hstart⟩,hlast⟩
    rcases mem_commands hc with ⟨t,rfl,-,hhost⟩ | ⟨uid,-,-,rfl⟩ | ⟨slug,hslug,hne,rfl⟩ | ⟨rest,v,rfl⟩
    · obtain ⟨rest,rfl⟩ := startsWith_P.mp hstart
      exact absurd (by simp) hhost
    · obtain ⟨rest,hrest⟩ := startsWith_P.mp hstart
      exact absurd (congrArg (fun s => s.toList.take 1) hrest) (by simp)
    · exact ⟨slug,⟨b,hb,hslug,hne⟩,rfl⟩
    · rw [Command.key, startsWith_P.mpr ⟨rest,rfl⟩] at hlast
      cases hlast
  · rintro ⟨name,⟨b,hb,hslug,hne⟩,rfl⟩
    refine ⟨⟨⟨b,hb,.incr (P pre ++ ("host_" ++ name)),?_,rfl⟩,startsWith_P.mpr ⟨name,rfl⟩⟩,?_⟩
    · simp [Bump.commands, hslug, truthy, hne]
    · rw [last_iff]
      exact hapart b hb name hslug

theorem value_history (hcommands : commands.Perm (bumps.flatMap (Bump.commands pre))) {p : Bump → Bool}
    (hset : startsWith key (P pre ++ "host_last_") = false)
    (hcount : ∀ b, (b.commands pre).count (.incr key) = (p b).toNat) :
    value (replay commands) key = bumps.countP p := by
  have hnone (v : Int) : .set key v ∉ commands := by
    intro hmem
    obtain ⟨b,-,hb⟩ := List.mem_flatMap.mp (hcommands.mem_iff.mp hmem)
    rcases mem_commands hb with ⟨t,ht,-⟩ | ⟨uid,-,-,huid⟩ | ⟨slug,-,-,hslug⟩ | ⟨rest,v',hrest⟩
    · cases ht
    · cases huid
    · cases hslug
    · cases hrest
      rw [startsWith_P.mpr ⟨rest,rfl⟩] at hset
      cases hset
  rw [value_replay hnone, hcommands.count_eq, count_commands hcount]

end KeySpace

section Declared

variable {pre : String} {scope : List String} {commands : List Command} {store : Store} {bumps : List Bump}
  {userKeys scanned : List String}

structure Listed (pre : String) (store : Store) (userKeys scanned : List String) : Prop where
  users : userKeys.Nodup ∧ ∀ k, k ∈ userKeys ↔ k ∈ store.keys ∧ startsWith k (P pre ++ "user_") = true
  hosts : scanned.Nodup ∧ ∀ k, k ∈ scanned ↔ k ∈ store.keys ∧ startsWith k (P pre ++ "host_") = true

theorem slice_key (word name : String) : slice (P pre ++ (word ++ name)) (P pre ++ word).length = name := by
  have hlist : (P pre ++ (word ++ name)).toList = (P pre ++ word).toList ++ name.toList := by simp
  have hlength : (P pre ++ word).length = (P pre ++ word).toList.length := String.length_toList.symm
  rw [slice, hlist, hlength, List.drop_left]
  exact String.ofList_toList

theorem topN_top {named : Bump → Option String} {word : String} {keys : List String} (hnodup : keys.Nodup)
    (hkeys : ∀ k, k ∈ keys ↔ ∃ name, 0 < namedBy named bumps name ∧ k = P pre ++ (word ++ name))
    (hvalue : ∀ name, 0 < namedBy named bumps name →
      value store (P pre ++ (word ++ name)) = namedBy named bumps name) :
    Top named bumps (topN store keys (P pre ++ word)) := by
  have htotal : Std.Total fun a b : String × Int => b.2 ≤ a.2 := ⟨fun a b => le_total b.2 a.2⟩
  have htrans : IsTrans (String × Int) fun a b => b.2 ≤ a.2 := ⟨fun _ _ _ hab hbc => hbc.trans hab⟩
  have hsorted := List.pairwise_insertionSort (fun a b : String × Int => b.2 ≤ a.2)
    (keys.map fun k => (slice k (P pre ++ word).length,value store k))
  refine ⟨hsorted.sublist (List.take_sublist 10 _),_,?_,?_,
    (Newest.take hsorted).of_perm (List.perm_insertionSort _ _)⟩
  · rw [List.map_map]
    refine List.Nodup.map_on (fun k hk k' hk' heq => ?_) hnodup
    obtain ⟨name,-,rfl⟩ := (hkeys k).mp hk
    obtain ⟨name',-,rfl⟩ := (hkeys k').mp hk'
    simp only [Function.comp_apply, slice_key] at heq
    rw [heq]
  · intro name count
    rw [List.mem_map]
    constructor
    · rintro ⟨k,hk,heq⟩
      obtain ⟨name',hpos,rfl⟩ := (hkeys k).mp hk
      rw [slice_key, hvalue name' hpos] at heq
      cases heq
      exact ⟨hpos,rfl⟩
    · rintro ⟨hpos,rfl⟩
      exact ⟨_,(hkeys _).mpr ⟨name,hpos,rfl⟩,by rw [slice_key, hvalue name hpos]⟩

theorem collect_declared (hscope : "hostKeys" ∈ scope) (hostKeys : List String) :
    (scanned.map .key).foldlM (collect pre scope) hostKeys =
      .ok (hostKeys ++ scanned.filter fun key => !startsWith key (P pre ++ "host_last_")) := by
  induction scanned generalizing hostKeys with
  | nil => simp [pure, Except.pure]
  | cons key keys ih =>
    cases hlast : startsWith key (P pre ++ "host_last_") with
    | true =>
      have hskip : collect pre scope hostKeys (.key key) = .ok hostKeys := by simp [collect, hlast]
      rw [List.map_cons, List.foldlM_cons, hskip, List.filter_cons_of_neg (by simp [hlast])]
      exact ih hostKeys
    | false =>
      have hpush : collect pre scope hostKeys (.key key) = .ok (hostKeys ++ [key]) := by
        simp [collect, hlast, resolve, hscope]
      have hrest := ih (hostKeys ++ [key])
      rw [List.append_assoc, List.singleton_append] at hrest
      rw [List.map_cons, List.foldlM_cons, hpush, List.filter_cons_of_pos (by simp [hlast])]
      exact hrest

theorem tallies_declared (hscope : "hostKeys" ∈ scope) (hapart : Apart bumps)
    (hcommands : commands.Perm (bumps.flatMap (Bump.commands pre)))
    (hlisted : Listed pre (replay commands) userKeys scanned) :
    ∃ s, Tallies bumps (summary pre scope (replay commands) userKeys (scanned.map .key)) s := by
  have hother (s : String) (hs : s.toList.take 5 ≠ "host_".toList) :
      startsWith (P pre ++ s) (P pre ++ "host_last_") = false := by
    refine Bool.eq_false_iff.mpr fun h => ?_
    obtain ⟨rest,rfl⟩ := startsWith_P.mp h
    exact absurd (by simp) hs
  have hhosts (name : String) (hpos : 0 < namedBy Bump.hostSlug bumps name) :
      startsWith (P pre ++ ("host_" ++ name)) (P pre ++ "host_last_") = false := by
    obtain ⟨b,hb,hslug,-⟩ := named_pos.mp hpos
    rw [last_iff]
    exact hapart b hb name hslug
  have hcompletes : summary pre scope (replay commands) userKeys (scanned.map .key) =
      .ok ⟨value (replay commands) (P pre ++ "total"),value (replay commands) (P pre ++ "fail"),
        topN (replay commands) userKeys (P pre ++ "user_"),
        topN (replay commands) (scanned.filter fun key => !startsWith key (P pre ++ "host_last_"))
          (P pre ++ "host_")⟩ := by
    simp [summary, collect_declared hscope, resolve, hscope]
  refine ⟨_,hcompletes,?_,?_,?_,?_⟩
  · have htotal := value_history hcommands (hother "total" (by decide)) fun b => count_total
    simpa using htotal
  · exact value_history hcommands (hother "fail" (by decide)) fun b => count_fail
  · refine topN_top hlisted.users.1 (fun k => (hlisted.users.2 k).trans (users_iff hcommands)) fun name _ => ?_
    exact value_history hcommands (hother _ (by simp)) fun b => count_user name
  · refine topN_top ((hlisted.hosts.1).filter _) (fun k => ?_) fun name hpos => ?_
    · rw [List.mem_filter, Bool.not_eq_true', hlisted.hosts.2 k, hosts_iff hcommands hapart]
    · exact value_history hcommands (hhosts name hpos) fun b => count_host name

theorem summary_never (pre : String) (bumps : List Bump) (commands : List Command) (userKeys : List String)
    (scanned : List Scanned) (s : Summary) :
    ¬ Tallies bumps (summary pre SCOPE (replay commands) userKeys scanned) s := by
  intro h
  have hscope : "hostKeys" ∉ SCOPE := by decide
  obtain ⟨error,hthrows⟩ := summary_undeclared hscope (replay commands) userKeys scanned
  have hcompletes := h.completes
  rw [hthrows] at hcompletes
  cases hcompletes

def oneLogin : Bump := ⟨some "alice",some "host_web01",true,"2026-01-01",0⟩

def summaryOfOne (scanned : List Scanned) : Except JsError Summary :=
  summary "jump_" SCOPE (replay (oneLogin.commands "jump_")) ["jump_m_user_alice"] scanned

def hostKeysOfOne : List String := ["jump_m_host_host_web01","jump_m_host_last_success_host_web01"]

theorem summary_throws :
    summaryOfOne [.batch hostKeysOfOne] = .error (.typeError "key.startsWith is not a function") ∧
      summaryOfOne (hostKeysOfOne.map .key) = .error (.referenceError "hostKeys is not defined") ∧
      ∀ s, ¬ Tallies [oneLogin] (summaryOfOne [.batch hostKeysOfOne]) s ∧
        ¬ Tallies [oneLogin] (summaryOfOne (hostKeysOfOne.map .key)) s := by
  have hbatch : summaryOfOne [.batch hostKeysOfOne] = .error (.typeError "key.startsWith is not a function") := rfl
  have hkeys : summaryOfOne (hostKeysOfOne.map .key) = .error (.referenceError "hostKeys is not defined") := rfl
  refine ⟨hbatch,hkeys,fun s => ⟨fun h => ?_,fun h => ?_⟩⟩
  · have hcompletes := h.completes
    rw [hbatch] at hcompletes
    cases hcompletes
  · have hcompletes := h.completes
    rw [hkeys] at hcompletes
    cases hcompletes

end Declared

end JumpHost.Metrics
