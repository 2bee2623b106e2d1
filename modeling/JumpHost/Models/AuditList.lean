import Mathlib.Data.List.TakeWhile
import JumpHost.Library.Net
import JumpHost.Library.Pages
import JumpHost.Models.AuditEvent

namespace JumpHost.AuditEvent

section Numbers

def isSpace (c : Char) : Bool :=
  [0x9,0xA,0xB,0xC,0xD,0x20,0xA0,0x1680,0x2028,0x2029,0x202F,0x205F,0x3000,0xFEFF].contains c.toNat ||
    (0x2000 ≤ c.toNat && c.toNat ≤ 0x200A)

def signed : List Char → Bool × List Char
  | '-' :: cs => (true,cs)
  | '+' :: cs => (false,cs)
  | cs => (false,cs)

-- `parseInt(text, 10)`, `none` for NaN; digits are taken at their value, which a double rounds only beyond
-- the length of any array
def parseInt (text : String) : Option Int :=
  let (negative,cs) := signed (text.toList.dropWhile isSpace)
  let digits := cs.takeWhile Char.isDigit
  if digits = [] then none
  else some (if negative then -(Nat.ofDigitChars 10 digits 0 : Int) else Nat.ofDigitChars 10 digits 0)

-- `n || default`
def orDefault (n : Option Int) (default : Int) : Int := (n.filter (· != 0)).getD default

theorem orDefault_some (n default : Int) : orDefault (some n) default = if n = 0 then default else n := by
  by_cases hzero : n = 0
  · subst hzero
    rfl
  · rw [orDefault, Option.filter_some, if_pos (by simpa using hzero), if_neg hzero, Option.getD_some]

theorem signed_plain {cs : List Char} (hminus : '-' ∉ cs) (hplus : '+' ∉ cs) : signed cs = (false,cs) := by
  unfold signed
  split
  · exact absurd List.mem_cons_self hminus
  · exact absurd List.mem_cons_self hplus
  · rfl

theorem isDigit_of_isSpace {c : Char} (h : isSpace c = true) : c.isDigit = false := by
  by_contra hdigit
  rw [Bool.not_eq_false, Char.isDigit, Bool.and_eq_true, decide_eq_true_eq, decide_eq_true_eq] at hdigit
  have hlow : 48 ≤ c.toNat := hdigit.1
  have hhigh : c.toNat ≤ 57 := hdigit.2
  simp only [isSpace, List.contains_eq_mem, List.mem_cons, List.not_mem_nil, or_false, Bool.or_eq_true,
    decide_eq_true_eq, Bool.and_eq_true] at h
  omega

theorem parseInt_toString (n : Nat) : parseInt (toString n) = some (n : Int) := by
  have hdigit : ∀ c ∈ Nat.toDigits 10 n, c.isDigit = true := by
    intro c hc
    by_contra hnot
    exact Net.not_mem_toDigits (Bool.eq_false_iff.mpr hnot) n hc
  have hspace : ∀ c ∈ Nat.toDigits 10 n, ¬ isSpace c = true := by
    intro c hc hblank
    exact absurd (hdigit c hc) (Bool.eq_false_iff.mp (isDigit_of_isSpace hblank))
  have hne : Nat.toDigits 10 n ≠ [] := Nat.toDigits_ne_nil
  have hdrop : (Nat.toDigits 10 n).dropWhile isSpace = Nat.toDigits 10 n := by
    cases hcs : Nat.toDigits 10 n with
    | nil => exact absurd hcs hne
    | cons c cs => exact List.dropWhile_cons_of_neg (hspace c (hcs ▸ List.mem_cons_self))
  have htake : (Nat.toDigits 10 n).takeWhile Char.isDigit = Nat.toDigits 10 n :=
    List.takeWhile_eq_self_iff.mpr hdigit
  have hsigned : signed (Nat.toDigits 10 n) = (false,Nat.toDigits 10 n) :=
    signed_plain (Net.not_mem_toDigits rfl n) (Net.not_mem_toDigits rfl n)
  simp only [parseInt, Text.toList_toString, hdrop, hsigned, htake, if_neg hne, Bool.false_eq_true, if_false,
    Nat.ofDigitChars_ten_toDigits]

end Numbers

section List

variable (number : String → Num)

structure Listed where
  hash : Hash
  ts : Num
  success : Bool
  bytesIn : Num
  bytesOut : Num
  durationMs : Option Num

def orZero (text : Option String) : Num := ((text.filter (· ≠ "")).map number).getD (.int 0)

def asNumber (text : Option String) : Num := (text.map number).getD .nan

-- `hGetAll` of a key that is not there is an empty object
def deserialize (h : Hash) : Option Listed :=
  if truthy (h "id") then
    some {
      hash := h
      ts := asNumber number (h "ts")
      success := h "success" = some "1"
      bytesIn := orZero number (h "bytesIn")
      bytesOut := orZero number (h "bytesOut")
      durationMs := if h "durationMs" = some "" then none else some (asNumber number (h "durationMs")) }
  else none

structure EventFilter where
  uid : Option String := none
  target : Option String := none
  status : Option String := none

def EventFilter.passes (f : EventFilter) (e : Listed) : Bool :=
  !(truthy f.uid && e.hash "uid" != f.uid) &&
    !(truthy f.target && e.hash "targetSlug" != f.target && e.hash "targetAddr" != f.target) &&
    !(f.status == some "success" && !e.success) && !(f.status == some "fail" && e.success)

structure AuditPage where
  total : Nat
  page : Int
  pageSize : Int
  results : List Listed

def readEvent (s : State) (f : EventFilter) (id : String) : Option Listed :=
  (deserialize number ((s.hashes id).getD fun _ => none)).filter f.passes

-- `zRange 0 -1 REV`, then one hash after the other
def events (s : State) (f : EventFilter) : List Listed := s.index.members.reverse.filterMap (readEvent number s f)

def list (s : State) (page pageSize : Int) (f : EventFilter) : AuditPage where
  total := (events number s f).length
  page := page
  pageSize := pageSize
  results := Pages.slice (events number s f) (page * pageSize) (page * pageSize + pageSize)

structure Query extends EventFilter where
  page : Option String := none
  pageSize : Option String := none

-- a value that is not given is the text "undefined" for `parseInt`
def given (text : Option String) : Option Int := parseInt (text.getD "undefined")

def pageOf (q : Query) : Int := max 0 (orDefault (given q.page) 0)

def pageSizeOf (q : Query) : Int := min 200 (orDefault (given q.pageSize) 50)

def Query.filter (q : Query) : EventFilter where
  uid := q.uid.filter (· ≠ "")
  target := q.target.filter (· ≠ "")
  status := q.status.filter (· ≠ "")

def getAudit (s : State) (q : Query) : AuditPage := list number s (pageOf q) (pageSizeOf q) q.filter

end List

section Paging

variable {number : String → Num} {s : State} {f : EventFilter} {q : Query}

structure NewestFirst (number : String → Num) (s : State) (f : EventFilter)
    (stamped : List ((Nat ×ₗ String) × Listed)) : Prop where
  order : stamped.Pairwise fun a b => b.1 < a.1
  mem : ∀ stamp e, (stamp,e) ∈ stamped ↔ stamp ∈ s.index.entries ∧
    (∃ h, s.hashes (ofLex stamp).2 = some h ∧ deserialize number h = some e) ∧ f.passes e = true

def stampedEvents (number : String → Num) (s : State) (f : EventFilter) : List ((Nat ×ₗ String) × Listed) :=
  s.index.entries.reverse.filterMap fun stamp => (readEvent number s f (ofLex stamp).2).map (Prod.mk stamp)

theorem events_eq : events number s f = (stampedEvents number s f).map Prod.snd := by
  rw [events, stampedEvents, SortedSet.members, ← List.map_reverse, List.filterMap_map, List.map_filterMap]
  refine List.filterMap_congr fun stamp _ => ?_
  cases hread : readEvent number s f (ofLex stamp).2 <;> simp [hread]

theorem readEvent_eq {id : String} {e : Listed} : readEvent number s f id = some e ↔
    (∃ h, s.hashes id = some h ∧ deserialize number h = some e) ∧ f.passes e = true := by
  rw [readEvent, Option.filter_eq_some_iff]
  refine and_congr_left fun _ => ?_
  cases s.hashes id with
  | none => simp [deserialize, truthy]
  | some h => simp

theorem mem_stampedEvents {stamp : Nat ×ₗ String} {e : Listed} : (stamp,e) ∈ stampedEvents number s f ↔
    stamp ∈ s.index.entries ∧ readEvent number s f (ofLex stamp).2 = some e := by
  rw [stampedEvents, List.mem_filterMap]
  constructor
  · rintro ⟨stamp',hstamp,hread⟩
    obtain ⟨e',he',heq⟩ := Option.map_eq_some_iff.mp hread
    obtain ⟨rfl,rfl⟩ := Prod.mk.inj heq
    exact ⟨List.mem_reverse.mp hstamp,he'⟩
  · rintro ⟨hstamp,hread⟩
    exact ⟨stamp,List.mem_reverse.mpr hstamp,by rw [hread, Option.map_some]⟩

theorem newestFirst_stamped : NewestFirst number s f (stampedEvents number s f) := by
  refine ⟨?_,fun stamp e => ?_⟩
  · have hstrict : s.index.entries.Pairwise (· < ·) :=
      List.Pairwise.imp₂ (fun _ _ hle hne => lt_of_le_of_ne hle hne) s.index.sorted s.index.entries_nodup
    refine List.pairwise_filterMap.mpr ((List.pairwise_reverse.mpr hstrict).imp fun hlt b hb b' hb' => ?_)
    obtain ⟨_,-,rfl⟩ := Option.map_eq_some_iff.mp hb
    obtain ⟨_,-,rfl⟩ := Option.map_eq_some_iff.mp hb'
    exact hlt
  · rw [mem_stampedEvents, readEvent_eq]

def Query.at (q : Query) (page : Option String) : Query := { q with page := page }

structure PagedBy (number : String → Num) (s : State) (q : Query) (seq : List Listed) (size : Nat) : Prop where
  positive : 0 < size
  limit : ∀ page, (getAudit number s (q.at page)).results.length ≤ 200
  total : ∀ page, (getAudit number s (q.at page)).total = seq.length
  block : ∀ page, (getAudit number s (q.at page)).results = Pages.block size (pageOf (q.at page)).toNat seq
  whole : ∀ n, seq.length ≤ n * size →
    (List.range n).flatMap (fun i => (getAudit number s (q.at (some (toString i)))).results) = seq

theorem pageOf_toString (i : Nat) : pageOf (q.at (some (toString i))) = i := by
  have hgiven : given (some (toString i)) = some (i : Int) := parseInt_toString i
  rw [pageOf, Query.at, hgiven, orDefault_some]
  split <;> omega

theorem results_at (page : Option String) : (getAudit number s (q.at page)).results =
    Pages.slice (events number s q.filter) (pageOf (q.at page) * pageSizeOf q)
      (pageOf (q.at page) * pageSizeOf q + pageSizeOf q) := by
  have hsize : pageSizeOf (q.at page) = pageSizeOf q := by rw [pageSizeOf, pageSizeOf, Query.at]
  have hfilter : (q.at page).filter = q.filter := by rw [Query.filter, Query.filter, Query.at]
  rw [getAudit, hsize, hfilter, list]

theorem pageOf_nonneg (q : Query) : 0 ≤ pageOf q := Int.le_max_left _ _

theorem pageSizeOf_nonneg (h : ∀ n, given q.pageSize = some n → 0 ≤ n) : 0 < pageSizeOf q ∧ pageSizeOf q ≤ 200 := by
  rw [pageSizeOf]
  cases hgiven : given q.pageSize with
  | none => decide
  | some n =>
    have hn := h n hgiven
    rw [orDefault_some]
    split <;> omega

theorem pageSizeOf_negative {n : Int} (h : given q.pageSize = some n) (hn : n < 0) : pageSizeOf q < 0 := by
  rw [pageSizeOf, h, orDefault_some, if_neg hn.ne]
  omega

theorem pagedBy_of_positive (hpos : 0 < pageSizeOf q) (hlimit : pageSizeOf q ≤ 200) :
    PagedBy number s q (events number s q.filter) (pageSizeOf q).toNat := by
  have hsize : ((pageSizeOf q).toNat : Int) = pageSizeOf q := Int.toNat_of_nonneg hpos.le
  have hblock : ∀ page, (getAudit number s (q.at page)).results =
      Pages.block (pageSizeOf q).toNat (pageOf (q.at page)).toNat (events number s q.filter) := by
    intro page
    have hpage : ((pageOf (q.at page)).toNat : Int) = pageOf (q.at page) := Int.toNat_of_nonneg (pageOf_nonneg _)
    rw [results_at, ← Pages.slice_block, hsize, hpage]
  refine ⟨by omega,fun page => ?_,fun _ => rfl,hblock,fun n hn => ?_⟩
  · rw [hblock page]
    refine (Pages.length_block_le _ _ _).trans ?_
    omega
  · have heach : ∀ i : Nat, (getAudit number s (q.at (some (toString i)))).results =
        Pages.block (pageSizeOf q).toNat i (events number s q.filter) := by
      intro i
      rw [hblock, pageOf_toString, Int.toNat_natCast]
    simp only [heach]
    exact Pages.blocks_all hn

theorem pagedBy_of_empty (hempty : events number s q.filter = []) : PagedBy number s q [] 1 := by
  have hnone : ∀ page, (getAudit number s (q.at page)).results = [] := by
    intro page
    rw [results_at, hempty, Pages.slice, List.take_nil, List.drop_nil]
  refine ⟨Nat.one_pos,fun page => ?_,fun page => ?_,fun page => ?_,fun n _ => ?_⟩
  · rw [hnone page]
    exact Nat.zero_le _
  · exact congrArg List.length hempty
  · rw [hnone page, Pages.block, List.drop_nil, List.take_nil]
  · simp [hnone]

theorem empty_of_negative {size : Nat} (hnegative : pageSizeOf q < 0)
    (h : PagedBy number s q (events number s q.filter) size) : events number s q.filter = [] := by
  refine Pages.negative_not_blocks hnegative h.positive ?_ ?_
  · have hzero := h.block (some (toString 0))
    rw [results_at, pageOf_toString] at hzero
    simpa using hzero
  · have hone := h.block (some (toString 1))
    rw [results_at, pageOf_toString] at hone
    simpa using hone

theorem paging_iff (number : String → Num) (s : State) (q : Query) : ∃ stamped, NewestFirst number s q.filter stamped ∧
    ((∃ size, PagedBy number s q (stamped.map Prod.snd) size) ↔
      (∀ n, given q.pageSize = some n → 0 ≤ n) ∨ stamped = []) := by
  refine ⟨stampedEvents number s q.filter,newestFirst_stamped,?_⟩
  rw [← events_eq, ← List.map_eq_nil_iff (f := Prod.snd), ← events_eq]
  constructor
  · rintro ⟨size,h⟩
    by_cases hsize : ∀ n, given q.pageSize = some n → 0 ≤ n
    · exact .inl hsize
    · push Not at hsize
      obtain ⟨n,hgiven,hn⟩ := hsize
      exact .inr (empty_of_negative (pageSizeOf_negative hgiven hn) h)
  · rintro (hsize | hempty)
    · obtain ⟨hpos,hlimit⟩ := pageSizeOf_nonneg hsize
      exact ⟨_,pagedBy_of_positive hpos hlimit⟩
    · exact ⟨1,hempty ▸ pagedBy_of_empty hempty⟩

def oneEvent : State where
  events := .empty
  index := SortedSet.empty.zAdd 1 "a"
  hashes id := if id = "a" then some (serialize "a" ⟨1,blank 1⟩) else none
  writes := []

theorem event_never_listed : ¬ ∀ (number : String → Num) (s : State) (q : Query), ∃ stamped,
    NewestFirst number s q.filter stamped ∧ ∃ size, PagedBy number s q (stamped.map Prod.snd) size := by
  intro h
  obtain ⟨stamped,-,size,hpaged⟩ := h (fun _ => .nan) oneEvent { pageSize := some "-1" }
  have htotal := hpaged.total none
  have hblock := congrArg List.length (hpaged.block none)
  have hone : (getAudit (fun _ => .nan) oneEvent (Query.at { pageSize := some "-1" } none)).total = 1 := by
    decide +kernel
  have hnone : (getAudit (fun _ => .nan) oneEvent (Query.at { pageSize := some "-1" } none)).results.length = 0 := by
    decide +kernel
  have hzero : (pageOf (Query.at { pageSize := some "-1" } none)).toNat = 0 := by decide +kernel
  have hpositive := hpaged.positive
  rw [hone] at htotal
  rw [hnone, hzero, Pages.block, List.length_take, Nat.zero_mul, List.drop_zero] at hblock
  omega

end Paging

end JumpHost.AuditEvent
