import Mathlib.Data.String.Basic
import JumpHost.Library.OrdMap
import JumpHost.Library.Run
import JumpHost.Library.SortedSet
import JumpHost.Value

namespace JumpHost.AuditEvent

section Events

inductive Field where
  | bool (b : Bool)
  | value (v : Value)
deriving DecidableEq

def Field.number : Field → Num
  | .bool b => .int (if b then 1 else 0)
  | .value v => v.number

def Field.shown : Field → String
  | .bool b => if b then "1" else "0"
  | .value v => if v.nullish then "" else v.text

abbrev Fields : Type := String → Option Field

def Fields.of (entries : List (String × Field)) : Fields := fun key =>
  (entries.find? fun e => e.1 == key).map Prod.snd

-- `Object.assign`
def Fields.assign (fields update : Fields) : Fields := fun key => (update key).or (fields key)

structure Event where
  ts : Nat
  fields : Fields

def noText : Field := .value .noText

def number (n : Int) : Field := .value (.ofInt n)

def blank (ts : Nat) : Fields := .of [("uid",noText),("authMethod",noText),("mode",noText),("targetSlug",noText),
  ("targetAddr",noText),("targetPort",noText),("channel",noText),("clientIp",noText),("success",.bool false),
  ("failReason",noText),("hostKeyFp",noText),("startedAt",number ts),("endedAt",noText),("durationMs",noText),
  ("bytesIn",number 0),("bytesOut",number 0)]

def Event.patched (event : Event) (update : Fields) : Event := { event with fields := event.fields.assign update }

def Event.startedAt (event : Event) : Num := ((event.fields "startedAt").map Field.number).getD .nan

def Event.finished (event : Event) (update : Fields) (endedAt now : Nat) : Event :=
  let duration := event.startedAt.below now
  (event.patched update).patched
    (.of [("endedAt",number endedAt),("durationMs",.value ⟨duration.text,duration,duration.truthy,false⟩)])

abbrev Hash : Type := String → Option String

def serialize (id : String) (event : Event) : Hash := fun key =>
  if key = "id" then some id
  else if key = "ts" then some (toString event.ts)
  else (event.fields key).map Field.shown

end Events

section Store

def maxEvents (configured : Option Nat) : Nat := ((configured.filter (· != 0)).getD 50000)

inductive Stage where
  | hSet
  | zAdd
  | zCard
  | zRange (count : Nat)
  | zRem (stale : List String)
  | del (stale : List String)
deriving DecidableEq

structure Write where
  id : String
  stage : Stage
deriving DecidableEq

structure State where
  events : OrdMap String Event
  index : SortedSet Nat String
  hashes : String → Option Hash
  writes : List Write

def start : State := ⟨.empty,.empty,fun _ => none,[]⟩

def State.hSet (s : State) (id : String) (fields : Hash) : State :=
  let merged : Hash := fun key => (fields key).or ((s.hashes id).bind fun hash => hash key)
  { s with hashes := Function.update s.hashes id (some merged) }

def State.del (s : State) (ids : List String) : State :=
  { s with hashes := fun id => if id ∈ ids then none else s.hashes id }

def State.run (max : Nat) (s : State) (id : String) (event : Event) : Stage → State × Option Stage
  | .hSet => (s.hSet id (serialize id event),some .zAdd)
  | .zAdd => ({ s with index := s.index.zAdd event.ts id },some .zCard)
  | .zCard => (s,if s.index.zCard > max then some (.zRange s.index.zCard) else none)
  | .zRange count =>
      let stale := s.index.zRange 0 (count - max - 1)
      (s,if stale = [] then none else some (.zRem stale))
  | .zRem stale => ({ s with index := s.index.zRem stale },some (.del stale))
  | .del stale => (s.del stale,none)

inductive Input where
  | create (id : String) (ts : Nat) (fields : Fields)
  | patch (id : String) (update : Fields)
  | finish (id : String) (update : Fields) (endedAt now : Nat)
  | command (i : Nat)

def State.command (max : Nat) (s : State) (i : Nat) (w : Write) (event : Event) : State :=
  let (t,next) := s.run max w.id event w.stage
  { t with writes := s.writes.eraseIdx i ++ (next.map (Write.mk w.id)).toList }

def State.write (s : State) (id : String) (event : Event) : State :=
  { s with events := s.events.set id event, writes := s.writes ++ [⟨id,.hSet⟩] }

def step (max : Nat) (s : State) : Input → Option State
  | .create id ts fields =>
      if s.events.has id then none else some (s.write id ⟨ts,(blank ts).assign fields⟩)
  | .patch id update => (s.events.get? id).map fun event => s.write id (event.patched update)
  | .finish id update endedAt now =>
      (s.events.get? id).map fun event => s.write id (event.finished update endedAt now)
  | .command i => match s.writes[i]? with
      | none => none
      | some w => (s.events.get? w.id).map (s.command max i w)

structure Retained (max : Nat) (s : State) : Prop where
  size : s.index.zCard = min s.events.size max
  created : ∀ e : Nat ×ₗ String, e ∈ s.index.entries →
    ∃ event, s.events.get? (ofLex e).2 = some event ∧ event.ts = (ofLex e).1
  newest : ∀ id event, s.events.get? id = some event → id ∉ s.index.members →
    ∀ e ∈ s.index.entries, toLex (event.ts,id) < e
  hashed : ∀ id event, s.events.get? id = some event → id ∈ s.index.members →
    s.hashes id = some (serialize id event)
  only : ∀ id, id ∉ s.index.members → s.hashes id = none

end Store

section Invariant

variable {max : Nat} {s t : State} {id : String} {event : Event} {w : Write}

def State.stamps (s : State) : Finset (Nat ×ₗ String) :=
  (s.events.entries.map fun e => toLex (e.2.ts,e.1)).toFinset

def State.Outranked (max : Nat) (s : State) (id : String) : Prop :=
  ∃ event, s.events.get? id = some event ∧ max ≤ (s.stamps.filter (toLex (event.ts,id) < ·)).card

def Stage.stale : Stage → List String
  | .zRem stale | .del stale => stale
  | _ => []

def Stage.Settles (max : Nat) (index : SortedSet Nat String) : Stage → Prop
  | .zCard => True
  | .zRange count => index.zCard ≤ count
  | .zRem stale => (index.zRem stale).zCard ≤ max
  | _ => False

structure Indexed (max : Nat) (s : State) : Prop where
  created : ∀ e : Nat ×ₗ String, e ∈ s.index.entries → ∃ event, s.events.get? (ofLex e).2 = some event ∧
    event.ts = (ofLex e).1
  missing : ∀ id ∈ s.events.keys, id ∉ s.index.members →
    s.Outranked max id ∨ ∃ w ∈ s.writes, w.id = id ∧ (w.stage = .hSet ∨ w.stage = .zAdd)
  stale : ∀ w ∈ s.writes, ∀ id ∈ w.stage.stale, s.Outranked max id
  counted : ∀ w ∈ s.writes, ∀ count, w.stage = .zRange count → max < count
  settling : s.index.zCard ≤ max ∨ ∃ w ∈ s.writes, w.stage.Settles max s.index

structure Hashed (max : Nat) (s : State) : Prop where
  known : ∀ id hash, s.hashes id = some hash → ∃ event, s.events.get? id = some event ∧
    ∀ key, hash key ≠ none → serialize id event key ≠ none
  written : ∀ id event, s.events.get? id = some event → s.hashes id = some (serialize id event) ∨
    (s.hashes id = none ∧ s.Outranked max id) ∨ ∃ w ∈ s.writes, w.id = id ∧ w.stage = .hSet
  leftover : ∀ id, s.hashes id ≠ none → id ∈ s.index.members ∨ ∃ w ∈ s.writes,
    w.id = id ∧ w.stage = .zAdd ∨ id ∈ w.stage.stale

def Stage.Unshrunk (index : SortedSet Nat String) : Stage → Prop
  | .zRange count => count ≤ index.zCard
  | _ => True

instance (index : SortedSet Nat String) : (stage : Stage) → Decidable (stage.Unshrunk index)
  | .zRange count => inferInstanceAs (Decidable (count ≤ index.zCard))
  | .hSet | .zAdd | .zCard | .zRem _ | .del _ => .isTrue trivial

def Unshrunk (s : State) : Input → Prop
  | .command i => ∀ w ∈ s.writes[i]?, w.stage.Unshrunk s.index
  | _ => True

instance (s : State) : (input : Input) → Decidable (Unshrunk s input)
  | .command i => inferInstanceAs (Decidable (∀ w ∈ s.writes[i]?, w.stage.Unshrunk s.index))
  | .create _ _ _ | .patch _ _ | .finish _ _ _ _ => .isTrue trivial

def State.Renews (s : State) (id : String) (event : Event) : Prop :=
  ∀ before, s.events.get? id = some before → event.ts = before.ts ∧
    ∀ key, serialize id before key ≠ none → serialize id event key ≠ none

theorem serialize_patched (update : Fields) {key : String} (h : serialize id event key ≠ none) :
    serialize id (event.patched update) key ≠ none := by
  simp only [serialize, Event.patched, Fields.assign] at h ⊢
  split at h
  · simp_all
  · split at h
    · simp_all
    · cases hupdate : update key <;> simp_all

theorem patched_renews (update : Fields) (h : s.events.get? id = some event) : s.Renews id (event.patched update) := by
  intro before hbefore
  obtain rfl := Option.some.inj (h.symm.trans hbefore)
  exact ⟨rfl,fun _ => serialize_patched update⟩

theorem finished_renews (update : Fields) (endedAt now : Nat) (h : s.events.get? id = some event) :
    s.Renews id (event.finished update endedAt now) := by
  intro before hbefore
  obtain rfl := Option.some.inj (h.symm.trans hbefore)
  exact ⟨rfl,fun _ hkey => serialize_patched _ (serialize_patched update hkey)⟩

theorem step_write {input : Input} (h : step max s input = some t) : (∃ i, input = .command i) ∨
    ∃ id event, t = s.write id event ∧ s.Renews id event := by
  cases input with
  | create id ts fields =>
    simp only [step] at h
    split at h
    · cases h
    · next hnew =>
      cases h
      refine .inr ⟨id,_,rfl,fun before hbefore => ?_⟩
      exact absurd (OrdMap.has_iff.mpr (OrdMap.mem_keys_iff.mpr ⟨before,hbefore⟩)) hnew
  | patch id update =>
    obtain ⟨before,hbefore,rfl⟩ := Option.map_eq_some_iff.mp h
    exact .inr ⟨id,_,rfl,patched_renews update hbefore⟩
  | finish id update endedAt now =>
    obtain ⟨before,hbefore,rfl⟩ := Option.map_eq_some_iff.mp h
    exact .inr ⟨id,_,rfl,finished_renews update endedAt now hbefore⟩
  | command i => exact .inl ⟨i,rfl⟩

theorem step_command {i : Nat} (h : step max s (.command i) = some t) : ∃ w event,
    s.writes[i]? = some w ∧ s.events.get? w.id = some event ∧ t = s.command max i w event := by
  simp only [step] at h
  cases hw : s.writes[i]? with
  | none => simp [hw] at h
  | some w =>
    rw [hw] at h
    obtain ⟨event,hevent,rfl⟩ := Option.map_eq_some_iff.mp h
    exact ⟨w,event,rfl,hevent,rfl⟩

theorem mem_stamps {e : Nat ×ₗ String} : e ∈ s.stamps ↔
    ∃ event, s.events.get? (ofLex e).2 = some event ∧ event.ts = (ofLex e).1 := by
  simp only [State.stamps, List.mem_toFinset, List.mem_map, ← OrdMap.mem_entries_iff]
  constructor
  · rintro ⟨⟨id,event⟩,hmem,rfl⟩
    exact ⟨event,hmem,rfl⟩
  · rintro ⟨event,hmem,hts⟩
    exact ⟨_,hmem,by rw [hts]; rfl⟩

theorem outranked_congr (h : t.events = s.events) : t.Outranked max id ↔ s.Outranked max id := by
  simp only [State.Outranked, State.stamps, h]

theorem Outranked.write {id' : String} (hnew : s.Renews id' event) (h : s.Outranked max id) :
    (s.write id' event).Outranked max id := by
  obtain ⟨before,hbefore,hnewer⟩ := h
  have hget : ∀ k e, s.events.get? k = some e → ∃ e', (s.write id' event).events.get? k = some e' ∧ e'.ts = e.ts := by
    intro k e he
    by_cases hk : k = id'
    · subst hk
      exact ⟨event,OrdMap.get?_set_self _ _ _,(hnew e he).1⟩
    · exact ⟨e,(OrdMap.get?_set_of_ne _ hk).trans he,rfl⟩
  obtain ⟨after,hafter,hts⟩ := hget id before hbefore
  refine ⟨after,hafter,hnewer.trans (Finset.card_le_card ?_)⟩
  rw [hts]
  refine Finset.filter_subset_filter _ fun e he => ?_
  obtain ⟨e',he',hts'⟩ := mem_stamps.mp he
  obtain ⟨e'',he'',hts''⟩ := hget _ e' he'
  exact mem_stamps.mpr ⟨e'',he'',hts''.trans hts'⟩

theorem indexed_write (h : Indexed max s) (hnew : s.Renews id event) : Indexed max (s.write id event) := by
  have hmem : ∀ w ∈ (s.write id event).writes, w ∈ s.writes ∨ w = ⟨id,.hSet⟩ := by
    intro w hw
    simpa [State.write] using hw
  have hold : ∀ w ∈ s.writes, w ∈ (s.write id event).writes := fun w hw => List.mem_append_left _ hw
  exact {
    created := fun e he => by
      obtain ⟨before,hbefore,hts⟩ := h.created e he
      by_cases hk : (ofLex e).2 = id
      · subst hk
        exact ⟨event,OrdMap.get?_set_self _ _ _,(hnew before hbefore).1.trans hts⟩
      · exact ⟨before,(OrdMap.get?_set_of_ne _ hk).trans hbefore,hts⟩
    missing := fun id' hid' hindex => by
      by_cases hk : id' = id
      · exact .inr ⟨⟨id,.hSet⟩,by simp [State.write],hk.symm,.inl rfl⟩
      · have hid : id' ∈ s.events.keys := (OrdMap.mem_keys_set.mp hid').resolve_right hk
        refine (h.missing id' hid hindex).imp (Outranked.write hnew) ?_
        rintro ⟨w,hw,hwrite⟩
        exact ⟨w,hold w hw,hwrite⟩
    stale := fun w hw id' hid' => by
      rcases hmem w hw with hw | rfl
      · exact Outranked.write hnew (h.stale w hw id' hid')
      · cases hid'
    counted := fun w hw count hcount => by
      rcases hmem w hw with hw | rfl
      · exact h.counted w hw count hcount
      · cases hcount
    settling := h.settling.imp_right fun ⟨w,hw,hsettles⟩ => ⟨w,hold w hw,hsettles⟩ }

theorem hashed_write (h : Hashed max s) (hnew : s.Renews id event) : Hashed max (s.write id event) := by
  have hold : ∀ w ∈ s.writes, w ∈ (s.write id event).writes := fun w hw => List.mem_append_left _ hw
  exact {
    known := fun id' hash hhash => by
      obtain ⟨before,hbefore,hkeys⟩ := h.known id' hash hhash
      by_cases hk : id' = id
      · subst hk
        exact ⟨event,OrdMap.get?_set_self _ _ _,fun key hkey => (hnew before hbefore).2 key (hkeys key hkey)⟩
      · exact ⟨before,(OrdMap.get?_set_of_ne _ hk).trans hbefore,hkeys⟩
    written := fun id' event' hevent' => by
      by_cases hk : id' = id
      · exact .inr (.inr ⟨⟨id,.hSet⟩,by simp [State.write],hk.symm,rfl⟩)
      · have hbefore : s.events.get? id' = some event' := (OrdMap.get?_set_of_ne _ hk).symm.trans hevent'
        rcases h.written id' event' hbefore with hhash | ⟨hnone,houtranked⟩ | ⟨w,hw,hwrite⟩
        · exact .inl hhash
        · exact .inr (.inl ⟨hnone,Outranked.write hnew houtranked⟩)
        · exact .inr (.inr ⟨w,hold w hw,hwrite⟩)
    leftover := fun id' hhash => (h.leftover id' hhash).imp_right fun ⟨w,hw,hwrite⟩ => ⟨w,hold w hw,hwrite⟩ }

end Invariant

section Command

variable {max i : Nat} {s : State} {id : String} {event : Event} {w w' : Write}

@[simp] theorem events_command : (s.command max i w event).events = s.events := by
  cases w with
  | mk id stage => cases stage <;> rfl

theorem index_command (max i : Nat) (s : State) (event : Event) (w : Write) :
    (s.command max i w event).index = s.index ∨
      (w.stage = .zAdd ∧ (s.command max i w event).index = s.index.zAdd event.ts w.id) ∨
      ∃ stale, w.stage = .zRem stale ∧ (s.command max i w event).index = s.index.zRem stale := by
  obtain ⟨id,stage⟩ := w
  cases stage with
  | zAdd => exact .inr (.inl ⟨rfl,rfl⟩)
  | zRem stale => exact .inr (.inr ⟨stale,rfl,rfl⟩)
  | hSet | zCard | zRange count | del stale => exact .inl rfl

theorem run_next {stage stage' : Stage} (h : (s.run max id event stage).2 = some stage') :
    (stage = .hSet ∧ stage' = .zAdd) ∨ (stage = .zAdd ∧ stage' = .zCard) ∨
      (stage = .zCard ∧ max < s.index.zCard ∧ stage' = .zRange s.index.zCard) ∨
      (∃ count, stage = .zRange count ∧ stage' = .zRem (s.index.zRange 0 (count - max - 1))) ∨
      ∃ stale, stage = .zRem stale ∧ stage' = .del stale := by
  cases stage with
  | hSet => exact .inl ⟨rfl,(Option.some.inj h).symm⟩
  | zAdd => exact .inr (.inl ⟨rfl,(Option.some.inj h).symm⟩)
  | zCard =>
    simp only [State.run] at h
    split at h
    · next hover => exact .inr (.inr (.inl ⟨rfl,hover,(Option.some.inj h).symm⟩))
    · cases h
  | zRange count =>
    simp only [State.run] at h
    split at h
    · cases h
    · exact .inr (.inr (.inr (.inl ⟨count,rfl,(Option.some.inj h).symm⟩)))
  | zRem stale => exact .inr (.inr (.inr (.inr ⟨stale,rfl,(Option.some.inj h).symm⟩)))
  | del stale => cases h

theorem outranked_command : (s.command max i w event).Outranked max id ↔ s.Outranked max id :=
  outranked_congr events_command

theorem mem_command : w' ∈ (s.command max i w event).writes ↔
    w' ∈ s.writes.eraseIdx i ∨ w'.id = w.id ∧ (s.run max w.id event w.stage).2 = some w'.stage := by
  obtain ⟨id',stage'⟩ := w'
  simp only [State.command, List.mem_append, Option.mem_toList, Option.map_eq_some_iff, Write.mk.injEq]
  refine or_congr_right ⟨?_,fun ⟨hid,hnext⟩ => ⟨_,hnext,hid.symm,rfl⟩⟩
  rintro ⟨stage,hnext,rfl,rfl⟩
  exact ⟨rfl,hnext⟩

theorem mem_before (max : Nat) (event : Event) (hw : s.writes[i]? = some w) (h : w' ∈ s.writes) :
    w' = w ∨ w' ∈ (s.command max i w event).writes := by
  obtain ⟨j,hj⟩ := List.mem_iff_getElem?.mp h
  by_cases hji : j = i
  · subst hji
    exact .inl (Option.some.inj (hj.symm.trans hw))
  · exact .inr (mem_command.mpr (.inl (List.mem_eraseIdx_iff_getElem?.mpr ⟨j,hji,hj⟩)))

theorem mem_after (h : w' ∈ (s.command max i w event).writes) :
    w' ∈ s.writes ∨ w'.id = w.id ∧ (s.run max w.id event w.stage).2 = some w'.stage :=
  (mem_command.mp h).imp_left fun hmem => List.mem_of_mem_eraseIdx hmem

theorem outranked_selected {count : Nat} (h : Indexed max s) (hmax : max < count) (hcount : count ≤ s.index.zCard)
    (hid : id ∈ s.index.zRange 0 (count - max - 1)) : s.Outranked max id := by
  obtain ⟨e,he,rfl⟩ := SortedSet.mem_zRange hid
  obtain ⟨before,hbefore,hts⟩ := h.created e (List.mem_of_mem_take he)
  refine ⟨before,hbefore,?_⟩
  have hstamp : toLex (before.ts,(ofLex e).2) = e := by rw [hts]; rfl
  have hnodup : (s.index.entries.drop (count - max - 1 + 1)).Nodup :=
    s.index.entries_nodup.sublist (List.drop_sublist _ _)
  have hnewer : (s.index.entries.drop (count - max - 1 + 1)).toFinset ⊆ s.stamps.filter (e < ·) := by
    intro e' he'
    have hmem := List.mem_toFinset.mp he'
    exact Finset.mem_filter.mpr ⟨mem_stamps.mpr (h.created e' (List.mem_of_mem_drop hmem)),
      SortedSet.lt_of_mem_take he hmem⟩
  have hcard := Finset.card_le_card hnewer
  rw [List.toFinset_card_of_nodup hnodup, List.length_drop] at hcard
  rw [hstamp]
  refine le_trans ?_ hcard
  change max ≤ s.index.zCard - (count - max - 1 + 1)
  omega

theorem created_command (h : Indexed max s) (hevent : s.events.get? w.id = some event) (e : Nat ×ₗ String)
    (he : e ∈ (s.command max i w event).index.entries) :
    ∃ event', s.events.get? (ofLex e).2 = some event' ∧ event'.ts = (ofLex e).1 := by
  rcases index_command max i s event w with hindex | ⟨-,hindex⟩ | ⟨stale,-,hindex⟩ <;> rw [hindex] at he
  · exact h.created e he
  · rcases SortedSet.mem_zAdd.mp he with rfl | ⟨he,-⟩
    · exact ⟨event,hevent,rfl⟩
    · exact h.created e he
  · exact h.created e (SortedSet.mem_zRem.mp he).1

theorem missing_command (h : Indexed max s) (hw : s.writes[i]? = some w) (hid : id ∈ s.events.keys)
    (hindex : id ∉ (s.command max i w event).index.members) : s.Outranked max id ∨
      ∃ w' ∈ (s.command max i w event).writes, w'.id = id ∧ (w'.stage = .hSet ∨ w'.stage = .zAdd) := by
  have hmiss : id ∉ s.index.members ∨ ∃ stale, w.stage = .zRem stale ∧ id ∈ stale := by
    rcases index_command max i s event w with hsame | ⟨-,hsame⟩ | ⟨stale,hstage,hsame⟩ <;> rw [hsame] at hindex
    · exact .inl hindex
    · exact .inl fun hmem => hindex (SortedSet.mem_members_zAdd.mpr (.inr hmem))
    · by_cases hstale : id ∈ stale
      · exact .inr ⟨stale,hstage,hstale⟩
      · exact .inl fun hmem => hindex (SortedSet.mem_members_zRem.mpr ⟨hmem,hstale⟩)
  rcases hmiss with hmiss | ⟨stale,hstage,hstale⟩
  · refine (h.missing id hid hmiss).imp_right ?_
    rintro ⟨w',hw',rfl,hpending⟩
    rcases mem_before max event hw hw' with rfl | hkept
    · rcases hpending with hstage | hstage
      · exact ⟨⟨w'.id,.zAdd⟩,mem_command.mpr (.inr ⟨rfl,by rw [hstage]; rfl⟩),rfl,.inr rfl⟩
      · refine absurd (SortedSet.mem_members_zAdd.mpr (.inl rfl)) (?_ : w'.id ∉ (s.index.zAdd event.ts w'.id).members)
        simpa [State.command, State.run, hstage] using hindex
    · exact ⟨w',hkept,rfl,hpending⟩
  · have hmem : w ∈ s.writes := List.mem_of_getElem? hw
    exact .inl (h.stale w hmem id (by simpa [hstage, Stage.stale] using hstale))

theorem stale_command (h : Indexed max s) (hw : s.writes[i]? = some w)
    (hguard : w.stage.Unshrunk s.index)
    (hw' : w' ∈ (s.command max i w event).writes) (hid : id ∈ w'.stage.stale) : s.Outranked max id := by
  have hmem : w ∈ s.writes := List.mem_of_getElem? hw
  rcases mem_after hw' with hw' | ⟨-,hnext⟩
  · exact h.stale w' hw' id hid
  · rcases run_next hnext with ⟨-,hnext⟩ | ⟨-,hnext⟩ | ⟨-,-,hnext⟩ | ⟨count,hstage,hnext⟩ | ⟨stale,hstage,hnext⟩ <;>
      rw [hnext] at hid
    · cases hid
    · cases hid
    · cases hid
    · rw [hstage] at hguard
      exact outranked_selected h (h.counted w hmem count hstage) hguard hid
    · exact h.stale w hmem id (by rwa [hstage])

theorem counted_command (h : Indexed max s) {count : Nat} (hw' : w' ∈ (s.command max i w event).writes)
    (hstage : w'.stage = .zRange count) : max < count := by
  rcases mem_after hw' with hw' | ⟨-,hnext⟩
  · exact h.counted w' hw' count hstage
  · rw [hstage] at hnext
    rcases run_next hnext with ⟨-,hnext⟩ | ⟨-,hnext⟩ | ⟨-,hover,hnext⟩ | ⟨_,-,hnext⟩ | ⟨_,-,hnext⟩ <;> cases hnext
    exact hover

theorem settles_zRem {stage : Stage} {stale : List String} (h : stage.Settles max s.index) :
    stage.Settles max (s.index.zRem stale) := by
  cases stage with
  | zCard => trivial
  | zRange count => exact SortedSet.zCard_zRem_le.trans h
  | zRem stale' => exact SortedSet.zCard_zRem_zRem_le.trans h
  | hSet | zAdd | del stale' => exact h

theorem settles_other (h : w'.stage.Settles max s.index) (hshrinks : w.stage ≠ .zAdd) :
    w'.stage.Settles max (s.command max i w event).index := by
  rcases index_command max i s event w with hindex | ⟨hadd,-⟩ | ⟨stale,-,hindex⟩
  · rwa [hindex]
  · exact absurd hadd hshrinks
  · rw [hindex]
    exact settles_zRem h

theorem settling_own (h : w.stage.Settles max s.index) (hcounted : ∀ count, w.stage = .zRange count → max < count)
    (hguard : w.stage.Unshrunk s.index) :
    (s.command max i w event).index.zCard ≤ max ∨
      ∃ w' ∈ (s.command max i w event).writes, w'.stage.Settles max (s.command max i w event).index := by
  obtain ⟨id,stage⟩ := w
  cases stage with
  | zCard =>
    by_cases hover : s.index.zCard > max
    · refine .inr ⟨⟨id,.zRange s.index.zCard⟩,mem_command.mpr (.inr ⟨rfl,?_⟩),le_refl _⟩
      simp [State.run, hover]
    · exact .inl (not_lt.mp hover)
  | zRange count =>
    have hcount : s.index.zCard = count := le_antisymm h hguard
    have hmax := hcounted count rfl
    have hafter : (s.index.zRem (s.index.zRange 0 (count - max - 1))).zCard ≤ max := by
      rw [SortedSet.zCard_zRem_zRange]
      omega
    by_cases hnone : s.index.zRange 0 (count - max - 1) = []
    · refine .inl (le_trans (le_of_eq ?_) hafter)
      simp [hnone, State.command, State.run, SortedSet.zRem, SortedSet.zCard]
    · refine .inr ⟨⟨id,.zRem (s.index.zRange 0 (count - max - 1))⟩,mem_command.mpr (.inr ⟨rfl,?_⟩),hafter⟩
      simp [State.run, hnone]
  | zRem stale => exact .inl h
  | hSet => exact False.elim h
  | zAdd => exact False.elim h
  | del stale => exact False.elim h

theorem settling_command (h : Indexed max s) (hw : s.writes[i]? = some w)
    (hguard : w.stage.Unshrunk s.index) :
    (s.command max i w event).index.zCard ≤ max ∨
      ∃ w' ∈ (s.command max i w event).writes, w'.stage.Settles max (s.command max i w event).index := by
  by_cases hadd : w.stage = .zAdd
  · refine .inr ⟨⟨w.id,.zCard⟩,mem_command.mpr (.inr ⟨rfl,?_⟩),trivial⟩
    rw [hadd]
    rfl
  rcases h.settling with hsmall | ⟨w',hw',hsettles⟩
  · refine .inl ?_
    rcases index_command max i s event w with hindex | ⟨hzAdd,-⟩ | ⟨stale,-,hindex⟩
    · rwa [hindex]
    · exact absurd hzAdd hadd
    · rw [hindex]
      exact SortedSet.zCard_zRem_le.trans hsmall
  · rcases mem_before max event hw hw' with rfl | hkept
    · exact settling_own hsettles (h.counted _ hw') hguard
    · exact .inr ⟨w',hkept,settles_other hsettles hadd⟩

theorem indexed_command (h : Indexed max s) (hw : s.writes[i]? = some w) (hevent : s.events.get? w.id = some event)
    (hguard : w.stage.Unshrunk s.index) :
    Indexed max (s.command max i w event) where
  created e he := by
    rw [events_command]
    exact created_command h hevent e he
  missing id hid hindex := by
    rw [outranked_command]
    exact missing_command h hw (events_command (s := s) ▸ hid) hindex
  stale w' hw' id hid := outranked_command.mpr (stale_command h hw hguard hw' hid)
  counted w' hw' count hstage := counted_command h hw' hstage
  settling := settling_command h hw hguard

theorem hashes_command (h : Hashed max s) (hevent : s.events.get? w.id = some event) (id : String) :
    ((w.stage = .hSet → id ≠ w.id) ∧ (∀ stale, w.stage = .del stale → id ∉ stale) ∧
      (s.command max i w event).hashes id = s.hashes id) ∨
    (w.stage = .hSet ∧ id = w.id ∧ (s.command max i w event).hashes id = some (serialize id event)) ∨
    ∃ stale, w.stage = .del stale ∧ id ∈ stale ∧ (s.command max i w event).hashes id = none := by
  obtain ⟨wid,stage⟩ := w
  cases stage with
  | hSet =>
    by_cases hid : id = wid
    · subst hid
      refine .inr (.inl ⟨rfl,rfl,?_⟩)
      simp only [State.command, State.run, State.hSet, Function.update_self, Option.some.injEq]
      funext key
      cases hkey : serialize id event key with
      | some value => rfl
      | none =>
        cases hhash : s.hashes id with
        | none => rfl
        | some hash =>
          obtain ⟨before,hbefore,hkeys⟩ := h.known id hash hhash
          obtain rfl := Option.some.inj (hevent.symm.trans hbefore)
          have hnone : hash key = none := by
            by_contra hsome
            exact hkeys key hsome hkey
          simp [hnone]
    · exact .inl ⟨fun _ => hid,by simp,by simp [State.command, State.run, State.hSet, hid]⟩
  | del stale =>
    by_cases hid : id ∈ stale
    · exact .inr (.inr ⟨stale,rfl,hid,by simp [State.command, State.run, State.del, hid]⟩)
    · exact .inl ⟨by simp,by simpa using hid,by simp [State.command, State.run, State.del, hid]⟩
  | zAdd => exact .inl ⟨by simp,by simp,rfl⟩
  | zCard => exact .inl ⟨by simp,by simp,rfl⟩
  | zRange count => exact .inl ⟨by simp,by simp,rfl⟩
  | zRem stale => exact .inl ⟨by simp,by simp,rfl⟩

theorem written_command (hindexed : Indexed max s) (h : Hashed max s) (hw : s.writes[i]? = some w)
    (hevent : s.events.get? w.id = some event) {event' : Event} (hevent' : s.events.get? id = some event') :
    (s.command max i w event).hashes id = some (serialize id event') ∨
      ((s.command max i w event).hashes id = none ∧ s.Outranked max id) ∨
      ∃ w' ∈ (s.command max i w event).writes, w'.id = id ∧ w'.stage = .hSet := by
  have hmem : w ∈ s.writes := List.mem_of_getElem? hw
  rcases hashes_command (i := i) h hevent id with ⟨hother,-,hsame⟩ | ⟨-,rfl,hhash⟩ | ⟨stale,hstage,hid,hnone⟩
  · rw [hsame]
    refine (h.written id event' hevent').imp_right (Or.imp_right ?_)
    rintro ⟨w',hw',rfl,hstage⟩
    rcases mem_before max event hw hw' with rfl | hkept
    · exact absurd rfl (hother hstage)
    · exact ⟨w',hkept,rfl,hstage⟩
  · obtain rfl := Option.some.inj (hevent.symm.trans hevent')
    exact .inl hhash
  · refine .inr (.inl ⟨hnone,hindexed.stale w hmem id ?_⟩)
    rw [hstage]
    exact hid

theorem leftover_command (h : Hashed max s) (hw : s.writes[i]? = some w) (hevent : s.events.get? w.id = some event)
    (hhash : (s.command max i w event).hashes id ≠ none) : id ∈ (s.command max i w event).index.members ∨
      ∃ w' ∈ (s.command max i w event).writes, w'.id = id ∧ w'.stage = .zAdd ∨ id ∈ w'.stage.stale := by
  rcases hashes_command (i := i) h hevent id with ⟨-,hspared,hsame⟩ | ⟨hstage,rfl,-⟩ | ⟨stale,-,-,hnone⟩
  · rw [hsame] at hhash
    rcases h.leftover id hhash with hindex | ⟨w',hw',hwrite⟩
    · rcases index_command max i s event w with hsame | ⟨-,hsame⟩ | ⟨stale,hstage,hsame⟩ <;> rw [hsame]
      · exact .inl hindex
      · exact .inl (SortedSet.mem_members_zAdd.mpr (.inr hindex))
      · by_cases hid : id ∈ stale
        · exact .inr ⟨⟨w.id,.del stale⟩,mem_command.mpr (.inr ⟨rfl,by rw [hstage]; rfl⟩),.inr hid⟩
        · exact .inl (SortedSet.mem_members_zRem.mpr ⟨hindex,hid⟩)
    · rcases mem_before max event hw hw' with rfl | hkept
      · obtain ⟨wid,stage⟩ := w'
        rcases hwrite with ⟨rfl,rfl⟩ | hstale
        · exact .inl (SortedSet.mem_members_zAdd.mpr (.inl rfl))
        · cases stage with
          | zRem stale => exact .inr ⟨⟨wid,.del stale⟩,mem_command.mpr (.inr ⟨rfl,rfl⟩),.inr hstale⟩
          | del stale => exact absurd hstale (hspared stale rfl)
          | hSet => cases hstale
          | zAdd => cases hstale
          | zCard => cases hstale
          | zRange count => cases hstale
      · exact .inr ⟨w',hkept,hwrite⟩
  · refine .inr ⟨⟨w.id,.zAdd⟩,mem_command.mpr (.inr ⟨rfl,?_⟩),.inl ⟨rfl,rfl⟩⟩
    rw [hstage]
    rfl
  · exact absurd hnone hhash

theorem hashed_command (hindexed : Indexed max s) (h : Hashed max s) (hw : s.writes[i]? = some w)
    (hevent : s.events.get? w.id = some event) : Hashed max (s.command max i w event) where
  known id hash hhash := by
    rw [events_command]
    rcases hashes_command (i := i) h hevent id with ⟨-,-,hsame⟩ | ⟨-,rfl,hwritten⟩ | ⟨stale,-,-,hnone⟩
    · exact h.known id hash (hsame.symm.trans hhash)
    · obtain rfl := Option.some.inj (hwritten.symm.trans hhash)
      exact ⟨event,hevent,fun _ hkey => hkey⟩
    · simp [hnone] at hhash
  written id event' hevent' := by
    rw [outranked_command]
    exact written_command hindexed h hw hevent (events_command (s := s) ▸ hevent')
  leftover id hhash := leftover_command h hw hevent hhash

end Command

section Runs

variable {max : Nat} {s t : State} {inputs : List Input}

theorem exact_step (h : Indexed max s ∧ Hashed max s) {input : Input} (hguard : Unshrunk s input)
    (hstep : step max s input = some t) : Indexed max t ∧ Hashed max t := by
  rcases step_write hstep with ⟨i,rfl⟩ | ⟨id,event,rfl,hnew⟩
  · obtain ⟨w,event,hw,hevent,rfl⟩ := step_command hstep
    exact ⟨indexed_command h.1 hw hevent (hguard w hw),hashed_command h.1 h.2 hw hevent⟩
  · exact ⟨indexed_write h.1 hnew,hashed_write h.2 hnew⟩

theorem indexed_start : Indexed max start :=
  ⟨fun _ he => (by cases he),fun _ hid => (by cases hid),fun _ hw => (by cases hw),fun _ hw => (by cases hw),
    .inl (Nat.zero_le max)⟩

theorem hashed_start : Hashed max start :=
  ⟨fun _ _ hhash => (by cases hhash),fun _ _ hevent => (by cases hevent),fun _ hhash => absurd rfl hhash⟩

theorem card_stamps (s : State) : s.stamps.card = s.events.size := by
  rw [State.stamps, List.toFinset_card_of_nodup, List.length_map, OrdMap.size]
  refine List.Nodup.of_map (fun e : Nat ×ₗ String => (ofLex e).2) ?_
  rw [List.map_map]
  exact s.events.nodup

theorem card_index (s : State) : s.index.entries.toFinset.card = s.index.zCard :=
  List.toFinset_card_of_nodup s.index.entries_nodup

theorem Indexed.eq_of_member (h : Indexed max s) {id : String} {event : Event} (hevent : s.events.get? id = some event)
    {e : Nat ×ₗ String} (he : e ∈ s.index.entries) (hid : (ofLex e).2 = id) : e = toLex (event.ts,id) := by
  obtain ⟨event',hevent',hts⟩ := h.created e he
  subst hid
  obtain rfl := Option.some.inj (hevent.symm.trans hevent')
  exact Prod.ext hts.symm rfl

theorem Indexed.newest (h : Indexed max s) (hquiet : s.writes = []) :
    s.index.zCard = min s.events.size max ∧ ∀ e ∈ s.stamps, e ∉ s.index.entries → ∀ e' ∈ s.index.entries, e < e' := by
  have hsub : s.index.entries.toFinset ⊆ s.stamps := fun e he => mem_stamps.mpr (h.created e (List.mem_toFinset.mp he))
  have hsmall : s.index.entries.toFinset.card ≤ max := by
    rw [card_index]
    exact h.settling.resolve_right fun ⟨w,hw,_⟩ => by simp [hquiet] at hw
  have hmissing : ∀ e ∈ s.stamps, e ∉ s.index.entries.toFinset → max ≤ (s.stamps.filter (e < ·)).card := by
    intro e he hnot
    obtain ⟨event,hevent,hts⟩ := mem_stamps.mp he
    have heq : toLex (event.ts,(ofLex e).2) = e := by rw [hts]; rfl
    have hindex : (ofLex e).2 ∉ s.index.members := by
      intro hmem
      obtain ⟨e',he',hid⟩ := SortedSet.mem_members.mp hmem
      rw [h.eq_of_member hevent he' hid, heq] at he'
      exact hnot (List.mem_toFinset.mpr he')
    rcases h.missing _ (OrdMap.mem_keys_iff.mpr ⟨event,hevent⟩) hindex with ⟨event',hevent',hnewer⟩ | ⟨w,hw,-⟩
    · obtain rfl := Option.some.inj (hevent.symm.trans hevent')
      rwa [heq] at hnewer
    · simp [hquiet] at hw
  obtain ⟨hsize,hnewest⟩ := SortedSet.newest_of_outranked hsub hsmall hmissing
  rw [card_index, card_stamps] at hsize
  exact ⟨hsize,fun e he hnot e' he' => hnewest e he (by simpa using hnot) e' (List.mem_toFinset.mpr he')⟩

theorem Indexed.not_outranked (h : Indexed max s) (hquiet : s.writes = []) {id : String} (hid : id ∈ s.index.members) :
    ¬ s.Outranked max id := by
  rintro ⟨event,hevent,hnewer⟩
  obtain ⟨hsize,hnewest⟩ := h.newest hquiet
  obtain ⟨e,he,heid⟩ := SortedSet.mem_members.mp hid
  rw [h.eq_of_member hevent he heid] at he
  have hsub : s.stamps.filter (toLex (event.ts,id) < ·) ⊆ s.index.entries.toFinset.erase (toLex (event.ts,id)) := by
    intro e' he'
    obtain ⟨hstamp,hlt⟩ := Finset.mem_filter.mp he'
    refine Finset.mem_erase.mpr ⟨ne_of_gt hlt,List.mem_toFinset.mpr ?_⟩
    by_contra hnot
    exact lt_asymm hlt (hnewest e' hstamp hnot _ he)
  have hcard := Finset.card_le_card hsub
  rw [Finset.card_erase_of_mem (List.mem_toFinset.mpr he), card_index] at hcard
  have hpos : 0 < s.index.zCard := List.length_pos_of_mem he
  omega

theorem retained_of_quiet (h : Indexed max s) (hhashed : Hashed max s) (hquiet : s.writes = []) : Retained max s := by
  obtain ⟨hsize,hnewest⟩ := h.newest hquiet
  exact {
    size := hsize
    created := h.created
    newest := fun id event hevent hindex e he => by
      refine hnewest (toLex (event.ts,id)) (mem_stamps.mpr ⟨event,hevent,rfl⟩) (fun hmem => hindex ?_) e he
      exact SortedSet.mem_members.mpr ⟨_,hmem,rfl⟩
    hashed := fun id event hevent hindex => by
      rcases hhashed.written id event hevent with hhash | ⟨-,houtranked⟩ | ⟨w,hw,-⟩
      · exact hhash
      · exact absurd houtranked (h.not_outranked hquiet hindex)
      · simp [hquiet] at hw
    only := fun id hindex => by
      by_contra hhash
      rcases hhashed.leftover id hhash with hmem | ⟨w,hw,-⟩
      · exact hindex hmem
      · simp [hquiet] at hw }

theorem retention (configured : Option Nat)
    (hguard : Run.Along (step (maxEvents configured)) Unshrunk start inputs)
    (hrun : Run.exec (step (maxEvents configured)) start inputs = some s) (hquiet : s.writes = []) :
    Retained (maxEvents configured) s := by
  have hexact := Run.invariant (P := fun s => Indexed (maxEvents configured) s ∧ Hashed (maxEvents configured) s)
    (fun _ _ _ h hunshrunk hstep => exact_step h hunshrunk hstep) ⟨indexed_start,hashed_start⟩ hguard hrun
  exact retained_of_quiet hexact.1 hexact.2 hquiet

def inTurn : List Input :=
  [.create "a" 1 (.of []),.command 0,.create "b" 2 (.of [])] ++ List.replicate 8 (.command 0) ++
    [.patch "a" (.of [("channel",noText)])] ++ List.replicate 6 (.command 0)

theorem retention_inTurn : ∃ s, Run.exec (step (maxEvents (some 1))) start inTurn = some s ∧
    s.index.members = ["b"] ∧ s.events.size = 2 ∧ Retained 1 s := by
  refine ⟨_,rfl,by decide,rfl,?_⟩
  have hguard : Run.Along (step (maxEvents (some 1))) Unshrunk start inTurn := by decide
  exact retention (some 1) hguard rfl rfl

def attempts : List Input := [.create "a" 1 (.of []),.create "b" 2 (.of [])]

theorem over_trimmed : ∃ s, Run.exec (step (maxEvents (some 1))) start (attempts ++ [.command 0,.command 0,.command 0,
      .command 0,.command 0,.command 0,.command 0,.command 1,.command 1,.command 0,.command 0,.command 0]) = some s ∧
    s.writes = [] ∧ s.events.size = 2 ∧ s.index.zCard = 0 ∧ ¬ Retained (maxEvents (some 1)) s := by
  refine ⟨_,rfl,rfl,rfl,rfl,fun h => ?_⟩
  have hsize := h.size
  revert hsize
  decide

end Runs

end JumpHost.AuditEvent
