import Mathlib.Data.List.Nodup
import LoraRan.Config.Store

namespace LoraRan.Config
open Protocol

-- A value as the store would keep it: inside its row's range and on its row's list.
def Settled (d : ParamDef) (v : Value) : Prop := clamp v d = v ∧ valueAllowed d v = true

instance settledDecidable (d : ParamDef) (v : Value) : Decidable (Settled d v) := inferInstanceAs (Decidable (_ ∧ _))

-- What the table's static assertions promise of its rows.
structure Table.Sound (t : Table) : Prop where
  distinct : (t.map ParamDef.id).Nodup
  typed : ∀ d ∈ t, ptypeWidth d.type ≠ 0
  ranges : ∀ d ∈ t, d.min ≤ d.max
  defaults : ∀ d ∈ t, Settled d d.default
  small : t.length ≤ maxTableParams
  phy : (t.filter fun d => d.access = .phy).length ≤ phyGroupSize

theorem row_mem (t : Table) (id : UInt16) (d : ParamDef) (found : t.row id = some d) : d ∈ t ∧ d.id = id := by
  have member := List.mem_of_find?_eq_some found
  have same := List.find?_some found
  exact ⟨member,by simpa using same⟩

theorem row_of_mem (t : Table) (sound : t.Sound) (d : ParamDef) (member : d ∈ t) : t.row d.id = some d := by
  have distinct := sound.distinct
  clear sound
  induction t with
  | nil => cases member
  | cons e rest ih =>
      rw [List.map_cons,List.nodup_cons] at distinct
      rw [Table.row,List.find?_cons]
      rcases List.mem_cons.mp member with rfl | later
      · simp
      · have other : (e.id == d.id) = false := by
          rw [beq_eq_false_iff_ne]
          intro same
          exact distinct.1 (same ▸ List.mem_map_of_mem later)
        rw [other]
        exact ih later distinct.2

theorem clamp_clamp (v : Value) (d : ParamDef) (range : d.min ≤ d.max) : clamp (clamp v d) d = clamp v d := by
  unfold clamp
  simp only [Int32.lt_iff_toInt_lt,Int32.le_iff_toInt_le] at *
  split
  · rw [if_neg (by omega),if_neg (by omega)]
  · split
    · rw [if_neg (by omega),if_neg (by omega)]
    · rfl

theorem clamp_settled (v : Value) (d : ParamDef) (range : d.min ≤ d.max) (allowed : valueAllowed d (clamp v d) = true) : Settled d (clamp v d) :=
  ⟨clamp_clamp v d range,allowed⟩

-- Lists of values by id.

def valueAt (values : List Override) (id : UInt16) : Option Override := values.find? fun o => o.id == id

theorem valueAt_setValue (values : List Override) (id other : UInt16) (v : Value) :
    valueAt (setValue values id v) other = if other = id then some ⟨id,v⟩ else valueAt values other := by
  unfold setValue valueAt
  split
  · rename_i present
    induction values with
    | nil => simp at present
    | cons o rest ih =>
        rw [List.map_cons,List.find?_cons,List.find?_cons]
        by_cases here : o.id = id
        · rw [if_pos here]
          by_cases asked : other = id
          · simp [asked]
          · have differs : (id == other) = false := by simpa using Ne.symm asked
            have differs' : (o.id == other) = false := by rw [here]; exact differs
            simp only [differs,differs',if_neg asked]
            by_cases later : rest.any (fun o => o.id == id)
            · rw [ih later,if_neg asked]
            · have away : ∀ p ∈ rest, (if p.id = id then (⟨id,v⟩ : Override) else p) = p := by
                intro p member
                exact if_neg fun same => later (List.any_eq_true.mpr ⟨p,member,by simpa using same⟩)
              rw [List.map_congr_left away,List.map_id']
        · rw [if_neg here]
          have later : rest.any (fun o => o.id == id) = true := by
            simpa [here] using present
          by_cases asked : other = id
          · have differs : (o.id == other) = false := by rw [asked]; simpa using here
            simp only [differs]
            exact ih later
          · cases (o.id == other) with
            | true => simp [asked]
            | false => exact ih later
  · rename_i absent
    rw [List.find?_append]
    by_cases asked : other = id
    · have missing : values.find? (fun o => o.id == other) = none := by
        rw [List.find?_eq_none]
        intro o member same
        exact absent (List.any_eq_true.mpr ⟨o,member,by simpa [asked] using same⟩)
      rw [missing,asked]
      simp
    · have differs : (id == other) = false := by simpa using Ne.symm asked
      simp [differs,asked]

theorem setValue_ids (values : List Override) (id : UInt16) (v : Value) :
    (setValue values id v).map Override.id = if id ∈ values.map Override.id then values.map Override.id else values.map Override.id ++ [id] := by
  unfold setValue
  by_cases present : id ∈ values.map Override.id
  · have found : values.any (fun o => o.id == id) = true := by
      obtain ⟨o,member,same⟩ := List.mem_map.mp present
      exact List.any_eq_true.mpr ⟨o,member,by simpa using same⟩
    rw [if_pos found,if_pos present,List.map_map]
    refine List.map_congr_left fun o _ => ?_
    by_cases here : o.id = id
    · simp [here]
    · simp [here]
  · have missing : ¬ values.any (fun o => o.id == id) = true := by
      intro found
      obtain ⟨o,member,same⟩ := List.any_eq_true.mp found
      exact present (List.mem_map.mpr ⟨o,member,by simpa using same⟩)
    rw [if_neg missing,if_neg present]
    simp

theorem setValue_distinct (values : List Override) (id : UInt16) (v : Value) (distinct : (values.map Override.id).Nodup) :
    ((setValue values id v).map Override.id).Nodup := by
  rw [setValue_ids]
  split
  · exact distinct
  · rename_i absent
    rw [List.nodup_append]
    refine ⟨distinct,List.nodup_singleton id,?_⟩
    intro a member b last
    rw [List.mem_singleton.mp last]
    exact fun same => absent (same ▸ member)

theorem setValue_mem (values : List Override) (id : UInt16) (v : Value) (o : Override) (member : o ∈ setValue values id v) :
    o = ⟨id,v⟩ ∨ o ∈ values := by
  unfold setValue at member
  split at member
  · obtain ⟨p,inside,rfl⟩ := List.mem_map.mp member
    split
    · exact .inl rfl
    · exact .inr inside
  · rcases List.mem_append.mp member with inside | last
    · exact .inr inside
    · exact .inl (List.mem_singleton.mp last)

-- Stores.

section
variable {π : Type} {s : Store π}

-- What every operation keeps: one value an id, each of a row that takes it.
structure Store.Tidy (s : Store π) : Prop where
  sound : s.table.Sound
  distinct : (s.overrides.map Override.id).Nodup
  held : ∀ o ∈ s.overrides, ∃ d, s.table.row o.id = some d ∧ d.access ≠ .readOnly ∧ Settled d o.value
  trialDistinct : (s.trial.map Override.id).Nodup
  trialHeld : ∀ o ∈ s.trial, ∃ d, s.table.row o.id = some d ∧ d.access = .phy ∧ Settled d o.value

theorem Store.effective_row (s : Store π) (id : UInt16) (d : ParamDef) (found : s.table.row id = some d) :
    s.effective id = ((valueAt s.trial id).map Override.value).getD (((valueAt s.overrides id).map Override.value).getD d.default) := by
  unfold Store.effective Store.trialSlot Store.slot valueAt
  rw [found]
  cases s.trial.find? fun o => o.id == id with
  | some t => rfl
  | none =>
      cases s.overrides.find? fun o => o.id == id with
      | some o => rfl
      | none => rfl

theorem Store.effective_setTrial (s : Store π) (id other : UInt16) (v : Value) (d : ParamDef) (found : s.table.row id = some d) :
    Store.effective {s with trial := setValue s.trial id v} other = if other = id then v else s.effective other := by
  cases row : s.table.row other with
  | none =>
      have away : other ≠ id := by
        rintro rfl
        rw [row] at found
        cases found
      rw [if_neg away]
      simp only [Store.effective,row]
  | some r =>
      have set := Store.effective_row {s with trial := setValue s.trial id v} other r row
      rw [set,Store.effective_row s other r row,valueAt_setValue]
      by_cases here : other = id
      · simp only [if_pos here]
        rfl
      · simp only [if_neg here]

theorem valueAt_mem (values : List Override) (id : UInt16) (o : Override) (found : valueAt values id = some o) : o ∈ values ∧ o.id = id := by
  have same := List.find?_some found
  exact ⟨List.mem_of_find?_eq_some found,by simpa using same⟩

-- Whatever a row runs at, the store would keep.
theorem Store.Tidy.effective_settled (tidy : s.Tidy) (id : UInt16) (d : ParamDef) (found : s.table.row id = some d) :
    Settled d (s.effective id) := by
  rw [s.effective_row id d found]
  cases inTrial : valueAt s.trial id with
  | some t =>
      obtain ⟨member,rfl⟩ := valueAt_mem s.trial id t inTrial
      obtain ⟨e,row,_,settled⟩ := tidy.trialHeld t member
      rw [found] at row
      cases row
      exact settled
  | none =>
      cases inStore : valueAt s.overrides id with
      | some o =>
          obtain ⟨member,rfl⟩ := valueAt_mem s.overrides id o inStore
          obtain ⟨e,row,_,settled⟩ := tidy.held o member
          rw [found] at row
          cases row
          exact settled
      | none => exact tidy.sound.defaults d (row_mem s.table id d found).1

-- There is always room for one more value of the table.
theorem Store.Tidy.room (tidy : s.Tidy) (id : UInt16) (d : ParamDef) (found : s.table.row id = some d) (absent : valueAt s.overrides id = none) :
    s.overrides.length < maxTableParams := by
  have fresh : id ∉ s.overrides.map Override.id := by
    intro present
    obtain ⟨o,member,same⟩ := List.mem_map.mp present
    have missing := List.find?_eq_none.mp absent o member
    simp [same] at missing
  have distinct : (id :: s.overrides.map Override.id).Nodup := List.nodup_cons.mpr ⟨fresh,tidy.distinct⟩
  have inside : id :: s.overrides.map Override.id ⊆ s.table.map ParamDef.id := by
    intro other member
    rcases List.mem_cons.mp member with rfl | present
    · obtain ⟨rowMember,same⟩ := row_mem s.table _ d found
      exact List.mem_map.mpr ⟨d,rowMember,same⟩
    · obtain ⟨o,overriding,rfl⟩ := List.mem_map.mp present
      obtain ⟨e,row,_⟩ := tidy.held o overriding
      obtain ⟨rowMember,same⟩ := row_mem s.table _ e row
      exact List.mem_map.mpr ⟨e,rowMember,same⟩
  have bounded := (List.subperm_of_subset distinct inside).length_le
  rw [List.length_cons,List.length_map,List.length_map] at bounded
  have small := tidy.sound.small
  omega

theorem Store.Tidy.setOverride (tidy : s.Tidy) (id : UInt16) (d : ParamDef) (v : Value) (found : s.table.row id = some d)
    (writable : d.access ≠ .readOnly) (settled : Settled d v) :
    s.setOverride id v = some {s with overrides := setValue s.overrides id v} ∧
      Store.Tidy {s with overrides := setValue s.overrides id v} := by
  constructor
  · unfold Store.setOverride
    refine if_neg fun full => ?_
    have absent : valueAt s.overrides id = none := Option.isNone_iff_eq_none.mp full.1
    have room := tidy.room id d found absent
    omega
  · refine ⟨tidy.sound,setValue_distinct _ _ _ tidy.distinct,?_,tidy.trialDistinct,tidy.trialHeld⟩
    intro o member
    rcases setValue_mem _ _ _ o member with rfl | inside
    · exact ⟨d,found,writable,settled⟩
    · exact tidy.held o inside

theorem Store.Tidy.setTrial (tidy : s.Tidy) (id : UInt16) (d : ParamDef) (v : Value) (found : s.table.row id = some d)
    (phy : d.access = .phy) (settled : Settled d v) : Store.Tidy {s with trial := setValue s.trial id v} := by
  refine ⟨tidy.sound,tidy.distinct,tidy.held,setValue_distinct _ _ _ tidy.trialDistinct,?_⟩
  intro o member
  rcases setValue_mem _ _ _ o member with rfl | inside
  · exact ⟨d,found,phy,settled⟩
  · exact tidy.trialHeld o inside

theorem Store.Tidy.revert (tidy : s.Tidy) : s.revertPhyTrial.Tidy :=
  ⟨tidy.sound,tidy.distinct,tidy.held,List.nodup_nil,fun _ member => absurd member List.not_mem_nil⟩

-- The persist state is no part of it.
theorem Store.Tidy.persisted (tidy : s.Tidy) (persist : Option π) : Store.Tidy {s with persist := persist} :=
  ⟨tidy.sound,tidy.distinct,tidy.held,tidy.trialDistinct,tidy.trialHeld⟩

-- An entry of its row's type and width, and the value it asks for.
def Shaped (d : ParamDef) (e : ConfigEntry) : Prop := e.ptype = d.type ∧ e.len.toNat = ptypeWidth d.type

def ConfigEntry.asked (e : ConfigEntry) : Value := entrySigned e.value e.len e.ptype

-- An entry answered OK or CLAMPED, and one answered OK.
def Taken (d : ParamDef) (e : ConfigEntry) : Prop := Shaped d e ∧ valueAllowed d (clamp (ConfigEntry.asked e) d) = true

instance takenDecidable (d : ParamDef) (e : ConfigEntry) : Decidable (Taken d e) := inferInstanceAs (Decidable ((_ ∧ _) ∧ _))

def Exact (d : ParamDef) (e : ConfigEntry) : Prop := Shaped d e ∧ Settled d (ConfigEntry.asked e)

instance exactDecidable (d : ParamDef) (e : ConfigEntry) : Decidable (Exact d e) := inferInstanceAs (Decidable ((_ ∧ _) ∧ _ ∧ _))

theorem Exact.taken {d : ParamDef} {e : ConfigEntry} (precise : Exact d e) : Taken d e := by
  refine ⟨precise.1,?_⟩
  rw [precise.2.1]
  exact precise.2.2

theorem pack_status (d : ParamDef) (typed : ptypeWidth d.type ≠ 0) (id : UInt16) (status : ParamStatus) (raw : UInt32) :
    (ConfigAckEntry.pack {} id status d.type raw).status = status.code := by
  have wide : paramValueLen d.type ≠ 0 := typed
  simp only [ConfigAckEntry.pack,if_neg wide]

theorem held_status (s : Store π) (d : ParamDef) (typed : ptypeWidth d.type ≠ 0) (status : ParamStatus) : (s.held d status).status = status.code :=
  pack_status d typed _ _ _

-- Everything apply() can do to a PHY row.
theorem Store.apply_phy (ops : Persist π) (tidy : s.Tidy) (e : ConfigEntry) (d : ParamDef) (found : s.table.row e.paramId = some d) (phy : d.access = .phy) :
    (Taken d e ∧ s.phyWritable ops = true ∧
      (s.apply ops e).store = {s with trial := setValue s.trial e.paramId (clamp (ConfigEntry.asked e) d)} ∧
      ((s.apply ops e).result.status = ParamStatus.ok.code ↔ Exact d e)) ∨
    (¬ (Taken d e ∧ s.phyWritable ops = true) ∧ (s.apply ops e).store = s ∧ (s.apply ops e).result.status ≠ ParamStatus.ok.code) := by
  obtain ⟨member,same⟩ := row_mem s.table _ d found
  have typed := tidy.sound.typed d member
  unfold Store.apply
  rw [found]
  dsimp only
  by_cases shaped : Shaped d e
  · rw [if_neg (by rw [← not_and_or,not_not]; exact shaped)]
    by_cases writable : s.phyWritable ops = true
    · rw [if_neg (by simp [phy,writable])]
      by_cases allowed : valueAllowed d (clamp (ConfigEntry.asked e) d) = true
      · left
        have allowed' : valueAllowed d (clamp (entrySigned e.value e.len e.ptype) d) = true := allowed
        simp only [allowed',Bool.not_true,Bool.false_eq_true,if_false,phy,if_true]
        refine ⟨⟨shaped,allowed⟩,writable,by rw [same]; rfl,?_⟩
        rw [pack_status d typed]
        by_cases inside : clamp (entrySigned e.value e.len e.ptype) d = entrySigned e.value e.len e.ptype
        · rw [inside] at allowed'
          rw [if_pos inside]
          exact ⟨fun _ => ⟨shaped,inside,allowed'⟩,fun _ => rfl⟩
        · rw [if_neg inside]
          exact ⟨fun code => absurd code (by decide),fun precise => absurd precise.2.1 inside⟩
      · right
        have refused : valueAllowed d (clamp (entrySigned e.value e.len e.ptype) d) = false := by simpa [ConfigEntry.asked] using allowed
        simp only [refused,Bool.not_false,if_true]
        refine ⟨fun both => allowed both.1.2,trivial,?_⟩
        rw [held_status s d typed]
        decide
    · right
      rw [if_pos (.inr ⟨phy,by simpa using writable⟩)]
      refine ⟨fun both => writable both.2,rfl,?_⟩
      rw [held_status s d typed]
      decide
  · right
    rw [if_pos (by rw [← not_and_or]; exact shaped)]
    refine ⟨fun both => shaped both.1.1,rfl,?_⟩
    rw [held_status s d typed]
    decide

-- restore() sets the value it clamps to, or nothing.
theorem Store.Tidy.restore (ops : Persist π) (tidy : s.Tidy) (id : UInt16) (v : Value) :
    (s.restore ops id v).2 = s ∨
    ∃ d, s.table.row id = some d ∧ d.access ≠ .readOnly ∧ valueAllowed d (clamp v d) = true ∧
      (s.restore ops id v).2 = {s with overrides := setValue s.overrides id (clamp v d)} := by
  unfold Store.restore
  cases found : s.table.row id with
  | none => exact .inl rfl
  | some d =>
      dsimp only
      split
      · exact .inl rfl
      · rename_i writable
        split
        · exact .inl rfl
        · rename_i allowed
          have kept : valueAllowed d (clamp v d) = true := by simpa using allowed
          have access : d.access ≠ .readOnly := fun only => writable (.inl only)
          have settled := clamp_settled v d (tidy.sound.ranges d (row_mem s.table id d found).1) kept
          rw [(tidy.setOverride id d _ found access settled).1]
          exact .inr ⟨d,rfl,access,kept,rfl⟩

theorem Store.Tidy.restored (ops : Persist π) (tidy : s.Tidy) (id : UInt16) (v : Value) : (s.restore ops id v).2.Tidy := by
  rcases tidy.restore ops id v with same | ⟨d,found,writable,allowed,set⟩
  · rw [same]
    exact tidy
  · rw [set]
    have settled := clamp_settled v d (tidy.sound.ranges d (row_mem s.table id d found).1) allowed
    exact (tidy.setOverride id d _ found writable settled).2

-- A group of values the rows take, written over the overrides one by one.
theorem Store.Tidy.setAll (tidy : s.Tidy) (values : List (UInt16 × Value))
    (takes : ∀ row ∈ values, ∃ d, s.table.row row.1 = some d ∧ d.access ≠ .readOnly ∧ Settled d row.2) :
    (s.setAll values).Tidy ∧
      s.setAll values = {s with overrides := values.foldl (fun overrides row => setValue overrides row.1 row.2) s.overrides} := by
  induction values generalizing s with
  | nil => exact ⟨tidy,rfl⟩
  | cons row rest ih =>
      obtain ⟨d,found,writable,settled⟩ := takes row List.mem_cons_self
      obtain ⟨set,next⟩ := tidy.setOverride row.1 d row.2 found writable settled
      have first : s.setAll (row :: rest) = Store.setAll {s with overrides := setValue s.overrides row.1 row.2} rest := by
        simp only [Store.setAll,List.foldl_cons,set,Option.getD_some]
      rw [first]
      exact ih next fun other member => takes other (List.mem_cons_of_mem row member)

theorem valueAt_setAll (values : List (UInt16 × Value)) (overrides : List Override) (id : UInt16) (distinct : (values.map Prod.fst).Nodup) :
    valueAt (values.foldl (fun overrides row => setValue overrides row.1 row.2) overrides) id =
      match values.find? fun row => row.1 == id with
      | some row => some ⟨id,row.2⟩
      | none => valueAt overrides id := by
  induction values generalizing overrides with
  | nil => rfl
  | cons row rest ih =>
      rw [List.map_cons,List.nodup_cons] at distinct
      rw [List.foldl_cons,ih _ distinct.2,List.find?_cons]
      by_cases here : row.1 = id
      · have missing : rest.find? (fun row => row.1 == id) = none := by
          rw [List.find?_eq_none]
          intro other member same
          exact distinct.1 (List.mem_map.mpr ⟨other,member,by rw [here]; simpa using same⟩)
        rw [missing]
        simp [valueAt_setValue,here]
      · have differs : (row.1 == id) = false := by simpa using here
        rw [differs]
        dsimp only
        cases rest.find? fun row => row.1 == id with
        | some _ => rfl
        | none => simp [valueAt_setValue,Ne.symm here]

-- The whole group, as commit_phy_trial() writes it.
theorem Store.Tidy.group_takes (tidy : s.Tidy) :
    ∀ row ∈ s.group, ∃ d, s.table.row row.1 = some d ∧ d.access ≠ .readOnly ∧ Settled d row.2 := by
  intro row member
  obtain ⟨d,inside,rfl⟩ := List.mem_map.mp member
  have phy := List.mem_filter.mp (List.mem_of_mem_take inside)
  have found := row_of_mem s.table tidy.sound d phy.1
  have access : d.access = .phy := by simpa using phy.2
  exact ⟨d,found,by rw [access]; decide,tidy.effective_settled d.id d found⟩

-- A commit keeps the trial's values as overrides, or changes nothing but the persist state.
theorem Store.Tidy.commit (ops : Persist π) (tidy : s.Tidy) :
    ((s.commitPhyTrial ops).1 = true ∧ s.trial = [] ∧ (s.commitPhyTrial ops).2 = s) ∨
    (∃ persist, (s.commitPhyTrial ops).1 = false ∧ (s.commitPhyTrial ops).2 = {s with persist := persist} ∧
      (persist = s.persist ∨ ∃ p, s.persist = some p ∧ (ops.saveGroup p s.group).1 = false ∧ persist = some (ops.saveGroup p s.group).2)) ∨
    (∃ p, s.persist = some p ∧ (s.commitPhyTrial ops).1 = true ∧ (ops.saveGroup p s.group).1 = true ∧
      (s.commitPhyTrial ops).2 =
        {s with
          persist := some (ops.saveGroup p s.group).2
          overrides := s.group.foldl (fun overrides row => setValue overrides row.1 row.2) s.overrides
          trial := []}) := by
  unfold Store.commitPhyTrial
  split
  · rename_i empty
    exact .inl ⟨rfl,List.length_eq_zero_iff.mp empty,rfl⟩
  · split
    · exact .inr (.inl ⟨s.persist,rfl,rfl,.inl rfl⟩)
    · split
      · exact .inr (.inl ⟨s.persist,rfl,rfl,.inl rfl⟩)
      · rename_i p here
        dsimp only
        cases saved : (ops.saveGroup p s.group).1 with
        | false => exact .inr (.inl ⟨_,rfl,rfl,.inr ⟨p,here,saved,rfl⟩⟩)
        | true =>
            refine .inr (.inr ⟨p,here,rfl,saved,?_⟩)
            simp only [Bool.not_true,Bool.false_eq_true,if_false]
            rw [((tidy.persisted (some (ops.saveGroup p s.group).2)).setAll s.group tidy.group_takes).2]

theorem Store.Tidy.committed (ops : Persist π) (tidy : s.Tidy) : (s.commitPhyTrial ops).2.Tidy := by
  rcases tidy.commit ops with ⟨_,_,same⟩ | ⟨persist,_,same,_⟩ | ⟨p,_,_,_,same⟩
  · rw [same]
    exact tidy
  · rw [same]
    exact tidy.persisted persist
  · rw [same]
    obtain ⟨set,equal⟩ := tidy.setAll s.group tidy.group_takes
    rw [equal] at set
    exact (set.persisted _).revert

theorem Store.Tidy.forgotten (tidy : s.Tidy) : s.forgetPhyGroup.Tidy := by
  refine ⟨tidy.sound,?_,?_,List.nodup_nil,fun _ member => absurd member List.not_mem_nil⟩
  · exact tidy.distinct.sublist (List.filter_sublist.map Override.id)
  · intro o member
    exact tidy.held o (List.mem_of_mem_filter member)

end
end LoraRan.Config
