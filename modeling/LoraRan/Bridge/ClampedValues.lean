import LoraRan.Bridge.ConfigStore
import LoraRan.Config.TruthfulApply
import LoraRan.Protocol.ConfigTrip

namespace LoraRan.Bridge
open Protocol Config

-- The number a value's lowest bytes spell in a row's type, as many as the type has.
def wrapped (t : UInt8) (v : Int) : Int :=
  if t = ptypeI16 then Int.bmod v (2 ^ 16)
  else if ptypeWidth t = 4 then v
  else v % 2 ^ (8 * ptypeWidth t)

-- A row whose bounds its own type can hold.
def Roomy (d : ParamDef) : Prop :=
  d.type ∈ ptypes ∧ d.min < d.max ∧ wrapped d.type d.min.toInt = d.min.toInt ∧ wrapped d.type d.max.toInt = d.max.toInt

instance roomyDecidable (d : ParamDef) : Decidable (Roomy d) := inferInstanceAs (Decidable (_ ∧ _ ∧ _ ∧ _))

theorem tables_roomy : ∀ d ∈ bridgeGlobalParams ++ bridgePerNodeParams ++ nodeCommonParams ++ gateLinkParams, Roomy d := by
  decide +kernel

theorem scope_roomy {scope : ConfigScope} {node : NodeId} {p : OwnedParam} (member : p ∈ scopeRows scope node) : Roomy p.row := by
  refine tables_roomy p.row ?_
  have bridges : p ∈ bridgeParams → p.row ∈ bridgeGlobalParams ++ bridgePerNodeParams ++ nodeCommonParams ++ gateLinkParams := by
    intro inside
    rcases List.mem_append.mp inside with global | perNode
    · obtain ⟨d,here,rfl⟩ := List.mem_map.mp global
      simp [here]
    · obtain ⟨d,here,rfl⟩ := List.mem_map.mp perNode
      simp [here]
  unfold scopeRows at member
  cases scope with
  | bridge => exact bridges (List.mem_of_mem_filter member)
  | node =>
      rcases List.mem_append.mp member with perNode | own
      · exact bridges (List.mem_of_mem_filter perNode)
      · obtain ⟨d,here,rfl⟩ := List.mem_map.mp own
        unfold nodeBlock at here
        split at here
        · simp only [List.mem_append] at here ⊢
          tauto
        · simp only [List.append_nil,List.mem_append] at here ⊢
          tauto

-- Packing and unpacking a value wraps it to its type.
theorem signed_pack (t : UInt8) (typed : t ∈ ptypes) (v : Value) :
    (entrySigned (packValue (ptypeWidth t) (rawBits v t)) (UInt8.ofNat (ptypeWidth t)) t).toInt = wrapped t v.toInt := by
  have low := rawBits_low v t typed
  have lo := v.le_toInt
  have hi := v.toInt_lt
  unfold entrySigned
  dsimp only
  generalize entryRaw (packValue (ptypeWidth t) (rawBits v t)) (UInt8.ofNat (ptypeWidth t)) = raw at low ⊢
  have small : ptypeWidth t ≤ 2 → raw.toNat < 2 ^ 16 := by
    intro narrow
    have width : ptypeWidth t = 0 ∨ ptypeWidth t = 1 ∨ ptypeWidth t = 2 := by omega
    rcases width with zero | one | two
    · rw [zero] at low
      omega
    · rw [one] at low
      omega
    · rw [two] at low
      omega
  rw [carried_number t raw typed small]
  unfold ptypes at typed
  simp only [List.mem_cons,List.not_mem_nil,or_false] at typed
  rcases typed with rfl | rfl | rfl | rfl | rfl | rfl
  · rw [if_neg fun both => absurd both.1 (by decide),spelled_unsigned _ _ (by decide) (by decide)]
    exact low
  · rw [if_neg fun both => absurd both.1 (by decide),spelled_unsigned _ _ (by decide) (by decide)]
    exact low
  · rw [spelled_unsigned _ _ (by decide) (by decide)]
    change (raw.toNat : Int) = v.toInt % 2 ^ 32 at low
    change (if ptypeU32 = ptypeU32 ∧ 2 ^ 31 ≤ (raw.toNat : Int) then (raw.toNat : Int) - 2 ^ 32 else (raw.toNat : Int)) = v.toInt
    split
    · omega
    · rename_i below
      have less : ¬ (2 : Int) ^ 31 ≤ (raw.toNat : Int) := fun high => below ⟨rfl,high⟩
      omega
  · rw [if_neg fun both => absurd both.1 (by decide),spelled,if_pos rfl]
    change (raw.toNat : Int) = v.toInt % 2 ^ 16 at low
    rw [low]
    exact Int.emod_bmod _ _
  · rw [if_neg fun both => absurd both.1 (by decide),spelled,if_neg (by decide),if_pos rfl]
    change (raw.toNat : Int) = v.toInt % 2 ^ 32 at low
    change Int.bmod raw.toNat (2 ^ 32) = v.toInt
    rw [low,Int.bmod_def]
    split <;> omega
  · rw [if_neg fun both => absurd both.1 (by decide),spelled_unsigned _ _ (by decide) (by decide)]
    exact low

-- What the type holds at both ends it holds in between.
theorem wrapped_between (t : UInt8) (low high v : Int) (fitsLow : wrapped t low = low) (fitsHigh : wrapped t high = high) (above : low ≤ v)
    (below : v ≤ high) : wrapped t v = v := by
  unfold wrapped at *
  split
  · rename_i i16
    rw [if_pos i16] at fitsLow fitsHigh
    rw [Int.bmod_def] at *
    split at fitsLow <;> split at fitsHigh <;> split <;> omega
  · rename_i notI16
    rw [if_neg notI16] at fitsLow fitsHigh
    split
    · rfl
    · rename_i narrow
      rw [if_neg narrow] at fitsLow fitsHigh
      have positive : (0 : Int) < 2 ^ (8 * ptypeWidth t) := Int.pow_pos (by decide)
      refine Int.emod_eq_of_lt ?_ ?_
      · have nonneg := Int.emod_nonneg low (Int.ne_of_gt positive)
        omega
      · have less := Int.emod_lt_of_pos high positive
        omega

-- No value of the range lies closer.
def Nearest (d : ParamDef) (v x : Value) : Prop :=
  d.min ≤ x ∧ x ≤ d.max ∧ ∀ y, d.min ≤ y → y ≤ d.max → (v.toInt - x.toInt).natAbs ≤ (v.toInt - y.toInt).natAbs

-- The value the row ends at, what is told of it and under which status: the nearest in range, OK exactly inside the range.
def ClampedTruly (d : ParamDef) (v effective : Value) (status : ResultStatus) (shown : Option Value) : Prop :=
  Nearest d v effective ∧ shown = some effective ∧ status = if d.min ≤ v ∧ v ≤ d.max then .ok else .clamped

-- The wrapped value lies on the same side of the range as the value itself.
def SameSide (d : ParamDef) (v : Value) : Prop :=
  (v < d.min → wrapped d.type v.toInt < d.min.toInt) ∧ (d.max < v → d.max.toInt < wrapped d.type v.toInt)

instance sameSideDecidable (d : ParamDef) (v : Value) : Decidable (SameSide d v) := inferInstanceAs (Decidable (_ ∧ _))

-- A value told as an answer's status and value.
def toldStatus (r : ConfigAckEntry) : ResultStatus := resultStatusOf r.status

def toldValue (r : ConfigAckEntry) : Option Value := if 0 < r.len then some (entrySigned r.value r.len r.ptype) else none

theorem clamp_below {d : ParamDef} {x : Value} (below : x < d.min) : clamp x d = d.min := if_pos below

theorem clamp_above {d : ParamDef} {x : Value} (order : d.min < d.max) (above : d.max < x) : clamp x d = d.max := by
  unfold clamp
  simp only [Int32.lt_iff_toInt_lt] at *
  rw [if_neg (by omega),if_pos above]

theorem clamp_inside {d : ParamDef} {x : Value} (low : ¬ x < d.min) (high : ¬ d.max < x) : clamp x d = x := by
  unfold clamp
  rw [if_neg low,if_neg high]

theorem clamp_range (d : ParamDef) (order : d.min < d.max) (x : Value) : d.min.toInt ≤ (clamp x d).toInt ∧ (clamp x d).toInt ≤ d.max.toInt := by
  unfold clamp
  simp only [Int32.lt_iff_toInt_lt] at *
  split
  · omega
  · split <;> omega

theorem nearest_clamp {d : ParamDef} (order : d.min < d.max) (v x : Value) : Nearest d v x ↔ x = clamp v d := by
  have range := clamp_range d order v
  constructor
  · rintro ⟨low,high,closest⟩
    have near := closest (clamp v d) (Int32.le_iff_toInt_le.mpr range.1) (Int32.le_iff_toInt_le.mpr range.2)
    refine int32_same ?_
    unfold clamp at *
    simp only [Int32.lt_iff_toInt_lt,Int32.le_iff_toInt_le] at *
    split at near
    · rw [if_pos (by assumption)]
      omega
    · rw [if_neg (by assumption)]
      split at near
      · rw [if_pos (by assumption)]
        omega
      · rw [if_neg (by assumption)]
        omega
  · rintro rfl
    refine ⟨Int32.le_iff_toInt_le.mpr range.1,Int32.le_iff_toInt_le.mpr range.2,fun y low high => ?_⟩
    unfold clamp
    simp only [Int32.lt_iff_toInt_lt,Int32.le_iff_toInt_le] at *
    split
    · omega
    · split <;> omega

theorem clamp_sides (d : ParamDef) (v w : Value) (order : d.min < d.max) (within : d.min ≤ v → v ≤ d.max → w = v) :
    ClampedTruly d v (clamp w d) (if clamp w d = w then .ok else .clamped) (some (clamp w d)) ↔
      (v < d.min → w < d.min) ∧ (d.max < v → d.max < w) := by
  have apart : d.max ≠ d.min := by
    intro same
    rw [same] at order
    exact Int32.lt_irrefl order
  unfold ClampedTruly
  rw [nearest_clamp order]
  constructor
  · rintro ⟨lands,_,status⟩
    refine ⟨fun below => ?_,fun above => ?_⟩
    · have outside : ¬ (d.min ≤ v ∧ v ≤ d.max) := fun inside => Int32.not_le.mpr below inside.1
      rw [if_neg outside] at status
      rw [clamp_below below] at lands
      by_contra notBelow
      by_cases past : d.max < w
      · rw [clamp_above order past] at lands
        exact apart lands
      · rw [if_pos (clamp_inside notBelow past)] at status
        cases status
    · have outside : ¬ (d.min ≤ v ∧ v ≤ d.max) := fun inside => Int32.not_le.mpr above inside.2
      rw [if_neg outside] at status
      rw [clamp_above order above] at lands
      by_contra notAbove
      by_cases under : w < d.min
      · rw [clamp_below under] at lands
        exact apart lands.symm
      · rw [if_pos (clamp_inside under notAbove)] at status
        cases status
  · rintro ⟨low,high⟩
    by_cases below : v < d.min
    · have under := low below
      have outside : ¬ (d.min ≤ v ∧ v ≤ d.max) := fun inside => Int32.not_le.mpr below inside.1
      rw [clamp_below below,clamp_below under,if_neg outside,if_neg (Int32.ne_of_lt under).symm]
      exact ⟨rfl,rfl,rfl⟩
    · by_cases above : d.max < v
      · have past := high above
        have outside : ¬ (d.min ≤ v ∧ v ≤ d.max) := fun inside => Int32.not_le.mpr above inside.2
        rw [clamp_above order above,clamp_above order past,if_neg outside,if_neg (Int32.ne_of_lt past)]
        exact ⟨rfl,rfl,rfl⟩
      · have inside : d.min ≤ v ∧ v ≤ d.max := ⟨Int32.not_lt.mp below,Int32.not_lt.mp above⟩
        rw [within inside.1 inside.2,clamp_inside below above,if_pos inside,if_pos rfl]
        exact ⟨rfl,rfl,rfl⟩

section
variable {π : Type} {ops : Persist π} {s : Store π}

theorem entryFor_shaped (d : ParamDef) (typed : d.type ∈ ptypes) (v : Value) : Shaped d (entryFor d v) ∧ (entryFor d v).paramId = d.id ∧
    ConfigEntry.asked (entryFor d v) = entrySigned (packValue (ptypeWidth d.type) (rawBits v d.type)) (UInt8.ofNat (ptypeWidth d.type)) d.type := by
  have wide : paramValueLen d.type ≠ 0 := ptype_width_of_typed typed
  have small : ptypeWidth d.type < 256 := by
    unfold ptypeWidth paramValueLen
    split
    · omega
    · split
      · omega
      · split <;> omega
  unfold entryFor ConfigEntry.pack
  simp only [if_neg wide]
  exact ⟨⟨rfl,UInt8.toNat_ofNat_of_lt' small⟩,trivial,rfl⟩

-- A value packed for its row and applied by the store that holds it.
theorem store_takes_entry (tidy : s.Tidy) (d : ParamDef) (found : s.table.row d.id = some d) (roomy : Roomy d) (plain : d.access = .readWrite)
    (unlisted : ∀ x, valueAllowed d x = true) (v : Value) :
    ClampedTruly d v ((s.apply ops (entryFor d v)).store.effective d.id) (toldStatus (s.apply ops (entryFor d v)).result)
      (toldValue (s.apply ops (entryFor d v)).result) ↔ SameSide d v := by
  obtain ⟨typed,order,fitsLow,fitsHigh⟩ := roomy
  obtain ⟨shaped,named,asked⟩ := entryFor_shaped d typed v
  have number : (ConfigEntry.asked (entryFor d v)).toInt = wrapped d.type v.toInt := by
    rw [asked]
    exact signed_pack d.type typed v
  have width := ptype_width_of_typed typed
  have possible := s.apply_case ops tidy (entryFor d v)
  generalize s.apply ops (entryFor d v) = a at possible ⊢
  have only : ∀ d', s.table.row (entryFor d v).paramId = some d' → d' = d := by
    intro d' found'
    rw [named,found] at found'
    exact (Option.some.inj found').symm
  cases possible with
  | unknown missing =>
      rw [named,found] at missing
      cases missing
  | mismatched d' found' unlike =>
      rw [only d' found'] at unlike
      exact absurd shaped unlike
  | refused d' found' _ closed =>
      rw [only d' found'] at closed
      exact absurd (.inl plain) closed
  | off d' found' _ _ off =>
      rw [only d' found',unlisted] at off
      cases off
  | tried d' found' _ _ _ phy =>
      rw [only d' found',plain] at phy
      cases phy
  | kept d' found' _ _ _ =>
      cases only d' found'
      generalize ConfigEntry.asked (entryFor d v) = w at number ⊢
      have lands : wrapped d.type (clamp w d).toInt = (clamp w d).toInt :=
        wrapped_between d.type d.min.toInt d.max.toInt _ fitsLow fitsHigh (clamp_range d order w).1 (clamp_range d order w).2
      have effective := tidy.effective_setOverride d.id d.id (clamp w d) d (s.saving ops d.id (clamp w d)).2 found plain
      rw [if_pos rfl] at effective
      rw [effective]
      have wide : paramValueLen d.type ≠ 0 := width
      have shown : toldValue {ConfigAckEntry.pack {} d.id (if clamp w d = w then .ok else .clamped) d.type (rawBits (clamp w d) d.type) with
          isOverride := true} = some (clamp w d) := by
        have lenPositive : 0 < UInt8.ofNat (paramValueLen d.type) := by
          have cases_ : paramValueLen d.type = 1 ∨ paramValueLen d.type = 2 ∨ paramValueLen d.type = 4 := by
            unfold paramValueLen at wide ⊢
            split
            · exact .inl rfl
            · split
              · exact .inr (.inl rfl)
              · split
                · exact .inr (.inr rfl)
                · simp_all
          rcases cases_ with one | two | four
          · rw [one]; decide
          · rw [two]; decide
          · rw [four]; decide
        unfold toldValue ConfigAckEntry.pack
        simp only [if_neg wide,if_pos lenPositive]
        congr 1
        refine int32_same ?_
        rw [← lands]
        exact signed_pack d.type typed (clamp w d)
      have status : toldStatus {ConfigAckEntry.pack {} d.id (if clamp w d = w then .ok else .clamped) d.type (rawBits (clamp w d) d.type) with
          isOverride := true} = if clamp w d = w then .ok else .clamped := by
        unfold toldStatus
        rw [show ({ConfigAckEntry.pack {} d.id (if clamp w d = w then .ok else .clamped) d.type (rawBits (clamp w d) d.type) with
          isOverride := true} : ConfigAckEntry).status = (if clamp w d = w then ParamStatus.ok else .clamped).code from pack_status d width _ _ _]
        split <;> rfl
      rw [shown,status,clamp_sides d v w order ?_]
      · unfold SameSide
        simp only [Int32.lt_iff_toInt_lt,number]
      · intro low high
        rw [Int32.le_iff_toInt_le] at low high
        refine int32_same ?_
        rw [number]
        exact wrapped_between d.type d.min.toInt d.max.toInt _ fitsLow fitsHigh low high

end

-- The entry of the CONFIG an entry of the node's half becomes.
def nodeEntry (dst : NodeId) (e : ConfigSetEntry) : ConfigEntry :=
  match findParam .node dst e.name with
  | none => {}
  | some p => entryFor p.row (e.value.getD 0)

theorem fillNodeConfig_entries (dst : NodeId) (half : List ConfigSetEntry) (known : ∀ e ∈ half, findParam .node dst e.name ≠ none)
    (few : half.length ≤ maxConfigEntries) : (fillNodeConfig dst half).config.entries = half.map (nodeEntry dst) := by
  have fold : ∀ (half : List ConfigSetEntry) (f : NodeConfigFill), (∀ e ∈ half, findParam .node dst e.name ≠ none) →
      f.config.entries.length + half.length ≤ maxConfigEntries →
      (half.foldl (NodeConfigFill.take dst) f).config.entries = f.config.entries ++ half.map (nodeEntry dst) := by
    intro half
    induction half with
    | nil =>
        intro f _ _
        exact (List.append_nil _).symm
    | cons e rest ih =>
        intro f known few
        rw [List.length_cons] at few
        have step : (f.take dst e).config.entries = f.config.entries ++ [nodeEntry dst e] := by
          unfold NodeConfigFill.take nodeEntry
          cases found : findParam .node dst e.name with
          | none => exact absurd found (known e List.mem_cons_self)
          | some p =>
              dsimp only
              rw [if_neg (by omega)]
        rw [List.foldl_cons,ih _ (fun o member => known o (List.mem_cons_of_mem e member)) (by rw [step,List.length_append]; change _ + 1 + _ ≤ _; omega),
          step,List.append_assoc]
        rfl
  exact (fold half {} known (by change 0 + _ ≤ _; omega)).trans (List.nil_append _)

theorem nodeBound_iff {scope : ConfigScope} {node : NodeId} {e : ConfigSetEntry} : nodeBound scope node e = true ↔
    ∃ p v, findParam scope node e.name = some p ∧ e.value = some v ∧ p.owner = .node ∧ p.row.access ≠ .phy := by
  unfold nodeBound
  cases findParam scope node e.name <;> cases e.value <;> simp

theorem findParam_scope {scope : ConfigScope} {node : NodeId} {name : Name} {p : OwnedParam} (found : findParam scope node name = some p) :
    p ∈ scopeRows scope node ∧ rowName p.row = name := by
  refine ⟨List.mem_of_find?_eq_some found,?_⟩
  have named := List.find?_some found
  exact eq_of_beq named

-- A node's row is named on the node's topic only.
theorem node_rows_scope {scope : ConfigScope} {node : NodeId} {name : Name} {p : OwnedParam} (found : findParam scope node name = some p)
    (owned : p.owner = .node) : scope = .node := by
  cases scope with
  | node => rfl
  | bridge =>
      have member := (findParam_scope found).1
      have global : p.owner = .bridgeGlobal := of_decide_eq_true (List.mem_filter.mp member).2
      rw [owned] at global
      cases global

-- A set's CONFIG always fits its payload, and is read at the node as it was written.
theorem fillNodeConfig_trip (dst : NodeId) (half : List ConfigSetEntry) (known : ∀ e ∈ half, findParam .node dst e.name ≠ none)
    (few : half.length ≤ maxConfigSetEntries) :
    ∃ bytes, (fillNodeConfig dst half).config.serialize = some bytes ∧ NodeConfigV1.deserialize bytes = some (fillNodeConfig dst half).config := by
  have room : maxConfigSetEntries ≤ maxConfigEntries := by decide
  have entries := fillNodeConfig_entries dst half known (by omega)
  have packed : ∀ e ∈ (fillNodeConfig dst half).config.entries, Packed e := by
    intro e member
    rw [entries] at member
    obtain ⟨o,inside,rfl⟩ := List.mem_map.mp member
    unfold nodeEntry
    split
    · rename_i missing
      exact absurd missing (known o inside)
    · exact pack_packed _ _ _
  have count : (fillNodeConfig dst half).config.entries.length ≤ maxConfigSetEntries := by
    rw [entries,List.length_map]
    exact few
  generalize (fillNodeConfig dst half).config = config at packed count ⊢
  have short : ∀ rows : List ConfigEntry, (∀ e ∈ rows, Packed e) → (rows.flatMap ConfigEntry.serialize).length ≤ 8 * rows.length := by
    intro rows
    induction rows with
    | nil => exact fun _ => Nat.le_refl _
    | cons e rest ih =>
        intro packed
        have here := packed e List.mem_cons_self
        have size := e.serialize_length here
        have len : e.len.toNat ≤ 4 := here.short
        have header : configEntryHdrLen = 4 := rfl
        have later := ih fun o member => packed o (List.mem_cons_of_mem e member)
        rw [List.flatMap_cons,List.length_append,List.length_cons]
        omega
  have bytes := short config.entries packed
  have written : ∃ bytes, config.serialize = some bytes := by
    have most : maxConfigSetEntries = 8 := rfl
    have payload : 66 ≤ maxSchemaPayload := by decide
    unfold NodeConfigV1.serialize
    have narrow : ¬ (maxConfigEntries < config.entries.length ∨ config.entries.any (fun e => decide (maxParamValueLen < e.len.toNat)) = true) := by
      rintro (many | wide)
      · omega
      · obtain ⟨e,member,long⟩ := List.any_eq_true.mp wide
        have len := (packed e member).short
        have longer := of_decide_eq_true long
        omega
    rw [if_neg narrow]
    dsimp only
    rw [if_neg (by rw [List.length_append]; change ¬ _ < 2 + _; omega)]
    exact ⟨_,rfl⟩
  obtain ⟨bytes,written⟩ := written
  exact ⟨bytes,written,nodeConfig_trip config packed bytes written⟩

theorem own_tables : (∀ d ∈ bridgeGlobalParams, bridgeGlobalParams.row d.id = some d) ∧
    ∀ d ∈ bridgePerNodeParams, bridgePerNodeParams.row d.id = some d := by
  decide +kernel

theorem own_row {scope : ConfigScope} {node : NodeId} {p : OwnedParam} (member : p ∈ scopeRows scope node) (held : p.owner ≠ .node) :
    (ConfigStore.ownRows p.owner).row p.row.id = some p.row := by
  obtain ⟨globals,perNode⟩ := own_tables
  have bridges : p ∈ bridgeParams → (ConfigStore.ownRows p.owner).row p.row.id = some p.row := by
    intro inside
    rcases List.mem_append.mp inside with global | node
    · obtain ⟨d,here,rfl⟩ := List.mem_map.mp global
      exact globals d here
    · obtain ⟨d,here,rfl⟩ := List.mem_map.mp node
      exact perNode d here
  unfold scopeRows at member
  cases scope with
  | bridge => exact bridges (List.mem_of_mem_filter member)
  | node =>
      rcases List.mem_append.mp member with perNode | own
      · exact bridges (List.mem_of_mem_filter perNode)
      · obtain ⟨d,_,rfl⟩ := List.mem_map.mp own
        exact absurd rfl held

-- No value of the row is off a list.
def Unlisted (d : ParamDef) : Prop := paramPoints.find? (fun points => points.1 == d.name) = none

instance unlistedDecidable (d : ParamDef) : Decidable (Unlisted d) := inferInstanceAs (Decidable (_ = none))

theorem Unlisted.allowed {d : ParamDef} (unlisted : Unlisted d) (x : Value) : valueAllowed d x = true := by
  unfold Unlisted at unlisted
  unfold valueAllowed
  rw [unlisted]

section
variable {π : Type} (ops : Persist π) {c : ConfigStore π}

-- A bridge-held row's turn of apply(): its one answer, and what the bridge then runs at.
theorem ConfigStore.Held.entry_clamped (held : c.Held) {scope : ConfigScope} {node : NodeId} {name : Name} {p : OwnedParam} (v : Value)
    (found : findParam scope node name = some p) (writable : p.row.access = .readWrite) (unlisted : Unlisted p.row) (here : p.owner ≠ .node)
    {s : Store π} (holds : c.holder p.owner node = some s) :
    ∃ r t, (c.applyEntry ops scope node ⟨name,some v⟩).place = .answered r ∧ r.name = rowName p.row ∧
      (c.applyEntry ops scope node ⟨name,some v⟩).store.holder p.owner node = some t ∧
      (ClampedTruly p.row v (t.effective p.row.id) r.status r.value ↔ SameSide p.row v) := by
  obtain ⟨tidy,table⟩ := held.holder holds
  have member := (findParam_scope found).1
  have row : s.table.row p.row.id = some p.row := by
    rw [table]
    exact own_row member here
  have notPhy : p.row.access ≠ .phy := by
    rw [writable]
    decide
  unfold ConfigStore.applyEntry
  rw [found]
  dsimp only
  rw [if_neg fun both => here both.1,if_neg fun all => notPhy all.2.1,if_neg here,holds]
  exact ⟨_,_,rfl,rfl,holder_put c p.owner node s _ holds,store_takes_entry tidy p.row row (scope_roomy member) writable unlisted.allowed v⟩

end

-- Each value of a config/set ends where it belongs, in either store, exactly when its row's type leaves it on its side of the range.
theorem config_value_clamped_iff {π : Type} {ops : Persist π} {c : ConfigStore π} (configured : c.Configured ops) {scope : ConfigScope}
    {node : NodeId} {name : Name} {p : OwnedParam} (v : Value) (found : findParam scope node name = some p) (writable : p.row.access = .readWrite)
    (unlisted : Unlisted p.row) :
    (p.owner ≠ .node → ∀ (before : List ConfigSetEntry) (cap : Nat) (s : Store π), (c.applyEntries ops scope node cap before).results.length < cap →
      (c.applyEntries ops scope node cap before).store.holder p.owner node = some s →
      ∃ r t, (c.applyEntries ops scope node cap (before ++ [⟨name,some v⟩])).results = (c.applyEntries ops scope node cap before).results ++ [r] ∧
        r.name = rowName p.row ∧ (c.applyEntries ops scope node cap (before ++ [⟨name,some v⟩])).store.holder p.owner node = some t ∧
        (ClampedTruly p.row v (t.effective p.row.id) r.status r.value ↔ SameSide p.row v)) ∧
    (p.owner = .node → ∀ (entries : List ConfigSetEntry) (cap : Nat), ⟨name,some v⟩ ∈ entries → entries.length ≤ maxConfigSetEntries →
      entries.length ≤ cap →
      ∃ bytes config, (fillNodeConfig node (c.applyEntries ops scope node cap entries).nodeHalf).config.serialize = some bytes ∧
        NodeConfigV1.deserialize bytes = some config ∧ entryFor p.row v ∈ config.entries ∧
        ∀ {σ : Type} (nodeOps : Persist σ) (blocks : Blocks) (s : Store σ), Operated nodeOps blocks s → s.table.row p.row.id = some p.row →
          (ClampedTruly p.row v ((s.apply nodeOps (entryFor p.row v)).store.effective p.row.id) (toldStatus (s.apply nodeOps (entryFor p.row v)).result)
            (toldValue (s.apply nodeOps (entryFor p.row v)).result) ↔ SameSide p.row v)) := by
  have member := (findParam_scope found).1
  constructor
  · intro here before cap s room holds
    have held : (c.applyEntries ops scope node cap before).store.Held := configured.held.applyEntries scope node cap before
    obtain ⟨r,t,place,named,stored,clamped⟩ := held.entry_clamped ops v found writable unlisted here holds
    have turn : c.applyEntries ops scope node cap (before ++ [⟨name,some v⟩]) =
        (c.applyEntries ops scope node cap before).take ((c.applyEntries ops scope node cap before).store.applyEntry ops scope node ⟨name,some v⟩) := by
      unfold ConfigStore.applyEntries at room ⊢
      rw [List.foldl_append,List.foldl_cons,List.foldl_nil,if_pos room]
    rw [turn]
    generalize ConfigStore.applyEntry ops _ scope node ⟨name,some v⟩ = o at place stored ⊢
    refine ⟨r,t,?_,named,stored,clamped⟩
    unfold ConfigStore.SetApplied.take
    rw [place]
  · intro owned entries cap inside few room
    have notPhy : p.row.access ≠ .phy := by
      rw [writable]
      decide
    have topic := node_rows_scope found owned
    subst topic
    have half : (c.applyEntries ops .node node cap entries).nodeHalf = _ := c.apply_nodeHalf .node node cap entries room few
    have known : ∀ e ∈ entries.filter (nodeBound .node node), findParam .node node e.name ≠ none := by
      intro e kept
      obtain ⟨q,_,resolved,_⟩ := nodeBound_iff.mp (List.mem_filter.mp kept).2
      rw [resolved]
      exact Option.some_ne_none q
    have short : (entries.filter (nodeBound .node node)).length ≤ maxConfigSetEntries := Nat.le_trans (List.length_filter_le _ _) few
    rw [half]
    obtain ⟨bytes,written,read⟩ := fillNodeConfig_trip node _ known short
    refine ⟨bytes,_,written,read,?_,?_⟩
    · rw [fillNodeConfig_entries node _ known (Nat.le_trans short (by decide))]
      refine List.mem_map.mpr ⟨⟨name,some v⟩,List.mem_filter.mpr ⟨inside,nodeBound_iff.mpr ⟨p,v,found,rfl,owned,notPhy⟩⟩,?_⟩
      unfold nodeEntry
      rw [found]
      rfl
    · intro σ nodeOps blocks s operated row
      exact store_takes_entry operated.tidy.1 p.row row (scope_roomy member) writable unlisted.allowed v

-- The bridge as it starts, every storage empty.
def freshConfig : ConfigStore Unit := ConfigStore.begin_ (some ()) fun _ => some ()

theorem freshConfig_configured : freshConfig.Configured keeping := ⟨some (),fun _ => some (),.refl⟩

def cmdRetries : ParamDef := ⟨0x0006,"cmd_retries",.readWrite,ptypeU8,0,10,3⟩

theorem cmdRetries_found : findParam .bridge nodeBridge (rowName cmdRetries) = some ⟨.bridgeGlobal,cmdRetries⟩ := by decide +kernel

-- cmd_retries holds 0 to 10. Asked for 261 it ends at 5, told as OK.
theorem config_value_wraps :
    ¬ ∀ (v : Value) (r : ConfigResult), (freshConfig.applyEntry keeping .bridge nodeBridge ⟨rowName cmdRetries,some v⟩).place = .answered r →
      ClampedTruly cmdRetries v ((freshConfig.applyEntry keeping .bridge nodeBridge ⟨rowName cmdRetries,some v⟩).store.globalValue cmdRetries.id)
        r.status r.value := by
  intro claimed
  have turn : (freshConfig.applyEntry keeping .bridge nodeBridge ⟨rowName cmdRetries,some 261⟩).place =
      .answered ⟨rowName cmdRetries,.ok,some 5⟩ := by decide +kernel
  have status := (claimed 261 _ turn).2.2
  exact absurd status (by decide)

-- Asked for 300 it ends at 10, told as CLAMPED: the byte 300 leaves, 44, is still past 10.
theorem config_value_clamped_300 :
    ∃ r t, (freshConfig.applyEntries keeping .bridge nodeBridge 8 ([] ++ [⟨rowName cmdRetries,some 300⟩])).results = [r] ∧
      (freshConfig.applyEntries keeping .bridge nodeBridge 8 ([] ++ [⟨rowName cmdRetries,some 300⟩])).store.holder .bridgeGlobal nodeBridge = some t ∧
      ClampedTruly cmdRetries 300 (t.effective cmdRetries.id) r.status r.value := by
  obtain ⟨r,t,results,_,stored,clamped⟩ := (config_value_clamped_iff freshConfig_configured 300 cmdRetries_found rfl (by decide)).1 (by decide)
    [] 8 freshConfig.bridgeStore (by decide) rfl
  exact ⟨r,t,results,stored,clamped.mpr (by decide)⟩

end LoraRan.Bridge
