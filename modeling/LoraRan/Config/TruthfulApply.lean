import LoraRan.Config.StoreRuns

namespace LoraRan.Config
open Protocol
open Library.LittleEndian (u8At u32Of_toNat u32Bytes u32Of_bytes)

-- The number some bits spell in a type: unsigned, or two's complement for the signed types.
def spelled (ptype : UInt8) (raw : UInt32) : Int :=
  if ptype = ptypeI16 then Int.bmod raw.toNat (2 ^ 16)
  else if ptype = ptypeI32 then Int.bmod raw.toNat (2 ^ 32)
  else raw.toNat

def wireNumber (e : ConfigEntry) : Int := spelled e.ptype (entryRaw e.value e.len)

def InRange (d : ParamDef) (n : Int) : Prop := d.min.toInt ≤ n ∧ n ≤ d.max.toInt

instance inRangeDecidable (d : ParamDef) (n : Int) : Decidable (InRange d n) := inferInstanceAs (Decidable (_ ∧ _))

-- A result that carries a row's value: little-endian, in the row's width.
def Carries (r : ConfigAckEntry) (d : ParamDef) (v : Value) : Prop :=
  r.paramId = d.id ∧ r.ptype = d.type ∧ r.len.toNat = ptypeWidth d.type ∧
    ((entryRaw r.value r.len).toNat : Int) = v.toInt % 2 ^ (8 * ptypeWidth d.type)

section
variable {π : Type} (ops : Persist π)

-- An answer to one entry that tells what became of it, and leaves everything else alone.
structure Truthful (s : Store π) (e : ConfigEntry) (a : Applied π) : Prop where
  unknown : s.table.row e.paramId = none → a.result.status = ParamStatus.unknownParam.code ∧ a.result.len = 0
  mismatched : ∀ d, s.table.row e.paramId = some d → ¬ Shaped d e → a.result.status = ParamStatus.typeMismatch.code
  refused : ∀ d, s.table.row e.paramId = some d → Shaped d e → ¬ s.Writable ops d → a.result.status = ParamStatus.readOnly.code
  inside : ∀ d, s.table.row e.paramId = some d → Shaped d e → s.Writable ops d → InRange d (wireNumber e) →
    valueAllowed d (Int32.ofInt (wireNumber e)) = true →
      (a.store.effective e.paramId).toInt = wireNumber e ∧ a.result.status = ParamStatus.ok.code
  outside : ∀ d, s.table.row e.paramId = some d → Shaped d e → s.Writable ops d → ¬ InRange d (wireNumber e) →
    a.store.effective e.paramId = (if wireNumber e < d.min.toInt then d.min else d.max) ∧ a.result.status = ParamStatus.clamped.code
  unlisted : ∀ d, s.table.row e.paramId = some d → Shaped d e → s.Writable ops d → InRange d (wireNumber e) →
    valueAllowed d (Int32.ofInt (wireNumber e)) = false → a.result.status = ParamStatus.invalidValue.code
  carries : ∀ d, s.table.row e.paramId = some d → Carries a.result d (a.store.effective e.paramId)
  still : a.result.status ∈ [ParamStatus.unknownParam.code,ParamStatus.typeMismatch.code,ParamStatus.readOnly.code,ParamStatus.invalidValue.code] →
    a.store = s
  elsewhere : ∀ other, other ≠ e.paramId → a.store.effective other = s.effective other

end

-- The 32-bit carrier holds the number: a larger unsigned one turns negative in it, and lands right only by chance.
def FitsValue (d : ParamDef) (e : ConfigEntry) : Prop :=
  e.ptype = ptypeU32 → 2 ^ 31 ≤ wireNumber e →
    d.max.toInt < wireNumber e - 2 ^ 32 ∨ wireNumber e - 2 ^ 32 < d.min.toInt ∧ d.min = d.max

theorem entryRaw_bound (value : Bytes) (len : UInt8) (short : len.toNat ≤ 2) : (entryRaw value len).toNat < 2 ^ 16 := by
  have past : ∀ i, 2 ≤ i → u8At (value.take (min len.toNat maxParamValueLen)) i = 0 := by
    intro i high
    unfold u8At
    rw [List.getD_eq_getElem?_getD,List.getElem?_eq_none (by rw [List.length_take]; omega)]
    rfl
  unfold entryRaw
  dsimp only
  rw [past 2 (by omega),past 3 (by omega),u32Of_toNat]
  have first := (u8At (value.take (min len.toNat maxParamValueLen)) 0).toNat_lt
  have second := (u8At (value.take (min len.toNat maxParamValueLen)) 1).toNat_lt
  change _ + _ * 256 + 0 * 65536 + 0 * 16777216 < _
  omega

theorem toInt32_toInt (raw : UInt32) : raw.toInt32.toInt = Int.bmod raw.toNat (2 ^ 32) := BitVec.toInt_eq_toNat_bmod raw.toBitVec

theorem toInt16_toInt (raw : UInt32) : raw.toUInt16.toInt16.toInt32.toInt = Int.bmod raw.toNat (2 ^ 16) := by
  have narrow : raw.toUInt16.toInt16.toInt = Int.bmod raw.toUInt16.toNat (2 ^ 16) := BitVec.toInt_eq_toNat_bmod raw.toUInt16.toBitVec
  rw [Int16.toInt_toInt32,narrow,UInt32.toNat_toUInt16]
  rw [Int.natCast_emod]
  exact Int.emod_bmod _ _

theorem small_bmod (n m : Nat) (small : 2 * n < m) : Int.bmod n m = n := by
  rw [Int.bmod_eq_of_le_mul_two]
  · omega
  · omega

theorem spelled_unsigned (t : UInt8) (raw : UInt32) (notI16 : t ≠ ptypeI16) (notI32 : t ≠ ptypeI32) : spelled t raw = raw.toNat := by
  unfold spelled
  rw [if_neg notI16,if_neg notI32]

-- What the carrier makes of the bits.
theorem carried_number (t : UInt8) (raw : UInt32) (typed : t ∈ ptypes) (short : ptypeWidth t ≤ 2 → raw.toNat < 2 ^ 16) :
    (if t = ptypeI16 then raw.toUInt16.toInt16.toInt32 else raw.toInt32).toInt =
      if t = ptypeU32 ∧ 2 ^ 31 ≤ spelled t raw then spelled t raw - 2 ^ 32 else spelled t raw := by
  have bound := raw.toNat_lt
  have unsigned (narrow : ptypeWidth t ≤ 2) (notI16 : t ≠ ptypeI16) (notI32 : t ≠ ptypeI32) (notU32 : t ≠ ptypeU32) :
      (if t = ptypeI16 then raw.toUInt16.toInt16.toInt32 else raw.toInt32).toInt =
        if t = ptypeU32 ∧ 2 ^ 31 ≤ spelled t raw then spelled t raw - 2 ^ 32 else spelled t raw := by
    have small := short narrow
    rw [if_neg notI16,if_neg fun both => notU32 both.1,spelled_unsigned t raw notI16 notI32,toInt32_toInt,small_bmod _ _ (by omega)]
  unfold ptypes at typed
  simp only [List.mem_cons,List.not_mem_nil,or_false] at typed
  rcases typed with rfl | rfl | rfl | rfl | rfl | rfl
  · exact unsigned (by decide) (by decide) (by decide) (by decide)
  · exact unsigned (by decide) (by decide) (by decide) (by decide)
  · rw [if_neg (by decide),spelled_unsigned _ raw (by decide) (by decide),toInt32_toInt,Int.bmod_def]
    split
    · rename_i low
      rw [if_neg (by omega)]
      omega
    · rename_i high
      rw [if_pos ⟨rfl,by omega⟩]
      omega
  · rw [if_pos rfl,if_neg fun both => absurd both.1 (by decide),toInt16_toInt,spelled,if_pos rfl]
  · rw [if_neg (by decide),if_neg fun both => absurd both.1 (by decide),toInt32_toInt,spelled,if_neg (by decide),if_pos rfl]
  · exact unsigned (by decide) (by decide) (by decide) (by decide)

theorem asked_number (d : ParamDef) (e : ConfigEntry) (typed : d.type ∈ ptypes) (shaped : Shaped d e) :
    (ConfigEntry.asked e).toInt = if e.ptype = ptypeU32 ∧ 2 ^ 31 ≤ wireNumber e then wireNumber e - 2 ^ 32 else wireNumber e := by
  obtain ⟨like,width⟩ := shaped
  refine carried_number e.ptype (entryRaw e.value e.len) (by rw [like]; exact typed) fun narrow => ?_
  rw [like,← width] at narrow
  exact entryRaw_bound _ _ narrow

theorem value_lt (v : Value) : v.toInt < 2 ^ 31 := v.toInt_lt

theorem int32_same {v w : Value} (same : v.toInt = w.toInt) : v = w := Int32.toInt_inj.mp same

-- Where the carrier holds the number, the clamp lands on the nearest value, and moves exactly the numbers out of range.
theorem clamp_number (d : ParamDef) (e : ConfigEntry) (typed : d.type ∈ ptypes) (range : d.min ≤ d.max) (shaped : Shaped d e) (fits : FitsValue d e) :
    clamp (ConfigEntry.asked e) d =
        (if wireNumber e < d.min.toInt then d.min else if d.max.toInt < wireNumber e then d.max else ConfigEntry.asked e) ∧
      (clamp (ConfigEntry.asked e) d = ConfigEntry.asked e ↔ InRange d (wireNumber e)) ∧
      (InRange d (wireNumber e) → (ConfigEntry.asked e).toInt = wireNumber e) := by
  have number := asked_number d e typed shaped
  have low := value_lt d.min
  have high := value_lt d.max
  rw [Int32.le_iff_toInt_le] at range
  by_cases large : e.ptype = ptypeU32 ∧ 2 ^ 31 ≤ wireNumber e
  · rw [if_pos large] at number
    have above : ¬ InRange d (wireNumber e) := fun inside => by
      unfold InRange at inside
      omega
    have moved : clamp (ConfigEntry.asked e) d = d.max ∧ clamp (ConfigEntry.asked e) d ≠ ConfigEntry.asked e := by
      unfold clamp
      simp only [Int32.lt_iff_toInt_lt]
      rcases fits large.1 large.2 with past | ⟨below,only⟩
      · rw [if_neg (by omega),if_pos (by omega)]
        refine ⟨rfl,fun same => ?_⟩
        rw [← same] at number
        omega
      · rw [if_pos (by omega)]
        refine ⟨only,fun same => ?_⟩
        rw [← same] at number
        omega
    refine ⟨?_,⟨fun same => absurd same moved.2,fun inside => absurd inside above⟩,fun inside => absurd inside above⟩
    rw [moved.1,if_neg (by omega),if_pos (by omega)]
  · rw [if_neg large] at number
    refine ⟨?_,?_,fun _ => number⟩
    · unfold clamp
      simp only [Int32.lt_iff_toInt_lt,number]
    · unfold clamp InRange
      simp only [Int32.lt_iff_toInt_lt,number]
      constructor
      · intro same
        split at same
        · rw [same] at low
          rename_i below
          rw [same] at below
          omega
        · split at same
          · rename_i above
            rw [same] at above
            omega
          · omega
      · intro inside
        rw [if_neg (by omega),if_neg (by omega)]

-- A value packed into a width reads back as its lowest bytes.
theorem packed_low (raw : UInt32) :
    (entryRaw (packValue 1 raw) 1).toNat = raw.toNat % 2 ^ 8 ∧ (entryRaw (packValue 2 raw) 2).toNat = raw.toNat % 2 ^ 16 ∧
      (entryRaw (packValue 4 raw) 4).toNat = raw.toNat := by
  refine ⟨?_,?_,?_⟩
  · change (Library.LittleEndian.u32Of raw.toUInt8 0 0 0).toNat = _
    rw [u32Of_toNat,UInt32.toNat_toUInt8]
    rfl
  · change (Library.LittleEndian.u32Of raw.toUInt8 (raw >>> 8).toUInt8 0 0).toNat = _
    rw [u32Of_toNat,UInt32.toNat_toUInt8,UInt32.toNat_toUInt8,UInt32.toNat_shiftRight]
    change raw.toNat % 256 + (raw.toNat >>> 8) % 256 * 256 + 0 * 65536 + 0 * 16777216 = _
    rw [Nat.shiftRight_eq_div_pow]
    omega
  · change (Library.LittleEndian.u32Of raw.toUInt8 (raw >>> 8).toUInt8 (raw >>> 16).toUInt8 (raw >>> 24).toUInt8).toNat = _
    rw [u32Of_bytes]

theorem value_bits (v : Value) : (v.toUInt32.toNat : Int) = v.toInt % 2 ^ 32 := by
  have signed : v.toInt = Int.bmod v.toUInt32.toNat (2 ^ 32) := BitVec.toInt_eq_toNat_bmod v.toBitVec
  have bound := v.toUInt32.toNat_lt
  have whole : (Int.bmod v.toUInt32.toNat (2 ^ 32)) % 2 ^ 32 = (v.toUInt32.toNat : Int) % 2 ^ 32 := Int.bmod_emod
  rw [signed,whole]
  omega

theorem rawBits_low (v : Value) (t : UInt8) (typed : t ∈ ptypes) :
    ((entryRaw (packValue (ptypeWidth t) (rawBits v t)) (UInt8.ofNat (ptypeWidth t))).toNat : Int) = v.toInt % 2 ^ (8 * ptypeWidth t) := by
  have bits := value_bits v
  have widths : ptypeWidth t = 1 ∨ ptypeWidth t = 2 ∨ ptypeWidth t = 4 := by
    unfold ptypes at typed
    simp only [List.mem_cons,List.not_mem_nil,or_false] at typed
    rcases typed with rfl | rfl | rfl | rfl | rfl | rfl <;> decide
  rcases widths with one | two | four
  · have masked : (v.toUInt32 &&& 0xFF).toNat = v.toUInt32.toNat % 2 ^ 8 := by
      rw [UInt32.toNat_and]
      exact Nat.and_two_pow_sub_one_eq_mod _ 8
    unfold rawBits
    rw [one]
    change ((entryRaw (packValue 1 (v.toUInt32 &&& 0xFF)) 1).toNat : Int) = _
    rw [(packed_low _).1,masked]
    omega
  · have masked : (v.toUInt32 &&& 0xFFFF).toNat = v.toUInt32.toNat % 2 ^ 16 := by
      rw [UInt32.toNat_and]
      exact Nat.and_two_pow_sub_one_eq_mod _ 16
    unfold rawBits
    rw [two]
    change ((entryRaw (packValue 2 (v.toUInt32 &&& 0xFFFF)) 2).toNat : Int) = _
    rw [(packed_low _).2.1,masked]
    omega
  · unfold rawBits
    rw [four]
    change ((entryRaw (packValue 4 v.toUInt32) 4).toNat : Int) = _
    rw [(packed_low _).2.2]
    omega

theorem carries_pack (d : ParamDef) (typed : d.type ∈ ptypes) (status : ParamStatus) (v : Value) (marked : Bool) :
    Carries {ConfigAckEntry.pack {} d.id status d.type (rawBits v d.type) with isOverride := marked} d v := by
  have wide : paramValueLen d.type ≠ 0 := ptype_width_of_typed typed
  have small : ptypeWidth d.type ≤ 4 := by
    unfold ptypeWidth paramValueLen
    split
    · omega
    · split
      · omega
      · split <;> omega
  unfold Carries ConfigAckEntry.pack
  simp only [if_neg wide]
  refine ⟨trivial,trivial,?_,rawBits_low v d.type typed⟩
  exact UInt8.toNat_ofNat_of_lt' (by change ptypeWidth d.type < 256; omega)

section
variable {π : Type} {ops : Persist π} {s : Store π}

theorem held_carries (s : Store π) (d : ParamDef) (typed : d.type ∈ ptypes) (status : ParamStatus) :
    Carries (s.held d status) d (s.effective d.id) := carries_pack d typed status _ _

-- An override of a plain row moves that row alone.
theorem Store.Tidy.effective_setOverride (tidy : s.Tidy) (id other : UInt16) (v : Value) (d : ParamDef) (persist : Option π)
    (found : s.table.row id = some d) (plain : d.access = .readWrite) :
    Store.effective {s with overrides := setValue s.overrides id v,persist := persist} other = if other = id then v else s.effective other := by
  cases row : s.table.row other with
  | none =>
      have away : other ≠ id := by
        rintro rfl
        rw [row] at found
        cases found
      rw [if_neg away]
      simp only [Store.effective,row]
  | some r =>
      have set := Store.effective_row {s with overrides := setValue s.overrides id v,persist := persist} other r row
      rw [set,Store.effective_row s other r row,valueAt_setValue]
      by_cases here : other = id
      · have untried : valueAt s.trial other = none := by
          cases trial : valueAt s.trial other with
          | none => rfl
          | some t =>
              obtain ⟨member,same⟩ := valueAt_mem s.trial other t trial
              obtain ⟨e,found',phy,_⟩ := tidy.trialHeld t member
              rw [same,here,found] at found'
              cases found'
              rw [plain] at phy
              cases phy
        simp only [if_pos here,untried]
        rfl
      · simp only [if_neg here]

-- What the answer to a taken entry is, whichever layer its value went to.
theorem taken_truthful {e : ConfigEntry} {d : ParamDef} {a : Applied π} (tidy : s.Tidy) (typed : d.type ∈ ptypes)
    (found : s.table.row e.paramId = some d) (shaped : Shaped d e) (writable : s.Writable ops d) (fits : FitsValue d e)
    (listed : valueAllowed d (clamp (ConfigEntry.asked e) d) = true)
    (result : a.result = {ConfigAckEntry.pack {} d.id (if clamp (ConfigEntry.asked e) d = ConfigEntry.asked e then .ok else .clamped) d.type
      (rawBits (clamp (ConfigEntry.asked e) d) d.type) with isOverride := true})
    (effective : ∀ other, a.store.effective other = if other = d.id then clamp (ConfigEntry.asked e) d else s.effective other) :
    Truthful ops s e a := by
  obtain ⟨member,same⟩ := row_mem s.table _ d found
  have range := tidy.sound.ranges d member
  obtain ⟨nearest,exact_,number⟩ := clamp_number d e typed range shaped fits
  have width := ptype_width_of_typed typed
  have status : a.result.status = (if clamp (ConfigEntry.asked e) d = ConfigEntry.asked e then ParamStatus.ok else .clamped).code := by
    rw [result]
    exact pack_status d width _ _ _
  have now : a.store.effective e.paramId = clamp (ConfigEntry.asked e) d := by rw [effective,if_pos same.symm]
  have only : ∀ d', s.table.row e.paramId = some d' → d' = d := fun d' found' => Option.some.inj (found'.symm.trans found)
  have asked : InRange d (wireNumber e) → ConfigEntry.asked e = Int32.ofInt (wireNumber e) := by
    intro inside
    rw [← number inside,Int32.ofInt_toInt]
  refine ⟨?_,?_,?_,?_,?_,?_,?_,?_,?_⟩
  · intro missing
    rw [found] at missing
    cases missing
  · intro d' found' unlike
    rw [only d' found'] at unlike
    exact absurd shaped unlike
  · intro d' found' _ closed
    rw [only d' found'] at closed
    exact absurd writable closed
  · intro d' found' _ _ inside _
    rw [only d' found'] at inside
    rw [now,status,exact_.mpr inside,if_pos rfl]
    exact ⟨number inside,rfl⟩
  · intro d' found' _ _ outside
    rw [only d' found'] at outside ⊢
    rw [status,if_neg fun kept => outside (exact_.mp kept),now,nearest]
    refine ⟨?_,rfl⟩
    unfold InRange at outside
    split
    · rfl
    · rw [if_pos (by omega)]
  · intro d' found' _ _ inside unlisted
    rw [only d' found'] at inside unlisted
    rw [exact_.mpr inside,asked inside,unlisted] at listed
    cases listed
  · intro d' found'
    rw [only d' found',now,result]
    exact carries_pack d typed _ _ true
  · intro refusal
    rw [status] at refusal
    split at refusal
    · exact absurd refusal (by decide)
    · exact absurd refusal (by decide)
  · intro other away
    rw [effective,if_neg fun here => away (here.trans same)]

-- The answers that change nothing.
theorem refused_truthful {e : ConfigEntry} {d : ParamDef} (tidy : s.Tidy) (typed : d.type ∈ ptypes)
    (ends : valueAllowed d d.min = true ∧ valueAllowed d d.max = true) (found : s.table.row e.paramId = some d) (fits : Shaped d e → s.Writable ops d → FitsValue d e)
    (status : ParamStatus)
    (why : status = .typeMismatch ∧ ¬ Shaped d e ∨ status = .readOnly ∧ Shaped d e ∧ ¬ s.Writable ops d ∨
      status = .invalidValue ∧ Shaped d e ∧ s.Writable ops d ∧ valueAllowed d (clamp (ConfigEntry.asked e) d) = false) :
    Truthful ops s e {result := s.held d status,store := s} := by
  obtain ⟨member,same⟩ := row_mem s.table _ d found
  have range := tidy.sound.ranges d member
  have code := held_status s d (ptype_width_of_typed typed) status
  have only : ∀ d', s.table.row e.paramId = some d' → d' = d := fun d' found' => Option.some.inj (found'.symm.trans found)
  have unlisted : Shaped d e → s.Writable ops d → InRange d (wireNumber e) ∧ valueAllowed d (Int32.ofInt (wireNumber e)) = false := by
    intro shaped writable
    rcases why with ⟨-,unlike⟩ | ⟨-,-,closed⟩ | ⟨-,-,-,off⟩
    · exact absurd shaped unlike
    · exact absurd writable closed
    · obtain ⟨nearest,exact_,number⟩ := clamp_number d e typed range shaped (fits shaped writable)
      have inside : InRange d (wireNumber e) := by
        by_contra outside
        unfold InRange at outside
        rw [nearest] at off
        split at off
        · rw [ends.1] at off
          cases off
        · rw [if_pos (by omega),ends.2] at off
          cases off
      rw [exact_.mpr inside] at off
      refine ⟨inside,?_⟩
      rw [← number inside,Int32.ofInt_toInt]
      exact off
  refine ⟨?_,?_,?_,?_,?_,?_,?_,fun _ => rfl,fun _ _ => rfl⟩
  · intro missing
    rw [found] at missing
    cases missing
  · intro d' found' unlike
    rw [only d' found'] at unlike
    rcases why with ⟨mismatch,-⟩ | ⟨-,shaped,-⟩ | ⟨-,shaped,-⟩
    · rw [code,mismatch]
    · exact absurd shaped unlike
    · exact absurd shaped unlike
  · intro d' found' shaped closed
    rw [only d' found'] at shaped closed
    rcases why with ⟨-,unlike⟩ | ⟨readOnly,-,-⟩ | ⟨-,-,writable,-⟩
    · exact absurd shaped unlike
    · rw [code,readOnly]
    · exact absurd writable closed
  · intro d' found' shaped writable _ listed
    rw [only d' found'] at shaped writable listed
    rw [(unlisted shaped writable).2] at listed
    cases listed
  · intro d' found' shaped writable outside
    rw [only d' found'] at shaped writable outside
    exact absurd (unlisted shaped writable).1 outside
  · intro d' found' shaped writable _ _
    rw [only d' found'] at shaped writable
    rcases why with ⟨-,unlike⟩ | ⟨-,-,closed⟩ | ⟨invalid,-,-⟩
    · exact absurd shaped unlike
    · exact absurd writable closed
    · rw [code,invalid]
  · intro d' found'
    rw [only d' found',← same]
    exact held_carries s d typed status

theorem unknown_truthful {e : ConfigEntry} (missing : s.table.row e.paramId = none) :
    Truthful ops s e {result := {paramId := e.paramId,status := ParamStatus.unknownParam.code,ptype := e.ptype,len := 0},store := s} := by
  have none_ : ∀ d, s.table.row e.paramId ≠ some d := by
    intro d found
    rw [missing] at found
    cases found
  refine ⟨fun _ => ⟨rfl,rfl⟩,?_,?_,?_,?_,?_,?_,fun _ => rfl,fun _ _ => rfl⟩
  · exact fun d found => absurd found (none_ d)
  · exact fun d found => absurd found (none_ d)
  · exact fun d found => absurd found (none_ d)
  · exact fun d found => absurd found (none_ d)
  · exact fun d found => absurd found (none_ d)
  · exact fun d found => absurd found (none_ d)

-- A taken entry whose number the carrier does not hold: it is not answered with the upper end of the range.
theorem misread_moves {e : ConfigEntry} {d : ParamDef} {a : Applied π} (truthful : Truthful ops s e a) (typed : d.type ∈ ptypes)
    (found : s.table.row e.paramId = some d) (shaped : Shaped d e) (writable : s.Writable ops d)
    (result : a.result = {ConfigAckEntry.pack {} d.id (if clamp (ConfigEntry.asked e) d = ConfigEntry.asked e then .ok else .clamped) d.type
      (rawBits (clamp (ConfigEntry.asked e) d) d.type) with isOverride := true})
    (effective : a.store.effective e.paramId = clamp (ConfigEntry.asked e) d) : FitsValue d e := by
  intro u32 large
  have number := asked_number d e typed shaped
  rw [if_pos ⟨u32,large⟩] at number
  have low := value_lt d.min
  have high := value_lt d.max
  obtain ⟨lands,status⟩ := truthful.outside d found shaped writable fun inside => by
    unfold InRange at inside
    omega
  rw [if_neg (by omega),effective] at lands
  rw [result] at status
  have code : (if clamp (ConfigEntry.asked e) d = ConfigEntry.asked e then ParamStatus.ok else .clamped).code = ParamStatus.clamped.code :=
    (pack_status d (ptype_width_of_typed typed) _ _ _).symm.trans status
  have moved : clamp (ConfigEntry.asked e) d ≠ ConfigEntry.asked e := by
    intro kept
    rw [if_pos kept] at code
    exact absurd code (by decide)
  unfold clamp at lands moved
  simp only [Int32.lt_iff_toInt_lt,number] at lands moved
  split at lands
  · rename_i below
    exact .inr ⟨below,lands⟩
  · rename_i notBelow
    rw [if_neg notBelow] at moved
    split at lands
    · rename_i above
      exact .inl above
    · rename_i notAbove
      rw [if_neg notAbove] at moved
      exact absurd rfl moved

theorem store_apply_truthful_iff {blocks : Blocks} (operated : Operated ops blocks s) (e : ConfigEntry) :
    Truthful ops s e (s.apply ops e) ↔ ∀ d, s.table.row e.paramId = some d → Shaped d e → s.Writable ops d → FitsValue d e := by
  obtain ⟨tidy,table⟩ := operated.tidy
  have rows := operated.1.rows.1
  have asserted : ∀ d, s.table.row e.paramId = some d → d.type ∈ ptypes ∧ valueAllowed d d.min = true ∧ valueAllowed d d.max = true := by
    intro d found
    have member := (row_mem s.table _ d found).1
    rw [table] at member
    exact ⟨rows.typed d member,(rows.ends d member).1,(rows.ends d member).2.1⟩
  have possible := s.apply_case ops tidy e
  generalize s.apply ops e = a at possible
  constructor
  · intro truthful d found shaped writable
    cases possible with
    | unknown missing =>
        rw [missing] at found
        cases found
    | mismatched d' found' unlike =>
        rw [found] at found'
        cases found'
        exact absurd shaped unlike
    | refused d' found' _ closed =>
        rw [found] at found'
        cases found'
        exact absurd writable closed
    | off d' found' _ _ _ =>
        rw [found] at found'
        cases found'
        intro u32 large
        have high := value_lt d.max
        have status := (truthful.outside d found shaped writable fun inside => by
          unfold InRange at inside
          omega).2
        rw [held_status s d (ptype_width_of_typed (asserted d found).1)] at status
        exact absurd status (by decide)
    | tried d' found' _ _ _ phy =>
        rw [found] at found'
        cases found'
        have same := (row_mem s.table _ d found).2
        refine misread_moves truthful (asserted d found).1 found shaped writable rfl ?_
        rw [Store.effective_setTrial s d.id e.paramId _ d (by rw [same]; exact found),if_pos same.symm]
    | kept d' found' _ plain _ =>
        rw [found] at found'
        cases found'
        have same := (row_mem s.table _ d found).2
        refine misread_moves truthful (asserted d found).1 found shaped writable rfl ?_
        rw [tidy.effective_setOverride d.id e.paramId _ d _ (by rw [same]; exact found) plain,if_pos same.symm]
  · intro fits
    cases possible with
    | unknown missing => exact unknown_truthful missing
    | mismatched d found unlike =>
        exact refused_truthful tidy (asserted d found).1 (asserted d found).2 found (fits d found) _ (.inl ⟨rfl,unlike⟩)
    | refused d found shaped closed =>
        exact refused_truthful tidy (asserted d found).1 (asserted d found).2 found (fits d found) _ (.inr (.inl ⟨rfl,shaped,closed⟩))
    | off d found shaped writable unlisted =>
        exact refused_truthful tidy (asserted d found).1 (asserted d found).2 found (fits d found) _ (.inr (.inr ⟨rfl,shaped,writable,unlisted⟩))
    | tried d found shaped writable listed phy =>
        have same := (row_mem s.table _ d found).2
        refine taken_truthful tidy (asserted d found).1 found shaped writable (fits d found shaped writable) listed rfl fun other => ?_
        exact Store.effective_setTrial s d.id other _ d (by rw [same]; exact found)
    | kept d found shaped plain listed =>
        have same := (row_mem s.table _ d found).2
        have writable : s.Writable ops d := .inl plain
        refine taken_truthful tidy (asserted d found).1 found shaped writable (fits d found shaped writable) listed rfl fun other => ?_
        exact tidy.effective_setOverride d.id other _ d _ (by rw [same]; exact found) plain

end

-- A storage that keeps what it is given.
def keeping : Persist Unit := {usable := fun _ => true,save := fun _ _ _ => (true,()),clearAll := fun _ => (true,()),saveGroup := fun _ _ => (true,())}

theorem gateLinkBlocks_built : Built [nodeCommonParams,gateLinkParams] := by
  refine .add [nodeCommonParams] _ gateLinkParams (.add [] _ nodeCommonParams .none ?_ (by decide +kernel)) ?_ (by decide +kernel)
  · exact ⟨by decide +kernel,by decide +kernel,by decide +kernel,by decide +kernel⟩
  · exact ⟨by decide +kernel,by decide +kernel,by decide +kernel,by decide +kernel⟩

theorem gateLinkBlocks_operated : Operated keeping [nodeCommonParams,gateLinkParams] (Store.fresh (Blocks.table [nodeCommonParams,gateLinkParams]) (some ())) :=
  ⟨gateLinkBlocks_built,by decide +kernel,some (),.refl⟩

-- detect_sequence_window_ms, set to three billion milliseconds: far above its 300000, answered CLAMPED to its 5000.
def threeBillion : ConfigEntry := {paramId := 0x1020,ptype := ptypeU32,len := 4,value := u32Bytes 3000000000}

theorem store_apply_takes_the_far_end :
    ¬ ∀ s : Store Unit, Operated keeping [nodeCommonParams,gateLinkParams] s → Truthful keeping s threeBillion (s.apply keeping threeBillion) := by
  intro claimed
  have truthful := claimed _ gateLinkBlocks_operated
  have lands := (truthful.outside ⟨0x1020,"detect_sequence_window_ms",.readWrite,ptypeU32,5000,300000,60000⟩ (by decide +kernel)
    ⟨by decide +kernel,by decide +kernel⟩ (by decide +kernel) (by decide +kernel)).1
  exact absurd lands (by decide +kernel)

theorem store_apply_truthful_default :
    Truthful keeping (Store.fresh (Blocks.table [nodeCommonParams,gateLinkParams]) (some ())) {threeBillion with value := u32Bytes 300001}
      (Store.apply keeping (Store.fresh (Blocks.table [nodeCommonParams,gateLinkParams]) (some ())) {threeBillion with value := u32Bytes 300001}) := by
  refine (store_apply_truthful_iff gateLinkBlocks_operated _).mpr ?_
  intro d found _ _ _ large
  exact absurd large (by decide +kernel)

end LoraRan.Config
