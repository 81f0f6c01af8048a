import LoraRan.Bridge.JsonDocument
import LoraRan.Bridge.Publish

namespace LoraRan.Bridge.Publish
open Protocol Protocol.Sentinels Library.DecimalText Library.Json UtcText

-- A call that writes one member whose value, if it is a string, is a word.
def simple : JsonCall → Bool
  | .u32 .. | .i32 .. | .null _ | .decimal .. | .boolean .. => true
  | .str _ (some v) => word v
  | .str _ none | .beginObject _ | .endObject => false

@[simp] theorem simple_u32 (key : Bytes) (v : UInt32) : simple (.u32 key v) = true := rfl
@[simp] theorem simple_i32 (key : Bytes) (v : Int32) : simple (.i32 key v) = true := rfl
@[simp] theorem simple_null (key : Bytes) : simple (.null key) = true := rfl
@[simp] theorem simple_decimal (key : Bytes) (scaled : Int) (decimals : Nat) : simple (.decimal key scaled decimals) = true := rfl
@[simp] theorem simple_boolean (key : Bytes) (v : Bool) : simple (.boolean key v) = true := rfl
@[simp] theorem simple_str (key v : Bytes) : simple (.str key (some v)) = word v := rfl

theorem simple_flat (c : JsonCall) (is : simple c = true) (named : word c.key = true) : c.flat = true := by
  cases c with
  | u32 | i32 | null | decimal | boolean => exact named
  | str key v =>
      cases v with
      | none => cases is
      | some v => exact Bool.and_eq_true_iff.mpr ⟨named,is⟩
  | beginObject | endObject => cases is

-- A document that reads back whole: simple members under distinct words.
structure Document (calls : List JsonCall) : Prop where
  simple : ∀ c ∈ calls, simple c = true
  keys : (calls.map JsonCall.key).all word = true
  distinct : (calls.map JsonCall.key).Nodup

theorem Document.flat {calls : List JsonCall} (doc : Document calls) : ∀ c ∈ calls, c.flat = true := fun c inside =>
  simple_flat c (doc.simple c inside) (List.all_eq_true.mp doc.keys c.key (List.mem_map_of_mem inside))

theorem Document.field {calls : List JsonCall} (doc : Document calls) (c : JsonCall) (inside : c ∈ calls) (d : Doc)
    (is : c.member = some (c.key,d)) : documentField (jsonText calls) c.key = some d :=
  documentField_call calls doc.flat doc.distinct c inside d is

theorem Document.of_keys {calls : List JsonCall} (keys : List Bytes) (named : calls.map JsonCall.key = keys)
    (good : (keys.all word && decide keys.Nodup) = true) (simple : calls.all Publish.simple = true) : Document calls := by
  rw [Bool.and_eq_true,decide_eq_true_eq] at good
  refine ⟨List.all_eq_true.mp simple,?_,?_⟩
  · rw [named]
    exact good.1
  · rw [named]
    exact good.2

@[simp] theorem strOrNull_key (key : Bytes) (v : Option Bytes) : (strOrNull key v).key = key := by cases v <;> rfl
@[simp] theorem i16OrNull_key (key : Bytes) (v : Int16) : (i16OrNull key v).key = key := by unfold i16OrNull; split <;> rfl
@[simp] theorem codeOrNull_key (key : Bytes) (v : UInt8) : (codeOrNull key v).key = key := by unfold codeOrNull; split <;> rfl
@[simp] theorem tenthsOrNull_key (key : Bytes) (v : Int16) : (tenthsOrNull key v).key = key := by unfold tenthsOrNull; split <;> rfl
@[simp] theorem utcOrNull_key (key : Bytes) (known : Bool) (t : Int64) : (utcOrNull key known t).key = key := by unfold utcOrNull; split <;> rfl
@[simp] theorem socOrNull_key (v : UInt8) : (socOrNull v).key = text "soc" := by unfold socOrNull; split <;> rfl
@[simp] theorem i16OrNull_simple (key : Bytes) (v : Int16) : simple (i16OrNull key v) = true := by unfold i16OrNull; split <;> rfl
@[simp] theorem codeOrNull_simple (key : Bytes) (v : UInt8) : simple (codeOrNull key v) = true := by unfold codeOrNull; split <;> rfl
@[simp] theorem tenthsOrNull_simple (key : Bytes) (v : Int16) : simple (tenthsOrNull key v) = true := by unfold tenthsOrNull; split <;> rfl
@[simp] theorem socOrNull_simple (v : UInt8) : simple (socOrNull v) = true := by unfold socOrNull; split <;> rfl

theorem socSourceName_word (flags : UInt8) : word (socSourceName flags) = true := by
  unfold socSourceName
  split
  all_goals decide +kernel

theorem packCalls_keys (s : GateLinkStatusV1) (mv : Cells UInt16) :
    (packCalls s mv).map JsonCall.key = batteryKeys := by
  have alarms : (alarmCalls s).map JsonCall.key = alarmKeys := by
    unfold alarmCalls
    split <;> rfl
  have cells : (cellMvCalls (min s.cellCount.toNat 4) mv).map JsonCall.key = [text "cell1_mv",text "cell2_mv",text "cell3_mv",text "cell4_mv"] := by
    have named : [cellKey 0 (text "_mv"),cellKey 1 (text "_mv"),cellKey 2 (text "_mv"),cellKey 3 (text "_mv")] =
        [text "cell1_mv",text "cell2_mv",text "cell3_mv",text "cell4_mv"] := by decide +kernel
    rw [← named]
    simp [cellMvCalls,Cells.toList,apply_ite JsonCall.key]
  have temps : (cellTempCalls (min s.cellCount.toNat 4) s.cellTempC).map JsonCall.key =
      [text "cell1_temp_c",text "cell2_temp_c",text "cell3_temp_c",text "cell4_temp_c"] := by
    have named : [cellKey 0 (text "_temp_c"),cellKey 1 (text "_temp_c"),cellKey 2 (text "_temp_c"),cellKey 3 (text "_temp_c")] =
        [text "cell1_temp_c",text "cell2_temp_c",text "cell3_temp_c",text "cell4_temp_c"] := by decide +kernel
    rw [← named]
    simp [cellTempCalls,Cells.toList,apply_ite JsonCall.key]
  unfold packCalls
  simp only [List.map_append,List.map_cons,List.map_nil,alarms,cells,temps,socOrNull_key]
  rfl

theorem linkCalls_keys (s : GateLinkStatusV1) (ahDrawn : Option UInt16) (synthetic : Bool) :
    (linkCalls s ahDrawn synthetic).map JsonCall.key = [text "ble_rssi_dbm",text "age_s",text "ah_drawn",text "synthetic"] := by
  unfold linkCalls
  cases ahDrawn with
  | none => simp [apply_ite JsonCall.key]
  | some v => simp [apply_ite JsonCall.key]

def batteryDocKeys : List Bytes := text "available" :: batteryKeys ++ [text "ble_rssi_dbm",text "age_s",text "ah_drawn",text "synthetic"]

theorem batteryCalls_keys (ok : Bool) (s : GateLinkStatusV1) (mv : Cells UInt16) (ahDrawn : Option UInt16) (synthetic : Bool) :
    (batteryCalls ok s mv ahDrawn synthetic).map JsonCall.key = batteryDocKeys := by
  unfold batteryCalls
  rw [List.map_append,List.map_cons,linkCalls_keys]
  cases ok with
  | true =>
      rw [if_pos rfl,packCalls_keys]
      rfl
  | false =>
      rw [if_neg Bool.false_ne_true,List.map_map]
      rfl

theorem batteryDocKeys_good : (batteryDocKeys.all word && decide batteryDocKeys.Nodup) = true := by decide +kernel

theorem packCalls_simple (s : GateLinkStatusV1) (mv : Cells UInt16) : (packCalls s mv).all simple = true := by
  have source := socSourceName_word s.bmsFlags
  have alarms : (alarmCalls s).all simple = true := by
    unfold alarmCalls
    split <;> rfl
  have cells : (cellMvCalls (min s.cellCount.toNat 4) mv).all simple = true := by
    simp [cellMvCalls,Cells.toList,apply_ite simple]
  have temps : (cellTempCalls (min s.cellCount.toNat 4) s.cellTempC).all simple = true := by
    simp [cellTempCalls,Cells.toList,apply_ite simple]
  unfold packCalls
  simp only [List.all_append,List.all_cons,List.all_nil,alarms,cells,temps,socOrNull_simple,simple_u32,simple_i32,simple_str,simple_decimal,source,
    Bool.and_self]

theorem linkCalls_simple (s : GateLinkStatusV1) (ahDrawn : Option UInt16) (synthetic : Bool) : (linkCalls s ahDrawn synthetic).all simple = true := by
  unfold linkCalls
  cases ahDrawn with
  | none => simp [apply_ite simple]
  | some v => simp [apply_ite simple]

theorem battery_document (ok : Bool) (s : GateLinkStatusV1) (mv : Cells UInt16) (ahDrawn : Option UInt16) (synthetic : Bool) :
    Document (batteryCalls ok s mv ahDrawn synthetic) := by
  refine .of_keys batteryDocKeys (batteryCalls_keys ok s mv ahDrawn synthetic) batteryDocKeys_good ?_
  unfold batteryCalls
  rw [List.all_append,List.all_cons,linkCalls_simple,Bool.and_true]
  cases ok with
  | true =>
      rw [if_pos rfl,packCalls_simple]
      rfl
  | false => rfl

end LoraRan.Bridge.Publish
