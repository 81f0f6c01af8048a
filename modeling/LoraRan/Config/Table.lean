import LoraRan.Protocol.NodeConfig

namespace LoraRan.Config
open Protocol

inductive Access where
  | readWrite | readOnly | phy
  deriving DecidableEq, Repr

abbrev Value := Int32

-- One row. The owner, the unit and the documentation text are read by no modelled function.
structure ParamDef where
  id : UInt16
  name : String
  access : Access
  type : UInt8
  min : Value
  max : Value
  default : Value
  deriving DecidableEq

abbrev Table := List ParamDef

def maxTableParams : Nat := 64
def phyGroupSize : Nat := 6

def nodeCommonParams : Table :=
  [⟨0x0100,"dedup_cache_depth",.readWrite,ptypeU8,1,32,8⟩,
    ⟨0x0101,"frag_reassembly_timeout_ms",.readWrite,ptypeU16,500,30000,5000⟩,
    ⟨0x0102,"cad_retries",.readWrite,ptypeU8,0,10,5⟩,
    ⟨0x0103,"backoff_max_ms",.readWrite,ptypeU16,100,5000,1500⟩,
    ⟨0x0110,"freq_hz",.phy,ptypeU32,902000000,928000000,917400000⟩,
    ⟨0x0111,"spreading_factor",.phy,ptypeU8,7,12,9⟩,
    ⟨0x0112,"bandwidth_khz",.phy,ptypeU16,125,500,125⟩,
    ⟨0x0113,"coding_rate_denominator",.phy,ptypeU8,5,8,5⟩,
    ⟨0x0114,"tx_power_dbm",.phy,ptypeI16,-9,-4,-4⟩,
    ⟨0x0115,"phy_trial_s",.phy,ptypeU16,30,900,120⟩]

def gateLinkParams : Table :=
  [⟨0x1000,"relay_pulse_ms",.readWrite,ptypeU16,100,2000,500⟩,
    ⟨0x1001,"relay_min_spacing_ms",.readWrite,ptypeU16,100,5000,500⟩,
    ⟨0x1002,"unlock_settle_ms",.readWrite,ptypeU16,100,5000,500⟩,
    ⟨0x1003,"post_wake_settle_ms",.readWrite,ptypeU16,0,5000,500⟩,
    ⟨0x1004,"command_confirm_timeout_s",.readWrite,ptypeU8,2,60,5⟩,
    ⟨0x1010,"input_poll_ms",.readWrite,ptypeU16,20,500,100⟩,
    ⟨0x1011,"input_debounce_samples",.readWrite,ptypeU8,1,10,2⟩,
    ⟨0x1012,"hold_confirm_ms",.readWrite,ptypeU16,500,10000,2000⟩,
    ⟨0x1020,"detect_sequence_window_ms",.readWrite,ptypeU32,5000,300000,60000⟩,
    ⟨0x1021,"detect_sequence_idle_ms",.readWrite,ptypeU16,1000,60000,10000⟩,
    ⟨0x1022,"held_open_alert_repeat_s",.readWrite,ptypeU16,0,3600,0⟩,
    ⟨0x1023,"cause_window_ms",.readWrite,ptypeU16,1000,60000,10000⟩,
    ⟨0x1030,"hex_timeout_ms",.readWrite,ptypeU16,200,1000,1000⟩,
    ⟨0x1031,"vedirect_stale_s",.readWrite,ptypeU8,2,60,5⟩,
    ⟨0x1040,"bms_poll_s",.readWrite,ptypeU16,60,3600,300⟩,
    ⟨0x1041,"charge_inhibit_confirm_s",.readWrite,ptypeU16,60,3600,300⟩,
    ⟨0x1042,"bms_window_max_ms",.readWrite,ptypeU16,2000,30000,5000⟩,
    ⟨0x1043,"charge_inhibit_temp_c",.readWrite,ptypeI16,-20,10,0⟩,
    ⟨0x1044,"charge_inhibit_band_ma",.readWrite,ptypeU16,0,1000,100⟩,
    ⟨0x1045,"charge_inhibit_rise_mv",.readWrite,ptypeU16,0,500,20⟩,
    ⟨0x1046,"bms_retry_s",.readWrite,ptypeU16,2,60,5⟩,
    ⟨0x1050,"display_timeout_s",.readWrite,ptypeU16,10,3600,60⟩,
    ⟨0x1051,"buzzer_enable",.readWrite,ptypeBool,0,1,0⟩,
    ⟨0x1052,"inject_spacing_ms",.readWrite,ptypeU16,100,60000,1000⟩,
    ⟨0x1060,"watchdog_timeout_s",.readWrite,ptypeU8,5,60,10⟩]

-- Values a row takes inside its range, where it does not take them all.
def paramPoints : List (String × List Value) := [("bandwidth_khz",[125,250,500])]

def valueAllowed (d : ParamDef) (v : Value) : Bool :=
  match paramPoints.find? (fun points => points.1 == d.name) with
  | none => true
  | some points => points.2.contains v

def ptypeWidth (t : UInt8) : Nat := paramValueLen t

def Table.row (t : Table) (id : UInt16) : Option ParamDef := t.find? fun d => d.id == id

end LoraRan.Config
